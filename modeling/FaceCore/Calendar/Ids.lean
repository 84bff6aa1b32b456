import FaceCore.Lib.Runs
import FaceCore.Calendar.Requests

/-!
# The ids of the calendar

`GetFreeEventId` and `GetFreeInviteId` take an id from a queue of freed ones, or raise the maximum;
the destructors of events and invites give ids back. The invite of a pre-invite has its id from the
packet, and its destructor gives that one back too.

* `Allotted`: both pools know which ids are in use; the requests keep it;
* `FreeIdsUnused`, `DrawsFresh`: the queues hold each id once and none in use, and a request draws
  only positive ids that nothing stored carries;
* `Harmless`: a request does not run out of ids, and a pre-invite names an id that was lost;
* `calendar_ids_unique`: both hold along every run of harmless requests from a load.
-/

namespace FaceCore.Calendar

open CalendarMgr Runs

variable {c c' : CalendarMgr} {e : CalendarEvent} {guid eventId inviteId : ℕ} {r : ℕ × Request}

/-- The ids of the stored events. -/
def usedEventIds (c : CalendarMgr) : List ℕ := c.events.map CalendarEvent.eventId

/-- The ids of the stored invites. -/
def usedInviteIds (c : CalendarMgr) : List ℕ := c.invites.map CalendarInvite.inviteId

/-- The pools know which ids are in use. -/
structure Allotted (c : CalendarMgr) : Prop where
  events : IdPool.Valid idBound c.eventIds (usedEventIds c)
  invites : IdPool.Valid idBound c.inviteIds (usedInviteIds c)

/-- The queues of freed ids hold each id once, and none that is in use. -/
structure FreeIdsUnused (c : CalendarMgr) : Prop where
  eventIds : c.eventIds.freeIds.Nodup
  events : ∀ e ∈ c.events, e.eventId ∉ c.eventIds.freeIds
  inviteIds : c.inviteIds.freeIds.Nodup
  invites : ∀ i ∈ c.invites, i.inviteId ∉ c.inviteIds.freeIds

theorem Allotted.freeIdsUnused (h : Allotted c) : FreeIdsUnused c where
  eventIds := h.events.free_nodup
  events := fun _ he hfree => h.events.disjoint _ hfree (List.mem_map_of_mem he)
  inviteIds := h.invites.free_nodup
  invites := fun _ hi hfree => h.invites.disjoint _ hfree (List.mem_map_of_mem hi)

/-- `GetFreeEventId` returns a positive id that no event carries. -/
def FreshEventId (c : CalendarMgr) : Prop :=
  0 < c.getFreeEventId.1 ∧ ∀ e ∈ c.events, e.eventId ≠ c.getFreeEventId.1

/-- `GetFreeInviteId` returns a positive id that no invite carries. -/
def FreshInviteId (c : CalendarMgr) : Prop :=
  0 < c.getFreeInviteId.1 ∧ ∀ i ∈ c.invites, i.inviteId ≠ c.getFreeInviteId.1

section
variable {n : ℕ}

theorem Allotted.freshEventId (h : Allotted c) (hfit : c.eventIds.Suffices idBound (n + 1)) :
    FreshEventId c := by
  obtain ⟨hpos, hnot⟩ := h.events.get_fresh hfit.one
  exact ⟨hpos, fun e he heq => hnot (List.mem_map.2 ⟨e, he, heq⟩)⟩

theorem Allotted.freshInviteId (h : Allotted c) (hfit : c.inviteIds.Suffices idBound (n + 1)) :
    FreshInviteId c := by
  obtain ⟨hpos, hnot⟩ := h.invites.get_fresh hfit.one
  exact ⟨hpos, fun i hi heq => hnot (List.mem_map.2 ⟨i, hi, heq⟩)⟩

/-! ### Drawing ids -/

theorem addInvite_inviteIds (c : CalendarMgr) (e : CalendarEvent) (i : CalendarInvite) :
    (c.addInvite e i).inviteIds = c.inviteIds := by
  unfold addInvite
  split_ifs <;> rfl

theorem allotted_drawInvite {mk : ℕ → CalendarInvite} (h : Allotted c)
    (hfit : c.inviteIds.Suffices idBound (n + 1)) (hmk : ∀ id, (mk id).inviteId = id) :
    Allotted (drawInvite e c mk) ∧ (drawInvite e c mk).inviteIds.Suffices idBound n := by
  have hget := h.invites.get hfit.one
  constructor
  · unfold drawInvite addInvite
    split_ifs
    · exact ⟨h.events, hget.sublist (List.sublist_cons_self _ _)⟩
    · refine ⟨h.events, hget.perm ?_⟩
      show ((c.invites ++ [mk c.getFreeInviteId.1]).map CalendarInvite.inviteId).Perm _
      rw [List.map_append, List.map_singleton, hmk]
      exact List.perm_append_singleton _ _
  · unfold drawInvite
    rw [addInvite_inviteIds]
    exact hfit.get

theorem allotted_foldl {α : Type*} {f : CalendarMgr → α → CalendarMgr}
    {mk : α → ℕ → CalendarInvite} (hf : ∀ c x, f c x = drawInvite e c (mk x))
    (hmk : ∀ x id, (mk x id).inviteId = id) {l : List α} (h : Allotted c)
    (hfit : c.inviteIds.Suffices idBound l.length) :
    Allotted (l.foldl f c) ∧ EachStep f (fun c _ => FreshInviteId c) c l := by
  induction l generalizing c with
  | nil => exact ⟨h, EachStep.nil c⟩
  | cons x l ih =>
    obtain ⟨hnext, hrest⟩ := allotted_drawInvite (e := e) h hfit (hmk x)
    rw [← hf] at hnext hrest
    obtain ⟨hlast, hdraws⟩ := ih hnext hrest
    exact ⟨hlast, eachStep_cons.2 ⟨h.freshInviteId hfit, hdraws⟩⟩

theorem allotted_getFreeEventId (h : Allotted c) (hfit : c.eventIds.Suffices idBound (n + 1)) :
    Allotted c.getFreeEventId.2 :=
  ⟨(h.events.get hfit.one).sublist (List.sublist_cons_self _ _), h.invites⟩

theorem allotted_addEvent (h : Allotted c) (hfit : c.eventIds.Suffices idBound (n + 1))
    (he : e.eventId = c.getFreeEventId.1) : Allotted (c.getFreeEventId.2.addEvent e) := by
  refine ⟨(h.events.get hfit.one).perm ?_, h.invites⟩
  show ((c.events ++ [e]).map CalendarEvent.eventId).Perm _
  rw [List.map_append, List.map_singleton, he]
  exact List.perm_append_singleton _ _

end

/-- Adding invites does not touch the events, so the event may as well be added before them. -/
theorem addEvent_foldl {α : Type*} {f : CalendarMgr → α → CalendarMgr} (e' : CalendarEvent)
    (hf : ∀ c x, (f c x).addEvent e' = f (c.addEvent e') x) (l : List α) (c : CalendarMgr) :
    (l.foldl f c).addEvent e' = l.foldl f (c.addEvent e') := by
  induction l generalizing c with
  | nil => rfl
  | cons x l ih => rw [List.foldl_cons, List.foldl_cons, ih, hf]

theorem addEvent_inviteTo (guid : ℕ) (e e' : CalendarEvent) (c : CalendarMgr) (x : InviteFields) :
    (inviteTo guid e c x).addEvent e' = inviteTo guid e (c.addEvent e') x := by
  rw [inviteTo_eq, inviteTo_eq]
  unfold drawInvite addInvite
  split_ifs <;> rfl

/-! ### Giving ids back -/

/-- An event gives back its id and those of its invites. -/
theorem allotted_removeEvent (h : Allotted c) (he : c.getEvent eventId = some e) :
    Allotted ⟨c.events.erase e, c.invites.filter fun i => i.eventId ≠ eventId,
      c.eventIds.release idBound e.eventId,
      ((c.getEventInvites eventId).map CalendarInvite.inviteId).foldl (IdPool.release idBound)
        c.inviteIds⟩ := by
  constructor
  · refine IdPool.Valid.release (h.events.perm ?_)
    exact ((List.perm_cons_erase (getEvent_some he).1).map CalendarEvent.eventId).symm
  · refine IdPool.Valid.foldl_release (h.invites.perm ?_)
    unfold usedInviteIds getEventInvites
    dsimp only
    rw [← List.map_append]
    refine List.Perm.map _ ?_
    have hperm := List.filter_append_perm (fun i => decide (i.eventId = eventId)) c.invites
    simpa using hperm

theorem allotted_removeInvite (h : Allotted c) (inviteId eventId : ℕ) :
    Allotted (c.removeInvite inviteId eventId) := by
  rcases removeInvite_cases c inviteId eventId with heq | ⟨i, hi, -, -, heq⟩
  · rw [heq]
    exact h
  · rw [heq]
    refine ⟨h.events, IdPool.Valid.release (h.invites.perm ?_)⟩
    exact ((List.perm_cons_erase hi).map CalendarInvite.inviteId).symm

/-- The local invite of a pre-invite gives back an id that was lost. -/
theorem allotted_freeInviteId (h : Allotted c)
    (hlost : IdPool.Lost c.inviteIds (usedInviteIds c) inviteId) :
    Allotted (c.freeInviteId inviteId) :=
  ⟨h.events, ((IdPool.lost_iff h.invites).1 hlost).release⟩

theorem allotted_setEvent (h : Allotted c) {e e' : CalendarEvent} (he : e.eventId = e'.eventId) :
    Allotted { c with events := c.events.replace e e' } := by
  refine ⟨?_, h.invites⟩
  show IdPool.Valid idBound c.eventIds ((c.events.replace e e').map CalendarEvent.eventId)
  rw [Replacing.map_replace he]
  exact h.events

theorem allotted_setInvite (h : Allotted c) {i i' : CalendarInvite}
    (hi : i.inviteId = i'.inviteId) : Allotted (c.setInvite i i') := by
  refine ⟨h.events, ?_⟩
  show IdPool.Valid idBound c.inviteIds ((c.invites.replace i i').map CalendarInvite.inviteId)
  rw [Replacing.map_replace hi]
  exact h.invites

/-! ### Requests -/

/-- The request is refused. -/
def Refused (c : CalendarMgr) (r : ℕ × Request) : Prop := ∃ x, handle c r.1 r.2 = .error x

/-- How many ids for events a request draws. -/
def eventDraws : Request → ℕ
  | .addEvent _ _ _ _ => 1
  | .copyEvent _ _ _ => 1
  | _ => 0

/-- How many ids for invites a request draws. -/
def inviteDraws (c : CalendarMgr) : Request → ℕ
  | .addEvent _ fields inviteCount invites =>
    if fields.flags &&& calendarFlagWithoutInvites ≠ 0 then 0 else (invites.take inviteCount).length
  | .copyEvent eventId _ _ => (c.getEventInvites eventId).length
  | .eventInvite _ _ false _ _ => 1
  | .eventSignup _ _ _ _ => 1
  | _ => 0

/-- The ids that a request draws are positive, and nothing stored carries them: the one for a new
event, and those for invites, in each of the states in which they are drawn. -/
def DrawsFresh (c : CalendarMgr) : ℕ × Request → Prop
  | (guid, .addEvent guildId fields inviteCount invites) =>
    let e := newEvent c.getFreeEventId.1 guid guildId fields
    FreshEventId c ∧ (¬ e.isGuildAnnouncement →
      EachStep (inviteTo guid e) (fun c _ => FreshInviteId c) c.getFreeEventId.2
        (invites.take inviteCount))
  | (_, .copyEvent eventId _ time) =>
    ∀ e, c.getEvent eventId = some e →
      let e := copyOf e c.getFreeEventId.1 time
      FreshEventId c ∧ EachStep (copyTo e) (fun c _ => FreshInviteId c)
        (c.getFreeEventId.2.addEvent e) (c.getEventInvites eventId)
  | (guid, .eventInvite eventId inviteId false isGuildEvent found) =>
    ¬ Refused c (guid, .eventInvite eventId inviteId false isGuildEvent found) → FreshInviteId c
  | (guid, .eventSignup guildId eventId tentative now) =>
    ¬ Refused c (guid, .eventSignup guildId eventId tentative now) → FreshInviteId c
  | _ => True

/-- A request that is refused, or for which there are ids enough; and a pre-invite names an id that
was lost: positive, not above the maximum, neither in use nor in the queue. -/
structure Accountable (c : CalendarMgr) (r : ℕ × Request) : Prop where
  eventIds : c.eventIds.Suffices idBound (eventDraws r.2)
  inviteIds : c.inviteIds.Suffices idBound (inviteDraws c r.2)
  preInvite : ∀ eventId inviteId isGuildEvent found,
    r.2 = .eventInvite eventId inviteId true isGuildEvent found →
      IdPool.Lost c.inviteIds (usedInviteIds c) inviteId

/-- A request that is refused or accounts for its ids. -/
def Harmless (c : CalendarMgr) (r : ℕ × Request) : Prop := Refused c r ∨ Accountable c r

theorem allotted_addEvent_request (h : Allotted c) {guildId : Option ℕ} {fields : EventFields}
    {inviteCount : ℕ} {invites : List InviteFields}
    (hr : Accountable c (guid, .addEvent guildId fields inviteCount invites)) :
    Allotted (handleCalendarAddEvent c guid guildId fields inviteCount invites) ∧
      DrawsFresh c (guid, .addEvent guildId fields inviteCount invites) := by
  have hinvites := hr.inviteIds
  have hdrawn := allotted_getFreeEventId h hr.eventIds
  have hfresh := h.freshEventId hr.eventIds
  have hid := newEvent_eventId c.getFreeEventId.1 guid guildId fields
  have hflags := isGuildAnnouncement_newEvent c.getFreeEventId.1 guid guildId fields
  simp only [inviteDraws] at hinvites
  unfold handleCalendarAddEvent DrawsFresh
  dsimp only
  generalize newEvent c.getFreeEventId.1 guid guildId fields = e at hid hflags
  have hadded := allotted_addEvent h hr.eventIds hid
  by_cases hann : e.isGuildAnnouncement = true
  · rw [if_pos hann]
    refine ⟨?_, hfresh, fun hnot => absurd hann hnot⟩
    unfold addInvite
    rw [if_pos hann]
    exact hadded
  · rw [if_neg hann]
    rw [if_neg (by simpa [hflags] using hann)] at hinvites
    have hloop := allotted_foldl (inviteTo_eq guid e) (fun _ _ => rfl) hdrawn hinvites
    refine ⟨?_, hfresh, fun _ => hloop.2⟩
    split_ifs
    · exact hloop.1
    · rw [addEvent_foldl e (addEvent_inviteTo guid e e)]
      exact (allotted_foldl (inviteTo_eq guid e) (fun _ _ => rfl) hadded hinvites).1

theorem allotted_copyEvent_request (h : Allotted c) {time : ℕ}
    (hr : Accountable c (guid, .copyEvent eventId inviteId time)) (e : CalendarEvent) :
    let e := copyOf e c.getFreeEventId.1 time
    Allotted ((c.getEventInvites eventId).foldl (copyTo e) (c.getFreeEventId.2.addEvent e)) ∧
      FreshEventId c ∧ EachStep (copyTo e) (fun c _ => FreshInviteId c)
        (c.getFreeEventId.2.addEvent e) (c.getEventInvites eventId) := by
  intro e
  have hadded : Allotted (c.getFreeEventId.2.addEvent e) := allotted_addEvent h hr.eventIds rfl
  obtain ⟨hlast, hdraws⟩ := allotted_foldl (copyTo_eq e) (fun _ _ => rfl) hadded hr.inviteIds
  exact ⟨hlast, h.freshEventId hr.eventIds, hdraws⟩

theorem drawsFresh_of_refused (h : Refused c r) : DrawsFresh c r := by
  obtain ⟨guid, r⟩ := r
  cases r with
  | addEvent guildId fields inviteCount invites =>
    obtain ⟨x, hx⟩ := h
    cases hx
  | copyEvent eventId inviteId time =>
    obtain ⟨x, hx⟩ := h
    intro e he
    simp [handle, handleCalendarCopyEvent, he] at hx
  | eventInvite eventId inviteId isPreInvite isGuildEvent found =>
    cases isPreInvite with
    | false => exact fun hnot => absurd h hnot
    | true => trivial
  | eventSignup guildId eventId tentative now => exact fun hnot => absurd h hnot
  | _ => trivial

/-- A harmless request keeps the pools, and draws ids that nothing carries. -/
theorem allotted_step (h : Allotted c) (hr : Harmless c r) :
    Allotted (step c r) ∧ DrawsFresh c r := by
  by_cases hrefused : Refused c r
  · have hdraws := drawsFresh_of_refused hrefused
    obtain ⟨x, hx⟩ := hrefused
    refine ⟨?_, hdraws⟩
    unfold step
    rw [hx]
    exact h
  · replace hr := hr.resolve_left hrefused
    obtain ⟨guid, r⟩ := r
    have hhandled := (step_cases c guid r).resolve_left fun hx => hrefused hx.1
    generalize step c _ = c' at hhandled
    cases hhandled with
    | addEvent guildId fields inviteCount invites => exact allotted_addEvent_request h hr
    | updateEvent eventId inviteId fields e he => exact ⟨allotted_setEvent h rfl, trivial⟩
    | removeEvent eventId e he => exact ⟨allotted_removeEvent h he, trivial⟩
    | copyEvent eventId inviteId time e he =>
      refine ⟨(allotted_copyEvent_request h hr e).1, fun e' he' => ?_⟩
      exact (allotted_copyEvent_request h hr e').2
    | eventInvite eventId inviteId isGuildEvent found e he hfound hguild =>
      exact ⟨(allotted_drawInvite h hr.inviteIds fun _ => rfl).1,
        fun _ => h.freshInviteId hr.inviteIds⟩
    | preInvite eventId inviteId isGuildEvent found hfound hguild =>
      -- an invite that was never added frees its id
      have hlost := hr.preInvite eventId inviteId isGuildEvent found rfl
      exact ⟨allotted_freeInviteId h hlost, trivial⟩
    | eventSignup guildId eventId tentative now status e he hguild =>
      exact ⟨(allotted_drawInvite h hr.inviteIds fun _ => rfl).1,
        fun _ => h.freshInviteId hr.inviteIds⟩
    | eventRsvp eventId inviteId status now e i he hi hopen =>
      exact ⟨allotted_setInvite h rfl, trivial⟩
    | eventRemoveInvite invitee inviteId ownerInviteId eventId e he hcreator =>
      exact ⟨allotted_removeInvite h inviteId eventId, trivial⟩
    | eventStatus invitee eventId inviteId ownerInviteId status e i he hi =>
      exact ⟨allotted_setInvite h rfl, trivial⟩
    | eventModeratorStatus invitee eventId inviteId ownerInviteId rank e i he hi =>
      exact ⟨allotted_setInvite h rfl, trivial⟩

/-! ### Runs -/

/-- Rows of the tables: their ids are distinct and positive. -/
def DistinctIds (ids : List ℕ) : Prop := ids.Nodup ∧ ∀ id ∈ ids, 0 < id ∧ id < idBound

theorem allotted_load {events : List CalendarEvent} {invites : List CalendarInvite}
    (hevents : DistinctIds (events.map CalendarEvent.eventId))
    (hinvites : DistinctIds (invites.map CalendarInvite.inviteId)) :
    Allotted (load events invites) where
  events := IdPool.valid_load (by decide) hevents.1 hevents.2
  invites := IdPool.valid_load (by decide) hinvites.1 hinvites.2

/-- **Main result.** After a load of rows with distinct positive ids, along every run of harmless
requests: the queues of freed ids hold each id once and none that is in use, and every id that a
request draws is positive and carried by nothing stored. -/
theorem calendar_ids_unique {events : List CalendarEvent} {invites : List CalendarInvite}
    (hevents : DistinctIds (events.map CalendarEvent.eventId))
    (hinvites : DistinctIds (invites.map CalendarInvite.inviteId)) {rs : List (ℕ × Request)}
    (hrs : EachStep step Harmless (load events invites) rs) :
    Along step FreeIdsUnused (load events invites) rs ∧
      EachStep step DrawsFresh (load events invites) rs := by
  have h0 := allotted_load hevents hinvites
  have hstep := fun c r (h : Allotted c) (hr : Harmless c r) => (allotted_step h hr).1
  constructor
  · intro pre hpre
    exact (along_of_inv hrs h0 hstep pre hpre).freeIdsUnused
  · exact hrs.mono_inv h0 hstep fun c r h hr => (allotted_step h hr).2

/-- A guild announcement, which takes no invites and loses the ids drawn for them. -/
def announcement : CalendarEvent :=
  ⟨⟨0, -1, 0, calendarFlagWithoutInvites, 0, "Notice", ""⟩, 1, 1, 7⟩

/-- An invitee online, of the player's team and not of his guild. -/
def stranger : InviteeLookup := ⟨2, 67, 0, 67, 7, false, false⟩

/-- An invite to an announcement is not kept; a pre-invite gives its id back, and an event with an
invite is added. -/
def preInviteRun : List (ℕ × Request) :=
  [(1, .eventInvite 1 0 false false stranger), (1, .eventInvite 0 1 true false stranger),
    (1, .addEvent none ⟨0, -1, 0, 0, 0, "Raid", ""⟩ 1 [⟨1, 1, 2⟩])]

theorem calendar_ids_unique_run :
    EachStep step Harmless (load [announcement] []) preInviteRun ∧
      Along step FreeIdsUnused (load [announcement] []) preInviteRun ∧
      EachStep step DrawsFresh (load [announcement] []) preInviteRun := by
  have hrun : EachStep step Harmless (load [announcement] []) preInviteRun := by
    unfold preInviteRun
    refine eachStep_cons.2 ⟨.inr ⟨by decide, by decide, ?_⟩, eachStep_cons.2 ⟨.inr ⟨by decide,
      by decide, ?_⟩, eachStep_cons.2 ⟨.inr ⟨by decide, by decide, ?_⟩, EachStep.nil _⟩⟩⟩
    · intro eventId inviteId isGuildEvent found h
      cases h
    · intro eventId inviteId isGuildEvent found h
      cases h
      exact ⟨by decide, by decide, by decide, by decide⟩
    · intro eventId inviteId isGuildEvent found h
      cases h
  exact ⟨hrun, calendar_ids_unique ⟨by decide, by decide⟩ ⟨by decide, by decide⟩ hrun⟩

/-- An event of the player 1, without a guild. -/
def raid : CalendarEvent := ⟨⟨0, -1, 0, 0, 0, "Raid", ""⟩, 1, 1, 0⟩

/-- The invites of the players 1 and 3 to it. -/
def raidInvites : List CalendarInvite :=
  [⟨1, 1, 1, 1, defaultStatusTime, calendarStatusSignedUp, 2, ""⟩,
    ⟨2, 1, 3, 1, defaultStatusTime, calendarStatusInvited, calendarRankPlayer, ""⟩]

/-- A pre-invite with the id of the first invite, and then the player 4 signs up. -/
def usedIdRun : List (ℕ × Request) :=
  [(1, .eventInvite 0 1 true false stranger), (4, .eventSignup 0 1 false 0)]

/-- The player who signs up draws the id of the first invite. -/
theorem preInvite_frees_used_id :
    ¬ (DistinctIds ([raid].map CalendarEvent.eventId) →
      DistinctIds (raidInvites.map CalendarInvite.inviteId) →
        Along step FreeIdsUnused (load [raid] raidInvites) usedIdRun ∧
          EachStep step DrawsFresh (load [raid] raidInvites) usedIdRun) := by
  intro h
  obtain ⟨-, hdraws⟩ := h ⟨by decide, by decide⟩ ⟨by decide, by decide⟩
  have hsignup := (eachStep_cons.1 (eachStep_cons.1 hdraws).2).1
  have haccepted : ¬ Refused
      (step (load [raid] raidInvites) (1, .eventInvite 0 1 true false stranger))
      (4, .eventSignup 0 1 false 0) := by
    rintro ⟨x, hx⟩
    cases hx
  obtain ⟨-, hfresh⟩ := hsignup haccepted
  exact absurd (hfresh _ List.mem_cons_self) (by decide)

end FaceCore.Calendar
