import FaceCore.Calendar.Calendar
import FaceCore.Lib.Replacing

/-!
# What the requests of the calendar change

The requests about an event that there is, `HandleCalendarUpdateEvent`, `RemoveEvent`,
`EventRemoveInvite`, `EventRsvp`, `EventStatus` and `EventModeratorStatus`, ask whether the event is
there, and not who sends them.

* `getEvent_some`, `getInvite_some`, `find_removeInvite`: what the searches find;
* `removeEvent_eq`, `removeInvite_cases`: the two removals;
* `Handled`, `step_cases`: what the requests do that are not refused;
* `Confined`: all but the named events and invites stay as they are;
* `calendar_requests_confined`: what each request leaves as it is.
-/

namespace FaceCore.Calendar

open CalendarMgr

variable {c c' : CalendarMgr} {e : CalendarEvent} {i i' : CalendarInvite} {eventId inviteId : ℕ}

/-! ### The searches -/

theorem getEvent_some (h : c.getEvent eventId = some e) : e ∈ c.events ∧ e.eventId = eventId :=
  ⟨List.mem_of_find?_eq_some h, by simpa using List.find?_some h⟩

theorem getInvite_some (h : c.getInvite inviteId = some i) :
    i ∈ c.invites ∧ i.inviteId = inviteId := by
  have hmem := List.argmin_mem h
  rw [List.mem_filter, decide_eq_true_eq] at hmem
  exact hmem

theorem mem_getEventInvites :
    i ∈ c.getEventInvites eventId ↔ i ∈ c.invites ∧ i.eventId = eventId := by
  unfold getEventInvites
  rw [List.mem_filter, decide_eq_true_eq]

theorem find_removeInvite
    (h : ((c.getEventInvites eventId).find? fun i => i.inviteId = inviteId) = some i) :
    i ∈ c.invites ∧ i.eventId = eventId ∧ i.inviteId = inviteId := by
  obtain ⟨hmem, hevent⟩ := mem_getEventInvites.1 (List.mem_of_find?_eq_some h)
  exact ⟨hmem, hevent, by simpa using List.find?_some h⟩

/-! ### The removals -/

theorem foldl_deleteInvite (l : List CalendarInvite) (c : CalendarMgr) :
    l.foldl deleteInvite c =
      { c with
        inviteIds :=
          (l.map CalendarInvite.inviteId).foldl (IdPool.release idBound) c.inviteIds } := by
  induction l generalizing c with
  | nil => rfl
  | cons i l ih => exact ih (c.deleteInvite i)

theorem removeEvent_eq (h : c.getEvent eventId = some e) :
    c.removeEvent eventId = .ok
      ⟨c.events.erase e, c.invites.filter fun i => i.eventId ≠ eventId,
        c.eventIds.release idBound e.eventId,
        ((c.getEventInvites eventId).map CalendarInvite.inviteId).foldl (IdPool.release idBound)
          c.inviteIds⟩ := by
  unfold removeEvent
  rw [h]
  simp only [foldl_deleteInvite]
  rfl

theorem removeInvite_cases (c : CalendarMgr) (inviteId eventId : ℕ) :
    c.removeInvite inviteId eventId = c ∨
      ∃ i ∈ c.invites, i.eventId = eventId ∧ i.inviteId = inviteId ∧
        c.removeInvite inviteId eventId =
          { c with
            invites := c.invites.erase i
            inviteIds := c.inviteIds.release idBound i.inviteId } := by
  unfold removeInvite
  cases c.getEvent eventId with
  | none => exact .inl rfl
  | some e =>
    dsimp only
    cases hi : (c.getEventInvites eventId).find? fun i => i.inviteId = inviteId with
    | none => exact .inl rfl
    | some i =>
      obtain ⟨hmem, hevent, hid⟩ := find_removeInvite hi
      exact .inr ⟨i, hmem, hevent, hid, rfl⟩

/-! ### Accepted requests -/

theorem newEvent_eventId (eventId guid : ℕ) (guildId : Option ℕ) (fields : EventFields) :
    (newEvent eventId guid guildId fields).eventId = eventId := by
  unfold newEvent
  dsimp only
  split_ifs <;> rfl

theorem isGuildAnnouncement_newEvent (eventId guid : ℕ) (guildId : Option ℕ)
    (fields : EventFields) : (newEvent eventId guid guildId fields).isGuildAnnouncement =
      decide (fields.flags &&& calendarFlagWithoutInvites ≠ 0) := by
  unfold newEvent
  dsimp only
  split_ifs <;> rfl

/-- Draw an id for an invite and add it: the loop bodies, and inviting and signing up. -/
def drawInvite (e : CalendarEvent) (c : CalendarMgr) (mk : ℕ → CalendarInvite) : CalendarMgr :=
  c.getFreeInviteId.2.addInvite e (mk c.getFreeInviteId.1)

theorem inviteTo_eq (guid : ℕ) (e : CalendarEvent) (c : CalendarMgr) (x : InviteFields) :
    inviteTo guid e c x = drawInvite e c fun id =>
      ⟨id, e.eventId, x.invitee, guid, defaultStatusTime, x.status, x.rank, ""⟩ := rfl

theorem copyTo_eq (e : CalendarEvent) (c : CalendarMgr) (i : CalendarInvite) :
    copyTo e c i = drawInvite e c fun id => { i with inviteId := id, eventId := e.eventId } := rfl

/-- The copy of an event. -/
def copyOf (e : CalendarEvent) (newId time : ℕ) : CalendarEvent :=
  { e with eventId := newId, eventTime := time }

/-- An invitee who may be invited by the player. -/
def Invitable (found : InviteeLookup) : Prop :=
  found.inviteeGuid ≠ 0 ∧ ¬ (found.team ≠ found.inviteeTeam ∧ !found.allowTwoSideInteraction) ∧
    ¬ found.ignored = true

/-- What the requests that are not refused do. -/
inductive Handled (c : CalendarMgr) (guid : ℕ) : Request → CalendarMgr → Prop
  | addEvent (guildId : Option ℕ) (fields : EventFields) (inviteCount : ℕ)
    (invites : List InviteFields) :
    Handled c guid (.addEvent guildId fields inviteCount invites)
      (handleCalendarAddEvent c guid guildId fields inviteCount invites)
  | updateEvent (eventId inviteId : ℕ) (fields : EventFields) (e : CalendarEvent)
    (he : c.getEvent eventId = some e) :
    Handled c guid (.updateEvent eventId inviteId fields)
      { c with events := c.events.replace e { e with toEventFields := fields } }
  | removeEvent (eventId : ℕ) (e : CalendarEvent) (he : c.getEvent eventId = some e) :
    Handled c guid (.removeEvent eventId)
      ⟨c.events.erase e, c.invites.filter fun i => i.eventId ≠ eventId,
        c.eventIds.release idBound e.eventId,
        ((c.getEventInvites eventId).map CalendarInvite.inviteId).foldl (IdPool.release idBound)
          c.inviteIds⟩
  | copyEvent (eventId inviteId time : ℕ) (e : CalendarEvent) (he : c.getEvent eventId = some e) :
    Handled c guid (.copyEvent eventId inviteId time)
      ((c.getEventInvites eventId).foldl (copyTo (copyOf e c.getFreeEventId.1 time))
        (c.getFreeEventId.2.addEvent (copyOf e c.getFreeEventId.1 time)))
  | eventInvite (eventId inviteId : ℕ) (isGuildEvent : Bool) (found : InviteeLookup)
    (e : CalendarEvent) (he : c.getEvent eventId = some e) (hfound : Invitable found)
    (hguild : ¬ (e.isGuildEvent = true ∧ e.guildId = found.inviteeGuildId)) :
    Handled c guid (.eventInvite eventId inviteId false isGuildEvent found)
      (drawInvite e c fun id => ⟨id, eventId, found.inviteeGuid, guid, defaultStatusTime,
        calendarStatusInvited, calendarRankPlayer, ""⟩)
  | preInvite (eventId inviteId : ℕ) (isGuildEvent : Bool) (found : InviteeLookup)
    (hfound : Invitable found)
    (hguild : ¬ (isGuildEvent = true ∧ found.inviteeGuildId = found.guildId)) :
    Handled c guid (.eventInvite eventId inviteId true isGuildEvent found)
      (c.freeInviteId inviteId)
  | eventSignup (guildId eventId : ℕ) (tentative : Bool) (now status : ℕ) (e : CalendarEvent)
    (he : c.getEvent eventId = some e)
    (hguild : ¬ (e.isGuildEvent = true ∧ e.guildId ≠ guildId)) :
    Handled c guid (.eventSignup guildId eventId tentative now)
      (drawInvite e c fun id => ⟨id, eventId, guid, guid, now, status, calendarRankPlayer, ""⟩)
  | eventRsvp (eventId inviteId status now : ℕ) (e : CalendarEvent) (i : CalendarInvite)
    (he : c.getEvent eventId = some e) (hi : c.getInvite inviteId = some i)
    (hopen : ¬ (status ≠ calendarStatusRemoved ∧ e.flags &&& calendarFlagInvitesLocked ≠ 0)) :
    Handled c guid (.eventRsvp eventId inviteId status now)
      (c.setInvite i { i with status := status, statusTime := now })
  | eventRemoveInvite (invitee inviteId ownerInviteId eventId : ℕ) (e : CalendarEvent)
    (he : c.getEvent eventId = some e) (hcreator : e.creatorGUID ≠ invitee) :
    Handled c guid (.eventRemoveInvite invitee inviteId ownerInviteId eventId)
      (c.removeInvite inviteId eventId)
  | eventStatus (invitee eventId inviteId ownerInviteId status : ℕ) (e : CalendarEvent)
    (i : CalendarInvite) (he : c.getEvent eventId = some e) (hi : c.getInvite inviteId = some i) :
    Handled c guid (.eventStatus invitee eventId inviteId ownerInviteId status)
      (c.setInvite i { i with status := status })
  | eventModeratorStatus (invitee eventId inviteId ownerInviteId rank : ℕ) (e : CalendarEvent)
    (i : CalendarInvite) (he : c.getEvent eventId = some e) (hi : c.getInvite inviteId = some i) :
    Handled c guid (.eventModeratorStatus invitee eventId inviteId ownerInviteId rank)
      (c.setInvite i { i with rank := rank })

variable {guid : ℕ} {r : Request}

theorem of_getEvent {f : CalendarEvent → Except CalendarError CalendarMgr} {x : CalendarError}
    (h : (match c.getEvent eventId with
      | none => Except.error x
      | some e => f e) = .ok c') : ∃ e, c.getEvent eventId = some e ∧ f e = .ok c' := by
  cases he : c.getEvent eventId with
  | none =>
    rw [he] at h
    cases h
  | some e =>
    rw [he] at h
    exact ⟨e, rfl, h⟩

theorem of_getInvite {f : CalendarInvite → Except CalendarError CalendarMgr} {x : CalendarError}
    (h : (match c.getInvite inviteId with
      | none => Except.error x
      | some i => f i) = .ok c') : ∃ i, c.getInvite inviteId = some i ∧ f i = .ok c' := by
  cases hi : c.getInvite inviteId with
  | none =>
    rw [hi] at h
    cases h
  | some i =>
    rw [hi] at h
    exact ⟨i, rfl, h⟩

theorem of_check {p : Prop} [Decidable p] {x : CalendarError} {y : Except CalendarError CalendarMgr}
    (h : (if p then .error x else y) = .ok c') : ¬ p ∧ y = .ok c' := by
  by_cases hp : p
  · rw [if_pos hp] at h
    cases h
  · rw [if_neg hp] at h
    exact ⟨hp, h⟩

/-- Inviting, if it is not refused: an invite is added, or the local invite of a pre-invite is
destroyed. -/
theorem handled_eventInvite {isPreInvite isGuildEvent : Bool} {found : InviteeLookup}
    (h : handleCalendarEventInvite c guid eventId inviteId isPreInvite isGuildEvent found =
      .ok c') :
    Handled c guid (.eventInvite eventId inviteId isPreInvite isGuildEvent found) c' := by
  obtain ⟨hfound, h⟩ := of_check h
  obtain ⟨hallied, h⟩ := of_check h
  obtain ⟨hignored, h⟩ := of_check h
  have hmay : Invitable found := ⟨hfound, hallied, hignored⟩
  cases isPreInvite with
  | false =>
    obtain ⟨e, he, h⟩ := of_getEvent h
    obtain ⟨hguild, h⟩ := of_check h
    obtain rfl := Except.ok.inj h
    exact .eventInvite eventId inviteId isGuildEvent found e he hmay hguild
  | true =>
    obtain ⟨hguild, h⟩ := of_check h
    obtain rfl := Except.ok.inj h
    exact .preInvite eventId inviteId isGuildEvent found hmay hguild

theorem handled (h : handle c guid r = .ok c') : Handled c guid r c' := by
  cases r with
  | addEvent guildId fields inviteCount invites =>
    obtain rfl := Except.ok.inj h
    exact .addEvent guildId fields inviteCount invites
  | updateEvent eventId inviteId fields =>
    obtain ⟨e, he, h⟩ := of_getEvent h
    obtain rfl := Except.ok.inj h
    exact .updateEvent eventId inviteId fields e he
  | removeEvent eventId =>
    obtain ⟨e, he, -⟩ := of_getEvent h
    rw [handle, handleCalendarRemoveEvent, removeEvent_eq he] at h
    obtain rfl := Except.ok.inj h
    exact .removeEvent eventId e he
  | copyEvent eventId inviteId time =>
    obtain ⟨e, he, h⟩ := of_getEvent h
    obtain rfl := Except.ok.inj h
    exact .copyEvent eventId inviteId time e he
  | eventInvite eventId inviteId isPreInvite isGuildEvent found => exact handled_eventInvite h
  | eventSignup guildId eventId tentative now =>
    obtain ⟨e, he, h⟩ := of_getEvent h
    obtain ⟨hguild, h⟩ := of_check h
    obtain rfl := Except.ok.inj h
    exact .eventSignup guildId eventId tentative now _ e he hguild
  | eventRsvp eventId inviteId status now =>
    obtain ⟨e, he, h⟩ := of_getEvent h
    obtain ⟨hopen, h⟩ := of_check h
    obtain ⟨i, hi, h⟩ := of_getInvite h
    obtain rfl := Except.ok.inj h
    exact .eventRsvp eventId inviteId status now e i he hi hopen
  | eventRemoveInvite invitee inviteId ownerInviteId eventId =>
    obtain ⟨e, he, h⟩ := of_getEvent h
    obtain ⟨hcreator, h⟩ := of_check h
    obtain rfl := Except.ok.inj h
    exact .eventRemoveInvite invitee inviteId ownerInviteId eventId e he hcreator
  | eventStatus invitee eventId inviteId ownerInviteId status =>
    obtain ⟨e, he, h⟩ := of_getEvent h
    obtain ⟨i, hi, h⟩ := of_getInvite h
    obtain rfl := Except.ok.inj h
    exact .eventStatus invitee eventId inviteId ownerInviteId status e i he hi
  | eventModeratorStatus invitee eventId inviteId ownerInviteId rank =>
    obtain ⟨e, he, h⟩ := of_getEvent h
    obtain ⟨i, hi, h⟩ := of_getInvite h
    obtain rfl := Except.ok.inj h
    exact .eventModeratorStatus invitee eventId inviteId ownerInviteId rank e i he hi

theorem step_cases (c : CalendarMgr) (guid : ℕ) (r : Request) :
    (∃ x, handle c guid r = .error x) ∧ step c (guid, r) = c ∨
      Handled c guid r (step c (guid, r)) := by
  unfold step
  cases h : handle c guid r with
  | error x => exact .inl ⟨⟨x, rfl⟩, rfl⟩
  | ok c' => exact .inr (handled h)

/-! ### The requests about an event -/

/-- All events but those of `E` and all invites but those of `I` are as before, and everything is
unless the event is there. -/
structure Confined (c c' : CalendarMgr) (eventId : ℕ) (E : CalendarEvent → Prop)
    (I : CalendarInvite → Prop) [DecidablePred E] [DecidablePred I] : Prop where
  events : c'.events.filter (¬ E ·) = c.events.filter (¬ E ·)
  invites : c'.invites.filter (¬ I ·) = c.invites.filter (¬ I ·)
  unknown : c.getEvent eventId = none → c' = c

section
variable {E : CalendarEvent → Prop} {I : CalendarInvite → Prop} [DecidablePred E] [DecidablePred I]

theorem Confined.refl : Confined c c eventId E I := ⟨rfl, rfl, fun _ => rfl⟩

theorem Confined.of_some (he : c.getEvent eventId = some e)
    (hevents : c'.events.filter (¬ E ·) = c.events.filter (¬ E ·))
    (hinvites : c'.invites.filter (¬ I ·) = c.invites.filter (¬ I ·)) : Confined c c' eventId E I :=
  ⟨hevents, hinvites, fun h => absurd (he.symm.trans h) (Option.some_ne_none e)⟩

theorem confined_setInvite (he : c.getEvent eventId = some e) (hi : I i) (hi' : I i') :
    Confined c (c.setInvite i i') eventId E I :=
  .of_some he rfl (Replacing.filter_replace (by simpa using hi) (by simpa using hi'))

/-- It is enough to look at the requests that are not refused. -/
theorem confined_step (h : ∀ c', Handled c guid r c' → Confined c c' eventId E I) :
    Confined c (step c (guid, r)) eventId E I := by
  rcases step_cases c guid r with ⟨-, heq⟩ | hhandled
  · rw [heq]
    exact .refl
  · exact h _ hhandled

end

theorem confined_updateEvent (guid eventId inviteId : ℕ) (fields : EventFields) :
    Confined c (step c (guid, .updateEvent eventId inviteId fields)) eventId
      (fun e => e.eventId = eventId) fun _ => False := by
  apply confined_step
  intro c' h
  cases h with
  | updateEvent _ _ _ e he =>
    have hid := (getEvent_some he).2
    exact .of_some he (Replacing.filter_replace (by simpa using hid) (by simpa using hid)) rfl

theorem confined_removeEvent (guid eventId : ℕ) :
    Confined c (step c (guid, .removeEvent eventId)) eventId
      (fun e => e.eventId = eventId) fun i => i.eventId = eventId := by
  apply confined_step
  intro c' h
  cases h with
  | removeEvent _ e he =>
    have hid := (getEvent_some he).2
    refine .of_some he (Replacing.filter_erase (by simpa using hid)) ?_
    dsimp only
    rw [List.filter_filter]
    simp

theorem confined_eventRemoveInvite (guid invitee inviteId ownerInviteId eventId : ℕ) :
    Confined c (step c (guid, .eventRemoveInvite invitee inviteId ownerInviteId eventId)) eventId
      (fun _ => False) fun i => i.inviteId = inviteId ∧ i.eventId = eventId := by
  apply confined_step
  intro c' h
  cases h with
  | eventRemoveInvite _ _ _ _ e he =>
    rcases removeInvite_cases c inviteId eventId with heq | ⟨i, -, hevent, hid, heq⟩
    · rw [heq]
      exact .refl
    · rw [heq]
      exact .of_some he rfl (Replacing.filter_erase (by simp [hevent, hid]))

theorem confined_eventRsvp (guid eventId inviteId status now : ℕ) :
    Confined c (step c (guid, .eventRsvp eventId inviteId status now)) eventId
      (fun _ => False) fun i => i.inviteId = inviteId := by
  apply confined_step
  intro c' h
  cases h with
  | eventRsvp _ _ _ _ e i he hi =>
    have hid := (getInvite_some hi).2
    exact confined_setInvite he hid hid

theorem confined_eventStatus (guid invitee eventId inviteId ownerInviteId status : ℕ) :
    Confined c (step c (guid, .eventStatus invitee eventId inviteId ownerInviteId status)) eventId
      (fun _ => False) fun i => i.inviteId = inviteId := by
  apply confined_step
  intro c' h
  cases h with
  | eventStatus _ _ _ _ _ e i he hi =>
    have hid := (getInvite_some hi).2
    exact confined_setInvite he hid hid

theorem confined_eventModeratorStatus (guid invitee eventId inviteId ownerInviteId rank : ℕ) :
    Confined c (step c (guid, .eventModeratorStatus invitee eventId inviteId ownerInviteId rank))
      eventId (fun _ => False) fun i => i.inviteId = inviteId := by
  apply confined_step
  intro c' h
  cases h with
  | eventModeratorStatus _ _ _ _ _ e i he hi =>
    have hid := (getInvite_some hi).2
    exact confined_setInvite he hid hid

/-- The event is there and its invites are locked. -/
def Locked (c : CalendarMgr) (eventId : ℕ) : Prop :=
  ∃ e, c.getEvent eventId = some e ∧ e.flags &&& calendarFlagInvitesLocked ≠ 0

/-- The event is there and the player created it. -/
def CreatedBy (c : CalendarMgr) (eventId guid : ℕ) : Prop :=
  ∃ e, c.getEvent eventId = some e ∧ e.creatorGUID = guid

/-- **Main result.** Whoever sends it, a request about an event changes at most the event that it
names, and at most the invites that it names: updating an event none, removing an event those of the
event, removing an invite the one with the id that is of the event, and the others those with the
id. An unknown event, an answer to a locked one, and the creator's invite are refused. -/
theorem calendar_requests_confined (c : CalendarMgr) (guid eventId inviteId : ℕ) :
    (∀ fields, Confined c (step c (guid, .updateEvent eventId inviteId fields)) eventId
      (fun e => e.eventId = eventId) fun _ => False) ∧
    Confined c (step c (guid, .removeEvent eventId)) eventId
      (fun e => e.eventId = eventId) (fun i => i.eventId = eventId) ∧
    (∀ invitee ownerInviteId,
      Confined c (step c (guid, .eventRemoveInvite invitee inviteId ownerInviteId eventId)) eventId
        (fun _ => False) (fun i => i.inviteId = inviteId ∧ i.eventId = eventId) ∧
      (CreatedBy c eventId invitee →
        step c (guid, .eventRemoveInvite invitee inviteId ownerInviteId eventId) = c)) ∧
    (∀ status now,
      Confined c (step c (guid, .eventRsvp eventId inviteId status now)) eventId
        (fun _ => False) (fun i => i.inviteId = inviteId) ∧
      (status ≠ calendarStatusRemoved → Locked c eventId →
        step c (guid, .eventRsvp eventId inviteId status now) = c)) ∧
    (∀ invitee ownerInviteId status,
      Confined c (step c (guid, .eventStatus invitee eventId inviteId ownerInviteId status)) eventId
        (fun _ => False) fun i => i.inviteId = inviteId) ∧
    ∀ invitee ownerInviteId rank,
      Confined c (step c (guid, .eventModeratorStatus invitee eventId inviteId ownerInviteId rank))
        eventId (fun _ => False) fun i => i.inviteId = inviteId := by
  refine ⟨confined_updateEvent guid eventId inviteId, confined_removeEvent guid eventId,
    fun invitee ownerInviteId =>
      ⟨confined_eventRemoveInvite guid invitee inviteId ownerInviteId eventId, ?_⟩,
    fun status now => ⟨confined_eventRsvp guid eventId inviteId status now, ?_⟩,
    fun invitee ownerInviteId status =>
      confined_eventStatus guid invitee eventId inviteId ownerInviteId status,
    fun invitee ownerInviteId rank =>
      confined_eventModeratorStatus guid invitee eventId inviteId ownerInviteId rank⟩
  · rintro ⟨e, he, hcreator⟩
    simp only [step, handle, handleCalendarEventRemoveInvite, he, if_pos hcreator]
  · rintro hstatus ⟨e, he, hlocked⟩
    simp only [step, handle, handleCalendarEventRsvp, he, if_pos (And.intro hstatus hlocked)]

/-- The player created the event, or is invited to it above `CALENDAR_RANK_PLAYER`. -/
def MayChange (c : CalendarMgr) (guid eventId : ℕ) : Prop :=
  ∃ e ∈ c.events, e.eventId = eventId ∧ (e.creatorGUID = guid ∨
    ∃ i ∈ c.invites, i.eventId = eventId ∧ i.invitee = guid ∧ calendarRankPlayer < i.rank)

/-- An event of the player 1, without invites. -/
def sampleCalendar : CalendarMgr where
  events := [⟨⟨0, -1, 0, 0, 0, "Raid", ""⟩, 1, 1, 0⟩]
  invites := []
  eventIds := ⟨[], 1⟩
  inviteIds := ⟨[], 0⟩

/-- The player 3, who has nothing to do with the event, removes it. -/
theorem stranger_removes_event :
    ¬ ((step sampleCalendar (3, .removeEvent 1)).events ≠ sampleCalendar.events →
      MayChange sampleCalendar 3 1) := by
  intro h
  obtain ⟨e, he, -, hmay⟩ := h (by decide)
  rw [show e = ⟨⟨0, -1, 0, 0, 0, "Raid", ""⟩, 1, 1, 0⟩ from List.mem_singleton.1 he] at hmay
  rcases hmay with hcreator | ⟨i, hi, -⟩
  · exact absurd hcreator (by decide)
  · exact absurd hi List.not_mem_nil

end FaceCore.Calendar
