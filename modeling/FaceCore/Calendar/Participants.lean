import FaceCore.Lib.Runs
import FaceCore.Calendar.Requests

/-!
# The participants of an event

Four requests add invites: adding an event, copying one, inviting, and signing up. None of them asks
whether the invitee has an invite to the event already, although there is an answer for it,
`CALENDAR_ERROR_ALREADY_INVITED_TO_EVENT_S`.

* `invitees`, `OneInviteEach`: the invitees of an event, and that no one is twice among them;
* `Shrunk`, `shrunk_step`: the other requests add none;
* `Grown`, `grown_foldl`: the invitees of one event grow;
* `AddsNewInvitees`: a request adds nobody twice;
* `one_invite_per_participant_iff`: the runs along which nobody is invited twice.
-/

namespace FaceCore.Calendar

open CalendarMgr Runs

variable {c c' : CalendarMgr} {e : CalendarEvent} {guid eventId n : ℕ} {r : Request}

/-- The invitees of an event. -/
def invitees (c : CalendarMgr) (eventId : ℕ) : List ℕ :=
  (c.getEventInvites eventId).map CalendarInvite.invitee

/-- No event has two invites with the same invitee. -/
def OneInviteEach (c : CalendarMgr) : Prop := ∀ e ∈ c.events, (invitees c e.eventId).Nodup

/-! ### Requests that add no invites -/

/-- There are no new events and no new invites. -/
structure Shrunk (c c' : CalendarMgr) : Prop where
  events : ∀ e' ∈ c'.events, ∃ e ∈ c.events, e.eventId = e'.eventId
  invitees : ∀ n, (invitees c' n).Sublist (invitees c n)

theorem Shrunk.refl (c : CalendarMgr) : Shrunk c c :=
  ⟨fun e he => ⟨e, he, rfl⟩, fun _ => List.Sublist.refl _⟩

theorem Shrunk.oneInviteEach (hs : Shrunk c c') (h : OneInviteEach c) : OneInviteEach c' := by
  intro e' he'
  obtain ⟨e, he, hid⟩ := hs.events e' he'
  rw [← hid]
  exact (h e he).sublist (hs.invitees e.eventId)

theorem Shrunk.of_sublist (hevents : c'.events.Sublist c.events)
    (hinvites : c'.invites.Sublist c.invites) : Shrunk c c' :=
  ⟨fun e he => ⟨e, hevents.subset he, rfl⟩, fun _ => (hinvites.filter _).map _⟩

theorem shrunk_setInvite (c : CalendarMgr) {i i' : CalendarInvite} (hevent : i.eventId = i'.eventId)
    (hinvitee : i.invitee = i'.invitee) : Shrunk c (c.setInvite i i') := by
  refine ⟨fun e he => ⟨e, he, rfl⟩, fun n => ?_⟩
  have hpairs : (c.invites.replace i i').map (fun i => (i.eventId, i.invitee)) =
      c.invites.map fun i => (i.eventId, i.invitee) :=
    Replacing.map_replace (by rw [hevent, hinvitee])
  have hinvitees : ∀ c : CalendarMgr, invitees c n =
      ((c.invites.map fun i => (i.eventId, i.invitee)).filter fun x => x.1 = n).map Prod.snd := by
    intro c
    unfold invitees getEventInvites
    rw [List.filter_map, List.map_map]
    rfl
  rw [hinvitees, hinvitees c]
  unfold setInvite
  rw [hpairs]

/-- The requests that may add invites. -/
def adds : Request → Bool
  | .addEvent _ _ _ _ => true
  | .copyEvent _ _ _ => true
  | .eventInvite _ _ isPreInvite _ _ => !isPreInvite
  | .eventSignup _ _ _ _ => true
  | _ => false

theorem shrunk_step (c : CalendarMgr) (guid : ℕ) (h : adds r = false) :
    Shrunk c (step c (guid, r)) := by
  rcases step_cases c guid r with ⟨-, heq⟩ | hhandled
  · rw [heq]
    exact .refl c
  · generalize step c _ = c' at hhandled
    cases hhandled with
    | addEvent => cases h
    | updateEvent eventId inviteId fields e he =>
      refine ⟨fun e' he' => ?_, fun _ => List.Sublist.refl _⟩
      have hids : (c.events.replace e { e with toEventFields := fields }).map
          CalendarEvent.eventId = c.events.map CalendarEvent.eventId := Replacing.map_replace rfl
      exact List.mem_map.1 (hids ▸ List.mem_map_of_mem he')
    | removeEvent eventId e he => exact .of_sublist List.erase_sublist List.filter_sublist
    | copyEvent => cases h
    | eventInvite => cases h
    | preInvite => exact .of_sublist (List.Sublist.refl _) (List.Sublist.refl _)
    | eventSignup => cases h
    | eventRsvp => exact shrunk_setInvite c rfl rfl
    | eventRemoveInvite invitee inviteId ownerInviteId eventId e he hcreator =>
      rcases removeInvite_cases c inviteId eventId with heq | ⟨i, -, -, -, heq⟩
      · rw [heq]
        exact .refl c
      · rw [heq]
        exact .of_sublist (List.Sublist.refl _) List.erase_sublist
    | eventStatus => exact shrunk_setInvite c rfl rfl
    | eventModeratorStatus => exact shrunk_setInvite c rfl rfl

/-! ### Requests that add invites -/

/-- The event `n` has `new` as further invitees. -/
structure Grown (c c' : CalendarMgr) (n : ℕ) (new : List ℕ) : Prop where
  same : invitees c' n = invitees c n ++ new
  other : ∀ m, m ≠ n → invitees c' m = invitees c m

theorem Grown.oneInviteEach_iff {new : List ℕ} (hg : Grown c c' n new) (h : OneInviteEach c)
    (hnew : ∀ e ∈ c'.events, e ∈ c.events ∨ e.eventId = n) :
    OneInviteEach c' ↔ ((∃ e ∈ c'.events, e.eventId = n) → (invitees c n ++ new).Nodup) := by
  constructor
  · rintro h' ⟨e, he, rfl⟩
    rw [← hg.same]
    exact h' e he
  · intro h' e he
    by_cases hid : e.eventId = n
    · rw [hid, hg.same]
      exact h' ⟨e, he, hid⟩
    · rw [hg.other _ hid]
      exact h e ((hnew e he).resolve_right hid)

theorem Grown.refl (c : CalendarMgr) (n : ℕ) : Grown c c n [] :=
  ⟨(List.append_nil _).symm, fun _ _ => rfl⟩

theorem Grown.trans {c'' : CalendarMgr} {new new' : List ℕ} (hg : Grown c c' n new)
    (hg' : Grown c' c'' n new') : Grown c c'' n (new ++ new') := by
  refine ⟨?_, fun m hm => (hg'.other m hm).trans (hg.other m hm)⟩
  rw [hg'.same, hg.same, List.append_assoc]

theorem Grown.congr {c₀ c₀' : CalendarMgr} {new : List ℕ} (hg : Grown c c' n new)
    (hc : c₀.invites = c.invites) (hc' : c₀'.invites = c'.invites) : Grown c₀ c₀' n new := by
  have hsame : ∀ {a b : CalendarMgr}, a.invites = b.invites → ∀ m, invitees a m = invitees b m := by
    intro a b hab m
    unfold invitees getEventInvites
    rw [hab]
  refine ⟨?_, fun m hm => ?_⟩
  · rw [hsame hc', hsame hc, hg.same]
  · rw [hsame hc', hsame hc, hg.other m hm]

theorem grown_drawInvite (c : CalendarMgr) (e : CalendarEvent) {mk : ℕ → CalendarInvite} {who : ℕ}
    (hevent : ∀ id, (mk id).eventId = n) (hinvitee : ∀ id, (mk id).invitee = who) :
    (drawInvite e c mk).events = c.events ∧
      Grown c (drawInvite e c mk) n (if e.isGuildAnnouncement then [] else [who]) := by
  unfold drawInvite addInvite
  split_ifs with hann
  · exact ⟨rfl, (Grown.refl c n).congr rfl rfl⟩
  · refine ⟨rfl, ?_, fun m hm => ?_⟩
    · unfold invitees getEventInvites
      simp [getFreeInviteId, hevent, hinvitee]
    · unfold invitees getEventInvites
      have hne : n ≠ m := fun h => hm h.symm
      simp [getFreeInviteId, hevent, hne]

theorem grown_foldl {α : Type*} {f : CalendarMgr → α → CalendarMgr} {mk : α → ℕ → CalendarInvite}
    {who : α → ℕ} (hf : ∀ c x, f c x = drawInvite e c (mk x))
    (hevent : ∀ x id, (mk x id).eventId = n) (hinvitee : ∀ x id, (mk x id).invitee = who x)
    (l : List α) (c : CalendarMgr) :
    (l.foldl f c).events = c.events ∧
      Grown c (l.foldl f c) n (if e.isGuildAnnouncement then [] else l.map who) := by
  induction l generalizing c with
  | nil =>
    refine ⟨rfl, ?_⟩
    rw [List.map_nil, ite_self]
    exact .refl c n
  | cons x l ih =>
    obtain ⟨hevents, hgrown⟩ := grown_drawInvite c e (hevent x) (hinvitee x)
    rw [← hf] at hevents hgrown
    obtain ⟨hrest, hlast⟩ := ih (f c x)
    refine ⟨hrest.trans hevents, ?_⟩
    have hboth := hgrown.trans hlast
    split_ifs with hann
    · rw [if_pos hann, if_pos hann] at hboth
      exact hboth
    · rw [if_neg hann, if_neg hann] at hboth
      exact hboth

theorem oneInviteEach_drawInvite_iff (h : OneInviteEach c) (he : c.getEvent eventId = some e)
    {mk : ℕ → CalendarInvite} {who : ℕ} (hevent : ∀ id, (mk id).eventId = eventId)
    (hinvitee : ∀ id, (mk id).invitee = who) :
    OneInviteEach (drawInvite e c mk) ↔
      (e.isGuildAnnouncement = false → who ∉ invitees c eventId) := by
  obtain ⟨hmem, hid⟩ := getEvent_some he
  obtain ⟨hevents, hgrown⟩ := grown_drawInvite c e hevent hinvitee
  have hold : (invitees c eventId).Nodup := hid ▸ h e hmem
  rw [hgrown.oneInviteEach_iff h fun e he => .inl (hevents ▸ he)]
  have hthere : ∃ e' ∈ (drawInvite e c mk).events, e'.eventId = eventId :=
    ⟨e, hevents.symm ▸ hmem, hid⟩
  rw [imp_iff_right hthere]
  cases e.isGuildAnnouncement with
  | true => simpa using hold
  | false =>
    simp only [Bool.false_eq_true, ↓reduceIte, forall_const]
    rw [← List.concat_eq_append, List.nodup_concat]
    exact and_iff_left hold

theorem oneInviteEach_added_iff {new : List ℕ} (h : OneInviteEach c) (hid : e.eventId = n)
    (hgrown : Grown c c' n new) (hevents : c'.events = c.events ++ [e]) :
    OneInviteEach c' ↔ (invitees c n ++ new).Nodup := by
  have hthere : ∃ e ∈ c'.events, e.eventId = n :=
    ⟨e, hevents.symm ▸ List.mem_append_right _ (List.mem_singleton_self e), hid⟩
  rw [hgrown.oneInviteEach_iff h ?_, imp_iff_right hthere]
  intro e' he'
  rw [hevents, List.mem_append, List.mem_singleton] at he'
  rcases he' with he' | rfl
  · exact .inl he'
  · exact .inr hid

/-! ### Adding nobody twice -/

/-- A request adds no one to an event who is already invited to it, and no one twice: adding and
copying an event, inviting, and signing up, unless they are refused or the event is an
announcement. An event that is added may find invites with its id. -/
def AddsNewInvitees (c : CalendarMgr) : ℕ × Request → Prop
  | (_, .addEvent _ fields inviteCount invites) =>
    let n := c.getFreeEventId.1
    if fields.flags &&& calendarFlagWithoutInvites ≠ 0 then (invitees c n).Nodup
    else inviteCount ≤ invites.length ∨ (∃ e ∈ c.events, e.eventId = n) →
      (invitees c n ++ (invites.take inviteCount).map InviteFields.invitee).Nodup
  | (_, .copyEvent eventId _ _) =>
    ∀ e, c.getEvent eventId = some e →
      (invitees c c.getFreeEventId.1 ++
        if e.isGuildAnnouncement then [] else invitees c eventId).Nodup
  | (_, .eventInvite eventId _ false _ found) =>
    ∀ e, c.getEvent eventId = some e → Invitable found →
      ¬ (e.isGuildEvent = true ∧ e.guildId = found.inviteeGuildId) →
        e.isGuildAnnouncement = false → found.inviteeGuid ∉ invitees c eventId
  | (guid, .eventSignup guildId eventId _ _) =>
    ∀ e, c.getEvent eventId = some e → ¬ (e.isGuildEvent = true ∧ e.guildId ≠ guildId) →
      e.isGuildAnnouncement = false → guid ∉ invitees c eventId
  | _ => True

theorem oneInviteEach_addEvent (h : OneInviteEach c) (guid : ℕ) (guildId : Option ℕ)
    (fields : EventFields) (inviteCount : ℕ) (invites : List InviteFields) :
    OneInviteEach (handleCalendarAddEvent c guid guildId fields inviteCount invites) ↔
      AddsNewInvitees c (guid, .addEvent guildId fields inviteCount invites) := by
  have hid := newEvent_eventId c.getFreeEventId.1 guid guildId fields
  have hflags := isGuildAnnouncement_newEvent c.getFreeEventId.1 guid guildId fields
  unfold handleCalendarAddEvent AddsNewInvitees
  dsimp only
  generalize newEvent c.getFreeEventId.1 guid guildId fields = e at hid hflags
  by_cases hann : e.isGuildAnnouncement = true
  · have hflag : fields.flags &&& calendarFlagWithoutInvites ≠ 0 := by simpa [hflags] using hann
    rw [if_pos hann, if_pos hflag]
    unfold addInvite
    rw [if_pos hann]
    have hiff : OneInviteEach (c.getFreeEventId.2.addEvent e) ↔
        (invitees c c.getFreeEventId.1 ++ []).Nodup :=
      oneInviteEach_added_iff h hid ((Grown.refl c _).congr rfl rfl) rfl
    rw [List.append_nil] at hiff
    exact hiff
  · have hflag : ¬ fields.flags &&& calendarFlagWithoutInvites ≠ 0 := by simpa [hflags] using hann
    rw [if_neg hann, if_neg hflag]
    obtain ⟨hevents, hgrown⟩ := grown_foldl (inviteTo_eq guid e) (fun _ _ => hid)
      (fun _ _ => rfl) (invites.take inviteCount) c.getFreeEventId.2
    rw [if_neg hann] at hgrown
    by_cases hshort : invites.length < inviteCount
    · rw [if_pos hshort, or_iff_right (by omega)]
      have hiff := (hgrown.congr rfl rfl).oneInviteEach_iff h fun e he => .inl (hevents ▸ he)
      rw [hevents] at hiff
      exact hiff
    · rw [if_neg hshort, imp_iff_right (.inl (by omega))]
      refine oneInviteEach_added_iff h hid (hgrown.congr rfl rfl) ?_
      unfold addEvent
      rw [hevents]
      rfl

theorem oneInviteEach_copyEvent (h : OneInviteEach c) (guid inviteId time : ℕ) :
    OneInviteEach (step c (guid, .copyEvent eventId inviteId time)) ↔
      AddsNewInvitees c (guid, .copyEvent eventId inviteId time) := by
  simp only [step, handle, handleCalendarCopyEvent, AddsNewInvitees]
  cases he : c.getEvent eventId with
  | none => simpa using h
  | some e =>
    simp only [Option.some.injEq, forall_eq']
    obtain ⟨hevents, hgrown⟩ := grown_foldl (copyTo_eq (copyOf e c.getFreeEventId.1 time))
      (fun _ _ => rfl) (fun _ _ => rfl) (c.getEventInvites eventId)
      (c.getFreeEventId.2.addEvent (copyOf e c.getFreeEventId.1 time))
    exact oneInviteEach_added_iff (e := copyOf e c.getFreeEventId.1 time) h rfl
      (hgrown.congr rfl rfl) hevents

theorem oneInviteEach_eventInvite (h : OneInviteEach c) (guid inviteId : ℕ) (isGuildEvent : Bool)
    (found : InviteeLookup) :
    OneInviteEach (step c (guid, .eventInvite eventId inviteId false isGuildEvent found)) ↔
      AddsNewInvitees c (guid, .eventInvite eventId inviteId false isGuildEvent found) := by
  rcases step_cases c guid (.eventInvite eventId inviteId false isGuildEvent found) with
    ⟨⟨x, hx⟩, heq⟩ | hhandled
  · rw [heq]
    refine iff_of_true h fun e he ⟨hfound, hallied, hignored⟩ hguild _ => ?_
    simp only [handle, handleCalendarEventInvite] at hx
    rw [if_neg hfound, if_neg hallied, if_neg hignored, if_pos (by rfl), he] at hx
    simp only [if_neg hguild, reduceCtorEq] at hx
  · generalize step c _ = c' at hhandled
    cases hhandled with
    | eventInvite _ _ _ _ e he hfound hguild =>
      refine (oneInviteEach_drawInvite_iff h he (fun _ => rfl) fun _ => rfl).trans ?_
      simp only [AddsNewInvitees, he, Option.some.injEq, forall_eq']
      exact ⟨fun hnew _ _ => hnew, fun hnew => hnew hfound hguild⟩

theorem oneInviteEach_eventSignup (h : OneInviteEach c) (guid guildId : ℕ) (tentative : Bool)
    (now : ℕ) :
    OneInviteEach (step c (guid, .eventSignup guildId eventId tentative now)) ↔
      AddsNewInvitees c (guid, .eventSignup guildId eventId tentative now) := by
  rcases step_cases c guid (.eventSignup guildId eventId tentative now) with
    ⟨⟨x, hx⟩, heq⟩ | hhandled
  · rw [heq]
    refine iff_of_true h fun e he hguild _ => ?_
    simp only [handle, handleCalendarEventSignup, he, if_neg hguild, reduceCtorEq] at hx
  · generalize step c _ = c' at hhandled
    cases hhandled with
    | eventSignup _ _ _ _ status e he hguild =>
      refine (oneInviteEach_drawInvite_iff h he (fun _ => rfl) fun _ => rfl).trans ?_
      simp only [AddsNewInvitees, he, Option.some.injEq, forall_eq']
      exact ⟨fun hnew _ => hnew, fun hnew => hnew hguild⟩

/-- A request keeps the property exactly if it adds nobody twice. -/
theorem oneInviteEach_step (h : OneInviteEach c) (r : ℕ × Request) :
    OneInviteEach (step c r) ↔ AddsNewInvitees c r := by
  obtain ⟨guid, r⟩ := r
  cases r with
  | addEvent guildId fields inviteCount invites =>
    exact oneInviteEach_addEvent h guid guildId fields inviteCount invites
  | copyEvent eventId inviteId time => exact oneInviteEach_copyEvent h guid inviteId time
  | eventInvite eventId inviteId isPreInvite isGuildEvent found =>
    cases isPreInvite with
    | false => exact oneInviteEach_eventInvite h guid inviteId isGuildEvent found
    | true => exact iff_of_true ((shrunk_step c guid rfl).oneInviteEach h) trivial
  | eventSignup guildId eventId tentative now =>
    exact oneInviteEach_eventSignup h guid guildId tentative now
  | _ => exact iff_of_true ((shrunk_step c guid rfl).oneInviteEach h) trivial

/-! ### Runs -/

/-- **Main result.** From a calendar in which no event has two invites with the same invitee, this
stays so along a run exactly if every request of the run adds nobody twice. -/
theorem one_invite_per_participant_iff (h : OneInviteEach c) (rs : List (ℕ × Request)) :
    Along step OneInviteEach c rs ↔ EachStep step AddsNewInvitees c rs :=
  along_iff_eachStep (I := fun _ => True) trivial h (fun _ _ _ _ _ => trivial)
    fun _ r _ h => oneInviteEach_step h r

theorem oneInviteEach_sampleCalendar : OneInviteEach sampleCalendar := by
  intro e he
  rw [show e = ⟨⟨0, -1, 0, 0, 0, "Raid", ""⟩, 1, 1, 0⟩ from List.mem_singleton.1 he]
  decide

/-- The players 3 and 4 sign up, and the event is copied. -/
def signups : List (ℕ × Request) :=
  [(3, .eventSignup 0 1 false 0), (4, .eventSignup 0 1 true 0), (1, .copyEvent 1 0 60)]

theorem one_invite_per_participant_signups :
    OneInviteEach sampleCalendar ∧
      (Along step OneInviteEach sampleCalendar signups ↔
        EachStep step AddsNewInvitees sampleCalendar signups) :=
  ⟨oneInviteEach_sampleCalendar,
    one_invite_per_participant_iff oneInviteEach_sampleCalendar signups⟩

/-- A player signs up twice. -/
theorem signup_twice :
    ¬ (OneInviteEach sampleCalendar → ∀ rs, Along step OneInviteEach sampleCalendar rs) := by
  intro h
  have htwice := h oneInviteEach_sampleCalendar
    [(3, .eventSignup 0 1 false 0), (3, .eventSignup 0 1 false 0)] _ List.prefix_rfl
  exact absurd (htwice _ List.mem_cons_self) (by decide)

end FaceCore.Calendar
