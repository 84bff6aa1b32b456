import FaceCore.Calendar.Requests
import Mathlib.Data.Finset.Union

/-!
# The events that a player sees

`CalendarMgr::GetPlayerEvents` puts together the events of a player's invites and the events that
carry the id of his guild. An event without a guild has the id 0, and so has a player without one.

* `getPlayerEvents`: the function; a null pointer is `none`;
* `OwnEvent`: the events that concern a player;
* `SeesOwnEvents`, `KeptApart`: he sees these and no others, and when he does;
* `player_events_iff`: the two are the same, and what does not concern him has no influence then.
-/

namespace FaceCore.Calendar

open CalendarMgr

/-- `CalendarMgr::GetPlayerEvents`; `player` is the guild id of the player that `FindPlayer` finds. -/
def CalendarMgr.getPlayerEvents (c : CalendarMgr) (guid : ℕ) (player : Option ℕ) :
    Finset (Option CalendarEvent) :=
  let invited := (c.invites.filter fun i => i.invitee = guid).map fun i => c.getEvent i.eventId
  match player with
  | some guildId =>
    invited.toFinset ∪ ((c.events.filter fun e => e.guildId = guildId).map some).toFinset
  | none => invited.toFinset

/-- The player is invited to the event. -/
def Invited (c : CalendarMgr) (guid : ℕ) (e : CalendarEvent) : Prop :=
  ∃ i ∈ c.invites, i.eventId = e.eventId ∧ i.invitee = guid

/-- A guild event or an announcement of the guild; the id 0 is no guild. -/
def OfGuild (guildId : ℕ) (e : CalendarEvent) : Prop :=
  guildId ≠ 0 ∧ e.guildId = guildId ∧ (e.isGuildEvent = true ∨ e.isGuildAnnouncement = true)

/-- The event concerns the player: he is invited to it, or it is one of his guild. -/
def OwnEvent (c : CalendarMgr) (guid guildId : ℕ) (e : CalendarEvent) : Prop :=
  e ∈ c.events ∧ (Invited c guid e ∨ OfGuild guildId e)

/-- An online player sees the events that concern him, no others, and no null pointer. -/
def SeesOwnEvents (c : CalendarMgr) (guid guildId : ℕ) : Prop :=
  ∀ x, x ∈ c.getPlayerEvents guid (some guildId) ↔ ∃ e, x = some e ∧ OwnEvent c guid guildId e

/-- The invites of the player are for stored events, the events that carry his guild id concern him,
and those of other guild ids that he is invited to are the first ones of their event ids. -/
structure KeptApart (c : CalendarMgr) (guid guildId : ℕ) : Prop where
  stored : ∀ i ∈ c.invites, i.invitee = guid → ∃ e ∈ c.events, e.eventId = i.eventId
  ofGuild : ∀ e ∈ c.events, e.guildId = guildId → Invited c guid e ∨ OfGuild guildId e
  first : ∀ e ∈ c.events, e.guildId ≠ guildId → Invited c guid e → c.getEvent e.eventId = some e

variable {c c' : CalendarMgr} {guid guildId eventId : ℕ} {e : CalendarEvent} {i : CalendarInvite}

theorem mem_getPlayerEvents {x : Option CalendarEvent} :
    x ∈ c.getPlayerEvents guid (some guildId) ↔
      (∃ i ∈ c.invites, i.invitee = guid ∧ c.getEvent i.eventId = x) ∨
        ∃ e ∈ c.events, e.guildId = guildId ∧ some e = x := by
  simp only [getPlayerEvents, Finset.mem_union, List.mem_toFinset, List.mem_map, List.mem_filter,
    decide_eq_true_eq, and_assoc]

theorem getEvent_eq_none : c.getEvent eventId = none ↔ ∀ e ∈ c.events, e.eventId ≠ eventId := by
  simp [getEvent]

theorem invited_of_getEvent (hi : i ∈ c.invites) (hguid : i.invitee = guid)
    (h : c.getEvent i.eventId = some e) : e ∈ c.events ∧ Invited c guid e := by
  obtain ⟨he, hid⟩ := getEvent_some h
  exact ⟨he, i, hi, hid.symm, hguid⟩

theorem KeptApart.seesOwnEvents (h : KeptApart c guid guildId) : SeesOwnEvents c guid guildId := by
  intro x
  rw [mem_getPlayerEvents]
  constructor
  · rintro (⟨i, hi, hguid, rfl⟩ | ⟨e, he, hguild, rfl⟩)
    · cases hget : c.getEvent i.eventId with
      | none =>
        obtain ⟨e, he, hid⟩ := h.stored i hi hguid
        exact absurd hid (getEvent_eq_none.1 hget e he)
      | some e =>
        obtain ⟨he, hinvited⟩ := invited_of_getEvent hi hguid hget
        exact ⟨e, rfl, he, .inl hinvited⟩
    · exact ⟨e, rfl, he, h.ofGuild e he hguild⟩
  · rintro ⟨e, rfl, he, hown⟩
    by_cases hguild : e.guildId = guildId
    · exact .inr ⟨e, he, hguild, rfl⟩
    · rcases hown with hinvited | hof
      · have hfirst := h.first e he hguild hinvited
        obtain ⟨i, hi, hid, hguid⟩ := hinvited
        exact .inl ⟨i, hi, hguid, hid ▸ hfirst⟩
      · exact absurd hof.2.1 hguild

theorem SeesOwnEvents.keptApart (h : SeesOwnEvents c guid guildId) : KeptApart c guid guildId where
  stored i hi hguid := by
    obtain ⟨e, hget, -⟩ := (h _).1 (mem_getPlayerEvents.2 (.inl ⟨i, hi, hguid, rfl⟩))
    exact ⟨e, getEvent_some hget⟩
  ofGuild e he hguild := by
    obtain ⟨e', heq, hown⟩ := (h _).1 (mem_getPlayerEvents.2 (.inr ⟨e, he, hguild, rfl⟩))
    obtain rfl := Option.some.inj heq
    exact hown.2
  first e he hguild hinvited := by
    rcases mem_getPlayerEvents.1 ((h _).2 ⟨e, rfl, he, .inl hinvited⟩) with
      ⟨i, hi, hguid, hget⟩ | ⟨e', -, hguild', heq⟩
    · rw [(getEvent_some hget).2]
      exact hget
    · obtain rfl := Option.some.inj heq
      exact absurd hguild' hguild

/-- **Main result.** An online player sees exactly the events that concern him if and only if they are
kept apart from the others, and of two such calendars that agree about these events he sees the
same. -/
theorem player_events_iff (c : CalendarMgr) (guid guildId : ℕ) :
    (SeesOwnEvents c guid guildId ↔ KeptApart c guid guildId) ∧
      (KeptApart c guid guildId → ∀ c', KeptApart c' guid guildId →
        (∀ e, OwnEvent c guid guildId e ↔ OwnEvent c' guid guildId e) →
          c.getPlayerEvents guid (some guildId) = c'.getPlayerEvents guid (some guildId)) := by
  refine ⟨⟨SeesOwnEvents.keptApart, KeptApart.seesOwnEvents⟩, fun h c' h' hagree => ?_⟩
  ext x
  rw [h.seesOwnEvents x, h'.seesOwnEvents x]
  simp only [hagree]

/-- The player 2, who has no guild and no invite, sees the raid of the player 1. -/
theorem guildless_sees_raid :
    (load sampleCalendar.events []).getPlayerEvents 2 (some 0) = {some sampleCalendar.events[0]} ∧
      ¬ SeesOwnEvents (load sampleCalendar.events []) 2 0 := by
  refine ⟨by decide, fun h => ?_⟩
  rcases h.keptApart.ofGuild _ List.mem_cons_self rfl with ⟨i, hi, -⟩ | hof
  · exact absurd hi List.not_mem_nil
  · exact hof.1 rfl

end FaceCore.Calendar
