import FaceCore.Event.WorldEvents

/-!
# The phases of world events

What every change of the state of a world event follows, unless a command makes it.

* `Follows`: the phases go forward; an event starts when its prerequisites are met, reaches
  `NEXTPHASE` when its conditions are met, and finishes when its length has passed;
* `Good`: the invariant of the events, with all changes so far;
* `Startable`, `Stoppable`: what `Update` queues; queued events stay so while others are handled;
* `Advances`: what an operation on one event leaves as it was.

Each function has its rule that it keeps `Good` and `Advances` its event.
-/

namespace FaceCore.WorldEvents

/-- The order of the states of a world event. -/
def GameEventState.phase : GameEventState → ℕ
  | .normal => 0
  | .worldInactive => 0
  | .worldConditions => 1
  | .worldNextphase => 2
  | .worldFinished => 3
  | .internal => 0

/-- A prerequisite is in `NEXTPHASE` or `FINISHED`, and its `nextstart` is not after `now`. -/
def Past (d : GameEventData) (now : ℕ) : Prop :=
  (d.state = .worldNextphase ∨ d.state = .worldFinished) ∧ d.nextstart ≤ now

theorem prerequisiteMet_iff {d : GameEventData} {now : ℕ} :
    prerequisiteMet d now = true ↔ Past d now := by
  simp [prerequisiteMet, Past]

theorem conditionsMet_iff {d : GameEventData} :
    conditionsMet d = true ↔ ∀ e ∈ d.conditions.entries, e.2.reqNum ≤ e.2.done := by
  simp [conditionsMet]

section

variable (clock : Clock)

/-- What a change of the state of a world event follows. -/
structure Follows (c : Change) : Prop where
  world : c.before.isWorld ∧ c.after.isWorld
  forward : c.before.phase ≤ c.after.phase
  start : c.before = .worldInactive → c.after ≠ .worldInactive →
    (c.events c.event).prerequisiteEvents ≠ ∅ ∧
      ∀ p ∈ (c.events c.event).prerequisiteEvents, Past (c.events p) (clock.now (c.reads - 1))
  reach : c.after = .worldNextphase →
    ∀ e ∈ (c.events c.event).conditions.entries, e.2.reqNum ≤ e.2.done
  finish : c.before ≠ .worldFinished → c.after = .worldFinished → c.before = .worldNextphase ∧
    clock.now c.reachedAt + (c.events c.event).length * 60 ≤ clock.now (c.reads - 1)

/-- A command made the change, or the change is as it should be. -/
def Sanctioned (c : Change) : Prop := c.byCommand = true ∨ Follows clock c

/-- An event in `NEXTPHASE` is due not before its length has passed; elsewhere `nextstart` is 0. -/
structure Timed (s : GameEventMgr) (id : ℕ) : Prop where
  due : s.state id = .worldNextphase →
    clock.now (s.reachedAt id) + (s.gameEvent id).lengthSeconds ≤ (s.gameEvent id).nextstart
  idle : (s.state id).isWorld → s.state id ≠ .worldNextphase → (s.gameEvent id).nextstart = 0
  short : (s.state id).isWorld → (s.gameEvent id).length * 60 < 2 ^ 32

/-- The events are timed, and so far every change was as it should be. -/
structure Good (s : GameEventMgr) : Prop where
  timed : ∀ id, Timed clock s id
  log : ∀ c ∈ s.log, Sanctioned clock c

/-- The event counts as past at the latest reading of the clock. -/
def Met (s : GameEventMgr) (id : ℕ) : Prop := Past (s.gameEvent id) (clock.now (s.reads - 1))

/-- The event waits, and its prerequisites are past. -/
structure Ready (s : GameEventMgr) (id : ℕ) : Prop where
  waits : s.state id = .worldInactive
  some : (s.gameEvent id).prerequisiteEvents ≠ ∅
  met : ∀ p ∈ (s.gameEvent id).prerequisiteEvents, Met clock s p

/-- What `Update` starts. -/
def Startable (s : GameEventMgr) (id : ℕ) : Prop :=
  (s.state id).isWorld = false ∨ s.state id = .worldConditions ∨ s.state id = .worldNextphase ∨
    Ready clock s id

/-- What `Update` stops. -/
def Stoppable (s : GameEventMgr) (id : ℕ) : Prop :=
  (s.state id).isWorld = false ∨ s.state id = .worldFinished ∨ s.state id = .worldInactive

/-- The event `id` went on, and all others stayed as they were. -/
structure Advances (s s' : GameEventMgr) (id : ℕ) : Prop where
  frame : ∀ q, q ≠ id → s'.gameEvent q = s.gameEvent q
  prerequisites : (s'.gameEvent id).prerequisiteEvents = (s.gameEvent id).prerequisiteEvents
  reads : s.reads ≤ s'.reads
  world : (s'.state id).isWorld = (s.state id).isWorld
  forward : (s.state id).phase ≤ (s'.state id).phase
  met : Met clock s id → Met clock s' id

end

namespace GameEventMgr

variable {s : GameEventMgr} {id q : ℕ} {st : GameEventState} {d : GameEventData}

@[simp] theorem gameEvent_tick : s.tick.gameEvent = s.gameEvent := rfl

@[simp] theorem reads_tick : s.tick.reads = s.reads + 1 := rfl

@[simp] theorem reachedAt_tick : s.tick.reachedAt = s.reachedAt := rfl

@[simp] theorem byCommand_tick : s.tick.byCommand = s.byCommand := rfl

@[simp] theorem log_tick : s.tick.log = s.log := rfl

@[simp] theorem activeEvents_tick : s.tick.activeEvents = s.activeEvents := rfl

@[simp] theorem reads_setEvent : (s.setEvent id d).reads = s.reads := rfl

@[simp] theorem reachedAt_setEvent : (s.setEvent id d).reachedAt = s.reachedAt := rfl

@[simp] theorem byCommand_setEvent : (s.setEvent id d).byCommand = s.byCommand := rfl

@[simp] theorem log_setEvent : (s.setEvent id d).log = s.log := rfl

@[simp] theorem gameEvent_setEvent_self : (s.setEvent id d).gameEvent id = d := by
  simp [setEvent]

@[simp] theorem gameEvent_setEvent_of_ne (h : q ≠ id) :
    (s.setEvent id d).gameEvent q = s.gameEvent q := by
  simp [setEvent, h]

@[simp] theorem reads_setState : (s.setState id st).reads = s.reads := rfl

@[simp] theorem byCommand_setState : (s.setState id st).byCommand = s.byCommand := rfl

@[simp] theorem gameEvent_setState_self :
    (s.setState id st).gameEvent id = { s.gameEvent id with state := st } := by
  simp [setState]

@[simp] theorem gameEvent_setState_of_ne (h : q ≠ id) :
    (s.setState id st).gameEvent q = s.gameEvent q := by
  simp [setState, h]

theorem reachedAt_setState_of_ne (h : q ≠ id) :
    (s.setState id st).reachedAt q = s.reachedAt q := by
  simp only [setState]
  split <;> simp [h]

theorem log_setState : (s.setState id st).log =
    s.log ++ [⟨id, s.state id, st, s.gameEvent, s.reads, s.reachedAt id, s.byCommand⟩] := rfl

end GameEventMgr

section

variable {clock : Clock} {s s' s'' : GameEventMgr} {id q : ℕ}

theorem Clock.now_le {m n : ℕ} (h : m ≤ n) : clock.now (m - 1) ≤ clock.now (n - 1) :=
  clock.mono (Nat.sub_le_sub_right h 1)

theorem Past.mono {d : GameEventData} {m n : ℕ} (h : Past d m) (hmn : m ≤ n) : Past d n :=
  ⟨h.1, h.2.trans hmn⟩

theorem Advances.state_eq (h : Advances clock s s' id) (hq : q ≠ id) : s'.state q = s.state q := by
  rw [GameEventMgr.state, h.frame q hq, GameEventMgr.state]

theorem Advances.met_all (h : Advances clock s s' id) (hq : Met clock s q) : Met clock s' q := by
  by_cases hid : q = id
  · subst hid
    exact h.met hq
  · rw [Met, h.frame q hid]
    exact Past.mono hq (Clock.now_le h.reads)

theorem Advances.ready (h : Advances clock s s' id) (hid : q ≠ id) (hq : Ready clock s q) :
    Ready clock s' q where
  waits := by rw [h.state_eq hid, hq.waits]
  some := by rw [h.frame q hid]; exact hq.some
  met := by
    rw [h.frame q hid]
    intro p hp
    exact h.met_all (hq.met p hp)

theorem Advances.startable (h : Advances clock s s' id) (hid : q ≠ id)
    (hq : Startable clock s q) : Startable clock s' q := by
  simp only [Startable, h.state_eq hid]
  rcases hq with hn | hc | hp | hr
  · exact .inl hn
  · exact .inr (.inl hc)
  · exact .inr (.inr (.inl hp))
  · exact .inr (.inr (.inr (h.ready hid hr)))

theorem Advances.stoppable (h : Advances clock s s' id) (hid : q ≠ id) (hq : Stoppable s q) :
    Stoppable s' q := by
  simpa only [Stoppable, h.state_eq hid] using hq

/-- No event goes back. -/
def Onward (s s' : GameEventMgr) : Prop :=
  ∀ q, (s'.state q).isWorld = (s.state q).isWorld ∧ (s.state q).phase ≤ (s'.state q).phase

theorem Onward.of_state (h : ∀ q, s'.state q = s.state q) : Onward s s' := by
  intro q
  rw [h q]
  exact ⟨rfl, le_rfl⟩

theorem Onward.trans (h : Onward s s') (h' : Onward s' s'') : Onward s s'' :=
  fun q => ⟨(h' q).1.trans (h q).1, (h q).2.trans (h' q).2⟩

theorem Advances.onward (h : Advances clock s s' id) : Onward s s' := by
  intro q
  by_cases hq : q = id
  · subst hq
    exact ⟨h.world, h.forward⟩
  · rw [h.state_eq hq]
    exact ⟨rfl, le_rfl⟩

theorem Timed.of_frame (h : Timed clock s q) (hd : s'.gameEvent q = s.gameEvent q)
    (hr : s'.reachedAt q = s.reachedAt q) : Timed clock s' q := by
  obtain ⟨hdue, hidle, hshort⟩ := h
  constructor <;> simp only [GameEventMgr.state, hd, hr]
  · exact hdue
  · exact hidle
  · exact hshort

theorem sanctioned_setState {st : GameEventState} (h : ∀ c ∈ s.log, Sanctioned clock c)
    (hc : Sanctioned clock
      ⟨id, s.state id, st, s.gameEvent, s.reads, s.reachedAt id, s.byCommand⟩) :
    ∀ c ∈ (s.setState id st).log, Sanctioned clock c := by
  intro c hmem
  rw [GameEventMgr.log_setState, List.mem_append, List.mem_singleton] at hmem
  rcases hmem with hmem | rfl
  · exact h c hmem
  · exact hc

theorem follows_inactive {c : Change} (hb : c.before = .worldInactive)
    (ha : c.after = .worldInactive) : Follows clock c where
  world := by simp [hb, ha, GameEventState.isWorld]
  forward := by rw [hb, ha]
  start _ hn := absurd ha hn
  reach hn := by simp [ha] at hn
  finish _ hn := by simp [ha] at hn

/-! ### The conditions of an event -/

/-- What `CheckOneGameEventConditions` can do. -/
theorem checkOneGameEventConditions_cases (clock : Clock) (s : GameEventMgr) (id : ℕ) :
    checkOneGameEventConditions clock s id = (false, s) ∨
      (conditionsMet (s.gameEvent id) ∧ (s.gameEvent id).nextstart = 0 ∧
        checkOneGameEventConditions clock s id =
          (true, ((s.setState id .worldNextphase).setEvent id
            { s.gameEvent id with
              state := .worldNextphase
              nextstart := clock.now s.reads + (s.gameEvent id).lengthSeconds }).tick)) ∨
      (conditionsMet (s.gameEvent id) ∧ (s.gameEvent id).nextstart ≠ 0 ∧
        checkOneGameEventConditions clock s id = (true, s.setState id .worldNextphase)) := by
  by_cases hm : conditionsMet (s.gameEvent id)
  · by_cases hn : (s.gameEvent id).nextstart = 0
    · exact .inr (.inl ⟨hm, hn, by
        simp [checkOneGameEventConditions, hm, hn, GameEventData.lengthSeconds]⟩)
    · exact .inr (.inr ⟨hm, hn, by simp [checkOneGameEventConditions, hm, hn]⟩)
  · exact .inl (by simp [checkOneGameEventConditions, hm])

theorem sanctioned_nextphase (hm : conditionsMet (s.gameEvent id))
    (hc : s.byCommand = true ∨ s.state id = .worldConditions ∨ s.state id = .worldNextphase) :
    Sanctioned clock
      ⟨id, s.state id, .worldNextphase, s.gameEvent, s.reads, s.reachedAt id, s.byCommand⟩ := by
  rcases hc with hb | hs
  · exact .inl hb
  · refine .inr ⟨?_, ?_, ?_, fun _ => conditionsMet_iff.1 hm, fun _ h => by simp at h⟩
    all_goals rcases hs with hs | hs <;> simp [hs, GameEventState.isWorld, GameEventState.phase]

theorem good_checkOneGameEventConditions (h : Good clock s) (hw : (s.state id).isWorld)
    (hc : s.byCommand = true ∨ s.state id = .worldConditions ∨ s.state id = .worldNextphase) :
    Good clock (checkOneGameEventConditions clock s id).2 := by
  obtain ⟨hdue, hidle, hshort⟩ := h.timed id
  rcases checkOneGameEventConditions_cases clock s id with hr | ⟨hm, hn, hr⟩ | ⟨hm, hn, hr⟩
  · rw [hr]
    exact h
  · rw [hr]
    refine ⟨fun q => ?_, by simpa using sanctioned_setState h.log (sanctioned_nextphase hm hc)⟩
    by_cases hq : q = id
    · subst hq
      refine ⟨fun _ => ?_, fun _ hne => ?_, fun _ => ?_⟩
      · -- a new arrival takes the clock as it is; else the event has no length
        by_cases hp : s.state q = .worldNextphase
        · have hdue := hdue hp
          rw [hn] at hdue
          simp only [GameEventMgr.setState, GameEventMgr.reachedAt_tick,
            GameEventMgr.reachedAt_setEvent, hp, ne_eq, not_true_eq_false, and_false, if_false,
            GameEventMgr.gameEvent_tick, GameEventMgr.gameEvent_setEvent_self,
            GameEventData.lengthSeconds] at hdue ⊢
          omega
        · simp [GameEventMgr.setState, hp, GameEventData.lengthSeconds]
      · simp [GameEventMgr.state] at hne
      · simpa using hshort hw
    · exact (h.timed q).of_frame (by simp [hq])
        (by simp [GameEventMgr.reachedAt_setState_of_ne hq])
  · rw [hr]
    have hp : s.state id = .worldNextphase := by
      by_contra hp
      exact hn (hidle hw hp)
    refine ⟨fun q => ?_, sanctioned_setState h.log (sanctioned_nextphase hm hc)⟩
    by_cases hq : q = id
    · subst hq
      refine ⟨fun _ => ?_, fun _ hne => ?_, fun _ => ?_⟩
      · simpa [GameEventMgr.setState, hp, GameEventData.lengthSeconds] using hdue hp
      · simp [GameEventMgr.state] at hne
      · simpa using hshort hw
    · exact (h.timed q).of_frame (by simp [hq]) (GameEventMgr.reachedAt_setState_of_ne hq)

theorem advances_checkOneGameEventConditions (h : Good clock s)
    (hs : s.state id = .worldConditions ∨ s.state id = .worldNextphase) :
    Advances clock s (checkOneGameEventConditions clock s id).2 id := by
  have hw : (s.state id).isWorld := by rcases hs with hs | hs <;> simp [hs, GameEventState.isWorld]
  have hphase : (s.state id).phase ≤ 2 := by
    rcases hs with hs | hs <;> simp [hs, GameEventState.phase]
  rcases checkOneGameEventConditions_cases clock s id with hr | ⟨-, hn, hr⟩ | ⟨-, -, hr⟩
  · rw [hr]
    exact ⟨fun _ _ => rfl, rfl, le_rfl, rfl, le_rfl, fun hq => hq⟩
  · rw [hr]
    refine ⟨fun q hq => by simp [hq], by simp, by simp, ?_, ?_, fun hq => ?_⟩
    · rw [hw]
      simp [GameEventMgr.state, GameEventState.isWorld]
    · simpa [GameEventMgr.state, GameEventState.phase] using hphase
    · -- an event that was past with `nextstart` 0 has no length
      have hp : s.state id = .worldNextphase := by
        rcases hs with hc | hp
        · simp [Met, Past, GameEventMgr.state] at hq hc
          simp [hc] at hq
        · exact hp
      have hdue := (h.timed id).due hp
      simp only [Met, Past, GameEventMgr.gameEvent_tick, GameEventMgr.gameEvent_setEvent_self,
        GameEventMgr.reads_tick, GameEventMgr.reads_setEvent, GameEventMgr.reads_setState,
        Nat.add_sub_cancel, true_or, true_and]
      omega
  · rw [hr]
    refine ⟨fun q hq => by simp [hq], by simp, by simp, ?_, ?_, fun hq => ?_⟩
    · rw [hw]
      simp [GameEventMgr.state, GameEventState.isWorld]
    · simpa [GameEventMgr.state, GameEventState.phase] using hphase
    · simpa [Met, Past] using hq.2

/-! ### Starting and stopping -/

theorem Good.of_frame (h : Good clock s)
    (hd : ∀ q, (s'.gameEvent q).state = (s.gameEvent q).state ∧
      ((s.state q).isWorld → s'.gameEvent q = s.gameEvent q))
    (hr : s'.reachedAt = s.reachedAt) (hl : s'.log = s.log) : Good clock s' := by
  refine ⟨fun q => ?_, by rw [hl]; exact h.log⟩
  by_cases hw : (s.state q).isWorld
  · exact (h.timed q).of_frame ((hd q).2 hw) (by rw [hr])
  · have hst : s'.state q = s.state q := (hd q).1
    refine ⟨fun hp => ?_, fun hw' => ?_, fun hw' => ?_⟩
    · rw [hst] at hp
      simp [hp, GameEventState.isWorld] at hw
    · exact absurd (hst ▸ hw') hw
    · exact absurd (hst ▸ hw') hw

theorem Good.active (h : Good clock s) (a : Finset ℕ) :
    Good clock { s with activeEvents := a } :=
  h.of_frame (fun _ => ⟨rfl, fun _ => rfl⟩) rfl rfl

/-- An event that is no world event changed in its times only. -/
structure Plain (s s' : GameEventMgr) (id : ℕ) : Prop where
  world : (s.state id).isWorld = false
  event : ∃ d : GameEventData, s'.gameEvent = Function.update s.gameEvent id d ∧
    d.state = s.state id ∧ d.prerequisiteEvents = (s.gameEvent id).prerequisiteEvents
  reads : s.reads ≤ s'.reads
  reachedAt : s'.reachedAt = s.reachedAt
  log : s'.log = s.log

theorem Plain.good (h : Plain s s' id) (hg : Good clock s) : Good clock s' := by
  obtain ⟨d, hd, hst, -⟩ := h.event
  refine hg.of_frame (fun q => ?_) h.reachedAt h.log
  rw [hd]
  by_cases hq : q = id
  · subst hq
    exact ⟨by simp [hst, GameEventMgr.state], fun hw => by simp [h.world] at hw⟩
  · simp [hq]

theorem Plain.state (h : Plain s s' id) (q : ℕ) : s'.state q = s.state q := by
  obtain ⟨d, hd, hst, -⟩ := h.event
  by_cases hq : q = id
  · subst hq
    simp [GameEventMgr.state, hd, hst]
  · simp [GameEventMgr.state, hd, hq]

theorem Plain.advances (h : Plain s s' id) : Advances clock s s' id := by
  obtain ⟨d, hd, hst, hp⟩ := h.event
  refine ⟨fun q hq => by simp [hd, hq], by simp [hd, hp], h.reads, by rw [h.state],
    by rw [h.state], fun hq => ?_⟩
  have hw := h.world
  rcases hq.1 with he | he <;> simp [GameEventMgr.state, he, GameEventState.isWorld] at hw

theorem plain_of_dates (hw : (s.state id).isWorld = false) (active : Finset ℕ) {d : GameEventData}
    (hstate : d.state = s.state id)
    (hbefore : d.prerequisiteEvents = (s.gameEvent id).prerequisiteEvents) (dated : Bool) :
    Plain s (if dated then (({ s with activeEvents := active }).setEvent id d).tick
      else { s with activeEvents := active }) id := by
  cases dated with
  | false => exact ⟨hw, ⟨s.gameEvent id, by simp, rfl, rfl⟩, le_rfl, rfl, rfl⟩
  | true => exact ⟨hw, ⟨d, rfl, hstate, hbefore⟩, Nat.le_succ s.reads, rfl, rfl⟩

theorem startEvent_plain (hw : (s.state id).isWorld = false) (overwrite : Bool) :
    Plain s (startEvent clock s id overwrite).2 id := by
  simp only [startEvent, hw, Bool.not_false, if_true, apply_ite Prod.snd]
  exact plain_of_dates hw _ (by split <;> rfl) (by split <;> rfl) overwrite

/-- An event that waited collects its conditions. -/
def opened (s : GameEventMgr) (id : ℕ) : GameEventMgr :=
  if s.state id = .worldInactive then s.setState id .worldConditions else s

theorem startEvent_world (hw : (s.state id).isWorld) (overwrite : Bool) :
    startEvent clock s id overwrite = checkOneGameEventConditions clock
      { opened s id with activeEvents := insert id (opened s id).activeEvents } id := by
  simp [startEvent, hw, opened]

theorem good_opened (h : Good clock s) (hw : (s.state id).isWorld)
    (hs : s.byCommand = true ∨ Startable clock s id) : Good clock (opened s id) := by
  by_cases hi : s.state id = .worldInactive
  · rw [opened, if_pos hi]
    refine ⟨fun q => ?_, sanctioned_setState h.log ?_⟩
    · by_cases hq : q = id
      · subst hq
        refine ⟨fun hp => ?_, fun _ _ => ?_, fun _ => ?_⟩
        · simp [GameEventMgr.state] at hp
        · simpa using (h.timed q).idle hw (by simp [hi])
        · simpa using (h.timed q).short hw
      · exact (h.timed q).of_frame (by simp [hq]) (GameEventMgr.reachedAt_setState_of_ne hq)
    · rcases hs with hb | hs
      · exact .inl hb
      · have hr : Ready clock s id := by
          simpa [Startable, hi, GameEventState.isWorld] using hs
        refine .inr ⟨by simp [hi, GameEventState.isWorld], by simp [hi, GameEventState.phase],
          fun _ _ => ⟨hr.some, hr.met⟩, fun hn => by simp at hn, fun _ hn => by simp at hn⟩
  · rw [opened, if_neg hi]
    exact h

theorem byCommand_opened : (opened s id).byCommand = s.byCommand := by
  simp only [opened]
  split <;> rfl

theorem isWorld_opened (hw : (s.state id).isWorld) : ((opened s id).state id).isWorld := by
  simp only [opened]
  split
  · simp [GameEventMgr.state, GameEventState.isWorld]
  · exact hw

theorem state_opened (hw : (s.state id).isWorld) (hs : Startable clock s id) :
    (opened s id).state id = .worldConditions ∨ (opened s id).state id = .worldNextphase := by
  rcases hs with hn | hc | hp | hr
  · simp [hn] at hw
  · simp [opened, hc]
  · simp [opened, hp]
  · rw [opened, if_pos hr.waits]
    simp [GameEventMgr.state]

theorem advances_opened : Advances clock s (opened s id) id := by
  by_cases hi : s.state id = .worldInactive
  · rw [opened, if_pos hi]
    refine ⟨fun q hq => by simp [hq], by simp, le_rfl, ?_, ?_, fun hq => ?_⟩
    · rw [hi]
      simp [GameEventMgr.state, GameEventState.isWorld]
    · simp [hi, GameEventState.phase]
    · have hst : (s.gameEvent id).state = .worldInactive := hi
      simp [Met, Past, hst] at hq
  · rw [opened, if_neg hi]
    exact ⟨fun _ _ => rfl, rfl, le_rfl, rfl, le_rfl, fun hq => hq⟩

theorem Advances.trans (h : Advances clock s s' id) (h' : Advances clock s' s'' id) :
    Advances clock s s'' id where
  frame q hq := (h'.frame q hq).trans (h.frame q hq)
  prerequisites := h'.prerequisites.trans h.prerequisites
  reads := h.reads.trans h'.reads
  world := h'.world.trans h.world
  forward := h.forward.trans h'.forward
  met hq := h'.met (h.met hq)

theorem good_startEvent (h : Good clock s) (overwrite : Bool)
    (hs : s.byCommand = true ∨ Startable clock s id) :
    Good clock (startEvent clock s id overwrite).2 := by
  by_cases hw : (s.state id).isWorld
  · rw [startEvent_world hw]
    have hg := good_opened h hw hs
    refine good_checkOneGameEventConditions (hg.active _) (isWorld_opened hw) ?_
    rcases hs with hb | hs
    · exact .inl (by simpa [byCommand_opened] using hb)
    · exact .inr (state_opened hw hs)
  · exact (startEvent_plain (by simpa using hw) overwrite).good h

theorem advances_startEvent (h : Good clock s) (overwrite : Bool) (hs : Startable clock s id) :
    Advances clock s (startEvent clock s id overwrite).2 id := by
  by_cases hw : (s.state id).isWorld
  · rw [startEvent_world hw]
    have hg := good_opened h hw (.inr hs)
    refine advances_opened.trans ?_
    have hc := advances_checkOneGameEventConditions
      (hg.active (insert id (opened s id).activeEvents)) (state_opened hw hs)
    exact ⟨hc.frame, hc.prerequisites, hc.reads, hc.world, hc.forward, hc.met⟩
  · exact (startEvent_plain (by simpa using hw) overwrite).advances

theorem stopEvent_plain (hw : (s.state id).isWorld = false) (overwrite : Bool) :
    Plain s (stopEvent clock s id overwrite) id := by
  simp only [stopEvent, hw, Bool.not_false, Bool.and_true, Bool.false_eq_true, if_false]
  exact plain_of_dates hw _ (by split <;> rfl) (by split <;> rfl) overwrite

/-- A world event that is put back to `INACTIVE`. -/
def reset (s : GameEventMgr) (id : ℕ) : GameEventMgr :=
  let s := s.setState id .worldInactive
  let d := s.gameEvent id
  s.setEvent id { d with nextstart := 0, conditions := resetConditions d.conditions }

theorem stopEvent_world (hw : (s.state id).isWorld) (overwrite : Bool) :
    stopEvent clock s id overwrite =
      if overwrite || s.state id ≠ .worldFinished then
        reset { s with activeEvents := s.activeEvents.erase id } id
      else { s with activeEvents := s.activeEvents.erase id } := by
  simp only [stopEvent, hw, Bool.not_true, Bool.and_false, Bool.false_eq_true, if_false, if_true]
  rfl

theorem good_reset (h : Good clock s) (hw : (s.state id).isWorld)
    (hs : s.byCommand = true ∨ s.state id = .worldInactive) : Good clock (reset s id) := by
  refine ⟨fun q => ?_, sanctioned_setState h.log ?_⟩
  · by_cases hq : q = id
    · subst hq
      refine ⟨fun hp => ?_, fun _ _ => ?_, fun _ => ?_⟩
      · simp [reset, GameEventMgr.state] at hp
      · simp [reset]
      · simpa [reset] using (h.timed q).short hw
    · exact (h.timed q).of_frame (by simp [reset, hq])
        (by simp [reset, GameEventMgr.reachedAt_setState_of_ne hq])
  · rcases hs with hb | hi
    · exact .inl hb
    · exact .inr (follows_inactive hi rfl)

theorem advances_reset (hi : s.state id = .worldInactive) : Advances clock s (reset s id) id := by
  refine ⟨fun q hq => by simp [reset, hq], by simp [reset], le_rfl, ?_, ?_, fun hq => ?_⟩
  · rw [hi]
    simp [reset, GameEventMgr.state]
  · simp [hi, GameEventState.phase]
  · have hst : (s.gameEvent id).state = .worldInactive := hi
    simp [Met, Past, hst] at hq

theorem good_stopEvent (h : Good clock s) (overwrite : Bool)
    (hs : s.byCommand = true ∨ overwrite = false ∧ Stoppable s id) :
    Good clock (stopEvent clock s id overwrite) := by
  by_cases hw : (s.state id).isWorld
  · rw [stopEvent_world hw]
    split
    case isTrue hf =>
      refine good_reset (h.active _) hw ?_
      rcases hs with hb | ⟨ho, hs⟩
      · exact .inl hb
      · have hi : s.state id = .worldInactive := by
          simpa [hw, show s.state id ≠ .worldFinished by simpa [ho] using hf, Stoppable] using hs
        exact .inr hi
    case isFalse => exact h.active _
  · exact (stopEvent_plain (by simpa using hw) overwrite).good h

theorem advances_stopEvent (hs : Stoppable s id) :
    Advances clock s (stopEvent clock s id false) id := by
  by_cases hw : (s.state id).isWorld
  · rw [stopEvent_world hw]
    split
    case isTrue hf =>
      have hi : s.state id = .worldInactive := by
        simpa [hw, show s.state id ≠ .worldFinished by simpa using hf, Stoppable] using hs
      have hr : Advances clock { s with activeEvents := s.activeEvents.erase id }
          (reset { s with activeEvents := s.activeEvents.erase id } id) id := advances_reset hi
      exact ⟨hr.frame, hr.prerequisites, hr.reads, hr.world, hr.forward, hr.met⟩
    case isFalse => exact ⟨fun _ _ => rfl, rfl, le_rfl, rfl, le_rfl, fun hq => hq⟩
  · exact (stopEvent_plain (by simpa using hw) false).advances

/-! ### One turn of `Update` -/

theorem Good.tick (h : Good clock s) : Good clock s.tick :=
  h.of_frame (fun _ => ⟨rfl, fun _ => rfl⟩) rfl rfl

theorem Advances.tick (clock : Clock) (s : GameEventMgr) (id : ℕ) : Advances clock s s.tick id :=
  ⟨fun _ _ => rfl, rfl, Nat.le_succ _, rfl, le_rfl,
    fun hq => hq.mono (Clock.now_le (Nat.le_succ s.reads))⟩

theorem Advances.refl (clock : Clock) (s : GameEventMgr) (id : ℕ) : Advances clock s s id :=
  ⟨fun _ _ => rfl, rfl, le_rfl, rfl, le_rfl, fun hq => hq⟩

/-- The check of an event reads the clock at most, and tells what can start from what can stop. -/
theorem checkOneGameEvent_spec (clock : Clock) (s : GameEventMgr) (id : ℕ) :
    ((checkOneGameEvent clock s id).2 = s ∨ (checkOneGameEvent clock s id).2 = s.tick) ∧
      ((checkOneGameEvent clock s id).1 = true →
        Startable clock (checkOneGameEvent clock s id).2 id) ∧
      ((checkOneGameEvent clock s id).1 = false → Stoppable (checkOneGameEvent clock s id).2 id) := by
  cases hst : (s.gameEvent id).state with
  | worldInactive =>
    have hr : checkOneGameEvent clock s id = ((s.gameEvent id).prerequisiteEvents ≠ ∅ &&
        decide (∀ p ∈ (s.gameEvent id).prerequisiteEvents,
          prerequisiteMet (s.gameEvent p) (clock.now s.reads) = true), s.tick) := by
      simp only [checkOneGameEvent, hst]
    rw [hr]
    refine ⟨.inr rfl, fun hm => ?_, fun _ => .inr (.inr hst)⟩
    rw [Bool.and_eq_true, decide_eq_true_eq, decide_eq_true_eq] at hm
    refine .inr (.inr (.inr ⟨hst, hm.1, fun p hp => ?_⟩))
    simpa [Met] using prerequisiteMet_iff.1 (hm.2 p hp)
  | _ => simp [checkOneGameEvent, hst, Startable, Stoppable, GameEventMgr.state,
      GameEventState.isWorld]

theorem gameEvent_checkOneGameEvent :
    (checkOneGameEvent clock s id).2.gameEvent = s.gameEvent := by
  rcases (checkOneGameEvent_spec clock s id).1 with hr | hr <;> rw [hr]
  rfl

/-- A world event whose time is up. -/
def finished (s : GameEventMgr) (id : ℕ) : GameEventMgr :=
  let s := s.setState id .worldFinished
  s.setEvent id { s.gameEvent id with nextstart := 0 }

theorem state_finished : (finished s id).state id = .worldFinished := by
  simp [finished, GameEventMgr.state]

theorem good_finished (h : Good clock s) (hp : s.state id = .worldNextphase)
    (hn : (s.gameEvent id).nextstart ≤ clock.now (s.reads - 1)) : Good clock (finished s id) := by
  have hw : (s.state id).isWorld := by simp [hp, GameEventState.isWorld]
  refine ⟨fun q => ?_, sanctioned_setState h.log (.inr ⟨?_, ?_, ?_, ?_, fun _ _ => ⟨hp, ?_⟩⟩)⟩
  · by_cases hq : q = id
    · subst hq
      refine ⟨fun hf => ?_, fun _ _ => ?_, fun _ => ?_⟩
      · simp [state_finished] at hf
      · simp [finished]
      · simpa [finished] using (h.timed q).short hw
    · exact (h.timed q).of_frame (by simp [finished, hq])
        (by simp [finished, GameEventMgr.reachedAt_setState_of_ne hq])
  · simp [hp, GameEventState.isWorld]
  · simp [hp, GameEventState.phase]
  · simp [hp]
  · simp
  · have hdue := (h.timed id).due hp
    rw [GameEventData.lengthSeconds, Nat.mod_eq_of_lt ((h.timed id).short hw)] at hdue
    exact hdue.trans hn

theorem advances_finished (hp : s.state id = .worldNextphase) :
    Advances clock s (finished s id) id := by
  refine ⟨fun q hq => by simp [finished, hq], by simp [finished], le_rfl, ?_, ?_, fun _ => ?_⟩
  · rw [state_finished, hp]
    rfl
  · rw [state_finished, hp]
    simp [GameEventState.phase]
  · exact ⟨.inr state_finished, by simp [finished]⟩

theorem state_checkOneGameEventConditions (clock : Clock)
    (hs : s.state id = .worldConditions ∨ s.state id = .worldNextphase) :
    (checkOneGameEventConditions clock s id).2.state id = .worldConditions ∨
      (checkOneGameEventConditions clock s id).2.state id = .worldNextphase := by
  rcases checkOneGameEventConditions_cases clock s id with hr | ⟨-, -, hr⟩ | ⟨-, -, hr⟩
  · rw [hr]
    exact hs
  · simp [hr, GameEventMgr.state]
  · simp [hr, GameEventMgr.state]

/-- What a turn queues: the event, if at all, for what it is fit for. -/
def Queued (clock : Clock) (p p' : Pass) (id : ℕ) : Prop :=
  p'.activate = p.activate ∧ p'.deactivate = p.deactivate ∨
    p'.activate = p.activate ++ [id] ∧ p'.deactivate = p.deactivate ∧
      Startable clock p'.mgr id ∨
    p'.activate = p.activate ∧ p'.deactivate = p.deactivate ++ [id] ∧ Stoppable p'.mgr id

theorem queued_activate {p : Pass} {c : Prop} [Decidable c] (h : Startable clock s id) :
    Queued clock p ⟨s, if c then p.activate ++ [id] else p.activate, p.deactivate⟩ id := by
  by_cases hc : c
  · exact .inr (.inl ⟨if_pos hc, rfl, h⟩)
  · exact .inl ⟨if_neg hc, rfl⟩

theorem queued_deactivate {p : Pass} {c : Prop} [Decidable c] (h : Stoppable s id) :
    Queued clock p ⟨s, p.activate, if c then p.deactivate ++ [id] else p.deactivate⟩ id := by
  by_cases hc : c
  · exact .inr (.inr ⟨rfl, if_pos hc, h⟩)
  · exact .inl ⟨rfl, if_neg hc⟩

/-- What a turn of the loop does: the event goes on, and is queued. -/
theorem passTurn_spec {currenttime : ℕ} {p : Pass} (h : Good clock p.mgr)
    (ht : currenttime ≤ clock.now (p.mgr.reads - 1)) (id : ℕ) :
    Good clock (passTurn clock currenttime p id).mgr ∧
      Advances clock p.mgr (passTurn clock currenttime p id).mgr id ∧
      Queued clock p (passTurn clock currenttime p id) id := by
  obtain ⟨hmgr, hstart, hstop⟩ := checkOneGameEvent_spec clock p.mgr id
  rw [passTurn]
  generalize checkOneGameEvent clock p.mgr id = r at hmgr hstart hstop ⊢
  obtain ⟨b, s⟩ := r
  simp only at hmgr hstart hstop ⊢
  have hg : Good clock s := by rcases hmgr with rfl | rfl; exacts [h, h.tick]
  have ha : Advances clock p.mgr s id := by
    rcases hmgr with rfl | rfl
    exacts [Advances.refl clock _ id, Advances.tick clock _ id]
  cases b with
  | false =>
    rw [if_neg Bool.false_ne_true]
    exact ⟨hg, ha, queued_deactivate (hstop rfl)⟩
  | true =>
    rw [if_pos rfl]
    by_cases hp : s.state id = .worldNextphase ∧ (s.gameEvent id).nextstart ≤ currenttime
    · rw [if_pos hp]
      exact ⟨good_finished hg hp.1 (hp.2.trans (ht.trans (Clock.now_le ha.reads))),
        ha.trans (advances_finished hp.1), queued_deactivate (.inr (.inl state_finished))⟩
    · rw [if_neg hp]
      by_cases hc : s.state id = .worldConditions
      · rw [if_pos hc]
        have hs := state_checkOneGameEventConditions clock (.inl hc)
        exact ⟨good_checkOneGameEventConditions hg (by simp [hc, GameEventState.isWorld])
          (.inr (.inl hc)), ha.trans (advances_checkOneGameEventConditions hg (.inl hc)),
          queued_activate (.inr (hs.imp_right .inl))⟩
      · rw [if_neg hc]
        exact ⟨hg, ha, queued_activate (hstart rfl)⟩

end

end FaceCore.WorldEvents
