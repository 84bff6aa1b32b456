import FaceCore.Event.WorldPhases

/-!
# Runs of the world events

* `update_spec`: a pass of `Update` keeps the invariant, and no event goes back;
* `Recorded.step`: the record of the changes leads to the states;
* `Rests.step`: without commands the events that wait keep waiting;
* `changes_follow`: the changes of a whole run.
-/

namespace FaceCore.WorldEvents

variable {clock : Clock} {s s' : GameEventMgr} {id q : ℕ}

/-! ### `Update` -/

/-- The invariant of the loop of `Update` before the turn of `k`. -/
structure PassOk (clock : Clock) (currenttime k : ℕ) (p : Pass) : Prop where
  good : Good clock p.mgr
  time : currenttime ≤ clock.now (p.mgr.reads - 1)
  startable : ∀ q ∈ p.activate, Startable clock p.mgr q
  stoppable : ∀ q ∈ p.deactivate, Stoppable p.mgr q
  below : ∀ q ∈ p.activate ++ p.deactivate, q < k
  nodup : (p.activate ++ p.deactivate).Nodup

theorem PassOk.turn {currenttime k : ℕ} {p : Pass} (h : PassOk clock currenttime k p) :
    PassOk clock currenttime (k + 1) (passTurn clock currenttime p k) := by
  obtain ⟨hgood, hadv, hqueue⟩ := passTurn_spec h.good h.time k
  generalize passTurn clock currenttime p k = p' at hgood hadv hqueue ⊢
  have hfresh : k ∉ p.activate ++ p.deactivate := fun hk => lt_irrefl k (h.below k hk)
  have hstart : ∀ q ∈ p.activate, Startable clock p'.mgr q := by
    intro q hq
    refine hadv.startable ?_ (h.startable q hq)
    rintro rfl
    exact hfresh (List.mem_append_left _ hq)
  have hstop : ∀ q ∈ p.deactivate, Stoppable p'.mgr q := by
    intro q hq
    refine hadv.stoppable ?_ (h.stoppable q hq)
    rintro rfl
    exact hfresh (List.mem_append_right _ hq)
  have hbelow : ∀ q ∈ p.activate ++ p.deactivate, q < k + 1 :=
    fun q hq => Nat.lt_succ_of_lt (h.below q hq)
  -- the queues with `k` added, in whatever place
  have hadd : ∀ l : List ℕ, l.Perm (k :: (p.activate ++ p.deactivate)) →
      (∀ q ∈ l, q < k + 1) ∧ l.Nodup := by
    intro l hl
    refine ⟨fun q hq => ?_, hl.nodup_iff.2 (List.nodup_cons.2 ⟨hfresh, h.nodup⟩)⟩
    rcases List.mem_cons.1 (hl.mem_iff.1 hq) with rfl | hq
    · exact Nat.lt_succ_self q
    · exact hbelow q hq
  have htime := h.time.trans (Clock.now_le hadv.reads)
  rcases hqueue with ⟨ha, hd⟩ | ⟨ha, hd, hk⟩ | ⟨ha, hd, hk⟩
  · exact ⟨hgood, htime, by rwa [ha], by rwa [hd], by rwa [ha, hd], by rw [ha, hd]; exact h.nodup⟩
  · have hnew := hadd (p.activate ++ [k] ++ p.deactivate) (by simp)
    refine ⟨hgood, htime, ?_, ?_, ?_, ?_⟩
    · rw [ha]
      exact List.forall_mem_append.2 ⟨hstart, by simpa using hk⟩
    · rw [hd]
      exact hstop
    · rw [ha, hd]
      exact hnew.1
    · rw [ha, hd]
      exact hnew.2
  · have hnew := hadd (p.activate ++ (p.deactivate ++ [k])) (by
      rw [← List.append_assoc]
      exact List.perm_append_singleton k _)
    refine ⟨hgood, htime, ?_, ?_, ?_, ?_⟩
    · rw [ha]
      exact hstart
    · rw [hd]
      exact List.forall_mem_append.2 ⟨hstop, by simpa using hk⟩
    · rw [ha, hd]
      exact hnew.1
    · rw [ha, hd]
      exact hnew.2

theorem passes_ok (h : Good clock s) (n : ℕ) :
    PassOk clock (clock.now s.reads) (1 + n)
        ((List.range' 1 n).foldl (passTurn clock (clock.now s.reads)) ⟨s.tick, [], []⟩) ∧
      Onward s ((List.range' 1 n).foldl (passTurn clock (clock.now s.reads)) ⟨s.tick, [], []⟩).mgr := by
  induction n with
  | zero =>
    exact ⟨⟨h.tick, le_rfl, by simp, by simp, by simp, by simp⟩, (Advances.tick clock s 0).onward⟩
  | succ n ih =>
    rw [List.range'_1_concat, List.foldl_concat]
    exact ⟨ih.1.turn, ih.2.trans (passTurn_spec ih.1.good ih.1.time (1 + n)).2.1.onward⟩

/-- Queued events, handled one after another: what is fit for it stays so until its turn. -/
theorem foldl_queue {f : GameEventMgr → ℕ → GameEventMgr} {P : GameEventMgr → ℕ → Prop}
    (hstep : ∀ s q, Good clock s → P s q → Good clock (f s q) ∧ Advances clock s (f s q) q)
    (hkeep : ∀ s s' id q, Advances clock s s' id → q ≠ id → P s q → P s' q) (l : List ℕ)
    (s : GameEventMgr) (hl : l.Nodup) (hg : Good clock s) (hP : ∀ q ∈ l, P s q) :
    Good clock (l.foldl f s) ∧ Onward s (l.foldl f s) ∧
      ∀ q, q ∉ l → (l.foldl f s).state q = s.state q := by
  induction l generalizing s with
  | nil => exact ⟨hg, Onward.of_state fun _ => rfl, fun _ _ => rfl⟩
  | cons id l ih =>
    obtain ⟨hid, hl⟩ := List.nodup_cons.1 hl
    obtain ⟨hg', ha⟩ := hstep s id hg (hP id List.mem_cons_self)
    obtain ⟨hgood, hon, hstate⟩ := ih (f s id) hl hg' fun q hq =>
      hkeep s _ id q ha (fun he => hid (he ▸ hq)) (hP q (List.mem_cons_of_mem _ hq))
    refine ⟨hgood, ha.onward.trans hon, fun q hq => ?_⟩
    rw [List.mem_cons, not_or] at hq
    rw [List.foldl_cons, hstate q hq.2, ha.state_eq hq.1]

theorem update_spec (h : Good clock s) (size : ℕ) :
    Good clock (update clock size s) ∧ Onward s (update clock size s) := by
  obtain ⟨hp, hon⟩ := passes_ok h (size - 1)
  simp only [update]
  generalize (List.range' 1 (size - 1)).foldl (passTurn clock (clock.now s.reads)) ⟨s.tick, [], []⟩
    = p at hp hon ⊢
  obtain ⟨hla, hld, hdis⟩ := List.nodup_append.1 hp.nodup
  obtain ⟨hg, hon', hstate⟩ := foldl_queue (f := fun s id => (startEvent clock s id false).2)
    (fun s q hg hq => ⟨good_startEvent hg false (.inr hq), advances_startEvent hg false hq⟩)
    (fun s s' id q ha hq hs => ha.startable hq hs) p.activate p.mgr hla hp.good hp.startable
  have hstop : ∀ q ∈ p.deactivate,
      Stoppable (p.activate.foldl (fun s id => (startEvent clock s id false).2) p.mgr) q := by
    intro q hq
    have hnot : q ∉ p.activate := fun ha => hdis q ha q hq rfl
    simpa only [Stoppable, hstate q hnot] using hp.stoppable q hq
  obtain ⟨hg', hon'', -⟩ := foldl_queue (f := fun s id => stopEvent clock s id false)
    (fun s q hg hq => ⟨good_stopEvent hg false (.inr ⟨rfl, hq⟩), advances_stopEvent hq⟩)
    (fun s s' id q ha hq hs => ha.stoppable hq hs) p.deactivate _ hld hg hstop
  exact ⟨hg', (hon.trans hon').trans hon''⟩

/-! ### Completed quests -/

/-- What `HandleQuestComplete` does: nothing, or a condition is counted and all are checked. -/
theorem handleQuestComplete_cases (clock : Clock) (quests : ℕ → Option QuestToCondition)
    (s : GameEventMgr) (questId : ℕ) :
    handleQuestComplete clock quests s questId = s ∨
      ∃ id m, s.state id = .worldConditions ∧ handleQuestComplete clock quests s questId =
        (checkOneGameEventConditions clock
          (s.setEvent id { s.gameEvent id with conditions := m }) id).2 := by
  simp only [handleQuestComplete]
  split
  · exact .inl rfl
  · split
    · exact .inl rfl
    · split
      · exact .inl rfl
      case isFalse hc =>
        split
        · exact .inl rfl
        · split
          · exact .inr ⟨_, _, not_not.1 hc, rfl⟩
          · exact .inl rfl

theorem state_collected (m : SortedMap ℕ FinishCondition) (q : ℕ) :
    (s.setEvent id { s.gameEvent id with conditions := m }).state q = s.state q := by
  by_cases hq : q = id
  · subst hq
    simp [GameEventMgr.state]
  · simp [GameEventMgr.state, hq]

theorem good_collected (h : Good clock s) (m : SortedMap ℕ FinishCondition) :
    Good clock (s.setEvent id { s.gameEvent id with conditions := m }) := by
  refine ⟨fun q => ?_, h.log⟩
  by_cases hq : q = id
  · subst hq
    obtain ⟨hdue, hidle, hshort⟩ := h.timed q
    constructor <;> rw [state_collected] <;>
      simp only [GameEventMgr.gameEvent_setEvent_self, GameEventMgr.reachedAt_setEvent]
    exacts [hdue, hidle, hshort]
  · exact (h.timed q).of_frame (by simp [hq]) rfl

theorem handleQuestComplete_spec (h : Good clock s) (quests : ℕ → Option QuestToCondition)
    (questId : ℕ) :
    Good clock (handleQuestComplete clock quests s questId) ∧
      Onward s (handleQuestComplete clock quests s questId) := by
  rcases handleQuestComplete_cases clock quests s questId with hr | ⟨id, m, hc, hr⟩
  · rw [hr]
    exact ⟨h, Onward.of_state fun _ => rfl⟩
  · rw [hr]
    have hg : Good clock (s.setEvent id { s.gameEvent id with conditions := m }) :=
      good_collected h m
    have hc' : (s.setEvent id { s.gameEvent id with conditions := m }).state id = _ :=
      (state_collected m id).trans hc
    refine ⟨good_checkOneGameEventConditions hg (by simp [hc', GameEventState.isWorld])
      (.inr (.inl hc')), ?_⟩
    exact (Onward.of_state (state_collected m)).trans
      (advances_checkOneGameEventConditions hg (.inl hc')).onward

/-! ### Steps and runs -/

theorem Good.command (h : Good clock s) (b : Bool) : Good clock { s with byCommand := b } :=
  h.of_frame (fun _ => ⟨rfl, fun _ => rfl⟩) rfl rfl

theorem good_step {w : Setup} (h : Good w.clock s) (op : Op) : Good w.clock (step w s op) := by
  cases op with
  | update => exact (update_spec h w.size).1
  | questComplete questId => exact (handleQuestComplete_spec h w.quests questId).1
  | startCommand id =>
    simp only [step]
    split
    · exact (good_startEvent (h.command true) true (.inl rfl)).command false
    · exact h
  | stopCommand id =>
    simp only [step]
    split
    · exact (good_stopEvent (h.command true) true (.inl rfl)).command false
    · exact h

theorem onward_step {w : Setup} (h : Good w.clock s) {op : Op} (hop : op.isCommand = false) :
    Onward s (step w s op) := by
  cases op with
  | update => exact (update_spec h w.size).2
  | questComplete questId => exact (handleQuestComplete_spec h w.quests questId).2
  | startCommand id => simp [Op.isCommand] at hop
  | stopCommand id => simp [Op.isCommand] at hop

/-! ### The record is complete -/

/-- The states after the changes of a record, one after another. -/
def replay (f : ℕ → GameEventState) (log : List Change) : ℕ → GameEventState :=
  log.foldl (fun f c => Function.update f c.event c.after) f

/-- The states are those that the record leads to. -/
def Recorded (f : ℕ → GameEventState) (s : GameEventMgr) : Prop := s.state = replay f s.log

variable {f : ℕ → GameEventState}

theorem Recorded.of_eq (h : Recorded f s) (hs : ∀ q, s'.state q = s.state q)
    (hl : s'.log = s.log) : Recorded f s' := by
  rw [Recorded, hl, ← h]
  funext q
  exact hs q

theorem Recorded.active (h : Recorded f s) (a : Finset ℕ) :
    Recorded f { s with activeEvents := a } := h.of_eq (fun _ => rfl) rfl

theorem Recorded.command (h : Recorded f s) (b : Bool) :
    Recorded f { s with byCommand := b } := h.of_eq (fun _ => rfl) rfl

theorem Recorded.tick (h : Recorded f s) : Recorded f s.tick := h.of_eq (fun _ => rfl) rfl

theorem Recorded.setState (h : Recorded f s) (id : ℕ) (st : GameEventState) :
    Recorded f (s.setState id st) := by
  rw [Recorded, GameEventMgr.log_setState, replay, List.foldl_concat, ← replay, ← h]
  funext q
  by_cases hq : q = id
  · subst hq
    simp [GameEventMgr.state]
  · simp [GameEventMgr.state, hq]

theorem Recorded.setEvent (h : Recorded f s) {d : GameEventData} (hd : d.state = s.state id) :
    Recorded f (s.setEvent id d) := by
  refine h.of_eq (fun q => ?_) rfl
  by_cases hq : q = id
  · subst hq
    simp [GameEventMgr.state] at hd ⊢
    exact hd
  · simp [GameEventMgr.state, hq]

theorem Recorded.conditions (h : Recorded f s) (id : ℕ) :
    Recorded f (checkOneGameEventConditions clock s id).2 := by
  rcases checkOneGameEventConditions_cases clock s id with hr | ⟨-, -, hr⟩ | ⟨-, -, hr⟩ <;> rw [hr]
  · exact h
  · exact ((h.setState id .worldNextphase).setEvent (by simp [GameEventMgr.state])).tick
  · exact h.setState id _

theorem Recorded.startEvent (h : Recorded f s) (id : ℕ) (overwrite : Bool) :
    Recorded f (startEvent clock s id overwrite).2 := by
  by_cases hw : (s.state id).isWorld
  · rw [startEvent_world hw]
    have ho : Recorded f (opened s id) := by
      rw [opened]
      split
      exacts [h.setState id _, h]
    exact (ho.active _).conditions id
  · have hp : Plain s (FaceCore.WorldEvents.startEvent clock s id overwrite).2 id :=
      startEvent_plain (by simpa using hw) overwrite
    exact h.of_eq hp.state hp.log

theorem Recorded.stopEvent (h : Recorded f s) (id : ℕ) (overwrite : Bool) :
    Recorded f (stopEvent clock s id overwrite) := by
  by_cases hw : (s.state id).isWorld
  · rw [stopEvent_world hw]
    have ha := h.active (s.activeEvents.erase id)
    split
    · exact (ha.setState id _).setEvent (by simp [GameEventMgr.state])
    · exact ha
  · have hp : Plain s (FaceCore.WorldEvents.stopEvent clock s id overwrite) id :=
      stopEvent_plain (by simpa using hw) overwrite
    exact h.of_eq hp.state hp.log

theorem Recorded.turn {currenttime : ℕ} {p : Pass} (h : Recorded f p.mgr) (id : ℕ) :
    Recorded f (passTurn clock currenttime p id).mgr := by
  have hr : Recorded f (checkOneGameEvent clock p.mgr id).2 := by
    rcases (checkOneGameEvent_spec clock p.mgr id).1 with hr | hr <;> rw [hr]
    exacts [h, h.tick]
  simp only [passTurn]
  split
  · split
    · exact (hr.setState id _).setEvent (by simp [GameEventMgr.state])
    · split
      exacts [hr.conditions id, hr]
  · exact hr

theorem Recorded.step {w : Setup} (h : Recorded f s) (op : Op) : Recorded f (step w s op) := by
  cases op with
  | update =>
    simp only [WorldEvents.step, update]
    refine List.foldlRecOn _ _ ?_ fun s hs id _ => hs.stopEvent id false
    refine List.foldlRecOn _ _ ?_ fun s hs id _ => hs.startEvent id false
    exact List.foldlRecOn (motive := fun p : Pass => Recorded f p.mgr) _ _ h.tick
      fun p hp id _ => hp.turn id
  | questComplete questId =>
    simp only [WorldEvents.step]
    rcases handleQuestComplete_cases w.clock w.quests s questId with hr | ⟨id, m, -, hr⟩ <;> rw [hr]
    · exact h
    · exact (h.of_eq (state_collected m) rfl).conditions id
  | startCommand id =>
    simp only [WorldEvents.step]
    split
    · exact ((h.command true).startEvent id true).command false
    · exact h
  | stopCommand id =>
    simp only [WorldEvents.step]
    split
    · exact ((h.command true).stopEvent id true).command false
    · exact h

/-! ### Runs without commands -/

/-- The states are `f`, and all changes were as they should be. -/
structure Rests (clock : Clock) (f : ℕ → GameEventState) (s : GameEventMgr) : Prop where
  state : ∀ q, s.state q = f q
  log : ∀ c ∈ s.log, Sanctioned clock c

/-- All world events wait. -/
def AllWait (f : ℕ → GameEventState) : Prop := ∀ id, (f id).isWorld → f id = .worldInactive

theorem Rests.of_eq (h : Rests clock f s) (hs : ∀ q, s'.state q = s.state q)
    (hl : s'.log = s.log) : Rests clock f s' :=
  ⟨fun q => (hs q).trans (h.state q), hl ▸ h.log⟩

theorem Rests.checked (hf : AllWait f) (h : Rests clock f s)
    (hc : (checkOneGameEvent clock s id).1 = true) : (f id).isWorld = false := by
  have hstate : ∀ q, (checkOneGameEvent clock s id).2.state q = f q := by
    intro q
    rw [GameEventMgr.state, gameEvent_checkOneGameEvent, ← h.state q, GameEventMgr.state]
  by_contra hw
  have hi : f id = .worldInactive := hf id (by simpa using hw)
  rcases (checkOneGameEvent_spec clock s id).2.1 hc with hn | hn | hn | hr
  · exact hw (by rwa [hstate] at hn)
  · simp [hstate, hi] at hn
  · simp [hstate, hi] at hn
  · obtain ⟨p, hp⟩ := Finset.nonempty_iff_ne_empty.2 hr.some
    have hpast := (hr.met p hp).1
    rw [← GameEventMgr.state, hstate p] at hpast
    have hwait := hf p (by rcases hpast with he | he <;> simp [he, GameEventState.isWorld])
    simp [hwait] at hpast

theorem Rests.startEvent (h : Rests clock f s) (hw : (f id).isWorld = false) :
    Rests clock f (startEvent clock s id false).2 := by
  have hp : Plain s (FaceCore.WorldEvents.startEvent clock s id false).2 id :=
    startEvent_plain (by rwa [h.state id]) false
  exact h.of_eq hp.state hp.log

theorem Rests.stopEvent (hf : AllWait f) (h : Rests clock f s) (id : ℕ) :
    Rests clock f (stopEvent clock s id false) := by
  by_cases hw : (s.state id).isWorld
  · have hi : s.state id = .worldInactive := by
      rw [h.state id] at hw ⊢
      exact hf id hw
    rw [stopEvent_world hw]
    split
    · refine ⟨fun q => ?_, sanctioned_setState h.log (.inr (follows_inactive hi rfl))⟩
      rw [← h.state q]
      by_cases hq : q = id
      · subst hq
        rw [hi]
        simp [reset, GameEventMgr.state]
      · simp [reset, GameEventMgr.state, hq]
    · exact h.of_eq (fun _ => rfl) rfl
  · have hp : Plain s (FaceCore.WorldEvents.stopEvent clock s id false) id :=
      stopEvent_plain (by simpa using hw) false
    exact h.of_eq hp.state hp.log

theorem Rests.turn (hf : AllWait f) {currenttime : ℕ} {p : Pass} (h : Rests clock f p.mgr)
    (ha : ∀ q ∈ p.activate, (f q).isWorld = false) (id : ℕ) :
    Rests clock f (passTurn clock currenttime p id).mgr ∧
      ∀ q ∈ (passTurn clock currenttime p id).activate, (f q).isWorld = false := by
  have hr : Rests clock f (checkOneGameEvent clock p.mgr id).2 := by
    rcases (checkOneGameEvent_spec clock p.mgr id).1 with hr | hr <;> rw [hr]
    exacts [h, h.of_eq (fun _ => rfl) rfl]
  have hc : (checkOneGameEvent clock p.mgr id).1 = true → (f id).isWorld = false := h.checked hf
  rw [passTurn]
  generalize checkOneGameEvent clock p.mgr id = r at hr hc ⊢
  obtain ⟨b, s⟩ := r
  cases b with
  | false => exact ⟨hr, ha⟩
  | true =>
    have hw : (f id).isWorld = false := hc rfl
    have hne : ∀ st : GameEventState, st.isWorld → s.state id ≠ st := by
      rintro st hst rfl
      simp [hr.state id, hw] at hst
    simp only [if_true, if_neg (not_and_of_not_left _ (hne .worldNextphase rfl)),
      if_neg (hne .worldConditions rfl)]
    refine ⟨hr, fun q hq => ?_⟩
    split at hq
    · rcases List.mem_append.1 hq with hq | hq
      · exact ha q hq
      · rwa [List.mem_singleton.1 hq]
    · exact ha q hq

theorem Rests.update (hf : AllWait f) (h : Rests clock f s) (size : ℕ) :
    Rests clock f (update clock size s) := by
  simp only [WorldEvents.update]
  have hp := List.foldlRecOn
    (motive := fun p : Pass => Rests clock f p.mgr ∧ ∀ q ∈ p.activate, (f q).isWorld = false)
    (List.range' 1 (size - 1)) (passTurn clock (clock.now s.reads))
    (b := ⟨s.tick, [], []⟩) ⟨h.of_eq (fun _ => rfl) rfl, by simp⟩
    fun p hp id _ => hp.1.turn hf hp.2 id
  refine List.foldlRecOn _ _ ?_ fun s hs id _ => hs.stopEvent hf id
  exact List.foldlRecOn _ _ hp.1 fun s hs id hid => hs.startEvent (hp.2 id hid)

theorem Rests.step {w : Setup} (hf : AllWait f) (h : Rests w.clock f s) {op : Op}
    (hop : op.isCommand = false) : Rests w.clock f (step w s op) := by
  cases op with
  | update => exact h.update hf w.size
  | questComplete questId =>
    simp only [WorldEvents.step]
    rcases handleQuestComplete_cases w.clock w.quests s questId with hr | ⟨id, m, hc, -⟩
    · rwa [hr]
    · -- no event collects quests
      rw [h.state id] at hc
      have hwait := hf id (by simp [hc, GameEventState.isWorld])
      simp [hc] at hwait
  | startCommand id => simp [Op.isCommand] at hop
  | stopCommand id => simp [Op.isCommand] at hop

/-! ### The changes of a run -/

/-- In a run from waiting world events no event goes back but by a command, and every other change
follows its rules. Commands may start and stop events if `nextstart` was 0 at first and no length
exceeds the 32 bits of its seconds. The record of the changes leads to the states. -/
theorem changes_follow (w : Setup) (s : GameEventMgr) (ops : List Op) (hlog : s.log = [])
    (hs : ∀ id, (s.state id).isWorld → s.state id = .worldInactive)
    (hops : (∀ op ∈ ops, op.isCommand = false) ∨
      ∀ id, (s.state id).isWorld →
        (s.gameEvent id).nextstart = 0 ∧ (s.gameEvent id).length * 60 < 2 ^ 32) :
    Runs.EachStep (step w) (fun s op => op.isCommand = false → Onward s (step w s op)) s ops ∧
      (∀ c ∈ (ops.foldl (step w) s).log, c.byCommand = false → Follows w.clock c) ∧
      (ops.foldl (step w) s).state = replay s.state (ops.foldl (step w) s).log := by
  have hrec : Recorded s.state (ops.foldl (step w) s) :=
    List.foldlRecOn ops _ (by rw [Recorded, hlog]; rfl) fun _ h op _ => h.step op
  have hlog' : ∀ c ∈ s.log, Sanctioned w.clock c := by simp [hlog]
  rcases hops with hops | hops
  · have heach : Runs.EachStep (step w) (fun _ op => op.isCommand = false) s ops :=
      fun pre op hpre => hops op (hpre.subset (by simp))
    have hrest : Rests w.clock s.state s := ⟨fun _ => rfl, hlog'⟩
    have hstep : ∀ t op, Rests w.clock s.state t → op.isCommand = false →
        Rests w.clock s.state (step w t op) := fun t op ht hop => ht.step hs hop
    have hrun := Runs.along_of_inv heach hrest hstep ops (List.prefix_refl ops)
    refine ⟨heach.mono_inv hrest hstep fun t op ht hop _ => Onward.of_state fun q => ?_,
      fun c hc hb => (hrun.log c hc).resolve_left (by simp [hb]), hrec⟩
    rw [(hstep t op ht hop).state q, ht.state q]
  · have heach : Runs.EachStep (step w) (fun _ _ => True) s ops := fun _ _ _ => trivial
    have hgood : Good w.clock s := by
      refine ⟨fun id => ⟨fun hp => ?_, fun hw _ => (hops id hw).1, fun hw => (hops id hw).2⟩, hlog'⟩
      have hi := hs id (by simp [hp, GameEventState.isWorld])
      simp [hp] at hi
    have hstep : ∀ t op, Good w.clock t → True → Good w.clock (step w t op) :=
      fun t op ht _ => good_step ht op
    have hrun := Runs.along_of_inv heach hgood hstep ops (List.prefix_refl ops)
    exact ⟨heach.mono_inv hgood hstep fun t op ht _ hop => onward_step ht hop,
      fun c hc hb => (hrun.log c hc).resolve_left (by simp [hb]), hrec⟩

/-- A waiting event that lasts a minute and has no conditions. -/
def sampleEvent (prerequisiteEvents : Finset ℕ) : GameEventData where
  start := 1
  end_ := 0
  nextstart := 0
  occurence := 0
  length := 1
  state := .worldInactive
  conditions := SortedMap.empty
  prerequisiteEvents := prerequisiteEvents

/-- Event 2 follows event 1. -/
def sampleMgr : GameEventMgr where
  gameEvent id := sampleEvent (if id = 2 then {1} else ∅)
  activeEvents := ∅
  reads := 0
  reachedAt _ := 0
  byCommand := false
  log := []

/-- Two events, and a clock that goes on by 100 seconds at every reading. -/
def sampleSetup : Setup where
  size := 3
  clock := ⟨fun n => 100 * n, fun _ _ h => Nat.mul_le_mul_left 100 h⟩
  quests _ := none

/-- A command starts event 1; event 2 follows it and ends. -/
def sampleOps : List Op := [.startCommand 1, .update, .update]

theorem changes_follow_sample :
    (Runs.EachStep (step sampleSetup)
        (fun s op => op.isCommand = false → Onward s (step sampleSetup s op)) sampleMgr sampleOps ∧
      (∀ c ∈ (sampleOps.foldl (step sampleSetup) sampleMgr).log,
        c.byCommand = false → Follows sampleSetup.clock c) ∧
      (sampleOps.foldl (step sampleSetup) sampleMgr).state =
        replay sampleMgr.state (sampleOps.foldl (step sampleSetup) sampleMgr).log) ∧
      (sampleOps.foldl (step sampleSetup) sampleMgr).log.map
          (fun c => (c.event, c.before, c.after, c.byCommand)) =
        [(1, .worldInactive, .worldConditions, true), (1, .worldConditions, .worldNextphase, true),
          (1, .worldNextphase, .worldFinished, false),
          (2, .worldInactive, .worldConditions, false),
          (2, .worldConditions, .worldNextphase, false),
          (2, .worldNextphase, .worldFinished, false)] :=
  ⟨changes_follow sampleSetup sampleMgr sampleOps rfl (fun _ _ => rfl)
    (.inr fun _ _ => ⟨rfl, by simp [sampleMgr, sampleEvent]⟩), by decide⟩

end FaceCore.WorldEvents
