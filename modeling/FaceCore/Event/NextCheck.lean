import FaceCore.Event.WorldPhases

/-!
# The next check of an event

`NextCheck` is the time until an event may change, and `Update` comes back a second after the
shortest of these times. `CheckOneGameEvent` opens the window of a normal event behind its start,
`NextCheck` at its start, so in that very second the change is slept through.

* `GameEventData.isActiveAt`, `nextCheck`: what the two functions say of an event;
* `mem_activeEvents_update_iff`: what an update does to the event;
* `not_slept_through_iff`: when no change is slept through.
-/

namespace FaceCore.WorldEvents

/-- Conversion to `uint32`. -/
def uint32 (z : ℤ) : ℤ := z % 2 ^ 32

/-- `max_ge_check_delay`. -/
def maxGeCheckDelay : ℤ := 86400

namespace GameEventData

/-- `occurence * MINUTE`, a number of 32 bits. -/
def occurenceSeconds (d : GameEventData) : ℕ := d.occurence * 60 % 2 ^ 32

/-- The part of `CheckOneGameEvent` for a normal event. -/
def isActiveAt (d : GameEventData) (now : ℤ) : Bool :=
  d.start < now && now < d.end_ && (now - d.start) % (d.occurenceSeconds : ℤ) < (d.lengthSeconds : ℤ)

end GameEventData

/-- `GameEventMgr::NextCheck`. -/
def nextCheck (d : GameEventData) (now : ℤ) : ℤ :=
  if (d.state = .worldNextphase ∨ d.state = .worldFinished) ∧ now ≤ (d.nextstart : ℤ) then
    uint32 (d.nextstart - now)
  else if d.state = .worldConditions then
    if d.length ≠ 0 then d.lengthSeconds else maxGeCheckDelay
  else if d.end_ < now then maxGeCheckDelay
  else if now < d.start then uint32 (d.start - now)
  else
    let phase := (now - d.start) % (d.occurenceSeconds : ℤ)
    let delay :=
      if phase < (d.lengthSeconds : ℤ) then uint32 (d.lengthSeconds - phase)
      else uint32 (d.occurenceSeconds - phase)
    if d.end_ < now + delay then uint32 (d.end_ - now) else delay

/-- The clock during an update at the time `now`. -/
def Clock.at (now : ℕ) : Clock := ⟨fun _ => now, monotone_const⟩

/-- After an update at the time `now` the event is in the wrong state at the time `t`. -/
def Wrong (s : GameEventMgr) (size id now : ℕ) (t : ℤ) : Prop :=
  ¬(id ∈ (update (Clock.at now) size s).activeEvents ↔ (s.gameEvent id).isActiveAt t = true)

/-- The check of the event stays as it is until the next one, and between an update and the next,
a second later, the event is in the wrong state for at most one second. -/
structure NotSleptThrough (s : GameEventMgr) (size id now : ℕ) : Prop where
  steady : ∀ t : ℤ, now ≤ t → t ≤ now + nextCheck (s.gameEvent id) now - 1 →
    (s.gameEvent id).isActiveAt t = (s.gameEvent id).isActiveAt now
  wrong : ∀ t t' : ℤ, (now ≤ t ∧ t < now + nextCheck (s.gameEvent id) now + 1) →
    (now ≤ t' ∧ t' < now + nextCheck (s.gameEvent id) now + 1) →
      Wrong s size id now t → Wrong s size id now t' → t = t'

/-! ### What an update does to a normal event -/

section

variable {clock : Clock} {s : GameEventMgr} {id currenttime : ℕ} {p : Pass}

theorem checkOneGameEvent_normal (h : (s.gameEvent id).state = .normal) :
    checkOneGameEvent clock s id =
      ((s.gameEvent id).isActiveAt (clock.now s.reads), s.tick) := by
  rw [checkOneGameEvent, h]
  rfl

theorem activeEvents_checkOneGameEventConditions (clock : Clock) (s : GameEventMgr) (q : ℕ) :
    (checkOneGameEventConditions clock s q).2.activeEvents = s.activeEvents := by
  rcases checkOneGameEventConditions_cases clock s q with h | ⟨-, -, h⟩ | ⟨-, -, h⟩
  · rw [h]
  · rw [h]
    rfl
  · rw [h]
    rfl

theorem gameEvent_checkOneGameEventConditions {q : ℕ} (hq : id ≠ q) :
    (checkOneGameEventConditions clock s q).2.gameEvent id = s.gameEvent id := by
  rcases checkOneGameEventConditions_cases clock s q with h | ⟨-, -, h⟩ | ⟨-, -, h⟩
  · rw [h]
  · rw [h]
    simp [hq]
  · rw [h]
    simp [hq]

theorem passTurn_of_ne {q : ℕ} (hq : id ≠ q) :
    (passTurn clock currenttime p q).mgr.gameEvent id = p.mgr.gameEvent id ∧
      (passTurn clock currenttime p q).mgr.activeEvents = p.mgr.activeEvents ∧
      (id ∈ (passTurn clock currenttime p q).activate ↔ id ∈ p.activate) ∧
      (id ∈ (passTurn clock currenttime p q).deactivate ↔ id ∈ p.deactivate) := by
  have hmgr := (checkOneGameEvent_spec clock p.mgr q).1
  have hqueue : ∀ (c : Prop) [Decidable c] (l : List ℕ),
      (id ∈ if c then l ++ [q] else l) ↔ id ∈ l := by
    intro c _ l
    split_ifs
    · simp [hq]
    · exact Iff.rfl
  rw [passTurn]
  generalize checkOneGameEvent clock p.mgr q = r at hmgr ⊢
  obtain ⟨b, s⟩ := r
  dsimp only at hmgr ⊢
  have hevent : s.gameEvent = p.mgr.gameEvent := by
    rcases hmgr with rfl | rfl
    · rfl
    · rfl
  have hactive : s.activeEvents = p.mgr.activeEvents := by
    rcases hmgr with rfl | rfl
    · rfl
    · rfl
  cases b with
  | false =>
    rw [if_neg Bool.false_ne_true]
    exact ⟨congrFun hevent id, hactive, Iff.rfl, hqueue _ _⟩
  | true =>
    rw [if_pos rfl]
    by_cases hp : s.state q = .worldNextphase ∧ (s.gameEvent q).nextstart ≤ currenttime
    · rw [if_pos hp]
      refine ⟨?_, hactive, Iff.rfl, hqueue _ _⟩
      rw [GameEventMgr.gameEvent_setEvent_of_ne hq, GameEventMgr.gameEvent_setState_of_ne hq, hevent]
    · rw [if_neg hp]
      by_cases hc : s.state q = .worldConditions
      · rw [if_pos hc]
        refine ⟨?_, ?_, hqueue _ _, Iff.rfl⟩
        · rw [gameEvent_checkOneGameEventConditions hq, hevent]
        · rw [activeEvents_checkOneGameEventConditions, hactive]
      · rw [if_neg hc]
        exact ⟨congrFun hevent id, hactive, hqueue _ _, Iff.rfl⟩

/-- A pass of `Update` over some events: the event `id` stays as it is, and is queued if `checked`
says that it was checked and it is not in the state of the check. -/
structure Seen (s : GameEventMgr) (id now : ℕ) (checked : Prop) (p : Pass) : Prop where
  event : p.mgr.gameEvent id = s.gameEvent id
  active : p.mgr.activeEvents = s.activeEvents
  start : id ∈ p.activate ↔
    checked ∧ (s.gameEvent id).isActiveAt now = true ∧ id ∉ s.activeEvents
  stop : id ∈ p.deactivate ↔
    checked ∧ (s.gameEvent id).isActiveAt now = false ∧ id ∈ s.activeEvents

theorem passTurn_self {now : ℕ} (hn : (p.mgr.gameEvent id).state = .normal) :
    passTurn (Clock.at now) currenttime p id =
      if (p.mgr.gameEvent id).isActiveAt now then
        ⟨p.mgr.tick, if id ∉ p.mgr.activeEvents then p.activate ++ [id] else p.activate,
          p.deactivate⟩
      else
        ⟨p.mgr.tick, p.activate,
          if id ∈ p.mgr.activeEvents then p.deactivate ++ [id] else p.deactivate⟩ := by
  have hstate : p.mgr.tick.state id = .normal := hn
  rw [passTurn, checkOneGameEvent_normal hn]
  simp only [hstate, reduceCtorEq, false_and, if_false]
  rfl

theorem Seen.turn {now : ℕ} {checked : Prop} (hn : (s.gameEvent id).state = .normal)
    (h : Seen s id now checked p) (hchecked : checked → False) :
    Seen s id now True (passTurn (Clock.at now) currenttime p id) := by
  obtain ⟨hevent, hactive, hstart, hstop⟩ := h
  rw [passTurn_self (hevent ▸ hn), hevent, hactive]
  have hstart' : id ∉ p.activate := fun hmem => hchecked (hstart.1 hmem).1
  have hstop' : id ∉ p.deactivate := fun hmem => hchecked (hstop.1 hmem).1
  cases hactiveAt : (s.gameEvent id).isActiveAt now with
  | true =>
    rw [if_pos rfl]
    refine ⟨hevent, hactive, ?_, iff_of_false hstop' (by simp [hactiveAt])⟩
    by_cases hmem : id ∈ s.activeEvents
    · simp [hmem, hstart']
    · simp [hmem, hactiveAt]
  | false =>
    rw [if_neg Bool.false_ne_true]
    refine ⟨hevent, hactive, iff_of_false hstart' (by simp [hactiveAt]), ?_⟩
    by_cases hmem : id ∈ s.activeEvents
    · simp [hmem, hactiveAt]
    · simp [hmem, hstop']

theorem Seen.turn_of_ne {now q : ℕ} {checked : Prop} (h : Seen s id now checked p) (hq : id ≠ q) :
    Seen s id now checked (passTurn (Clock.at now) currenttime p q) := by
  obtain ⟨hevent, hactive, hstart, hstop⟩ := @passTurn_of_ne (Clock.at now) id currenttime p q hq
  exact ⟨hevent.trans h.event, hactive.trans h.active, hstart.trans h.start, hstop.trans h.stop⟩

theorem seen_foldl {now : ℕ} (hn : (s.gameEvent id).state = .normal) (n : ℕ) :
    Seen s id now (id ∈ List.range' 1 n)
      ((List.range' 1 n).foldl (passTurn (Clock.at now) currenttime) ⟨s.tick, [], []⟩) := by
  induction n with
  | zero => exact ⟨rfl, rfl, by simp, by simp⟩
  | succ n ih =>
    rw [List.range'_1_concat, List.foldl_concat]
    by_cases hid : id = 1 + n
    · subst hid
      have hnew : 1 + n ∉ List.range' 1 n := by simp
      have hturn := @Seen.turn s (1 + n) currenttime _ now _ hn ih hnew
      simpa using hturn
    · have hturn := @Seen.turn_of_ne s id currenttime _ now _ _ ih hid
      simpa [hid] using hturn

theorem activeEvents_startEvent (clock : Clock) (s : GameEventMgr) (q : ℕ) :
    (startEvent clock s q false).2.activeEvents = insert q s.activeEvents := by
  cases hw : (s.state q).isWorld with
  | false => simp [startEvent, hw]
  | true =>
    rw [startEvent_world hw, activeEvents_checkOneGameEventConditions]
    unfold opened
    split_ifs
    · rfl
    · rfl

theorem activeEvents_stopEvent (clock : Clock) (s : GameEventMgr) (q : ℕ) :
    (stopEvent clock s q false).activeEvents = s.activeEvents.erase q := by
  cases hw : (s.state q).isWorld with
  | false => simp [stopEvent, hw]
  | true =>
    rw [stopEvent_world hw]
    split_ifs
    · rfl
    · rfl

theorem mem_activeEvents_foldl_startEvent (l : List ℕ) (s : GameEventMgr) :
    id ∈ (l.foldl (fun s q => (startEvent clock s q false).2) s).activeEvents ↔
      id ∈ l ∨ id ∈ s.activeEvents := by
  induction l generalizing s with
  | nil => simp
  | cons q l ih =>
    rw [List.foldl_cons, ih, activeEvents_startEvent, Finset.mem_insert, List.mem_cons, or_left_comm,
      or_assoc]

theorem mem_activeEvents_foldl_stopEvent (l : List ℕ) (s : GameEventMgr) :
    id ∈ (l.foldl (fun s q => stopEvent clock s q false) s).activeEvents ↔
      id ∉ l ∧ id ∈ s.activeEvents := by
  induction l generalizing s with
  | nil => simp
  | cons q l ih =>
    rw [List.foldl_cons, ih, activeEvents_stopEvent, Finset.mem_erase, List.mem_cons, not_or]
    tauto

theorem mem_activeEvents_update_iff {size now : ℕ} (hid : 1 ≤ id ∧ id < size)
    (hn : s.state id = .normal) :
    id ∈ (update (Clock.at now) size s).activeEvents ↔ (s.gameEvent id).isActiveAt now = true := by
  have hseen := @seen_foldl s id ((Clock.at now).now s.reads) now hn (size - 1)
  have hchecked : id ∈ List.range' 1 (size - 1) := by
    rw [List.mem_range'_1]
    omega
  rw [update, mem_activeEvents_foldl_stopEvent, mem_activeEvents_foldl_startEvent, hseen.start,
    hseen.stop, hseen.active]
  cases (s.gameEvent id).isActiveAt now with
  | true => by_cases hmem : id ∈ s.activeEvents <;> simp [hmem, hchecked]
  | false => by_cases hmem : id ∈ s.activeEvents <;> simp [hmem, hchecked]

end

/-! ### The window -/

theorem add_emod_of_lt {x k n : ℤ} (hn : 0 < n) (hk : 0 ≤ k) (h : x % n + k < n) :
    (x + k) % n = x % n + k := by
  have hx := Int.emod_nonneg x hn.ne'
  rw [← Int.emod_add_emod, Int.emod_eq_of_lt (by omega) h]

section

variable {d : GameEventData} {now t : ℤ}

theorem isActiveAt_eq_true : d.isActiveAt t = true ↔ d.start < t ∧ t < d.end_ ∧
    (t - d.start) % (d.occurenceSeconds : ℤ) < (d.lengthSeconds : ℤ) := by
  simp [GameEventData.isActiveAt, and_assoc]

theorem nextCheck_normal (h : d.state = .normal) : nextCheck d now =
    if d.end_ < now then maxGeCheckDelay
    else if now < d.start then uint32 (d.start - now)
    else
      let phase := (now - d.start) % (d.occurenceSeconds : ℤ)
      let delay :=
        if phase < (d.lengthSeconds : ℤ) then uint32 (d.lengthSeconds - phase)
        else uint32 (d.occurenceSeconds - phase)
      if d.end_ < now + delay then uint32 (d.end_ - now) else delay := by
  rw [nextCheck, if_neg (by simp [h]), if_neg (by simp [h])]

/-- A normal event that begins before it ends, with a length of at most its period. -/
structure Regular (d : GameEventData) : Prop where
  normal : d.state = .normal
  ends : d.start < d.end_
  length : 0 < d.length
  occurence : d.length ≤ d.occurence
  small : d.occurence * 60 < 2 ^ 32

theorem Regular.seconds (h : Regular d) : d.lengthSeconds = d.length * 60 ∧
    d.occurenceSeconds = d.occurence * 60 ∧ 60 ≤ d.lengthSeconds ∧
      d.lengthSeconds ≤ d.occurenceSeconds := by
  have hlength := h.length
  have hoccurence := h.occurence
  have hsmall := h.small
  have hl : d.lengthSeconds = d.length * 60 := Nat.mod_eq_of_lt (by omega)
  have ho : d.occurenceSeconds = d.occurence * 60 := Nat.mod_eq_of_lt hsmall
  omega

/-- The next check is not after the next change, if the event has begun. -/
theorem Regular.nextCheck_of_started (h : Regular d) (hstart : d.start ≤ now) (hend : now ≤ d.end_) :
    0 ≤ nextCheck d now ∧ now + nextCheck d now ≤ d.end_ ∧
      (now - d.start) % (d.occurenceSeconds : ℤ) + nextCheck d now ≤
        if (now - d.start) % (d.occurenceSeconds : ℤ) < (d.lengthSeconds : ℤ) then d.lengthSeconds
        else d.occurenceSeconds := by
  obtain ⟨-, hocc, hlen, hle⟩ := h.seconds
  have hsmall := h.small
  have hpos : (0 : ℤ) < d.occurenceSeconds := by omega
  have hphase := Int.emod_nonneg (now - d.start) hpos.ne'
  have hlt := Int.emod_lt_of_pos (now - d.start) hpos
  rw [nextCheck_normal h.normal, if_neg (by omega), if_neg (by omega)]
  dsimp only
  unfold uint32
  generalize (now - d.start) % (d.occurenceSeconds : ℤ) = phase at hphase hlt ⊢
  by_cases hin : phase < (d.lengthSeconds : ℤ)
  · rw [if_pos hin, if_pos hin, Int.emod_eq_of_lt (by omega) (by omega)]
    split_ifs with hcut
    · rw [Int.emod_eq_of_lt (by omega) (by omega)]
      omega
    · omega
  · rw [if_neg hin, if_neg hin, Int.emod_eq_of_lt (by omega) (by omega)]
    split_ifs with hcut
    · rw [Int.emod_eq_of_lt (by omega) (by omega)]
      omega
    · omega

/-- Behind its start the event stays as it is until the next check. -/
theorem Regular.steady_of_started (h : Regular d) (hstart : d.start < now) (hend : now ≤ d.end_)
    (ht : now ≤ t) (ht' : t ≤ now + nextCheck d now - 1) : d.isActiveAt t = d.isActiveAt now := by
  obtain ⟨-, hocc, hlen, hle⟩ := h.seconds
  have hpos : (0 : ℤ) < d.occurenceSeconds := by omega
  obtain ⟨hnonneg, hcut, hdelay⟩ := h.nextCheck_of_started hstart.le hend
  have hphase : (t - d.start) % (d.occurenceSeconds : ℤ) =
      (now - d.start) % (d.occurenceSeconds : ℤ) + (t - now) := by
    have hsum : t - d.start = (now - d.start) + (t - now) := by omega
    rw [hsum]
    refine add_emod_of_lt hpos (by omega) ?_
    split_ifs at hdelay <;> omega
  rw [Bool.eq_iff_iff, isActiveAt_eq_true, isActiveAt_eq_true, hphase]
  generalize (now - d.start) % (d.occurenceSeconds : ℤ) = phase at hdelay hphase ⊢
  split_ifs at hdelay <;> omega

/-- In the second of the start, the next check is behind the opening of the window, unless the event
is over in the next second. -/
theorem Regular.steady_start_iff (h : Regular d) :
    (∀ t, d.start ≤ t → t ≤ d.start + nextCheck d d.start - 1 →
      d.isActiveAt t = d.isActiveAt d.start) ↔ d.end_ = d.start + 1 := by
  have hends := h.ends
  obtain ⟨-, hocc, hlen, hle⟩ := h.seconds
  have hsmall := h.small
  have hpos : (0 : ℤ) < d.occurenceSeconds := by omega
  have hnext : nextCheck d d.start = min (d.lengthSeconds : ℤ) (d.end_ - d.start) := by
    rw [nextCheck_normal h.normal, if_neg (by omega), if_neg (by omega), sub_self, Int.zero_emod]
    dsimp only
    unfold uint32
    have hin : (0 : ℤ) < (d.lengthSeconds : ℤ) := by omega
    rw [if_pos hin, sub_zero, Int.emod_eq_of_lt (by omega) (by omega)]
    split_ifs with hcut
    · rw [Int.emod_eq_of_lt (by omega) (by omega)]
      omega
    · omega
  have hclosed : d.isActiveAt d.start = false := by
    rw [Bool.eq_false_iff, Ne, isActiveAt_eq_true]
    omega
  constructor
  · intro hsteady
    by_contra hne
    have hopen : d.isActiveAt (d.start + 1) = true := by
      have hone : (1 : ℤ) % (d.occurenceSeconds : ℤ) = 1 := Int.emod_eq_of_lt (by omega) (by omega)
      rw [isActiveAt_eq_true, add_sub_cancel_left, hone]
      omega
    rw [hsteady (d.start + 1) (by omega) (by omega), hclosed] at hopen
    cases hopen
  · intro hend t ht ht'
    obtain rfl : t = d.start := by omega
    rfl

/-- When the check of a regular event stays as it is until the next check. -/
theorem Regular.steady_iff (h : Regular d) :
    (∀ t, now ≤ t → t ≤ now + nextCheck d now - 1 → d.isActiveAt t = d.isActiveAt now) ↔
      now ≠ d.start ∨ d.end_ = d.start + 1 := by
  by_cases hnow : now = d.start
  · subst hnow
    rw [h.steady_start_iff]
    simp
  · refine iff_of_true (fun t ht ht' => ?_) (.inl hnow)
    rcases lt_or_gt_of_ne hnow with hbefore | hstarted
    · -- the event has not begun
      have hends := h.ends
      rw [nextCheck_normal h.normal, if_neg (by omega), if_pos hbefore, uint32] at ht'
      have hle : (d.start - now) % 2 ^ 32 ≤ d.start - now := by omega
      rw [Bool.eq_iff_iff, isActiveAt_eq_true, isActiveAt_eq_true]
      omega
    · by_cases hend : now ≤ d.end_
      · exact h.steady_of_started hstarted hend ht ht'
      · rw [Bool.eq_iff_iff, isActiveAt_eq_true, isActiveAt_eq_true]
        omega

end

/-- **Main result.** For a regular event no change is slept through, exactly if it is not the second
of its start, or the event is over in the next second. -/
theorem not_slept_through_iff (s : GameEventMgr) (size id now : ℕ) (hid : 1 ≤ id ∧ id < size)
    (hregular : Regular (s.gameEvent id)) :
    NotSleptThrough s size id now ↔
      (now : ℤ) ≠ (s.gameEvent id).start ∨
        (s.gameEvent id).end_ = (s.gameEvent id).start + 1 := by
  rw [← hregular.steady_iff]
  constructor
  · exact fun h => h.steady
  · refine fun hsteady => ⟨hsteady, fun t t' ht ht' hwrong hwrong' => ?_⟩
    have hlast : ∀ t : ℤ, (now ≤ t ∧ t < now + nextCheck (s.gameEvent id) now + 1) →
        Wrong s size id now t → t = now + nextCheck (s.gameEvent id) now := by
      intro t ht hwrong
      by_contra hne
      refine hwrong ?_
      rw [mem_activeEvents_update_iff hid hregular.normal, hsteady t ht.1 (by omega)]
    rw [hlast t ht hwrong, hlast t' ht' hwrong']

/-- The first half of every hour, for a week from the second 1000 on. -/
def halfHours : GameEventData where
  start := 1000
  end_ := 605800
  nextstart := 0
  occurence := 60
  length := 30
  state := .normal
  conditions := .empty
  prerequisiteEvents := ∅

/-- Only the event `halfHours`, number 1, which is not active yet. -/
def oneEvent : GameEventMgr where
  gameEvent := fun _ => halfHours
  activeEvents := ∅
  reads := 0
  reachedAt := fun _ => 0
  byCommand := false
  log := []

theorem regular_halfHours : Regular halfHours :=
  ⟨rfl, by decide, by decide, by decide, by decide⟩

/-- Later on, no change is slept through. -/
theorem not_slept_through_later : NotSleptThrough oneEvent 2 1 2000 :=
  (not_slept_through_iff oneEvent 2 1 2000 ⟨by decide, by decide⟩ regular_halfHours).2
    (.inl (by decide))

/-- In the second of its start the event is not active, and the next check comes half an hour
later. -/
theorem slept_through_at_start : ¬NotSleptThrough oneEvent 2 1 1000 := fun h =>
  absurd (regular_halfHours.steady_iff.1 h.steady) (by decide)

end FaceCore.WorldEvents
