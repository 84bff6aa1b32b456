import FaceCore.Instance.Resets
import Mathlib.Data.Int.DivMod
import Mathlib.Tactic.Linarith
import Mathlib.Tactic.Ring

/-!
# One global reset in a period

When the global resets happen at the hour that is configured, once in a period. The period is
rounded by a division of floats, which rounds nothing, so that it need not be a number of whole
days.

* `Config.LoadedRight`, `Config.Sound`: what is expected of the times that are loaded, and of the
  rounds of `Update`;
* `Config.WholeDays`: when it is so, from the tables, the configuration and the clocks;
* `Config.OnSchedule`: the invariant, with the number of resets that each pair has had;
* `resets_once_iff`: the two conditions are equivalent.
-/

namespace FaceCore.InstanceResets

namespace Config

variable {c : Config} {db : Database} {now : ℕ} {d : MapDifficulty} {pair : ℕ} {m : Manager}

/-- A pair with global resets. -/
def Global (c : Config) (pair : ℕ) (d : MapDifficulty) : Prop :=
  c.mapDifficultyMap.find pair = some d ∧ d.resetTime ≠ 0

theorem Global.eq {d' : MapDifficulty} (h : c.Global pair d) (h' : c.Global pair d') : d = d' :=
  Option.some.inj (h.1.symm.trans h'.1)

/-- Whether an event is a warning or a reset of a pair. -/
def isPending (pair : ℕ) (e : ℤ × InstResetEvent) : Bool :=
  e.2.pair = pair ∧ 1 ≤ e.2.type ∧ e.2.type ≤ 4

/-- The number of warnings and resets of a pair in the queue. -/
def pending (m : Manager) (pair : ℕ) : ℕ := m.resetTimeQueue.entries.countP (isPending pair)

/-! ### What is expected -/

/-- No reset time that was loaded is over, and all are at the configured hour. -/
def LoadedRight (c : Config) (db : Database) (now : ℕ) : Prop :=
  ∀ pair d, c.Global pair d →
    (now : ℤ) ≤ (c.loadResetTimes db now).resetTimeByMapDifficulty pair ∧
      (c.loadResetTimes db now).resetTimeByMapDifficulty pair % DAY = c.diff

/-- Every pair has one event in the queue. -/
def OneEach (c : Config) (m : Manager) : Prop :=
  ∀ pair d, c.Global pair d → pending m pair = 1

/-- The next round, if it resets a pair, moves the time of the pair by its period. -/
def MovesOn (c : Config) (now : ℕ) (m : Manager) : Prop :=
  ∀ e d, m.resetTimeQueue.entries.head? = some e → e.1 < now → e.2.type = 4 →
    c.Global e.2.pair d →
    (c.round now m).resetTimeByMapDifficulty e.2.pair =
      m.resetTimeByMapDifficulty e.2.pair + c.period d

/-- `Update` is called at the clocks, one after the other: every call ends, and all along every pair
has one event in the queue and is moved by its period. -/
def Sound (c : Config) (m : Manager) : List ℕ → Prop
  | [] => c.OneEach m
  | now :: clocks =>
    (∀ n, c.OneEach ((c.round now)^[n] m) ∧ c.MovesOn now ((c.round now)^[n] m)) ∧
      ∃ n, ¬ ((c.round now)^[n] m).Due now ∧ Sound c ((c.round now)^[n] m) clocks

/-! ### When it is so -/

/-- The time in `instance_reset` at the configured hour, or that hour today. -/
def start (c : Config) (db : Database) (now pair : ℕ) : ℤ :=
  if c.storedResetTime db pair = 0 then today now + c.diff else c.storedResetTime db pair

/-- How far the time is moved when it is loaded: by a period when nothing is stored, by as many as
it takes when it is over. -/
def advance (c : Config) (db : Database) (now pair : ℕ) (d : MapDifficulty) : ℤ :=
  if c.storedResetTime db pair = 0 then c.period d
  else if c.start db now pair < now then
    ((today now - c.start db now pair / DAY * DAY) / c.period d + 1) * c.period d
  else 0

/-- The time of the reset number `i` of a pair. -/
def resetNo (c : Config) (db : Database) (now pair : ℕ) (d : MapDifficulty) (i : ℕ) : ℤ :=
  c.start db now pair + c.advance db now pair d + i * c.period d

/-- No instance has a reset time of its own and global resets; what is added to a time when it is
loaded is whole days; and whenever a reset falls due, the map is instanceable, the periods before it
are whole days together, and the next time has 32 bits. -/
structure WholeDays (c : Config) (db : Database) (now : ℕ) (clocks : List ℕ) : Prop where
  own : ∀ row ∈ ownInstances db, ∀ d, ¬ c.Global row.pair d
  load : ∀ pair d, c.Global pair d → DAY ∣ c.advance db now pair d
  due : ∀ pair d, c.Global pair d → ∀ i, (∃ t ∈ clocks, c.resetNo db now pair d i < t + MINUTE) →
    c.instanceable (mapOf pair) ∧ DAY ∣ i * c.period d ∧
      c.resetNo db now pair d (i + 1) < 2 ^ 32

/-! ### Times of the day -/

theorem day_le_period (c : Config) (d : MapDifficulty) : DAY ≤ c.period d := by
  unfold period
  dsimp only
  split_ifs with h
  · exact le_rfl
  · exact not_lt.1 h

theorem diff_bounds (c : Config) : 0 ≤ c.diff ∧ c.diff + HOUR ≤ DAY := by
  have hlt := c.instanceResetTimeHour.isLt
  unfold diff HOUR DAY
  omega

theorem storedResetTime_mod (h : c.storedResetTime db pair ≠ 0) :
    0 ≤ c.storedResetTime db pair ∧ c.storedResetTime db pair % DAY = c.diff := by
  obtain ⟨h0, hday⟩ := c.diff_bounds
  unfold storedResetTime at h ⊢
  unfold HOUR DAY at *
  split at h
  · omega
  · exact absurd rfl h

theorem start_mod (c : Config) (db : Database) (now pair : ℕ) :
    0 ≤ c.start db now pair ∧ c.start db now pair % DAY = c.diff := by
  obtain ⟨h0, hday⟩ := c.diff_bounds
  unfold start
  split_ifs with h
  · unfold today HOUR DAY at *
    omega
  · exact storedResetTime_mod h

theorem nextResetTime_eq (c : Config) (db : Database) (now pair : ℕ) (d : MapDifficulty) :
    c.nextResetTime now d (c.storedResetTime db pair) =
      c.start db now pair + c.advance db now pair d := by
  have hP := c.day_le_period d
  obtain ⟨h0, hday⟩ := c.diff_bounds
  unfold nextResetTime advance start
  dsimp only
  split_ifs with hstored hlt hlt
  · unfold today HOUR DAY at *
    omega
  · ring
  · have hmod := (storedResetTime_mod hstored).2
    have hround : c.storedResetTime db pair / DAY * DAY + c.diff = c.storedResetTime db pair := by
      rw [← hmod, mul_comm]
      exact Int.mul_ediv_add_emod _ _
    calc _ = c.storedResetTime db pair / DAY * DAY + c.diff +
          ((today now - c.storedResetTime db pair / DAY * DAY) / c.period d + 1) * c.period d := by
          ring
      _ = _ := by rw [hround]
  · ring

/-- A time at the configured hour stays there exactly if it is moved by whole days. -/
theorem mod_add_iff {t x : ℤ} (h : t % DAY = c.diff) : (t + x) % DAY = c.diff ↔ DAY ∣ x := by
  unfold DAY at *
  omega

/-- A time that is loaded is right exactly if it was moved by whole days. -/
theorem loaded_iff (c : Config) (db : Database) (now pair : ℕ) (d : MapDifficulty) :
    ((now : ℤ) ≤ c.start db now pair + c.advance db now pair d ∧
      (c.start db now pair + c.advance db now pair d) % DAY = c.diff) ↔
      DAY ∣ c.advance db now pair d := by
  obtain ⟨h0, hmod⟩ := c.start_mod db now pair
  obtain ⟨hdiff, hhour⟩ := c.diff_bounds
  have hP := c.day_le_period d
  constructor
  · rintro ⟨-, h⟩
    exact (mod_add_iff hmod).1 h
  · intro h
    refine ⟨?_, (mod_add_iff hmod).2 h⟩
    unfold advance at h ⊢
    split_ifs at h ⊢ with hstored hlt
    · unfold start at hmod ⊢
      rw [if_pos hstored]
      unfold today HOUR DAY at *
      omega
    · have hpos : 0 < c.period d := lt_of_lt_of_le (by decide) hP
      have hmore := Int.lt_ediv_add_one_mul_self
        (today now - c.start db now pair / DAY * DAY) hpos
      unfold today HOUR DAY at *
      omega
    · rw [add_zero]
      exact not_lt.1 hlt

/-- A conversion that does not miss a number by much gives it if nothing is lost. -/
theorem uint32_eq_iff {x y : ℤ} (hlow : y - DAY ≤ x) (hhigh : x ≤ y + 2 * DAY) (hy : 0 ≤ y) :
    uint32 x = y ↔ x = y ∧ y < 2 ^ 32 := by
  unfold uint32 DAY at *
  omega

theorem nextReset_iff {t : ℤ} (ht : 0 ≤ t) :
    uint32 ((t + MINUTE) / DAY * DAY + c.period d + c.diff) = t + c.period d ↔
      t % DAY = c.diff ∧ t + c.period d < 2 ^ 32 := by
  obtain ⟨hdiff, hhour⟩ := c.diff_bounds
  have hP : 0 ≤ c.period d := (by decide : (0 : ℤ) ≤ DAY).trans (c.day_le_period d)
  have hday : (t + MINUTE) / DAY * DAY + c.diff = t ↔ t % DAY = c.diff := by
    unfold MINUTE HOUR DAY at *
    omega
  have hnear : t - DAY ≤ (t + MINUTE) / DAY * DAY ∧ (t + MINUTE) / DAY * DAY ≤ t + MINUTE := by
    unfold MINUTE DAY
    omega
  have hless : MINUTE ≤ DAY ∧ 0 ≤ HOUR := by decide
  rw [uint32_eq_iff (by omega) (by omega) (by omega), ← hday]
  exact and_congr_left' (by constructor <;> intro h <;> omega)

/-! ### What is loaded -/

theorem delay_bounds (type : ℕ) : MINUTE ≤ resetTimeDelay type ∧ resetTimeDelay type ≤ HOUR := by
  unfold resetTimeDelay MINUTE HOUR
  split <;> omega

theorem firstType_bounds (now : ℕ) (t : ℤ) : 1 ≤ firstType now t ∧ firstType now t ≤ 4 := by
  unfold firstType
  split_ifs <;> omega

theorem pending_scheduleReset (t : ℤ) (event : InstResetEvent) (p : ℕ) :
    pending (m.scheduleReset t event) p =
      (if isPending p (t, event) then 1 else 0) + pending m p := Agenda.countP_insert _

/-- The events of a pair that are scheduled for one time, one for each id. -/
theorem foldl_scheduleReset {t : ℤ} {type : ℕ} (ids : List ℕ) (htype : 1 ≤ type ∧ type ≤ 4)
    (m : Manager) :
    let m' := ids.foldl (fun m id => m.scheduleReset t ⟨type, pair, .ofNat id⟩) m
    m'.resetTimeByMapDifficulty = m.resetTimeByMapDifficulty ∧
      (∀ p, pending m' p = (if p = pair then ids.length else 0) + pending m p) ∧
      ∀ e ∈ m'.resetTimeQueue.entries,
        e ∈ m.resetTimeQueue.entries ∨ e.1 = t ∧ e.2.type = type ∧ e.2.pair = pair := by
  induction ids generalizing m with
  | nil => exact ⟨rfl, fun p => by simp, fun e he => .inl he⟩
  | cons id ids ih =>
    obtain ⟨htimes, hpending, hmem⟩ := ih (m.scheduleReset t ⟨type, pair, .ofNat id⟩)
    refine ⟨htimes, fun p => ?_, fun e he => ?_⟩
    · rw [List.foldl_cons, hpending p, pending_scheduleReset, isPending]
      by_cases hp : p = pair
      · simp [hp, htype]
        omega
      · simp [hp, Ne.symm hp]
    · rcases hmem e he with h | h
      · rcases Agenda.mem_insert.1 h with rfl | h
        · exact .inr ⟨rfl, rfl, rfl⟩
        · exact .inl h
      · exact .inr h

/-- The number of instances with a reset time of their own that a pair has. -/
def ownCount (db : Database) (pair : ℕ) : ℕ :=
  ((ownInstances db).filter (·.pair = pair)).length

/-- What the loop over the pairs has done, after the pairs `done`. -/
structure LoadedTo (c : Config) (db : Database) (now : ℕ) (done : List (ℕ × MapDifficulty))
    (m : Manager) : Prop where
  time : ∀ e ∈ done, e.2.resetTime ≠ 0 →
    m.resetTimeByMapDifficulty e.1 = c.nextResetTime now e.2 (c.storedResetTime db e.1)
  other : ∀ p, p ∉ done.map Prod.fst → m.resetTimeByMapDifficulty p = c.storedResetTime db p
  count : ∀ e ∈ done, e.2.resetTime ≠ 0 → pending m e.1 = 1 + ownCount db e.1
  none : ∀ p, p ∉ done.map Prod.fst → pending m p = 0
  timed : ∀ e ∈ m.resetTimeQueue.entries, e.2.type = 0 ∨
    (1 ≤ e.2.type ∧ e.2.type ≤ 4) ∧ (∃ d, (e.2.pair, d) ∈ done ∧ d.resetTime ≠ 0) ∧
      e.1 = m.resetTimeByMapDifficulty e.2.pair - resetTimeDelay e.2.type

theorem LoadedTo.loadPair {done : List (ℕ × MapDifficulty)} {entry : ℕ × MapDifficulty}
    (h : c.LoadedTo db now done m) (hnew : entry.1 ∉ done.map Prod.fst) :
    c.LoadedTo db now (done ++ [entry]) (c.loadPair db now m entry) := by
  obtain ⟨pair, d⟩ := entry
  have hmem : ∀ p, p ∉ (done ++ [(pair, d)]).map Prod.fst ↔ p ∉ done.map Prod.fst ∧ p ≠ pair := by
    intro p
    simp only [List.map_append, List.mem_append, List.map_cons, List.map_nil,
      List.mem_singleton, not_or]
  by_cases hd : d.resetTime = 0
  · -- a difficulty without a reset is skipped
    have hskip : c.loadPair db now m (pair, d) = m := if_pos hd
    rw [hskip]
    refine ⟨fun e he hne => ?_, fun p hp => h.other p ((hmem p).1 hp).1, fun e he hne => ?_,
      fun p hp => h.none p ((hmem p).1 hp).1, fun e he => ?_⟩
    · rcases List.mem_append.1 he with he | he
      · exact h.time e he hne
      · obtain rfl := List.mem_singleton.1 he
        exact absurd hd hne
    · rcases List.mem_append.1 he with he | he
      · exact h.count e he hne
      · obtain rfl := List.mem_singleton.1 he
        exact absurd hd hne
    · rcases h.timed e he with h0 | ⟨htype, ⟨d', hd', hne⟩, htime⟩
      · exact .inl h0
      · exact .inr ⟨htype, ⟨d', List.mem_append_left _ hd', hne⟩, htime⟩
  · -- one event for the pair and one for each of its instances
    have hload : c.loadPair db now m (pair, d) = _ := if_neg hd
    dsimp only at hload hnew
    rw [h.other pair hnew] at hload
    obtain ⟨htimes, hpending, hentries⟩ := foldl_scheduleReset
      (t := c.nextResetTime now d (c.storedResetTime db pair) -
        resetTimeDelay (firstType now (c.nextResetTime now d (c.storedResetTime db pair))))
      (0 :: ((ownInstances db).filter (·.pair = pair)).map InstanceRow.id)
      (firstType_bounds now (c.nextResetTime now d (c.storedResetTime db pair)))
      (m.setResetTimeFor pair (c.nextResetTime now d (c.storedResetTime db pair)))
    rw [← hload] at htimes hpending hentries
    have htime : ∀ p, (c.loadPair db now m (pair, d)).resetTimeByMapDifficulty p =
        if p = pair then c.nextResetTime now d (c.storedResetTime db pair)
        else m.resetTimeByMapDifficulty p := congrFun htimes
    have hcount : ∀ p, pending (c.loadPair db now m (pair, d)) p =
        (if p = pair then 1 + ownCount db pair else 0) + pending m p := by
      intro p
      rw [hpending p, List.length_cons, List.length_map, Nat.add_comm 1]
      rfl
    have hold : ∀ e ∈ done, e.1 ≠ pair := fun e he heq => hnew (heq ▸ List.mem_map_of_mem he)
    refine ⟨fun e he hne => ?_, fun p hp => ?_, fun e he hne => ?_, fun p hp => ?_, fun e he => ?_⟩
    · rcases List.mem_append.1 he with he | he
      · rw [htime, if_neg (hold e he), h.time e he hne]
      · obtain rfl := List.mem_singleton.1 he
        rw [htime, if_pos rfl]
    · obtain ⟨hp, hne⟩ := (hmem p).1 hp
      rw [htime, if_neg hne, h.other p hp]
    · rcases List.mem_append.1 he with he | he
      · rw [hcount, if_neg (hold e he), h.count e he hne, Nat.zero_add]
      · obtain rfl := List.mem_singleton.1 he
        rw [hcount, if_pos rfl, h.none pair hnew, Nat.add_zero]
    · obtain ⟨hp, hne⟩ := (hmem p).1 hp
      rw [hcount, if_neg hne, h.none p hp]
    · rcases hentries e he with he | ⟨ht, htype, rfl⟩
      · rcases h.timed e he with h0 | ⟨htype, ⟨d', hd', hne⟩, ht⟩
        · exact .inl h0
        · refine .inr ⟨htype, ⟨d', List.mem_append_left _ hd', hne⟩, ?_⟩
          rw [htime, if_neg (hold _ hd'), ht]
      · refine .inr ⟨htype ▸ firstType_bounds _ _, ⟨d, by simp, hd⟩, ?_⟩
        rw [htime, if_pos rfl, ht, htype]

/-- The resets of single instances are no events of a pair. -/
theorem type_foldl_loadInstance {es : List (ℕ × ℕ × UInt32)}
    (h : ∀ e ∈ m.resetTimeQueue.entries, e.2.type = 0) :
    ∀ e ∈ (es.foldl (loadInstance now) m).resetTimeQueue.entries, e.2.type = 0 := by
  induction es generalizing m with
  | nil => exact h
  | cons e es ih =>
    refine ih fun e he => ?_
    unfold loadInstance at he
    dsimp only at he
    split_ifs at he
    · rcases Agenda.mem_insert.1 he with rfl | he
      · rfl
      · exact h e he
    · exact h e he

theorem loadedTo_loadResetTimes (c : Config) (db : Database) (now : ℕ) :
    c.LoadedTo db now c.mapDifficultyMap.entries (c.loadResetTimes db now) := by
  let m := (ownTimes db).instResetTime.entries.foldl (loadInstance now) Manager.initial
  have htype : ∀ e ∈ m.resetTimeQueue.entries, e.2.type = 0 :=
    type_foldl_loadInstance fun e he => by cases he
  have key : ∀ es : List (ℕ × MapDifficulty), es.Pairwise (fun a b => a.1 < b.1) →
      c.LoadedTo db now es (es.foldl (c.loadPair db now)
        { m with resetTimeByMapDifficulty := c.storedResetTime db }) := by
    intro es
    induction es using List.reverseRecOn with
    | nil =>
      intro _
      refine ⟨fun e he => ?_, fun p _ => rfl, fun e he => ?_, fun p _ => ?_,
        fun e he => .inl (htype e he)⟩
      · cases he
      · cases he
      · refine List.countP_eq_zero.2 fun e he => ?_
        simp [isPending, htype e he]
    | append_singleton es entry ih =>
      intro hsorted
      obtain ⟨hes, -, hlt⟩ := List.pairwise_append.1 hsorted
      rw [List.foldl_append]
      refine (ih hes).loadPair fun hmem => ?_
      obtain ⟨e, he, heq⟩ := List.mem_map.1 hmem
      exact absurd heq (hlt e he entry List.mem_cons_self).ne
  exact key _ c.mapDifficultyMap.sorted

theorem Global.mem (h : c.Global pair d) : (pair, d) ∈ c.mapDifficultyMap.entries :=
  SortedMap.find_eq_some_mem h.1

theorem loadResetTimes_time (h : c.Global pair d) :
    (c.loadResetTimes db now).resetTimeByMapDifficulty pair =
      c.start db now pair + c.advance db now pair d :=
  ((c.loadedTo_loadResetTimes db now).time _ h.mem h.2).trans (c.nextResetTime_eq db now pair d)

/-- The events of a pair after loading: one, and one for each instance with its own reset time. -/
theorem loadResetTimes_pending (h : c.Global pair d) :
    pending (c.loadResetTimes db now) pair = 1 + ownCount db pair :=
  (c.loadedTo_loadResetTimes db now).count _ h.mem h.2

/-! ### Rounds -/

/-- A manager in which every pair has been reset `r` times since its time `t`. -/
structure OnSchedule (c : Config) (t : ℕ → ℤ) (r : ℕ → ℕ) (m : Manager) : Prop where
  time : ∀ pair d, c.Global pair d →
    m.resetTimeByMapDifficulty pair = t pair + r pair * c.period d
  one : c.OneEach m
  timed : ∀ e ∈ m.resetTimeQueue.entries, e.2.type = 0 ∨
    (1 ≤ e.2.type ∧ e.2.type ≤ 4) ∧ (∃ d, c.Global e.2.pair d) ∧
      e.1 = m.resetTimeByMapDifficulty e.2.pair - resetTimeDelay e.2.type

/-- The reset number `i` finds everything as it should be. -/
def Regular (c : Config) (t : ℕ → ℤ) (pair : ℕ) (d : MapDifficulty) (i : ℕ) : Prop :=
  c.instanceable (mapOf pair) ∧ DAY ∣ i * c.period d ∧
    t pair + (i + 1 : ℕ) * c.period d < 2 ^ 32

/-- How far the queue is overdue. -/
def overdue (now : ℕ) (m : Manager) : ℕ := Agenda.debt now m.resetTimeQueue.entries

variable {t : ℕ → ℤ} {r : ℕ → ℕ} {e : ℤ × InstResetEvent} {es : List (ℤ × InstResetEvent)}

theorem round_of_due (hhead : m.resetTimeQueue.entries = e :: es) (hdue : e.1 < now) :
    c.round now m = if e.2.type = 0 then { m with resetTimeQueue := m.resetTimeQueue.tail }
      else
        let resetTime := m.resetTimeByMapDifficulty e.2.pair
        let m := c.resetOrWarnAll m e.2.pair (e.2.type ≠ 4) resetTime
        let m := if e.2.type ≠ 4 then
            let event := { e.2 with type := e.2.type + 1 }
            { m with resetTimeQueue := m.resetTimeQueue.setHead event }.scheduleReset
              (resetTime - resetTimeDelay event.type) event
          else m
        { m with resetTimeQueue := m.resetTimeQueue.tail } := by
  obtain ⟨time, event⟩ := e
  unfold round
  rw [hhead, List.head?_cons]
  dsimp only
  rw [if_neg (not_le.2 hdue)]

theorem round_of_not_due (h : ¬ m.Due now) : c.round now m = m := by
  unfold round
  cases hhead : m.resetTimeQueue.entries.head? with
  | none => rfl
  | some e =>
    obtain ⟨time, event⟩ := e
    dsimp only
    rw [if_pos (not_lt.1 fun hlt => h ⟨_, hhead, hlt⟩)]

theorem entries_tail (hhead : m.resetTimeQueue.entries = e :: es) :
    m.resetTimeQueue.tail.entries = es := congrArg List.tail hhead

theorem pending_of_entries {m' : Manager} (hhead : m.resetTimeQueue.entries = e :: es)
    {x : ℤ × InstResetEvent} (hnew : m'.resetTimeQueue.entries = Agenda.insertEntry x es) (p : ℕ) :
    pending m' p + (if isPending p e then 1 else 0) =
      pending m p + if isPending p x then 1 else 0 := by
  have hperm := (Agenda.perm_insertEntry x es).countP_eq (isPending p)
  unfold pending
  rw [hnew, hhead, hperm, List.countP_cons, List.countP_cons]
  omega

/-- The event of a pair that comes first is the only one of the pair. -/
theorem OnSchedule.type_eq_zero (h : c.OnSchedule t r m) (hhead : m.resetTimeQueue.entries = e :: es)
    (htype : 1 ≤ e.2.type ∧ e.2.type ≤ 4) (hd : c.Global e.2.pair d) {x : ℤ × InstResetEvent}
    (hx : x ∈ es) (hpair : x.2.pair = e.2.pair) : x.2.type = 0 := by
  rcases h.timed x (hhead ▸ List.mem_cons_of_mem e hx) with h0 | ⟨hxtype, -, -⟩
  · exact h0
  · have hone := h.one _ _ hd
    have hfirst : isPending e.2.pair e = true := decide_eq_true ⟨rfl, htype⟩
    have hsecond : 0 < es.countP (isPending e.2.pair) :=
      List.countP_pos_iff.2 ⟨x, hx, decide_eq_true ⟨hpair, hxtype⟩⟩
    rw [pending, hhead, List.countP_cons, if_pos hfirst] at hone
    omega

/-- The first event gives way to another one of its pair. -/
theorem OnSchedule.replace {r' : ℕ → ℕ} {m' : Manager} {x : ℤ × InstResetEvent}
    (h : c.OnSchedule t r m) (hhead : m.resetTimeQueue.entries = e :: es)
    (htype : 1 ≤ e.2.type ∧ e.2.type ≤ 4) (hd : c.Global e.2.pair d)
    (hentries : m'.resetTimeQueue.entries = Agenda.insertEntry x es)
    (hx : 1 ≤ x.2.type ∧ x.2.type ≤ 4) (hpair : x.2.pair = e.2.pair)
    (hother : ∀ p, p ≠ e.2.pair →
      r' p = r p ∧ m'.resetTimeByMapDifficulty p = m.resetTimeByMapDifficulty p)
    (hself : m'.resetTimeByMapDifficulty e.2.pair = t e.2.pair + r' e.2.pair * c.period d)
    (htime : x.1 = m'.resetTimeByMapDifficulty e.2.pair - resetTimeDelay x.2.type) :
    c.OnSchedule t r' m' := by
  refine ⟨fun p d' hd' => ?_, fun p d' hd' => ?_, fun y hy => ?_⟩
  · by_cases hp : p = e.2.pair
    · subst hp
      obtain rfl := hd.eq hd'
      exact hself
    · rw [(hother p hp).2, (hother p hp).1]
      exact h.time p d' hd'
  · have hcount := pending_of_entries hhead hentries p
    have hsame : isPending p e = isPending p x := by simp [isPending, htype, hx, hpair]
    rw [hsame] at hcount
    rw [← h.one p d' hd']
    exact Nat.add_right_cancel hcount
  · rw [hentries] at hy
    rcases List.mem_cons.1 ((Agenda.perm_insertEntry x es).mem_iff.1 hy) with rfl | hy
    · refine .inr ⟨hx, ⟨d, hpair ▸ hd⟩, ?_⟩
      rw [hpair]
      exact htime
    · by_cases hp : y.2.pair = e.2.pair
      · exact .inl (h.type_eq_zero hhead htype hd hy hp)
      · rw [(hother _ hp).2]
        exact h.timed y (hhead ▸ List.mem_cons_of_mem e hy)

theorem OnSchedule.round_instance (h : c.OnSchedule t r m)
    (hhead : m.resetTimeQueue.entries = e :: es) (hdue : e.1 < now) (htype : e.2.type = 0) :
    c.OnSchedule t r (c.round now m) ∧ overdue now (c.round now m) < overdue now m := by
  rw [round_of_due hhead hdue, if_pos htype]
  have hentries := entries_tail hhead
  refine ⟨⟨h.time, fun p d hd => ?_, fun y hy => ?_⟩, ?_⟩
  · rw [← h.one p d hd]
    show m.resetTimeQueue.tail.entries.countP _ = _
    rw [hentries, pending, hhead, List.countP_cons, if_neg (by simp [isPending, htype])]
    rfl
  · exact h.timed y (List.mem_of_mem_tail hy)
  · show Agenda.debt now m.resetTimeQueue.tail.entries < _
    rw [hentries, overdue, hhead]
    exact Agenda.debt_lt_cons hdue

theorem resetOrWarnAll_warn (m : Manager) (pair : ℕ) (t : ℤ) :
    c.resetOrWarnAll m pair true t = m := by
  rw [resetOrWarnAll, if_pos (rfl : true = true), ite_self]

theorem delay_lt {type : ℕ} (h : 1 ≤ type ∧ type < 4) :
    resetTimeDelay (type + 1) < resetTimeDelay type := by
  obtain rfl | rfl | rfl : type = 1 ∨ type = 2 ∨ type = 3 := by omega
  all_goals decide

theorem OnSchedule.round_warn (h : c.OnSchedule t r m)
    (hhead : m.resetTimeQueue.entries = e :: es) (hdue : e.1 < now)
    (htype : 1 ≤ e.2.type ∧ e.2.type < 4) :
    c.OnSchedule t r (c.round now m) ∧ overdue now (c.round now m) < overdue now m := by
  have hin : 1 ≤ e.2.type ∧ e.2.type ≤ 4 := ⟨htype.1, htype.2.le⟩
  obtain h0 | ⟨-, ⟨d, hd⟩, htime⟩ := h.timed e (hhead ▸ List.mem_cons_self)
  · omega
  have hlater := delay_lt htype
  let x : ℤ × InstResetEvent :=
    (m.resetTimeByMapDifficulty e.2.pair - resetTimeDelay (e.2.type + 1),
      { e.2 with type := e.2.type + 1 })
  have hx : e.1 < x.1 := by
    show e.1 < m.resetTimeByMapDifficulty e.2.pair - resetTimeDelay (e.2.type + 1)
    omega
  have hround : c.round now m = { m with
      resetTimeQueue := ((m.resetTimeQueue.setHead x.2).insert x.1 x.2).tail } := by
    rw [round_of_due hhead hdue, if_neg (by omega)]
    have hwarn : decide (e.2.type ≠ 4) = true := decide_eq_true (by omega)
    dsimp only
    rw [hwarn, resetOrWarnAll_warn, if_pos (by omega)]
    rfl
  have hentries : (c.round now m).resetTimeQueue.entries = Agenda.insertEntry x es := by
    rw [hround]
    exact Agenda.tail_insert (Agenda.entries_setHead hhead) hx.le
  have hsame : (c.round now m).resetTimeByMapDifficulty = m.resetTimeByMapDifficulty := by
    rw [hround]
  refine ⟨h.replace hhead hin hd hentries ⟨by show 1 ≤ e.2.type + 1; omega, htype.2⟩ rfl
    (fun p _ => ⟨rfl, congrFun hsame p⟩) ?_ ?_, ?_⟩
  · rw [hsame]
    exact h.time _ d hd
  · rw [hsame]
  · rw [overdue, hentries, overdue, hhead]
    exact Agenda.debt_insertEntry_lt hdue hx

theorem round_reset (hhead : m.resetTimeQueue.entries = e :: es) (hdue : e.1 < now)
    (htype : e.2.type = 4) (hd : c.Global e.2.pair d) :
    c.round now m = if c.instanceable (mapOf e.2.pair) then
        let nextReset := uint32 ((m.resetTimeByMapDifficulty e.2.pair + MINUTE) / DAY * DAY +
          c.period d + c.diff)
        { (m.setResetTimeFor e.2.pair nextReset) with
          resetTimeQueue :=
            (m.resetTimeQueue.insert (uint32 (nextReset - 3600)) ⟨1, e.2.pair, 0⟩).tail }
      else { m with resetTimeQueue := m.resetTimeQueue.tail } := by
  have hreset : decide (e.2.type ≠ 4) = false := decide_eq_false (not_not.2 htype)
  rw [round_of_due hhead hdue, if_neg (by omega)]
  dsimp only
  rw [hreset, if_neg (not_not.2 htype), resetOrWarnAll]
  by_cases hmap : c.instanceable (mapOf e.2.pair)
  · rw [if_neg (not_not.2 hmap), if_neg Bool.false_ne_true, if_pos hmap, hd.1]
    dsimp only
    rw [if_neg hd.2]
    rfl
  · rw [if_pos hmap, if_neg hmap]

/-- A reset that finds everything as it should be is the next one on the schedule. -/
theorem OnSchedule.round_reset (h : c.OnSchedule t r m)
    (hhead : m.resetTimeQueue.entries = e :: es) (hdue : e.1 < now) (htype : e.2.type = 4)
    (hd : c.Global e.2.pair d) (ht : 0 ≤ t e.2.pair ∧ t e.2.pair % DAY = c.diff)
    (hreg : c.Regular t e.2.pair d (r e.2.pair)) :
    c.OnSchedule t (Function.update r e.2.pair (r e.2.pair + 1)) (c.round now m) ∧
      overdue now (c.round now m) < overdue now m ∧
      (c.round now m).resetTimeByMapDifficulty e.2.pair =
        m.resetTimeByMapDifficulty e.2.pair + c.period d := by
  obtain ⟨hmap, hwhole, hbits⟩ := hreg
  obtain h0 | ⟨-, -, htime⟩ := h.timed e (hhead ▸ List.mem_cons_self)
  · omega
  have hP := c.day_le_period d
  have hcur := h.time _ d hd
  have hnonneg : 0 ≤ (r e.2.pair : ℤ) * c.period d :=
    mul_nonneg (Int.natCast_nonneg _) ((by decide : (0 : ℤ) ≤ DAY).trans hP)
  have hsucc : ((r e.2.pair + 1 : ℕ) : ℤ) * c.period d =
      r e.2.pair * c.period d + c.period d := by
    push_cast
    ring
  have hnext : uint32 ((m.resetTimeByMapDifficulty e.2.pair + MINUTE) / DAY * DAY +
      c.period d + c.diff) = m.resetTimeByMapDifficulty e.2.pair + c.period d := by
    refine (nextReset_iff (by omega)).2 ⟨?_, by omega⟩
    rw [hcur]
    exact (mod_add_iff ht.2).2 hwhole
  have hearly : uint32 (m.resetTimeByMapDifficulty e.2.pair + c.period d - 3600) =
      m.resetTimeByMapDifficulty e.2.pair + c.period d - 3600 := by
    unfold DAY at hP
    exact Int.emod_eq_of_lt (by omega) (by omega)
  have hround := Config.round_reset (c := c) hhead hdue htype hd
  rw [if_pos hmap] at hround
  dsimp only at hround
  rw [hnext, hearly] at hround
  have hdelay : e.1 = m.resetTimeByMapDifficulty e.2.pair - 60 := by rw [htime, htype]; rfl
  have hlater : e.1 < m.resetTimeByMapDifficulty e.2.pair + c.period d - 3600 := by
    unfold DAY at hP
    omega
  have hentries : (c.round now m).resetTimeQueue.entries = Agenda.insertEntry
      (m.resetTimeByMapDifficulty e.2.pair + c.period d - 3600, ⟨1, e.2.pair, 0⟩) es := by
    rw [hround]
    exact Agenda.tail_insert hhead hlater.le
  have hself : (c.round now m).resetTimeByMapDifficulty e.2.pair =
      m.resetTimeByMapDifficulty e.2.pair + c.period d := by
    rw [hround]
    exact if_pos rfl
  refine ⟨h.replace hhead (by omega) hd hentries ⟨le_rfl, by show 1 ≤ 4; decide⟩ rfl
    (fun p hp => ⟨?_, ?_⟩) ?_ ?_, ?_, hself⟩
  · exact Function.update_of_ne hp _ _
  · rw [hround]
    exact if_neg hp
  · rw [hself, Function.update_self, hsucc, hcur]
    ring
  · rw [hself]
    rfl
  · rw [overdue, hentries, overdue, hhead]
    exact Agenda.debt_insertEntry_lt hdue hlater

/-- A reset that leaves every pair with one event and moves the pair by its period found everything
as it should be. -/
theorem OnSchedule.regular_of_round (h : c.OnSchedule t r m)
    (hhead : m.resetTimeQueue.entries = e :: es) (hdue : e.1 < now) (htype : e.2.type = 4)
    (hd : c.Global e.2.pair d) (ht : 0 ≤ t e.2.pair ∧ t e.2.pair % DAY = c.diff)
    (hone : c.OneEach (c.round now m)) (hmoves : c.MovesOn now m) :
    c.Regular t e.2.pair d (r e.2.pair) := by
  have hmove := hmoves e d (by rw [hhead]; rfl) hdue htype hd
  have hround := Config.round_reset (c := c) hhead hdue htype hd
  by_cases hmap : c.instanceable (mapOf e.2.pair)
  · rw [if_pos hmap] at hround
    have hcur := h.time _ d hd
    have hP := c.day_le_period d
    have hnonneg : 0 ≤ (r e.2.pair : ℤ) * c.period d :=
      mul_nonneg (Int.natCast_nonneg _) ((by decide : (0 : ℤ) ≤ DAY).trans hP)
    have hnext : (c.round now m).resetTimeByMapDifficulty e.2.pair =
        uint32 ((m.resetTimeByMapDifficulty e.2.pair + MINUTE) / DAY * DAY + c.period d +
          c.diff) := by
      rw [hround]
      exact if_pos rfl
    obtain ⟨hmod, hbits⟩ := (nextReset_iff (by omega)).1 (hnext.symm.trans hmove)
    refine ⟨hmap, ?_, ?_⟩
    · rw [hcur] at hmod
      exact (mod_add_iff ht.2).1 hmod
    · rw [hcur] at hbits
      push_cast
      linarith
  · rw [if_neg hmap] at hround
    have hcount := hone _ d hd
    have hbefore := h.one _ d hd
    have hfirst : isPending e.2.pair e = true := by simp [isPending, htype]
    rw [hround] at hcount
    rw [pending, hhead, List.countP_cons, if_pos hfirst] at hbefore
    replace hcount : m.resetTimeQueue.tail.entries.countP (isPending e.2.pair) = 1 := hcount
    rw [entries_tail hhead] at hcount
    omega

/-! ### Updates -/

/-- The times that the schedule starts from. -/
def Aligned (c : Config) (t : ℕ → ℤ) : Prop :=
  ∀ pair d, c.Global pair d → 0 ≤ t pair ∧ t pair % DAY = c.diff

/-- A reset falls due at the clock `now`. -/
def FallsDue (c : Config) (t : ℕ → ℤ) (pair : ℕ) (d : MapDifficulty) (i now : ℕ) : Prop :=
  t pair + i * c.period d < now + MINUTE

theorem OnSchedule.fallsDue (h : c.OnSchedule t r m) (hhead : m.resetTimeQueue.entries = e :: es)
    (hdue : e.1 < now) (htype : e.2.type = 4) (hd : c.Global e.2.pair d) :
    c.FallsDue t e.2.pair d (r e.2.pair) now := by
  obtain h0 | ⟨-, -, htime⟩ := h.timed e (hhead ▸ List.mem_cons_self)
  · omega
  · have hcur := h.time _ d hd
    have hdelay : resetTimeDelay e.2.type = MINUTE := by rw [htype]; rfl
    unfold FallsDue
    omega

/-- When the loop has ended, no reset is left that falls due. -/
theorem OnSchedule.not_fallsDue (h : c.OnSchedule t r m) (hend : ¬ m.Due now)
    (hd : c.Global pair d) : ¬ c.FallsDue t pair d (r pair) now := by
  have hone := h.one _ d hd
  obtain ⟨e, he, hpend⟩ := List.countP_pos_iff.1 (by rw [← pending, hone]; decide)
  obtain ⟨hpair, htype⟩ := of_decide_eq_true hpend
  have hlate : (now : ℤ) ≤ e.1 := by
    cases hes : m.resetTimeQueue.entries with
    | nil =>
      rw [hes] at he
      cases he
    | cons x es =>
      refine Agenda.forall_le hes (not_lt.1 fun hlt => hend ⟨x, ?_, hlt⟩) e he
      rw [hes]
      rfl
  have hdelay := (delay_bounds e.2.type).1
  have hcur := h.time _ d hd
  obtain h0 | ⟨-, -, htime⟩ := h.timed e he
  · omega
  · rw [hpair] at htime
    unfold FallsDue
    omega

theorem OnSchedule.round (h : c.OnSchedule t r m) (ht : c.Aligned t) (hdue : m.Due now)
    (hreg : ∀ pair d, c.Global pair d → ∀ i, c.FallsDue t pair d i now → c.Regular t pair d i) :
    ∃ r', c.OnSchedule t r' (c.round now m) ∧ overdue now (c.round now m) < overdue now m := by
  obtain ⟨e, hhead, hlt⟩ := hdue
  obtain ⟨es, hes⟩ := List.head?_eq_some_iff.1 hhead
  obtain h0 | ⟨htype, ⟨d, hd⟩, -⟩ := h.timed e (hes ▸ List.mem_cons_self)
  · exact ⟨r, h.round_instance hes hlt h0⟩
  · by_cases h4 : e.2.type = 4
    · have hgood := hreg _ d hd _ (h.fallsDue hes hlt h4 hd)
      obtain ⟨hnext, hless, -⟩ := h.round_reset hes hlt h4 hd (ht _ d hd) hgood
      exact ⟨_, hnext, hless⟩
    · exact ⟨r, h.round_warn hes hlt ⟨htype.1, by omega⟩⟩

theorem OnSchedule.movesOn (h : c.OnSchedule t r m) (ht : c.Aligned t)
    (hreg : ∀ pair d, c.Global pair d → ∀ i, c.FallsDue t pair d i now → c.Regular t pair d i) :
    c.MovesOn now m := by
  intro e d hhead hlt h4 hd
  obtain ⟨es, hes⟩ := List.head?_eq_some_iff.1 hhead
  have hgood := hreg _ d hd _ (h.fallsDue hes hlt h4 hd)
  exact (h.round_reset hes hlt h4 hd (ht _ d hd) hgood).2.2

theorem OnSchedule.iterate (h : c.OnSchedule t r m) (ht : c.Aligned t)
    (hreg : ∀ pair d, c.Global pair d → ∀ i, c.FallsDue t pair d i now → c.Regular t pair d i)
    (n : ℕ) : ∃ r', c.OnSchedule t r' ((c.round now)^[n] m) := by
  induction n with
  | zero => exact ⟨r, h⟩
  | succ n ih =>
    obtain ⟨r', hr'⟩ := ih
    rw [Function.iterate_succ_apply']
    by_cases hdue : ((c.round now)^[n] m).Due now
    · obtain ⟨r'', hr'', -⟩ := hr'.round ht hdue hreg
      exact ⟨r'', hr''⟩
    · rw [round_of_not_due hdue]
      exact ⟨r', hr'⟩

/-- **One direction.** When every reset that falls due finds everything as it should be, the calls
of `Update` are sound. -/
theorem OnSchedule.sound {clocks : List ℕ} (h : c.OnSchedule t r m) (ht : c.Aligned t)
    (hreg : ∀ pair d, c.Global pair d → ∀ i, (∃ now ∈ clocks, c.FallsDue t pair d i now) →
      c.Regular t pair d i) : c.Sound m clocks := by
  induction clocks generalizing m r with
  | nil => exact h.one
  | cons now clocks ih =>
    have hnow : ∀ pair d, c.Global pair d → ∀ i, c.FallsDue t pair d i now →
        c.Regular t pair d i := fun pair d hd i hi =>
      hreg pair d hd i ⟨now, List.mem_cons_self, hi⟩
    obtain ⟨n, hn⟩ := exists_iterate_not (f := c.round now)
      (I := fun m => ∃ r, c.OnSchedule t r m) (overdue now) (s := m)
      (fun m ⟨r, hr⟩ hdue => by
        obtain ⟨r', hr', hless⟩ := hr.round ht hdue hnow
        exact ⟨⟨r', hr'⟩, hless⟩) ⟨r, h⟩
    refine ⟨fun n => ?_, n, hn, ?_⟩
    · obtain ⟨r', hr'⟩ := h.iterate ht hnow n
      exact ⟨hr'.one, hr'.movesOn ht hnow⟩
    · obtain ⟨r', hr'⟩ := h.iterate ht hnow n
      exact ih hr' fun pair d hd i ⟨now', hnow', hi⟩ =>
        hreg pair d hd i ⟨now', List.mem_cons_of_mem now hnow', hi⟩

/-- The rounds of a sound call: the resets between `r` and `r'` found everything as it should be. -/
theorem OnSchedule.iterate_of_sound (h : c.OnSchedule t r m) (ht : c.Aligned t)
    (hsound : ∀ n, c.OneEach ((c.round now)^[n] m) ∧ c.MovesOn now ((c.round now)^[n] m))
    (n : ℕ) : ∃ r', c.OnSchedule t r' ((c.round now)^[n] m) ∧
      ∀ pair d, c.Global pair d → ∀ i, r pair ≤ i → i < r' pair → c.Regular t pair d i := by
  induction n with
  | zero => exact ⟨r, h, fun pair d _ i hle hlt => absurd hle (not_le.2 hlt)⟩
  | succ n ih =>
    obtain ⟨r', hr', hreg⟩ := ih
    have hone := (hsound (n + 1)).1
    rw [Function.iterate_succ_apply'] at hone ⊢
    by_cases hdue : ((c.round now)^[n] m).Due now
    · obtain ⟨e, hhead, hlt⟩ := hdue
      obtain ⟨es, hes⟩ := List.head?_eq_some_iff.1 hhead
      obtain h0 | ⟨htype, ⟨d, hd⟩, -⟩ := hr'.timed e (hes ▸ List.mem_cons_self)
      · exact ⟨r', (hr'.round_instance hes hlt h0).1, hreg⟩
      · by_cases h4 : e.2.type = 4
        · have hgood := hr'.regular_of_round hes hlt h4 hd (ht _ d hd) hone (hsound n).2
          refine ⟨_, (hr'.round_reset hes hlt h4 hd (ht _ d hd) hgood).1, ?_⟩
          intro pair d' hd' i hle hlt'
          by_cases hp : pair = e.2.pair
          · subst hp
            obtain rfl := hd.eq hd'
            rw [Function.update_self] at hlt'
            rcases (Nat.lt_succ_iff_lt_or_eq.1 hlt') with hlt' | rfl
            · exact hreg _ _ hd _ hle hlt'
            · exact hgood
          · rw [Function.update_of_ne hp] at hlt'
            exact hreg pair d' hd' i hle hlt'
        · exact ⟨r', (hr'.round_warn hes hlt ⟨htype.1, by omega⟩).1, hreg⟩
    · rw [round_of_not_due hdue]
      exact ⟨r', hr', hreg⟩

/-- **The other direction.** -/
theorem OnSchedule.regular_of_sound {clocks : List ℕ} (h : c.OnSchedule t r m) (ht : c.Aligned t)
    (hsound : c.Sound m clocks) (hd : c.Global pair d) {i : ℕ} (hi : r pair ≤ i)
    (hdue : ∃ now ∈ clocks, c.FallsDue t pair d i now) : c.Regular t pair d i := by
  induction clocks generalizing m r with
  | nil =>
    obtain ⟨now, hnow, -⟩ := hdue
    cases hnow
  | cons now clocks ih =>
    obtain ⟨hrounds, n, hend, hrest⟩ := hsound
    obtain ⟨r', hr', hreg⟩ := h.iterate_of_sound ht hrounds n
    by_cases hlt : i < r' pair
    · exact hreg pair d hd i hi hlt
    · refine ih hr' hrest (not_lt.1 hlt) ?_
      obtain ⟨now', hnow', hfalls⟩ := hdue
      rcases List.mem_cons.1 hnow' with rfl | hnow'
      · refine absurd ?_ (hr'.not_fallsDue hend hd)
        have hmono : (r' pair : ℤ) * c.period d ≤ i * c.period d :=
          mul_le_mul_of_nonneg_right (by exact_mod_cast not_lt.1 hlt)
            ((by decide : (0 : ℤ) ≤ DAY).trans (c.day_le_period d))
        unfold FallsDue at hfalls ⊢
        omega
      · exact ⟨now', hnow', hfalls⟩

/-! ### From the tables -/

theorem Sound.oneEach {clocks : List ℕ} (h : c.Sound m clocks) : c.OneEach m := by
  cases clocks with
  | nil => exact h
  | cons now clocks => exact (h.1 0).1

theorem loadedRight_iff :
    c.LoadedRight db now ↔ ∀ pair d, c.Global pair d → DAY ∣ c.advance db now pair d := by
  refine forall_congr' fun pair => forall_congr' fun d => forall_congr' fun hd => ?_
  rw [loadResetTimes_time hd]
  exact c.loaded_iff db now pair d

theorem oneEach_loadResetTimes_iff : c.OneEach (c.loadResetTimes db now) ↔
    ∀ row ∈ ownInstances db, ∀ d, ¬ c.Global row.pair d := by
  constructor
  · intro h row hrow d hd
    have hone := h _ d hd
    have hmem : row ∈ (ownInstances db).filter (·.pair = row.pair) :=
      List.mem_filter.2 ⟨hrow, decide_eq_true rfl⟩
    have hpos : 0 < ownCount db row.pair := List.length_pos_of_mem hmem
    rw [loadResetTimes_pending hd] at hone
    omega
  · intro h pair d hd
    have hnil : (ownInstances db).filter (·.pair = pair) = [] := by
      refine List.filter_eq_nil_iff.2 fun row hrow hpair => h row hrow d ?_
      rw [of_decide_eq_true hpair]
      exact hd
    rw [loadResetTimes_pending hd, ownCount, hnil, List.length_nil]

theorem onSchedule_loadResetTimes (hone : c.OneEach (c.loadResetTimes db now)) :
    c.OnSchedule (c.loadResetTimes db now).resetTimeByMapDifficulty (fun _ => 0)
      (c.loadResetTimes db now) := by
  refine ⟨fun pair d hd => by simp, hone, fun e he => ?_⟩
  rcases (c.loadedTo_loadResetTimes db now).timed e he with h0 | ⟨htype, ⟨d, hd, hne⟩, htime⟩
  · exact .inl h0
  · exact .inr ⟨htype, ⟨d, SortedMap.find_of_mem hd, hne⟩, htime⟩

theorem resetNo_eq (hd : c.Global pair d) (i : ℕ) : c.resetNo db now pair d i =
    (c.loadResetTimes db now).resetTimeByMapDifficulty pair + i * c.period d := by
  rw [loadResetTimes_time hd]
  rfl

end Config

open Config

/-- **Main result.** The times are loaded right, and the calls of `Update` at the clocks are sound,
exactly if no instance has a reset time of its own and global resets, whole days are added when a
time is loaded, and every reset that falls due is of an instanceable map, whole days after the first
one, and of less than 32 bits. -/
theorem resets_once_iff (c : Config) (db : Database) (now : ℕ) (clocks : List ℕ) :
    c.LoadedRight db now ∧ c.Sound (c.loadResetTimes db now) clocks ↔
      c.WholeDays db now clocks := by
  constructor
  · rintro ⟨hload, hsound⟩
    have ht : c.Aligned (c.loadResetTimes db now).resetTimeByMapDifficulty := fun pair d hd =>
      ⟨(Int.natCast_nonneg now).trans (hload pair d hd).1, (hload pair d hd).2⟩
    have hone := hsound.oneEach
    refine ⟨oneEach_loadResetTimes_iff.1 hone, loadedRight_iff.1 hload, fun pair d hd i hdue => ?_⟩
    simp only [resetNo_eq hd] at hdue ⊢
    exact (onSchedule_loadResetTimes hone).regular_of_sound ht hsound hd (Nat.zero_le i) hdue
  · rintro ⟨hown, hload, hdue⟩
    have hright := loadedRight_iff.2 hload
    have ht : c.Aligned (c.loadResetTimes db now).resetTimeByMapDifficulty := fun pair d hd =>
      ⟨(Int.natCast_nonneg now).trans (hright pair d hd).1, (hright pair d hd).2⟩
    refine ⟨hright, ?_⟩
    refine (onSchedule_loadResetTimes (oneEach_loadResetTimes_iff.2 hown)).sound ht ?_
    intro pair d hd i hfalls
    have hgood := hdue pair d hd i
    simp only [resetNo_eq hd] at hgood
    exact hgood hfalls

/-- A raid with a period of a week, which a rate of 0.3 shortens to two days and some hours. -/
def shortWeek : Config :=
  ⟨SortedMap.empty.insert 533 ⟨604800⟩, fun _ => true, 4, fun _ => 181439⟩

/-- Nothing is stored. -/
def noRows : Database := ⟨[], [], fun _ => none⟩

theorem period_shortWeek : shortWeek.period ⟨604800⟩ = 181439 := by decide

/-- The first reset of the raid is not at the hour that is configured. -/
theorem short_week_off_hour : ¬ (shortWeek.LoadedRight noRows 1000000 ∧
    shortWeek.Sound (shortWeek.loadResetTimes noRows 1000000) [1100000]) := by
  rintro ⟨hload, -⟩
  have hdays := loadedRight_iff.1 hload 533 ⟨604800⟩ ⟨rfl, by decide⟩
  have hstored : shortWeek.storedResetTime noRows 533 = 0 := rfl
  rw [advance, if_pos hstored, period_shortWeek] at hdays
  exact absurd hdays (by decide)

end FaceCore.InstanceResets
