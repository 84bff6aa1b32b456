import Mathlib.Algebra.Order.Ring.Nat
import Mathlib.Data.List.Nodup

/-!
# Pools of numbers

Numbers are handed out and come back. A pool keeps the largest number so far and a queue of those
below it that came back: `get` takes from the queue, or the number after the largest; `release` puts
a number in the queue, or lowers the largest by one. Numbers are below `w` and wrap there.

* `Valid w p used`: the numbers of `used` are out, and the pool knows it;
* `Valid.get`, `Valid.release`: a number goes out, which was not, and comes back;
* `Suffices w p n`: the pool does not wrap for the next `n` numbers;
* `Lost`: a number that is neither out nor in the queue; `lost_iff`: it may come back as well;
* `valid_load`: the pool for numbers that are out already.
-/

/-- A pool of numbers. -/
structure IdPool where
  freeIds : List ℕ
  maxId : ℕ

namespace IdPool

variable {w id : ℕ} {p : IdPool} {used used' : List ℕ}

/-- Take a number. -/
def get (w : ℕ) (p : IdPool) : ℕ × IdPool :=
  match p.freeIds with
  | [] => ((p.maxId + 1) % w, { p with maxId := (p.maxId + 1) % w })
  | id :: freeIds => (id, { p with freeIds := freeIds })

/-- Give a number back. -/
def release (w : ℕ) (p : IdPool) (id : ℕ) : IdPool :=
  if id = p.maxId then { p with maxId := (p.maxId + w - 1) % w }
  else { p with freeIds := p.freeIds ++ [id] }

/-- The numbers of `used` are out, and those of the queue are not. -/
structure Valid (w : ℕ) (p : IdPool) (used : List ℕ) : Prop where
  lt : p.maxId < w
  used_nodup : used.Nodup
  used_mem : ∀ i ∈ used, 0 < i ∧ i ≤ p.maxId
  free_nodup : p.freeIds.Nodup
  free_mem : ∀ i ∈ p.freeIds, 0 < i ∧ i ≤ p.maxId
  disjoint : ∀ i ∈ p.freeIds, i ∉ used

/-- `n` numbers can be handed out before they wrap. -/
def Suffices (w : ℕ) (p : IdPool) (n : ℕ) : Prop := p.maxId + (n - p.freeIds.length) < w

instance (w : ℕ) (p : IdPool) (n : ℕ) : Decidable (Suffices w p n) :=
  inferInstanceAs (Decidable (p.maxId + (n - p.freeIds.length) < w))

/-- A number that is not out and does not come again either. -/
def Lost (p : IdPool) (used : List ℕ) (id : ℕ) : Prop :=
  0 < id ∧ id ≤ p.maxId ∧ id ∉ used ∧ id ∉ p.freeIds

theorem Valid.sublist (h : Valid w p used) (hs : used'.Sublist used) : Valid w p used' where
  lt := h.lt
  used_nodup := h.used_nodup.sublist hs
  used_mem := fun i hi => h.used_mem i (hs.subset hi)
  free_nodup := h.free_nodup
  free_mem := h.free_mem
  disjoint := fun i hi hu => h.disjoint i hi (hs.subset hu)

theorem Valid.perm (h : Valid w p used) (hp : used'.Perm used) : Valid w p used' where
  lt := h.lt
  used_nodup := hp.nodup_iff.2 h.used_nodup
  used_mem := fun i hi => h.used_mem i (hp.subset hi)
  free_nodup := h.free_nodup
  free_mem := h.free_mem
  disjoint := fun i hi hu => h.disjoint i hi (hp.subset hu)

theorem Suffices.one {n : ℕ} (h : Suffices w p (n + 1)) (hfree : p.freeIds = []) :
    p.maxId + 1 < w := by
  unfold Suffices at h
  rw [hfree, List.length_nil] at h
  omega

theorem Suffices.get {n : ℕ} (h : Suffices w p (n + 1)) : Suffices w (p.get w).2 n := by
  have hone := fun hfree => h.one hfree
  unfold Suffices at h ⊢
  unfold IdPool.get
  cases hfree : p.freeIds with
  | nil =>
    dsimp only
    rw [Nat.mod_eq_of_lt (hone hfree), List.length_nil]
    rw [hfree, List.length_nil] at h
    omega
  | cons id freeIds =>
    dsimp only
    rw [hfree, List.length_cons] at h
    omega

/-- A number that is handed out is positive and was not out. -/
theorem Valid.get_fresh (h : Valid w p used) (hfit : p.freeIds = [] → p.maxId + 1 < w) :
    0 < (p.get w).1 ∧ (p.get w).1 ∉ used := by
  unfold IdPool.get
  cases hfree : p.freeIds with
  | nil =>
    dsimp only
    rw [Nat.mod_eq_of_lt (hfit hfree)]
    refine ⟨Nat.succ_pos _, fun hmem => ?_⟩
    have := (h.used_mem _ hmem).2
    omega
  | cons id freeIds =>
    have hmem : id ∈ p.freeIds := hfree ▸ List.mem_cons_self
    exact ⟨(h.free_mem id hmem).1, h.disjoint id hmem⟩

theorem Valid.get (h : Valid w p used) (hfit : p.freeIds = [] → p.maxId + 1 < w) :
    Valid w (p.get w).2 ((p.get w).1 :: used) := by
  obtain ⟨hpos, hnot⟩ := h.get_fresh hfit
  revert hpos hnot
  unfold IdPool.get
  cases hfree : p.freeIds with
  | nil =>
    dsimp only
    rw [Nat.mod_eq_of_lt (hfit hfree)]
    intro hpos hnot
    refine ⟨hfit hfree, List.nodup_cons.2 ⟨hnot, h.used_nodup⟩, ?_, ?_, ?_, ?_⟩
    · intro i hi
      dsimp only
      rcases List.mem_cons.1 hi with rfl | hi
      · omega
      · have := h.used_mem i hi
        omega
    · exact List.nodup_nil
    · exact fun i hi => absurd hi List.not_mem_nil
    · exact fun i hi => absurd hi List.not_mem_nil
  | cons id freeIds =>
    dsimp only
    intro hpos hnot
    have hnodup := List.nodup_cons.1 (hfree ▸ h.free_nodup)
    have hsub : ∀ i ∈ freeIds, i ∈ p.freeIds := fun i hi => hfree ▸ List.mem_cons_of_mem id hi
    refine ⟨h.lt, List.nodup_cons.2 ⟨hnot, h.used_nodup⟩, ?_, hnodup.2, ?_, ?_⟩
    · intro i hi
      rcases List.mem_cons.1 hi with rfl | hi
      · exact h.free_mem i (hfree ▸ List.mem_cons_self)
      · exact h.used_mem i hi
    · exact fun i hi => h.free_mem i (hsub i hi)
    · intro i hi hu
      rcases List.mem_cons.1 hu with rfl | hu
      · exact hnodup.1 hi
      · exact h.disjoint i (hsub i hi) hu

/-- A number that was out comes back. -/
theorem Valid.release (h : Valid w p (id :: used)) : Valid w (p.release w id) used := by
  obtain ⟨hpos, hle⟩ := h.used_mem id List.mem_cons_self
  obtain ⟨hnot, hnodup⟩ := List.nodup_cons.1 h.used_nodup
  have hlt := h.lt
  unfold IdPool.release
  split_ifs with hmax
  · have hpred : (p.maxId + w - 1) % w = p.maxId - 1 := by
      rw [show p.maxId + w - 1 = (p.maxId - 1) + w by omega, Nat.add_mod_right]
      exact Nat.mod_eq_of_lt (by omega)
    rw [hpred]
    refine ⟨by dsimp only; omega, hnodup, ?_, h.free_nodup, ?_, ?_⟩
    · intro i hi
      have := h.used_mem i (List.mem_cons_of_mem id hi)
      have hne : i ≠ id := fun heq => hnot (heq ▸ hi)
      dsimp only
      omega
    · intro i hi
      have := h.free_mem i hi
      have hne : i ≠ id := fun heq => h.disjoint i hi (heq ▸ List.mem_cons_self)
      dsimp only
      omega
    · exact fun i hi hu => h.disjoint i hi (List.mem_cons_of_mem id hu)
  · refine ⟨h.lt, hnodup, fun i hi => h.used_mem i (List.mem_cons_of_mem id hi), ?_, ?_, ?_⟩
    · rw [List.nodup_append]
      refine ⟨h.free_nodup, List.nodup_singleton id, ?_⟩
      intro i hi j hj heq
      rw [List.mem_singleton] at hj
      exact h.disjoint i hi (heq.trans hj ▸ List.mem_cons_self)
    · intro i hi
      rcases List.mem_append.1 hi with hi | hi
      · exact h.free_mem i hi
      · rw [List.mem_singleton.1 hi]
        exact ⟨hpos, hle⟩
    · intro i hi hu
      rcases List.mem_append.1 hi with hi | hi
      · exact h.disjoint i hi (List.mem_cons_of_mem id hu)
      · exact hnot (List.mem_singleton.1 hi ▸ hu)

theorem Valid.foldl_release {ids : List ℕ} (h : Valid w p (ids ++ used)) :
    Valid w (ids.foldl (IdPool.release w) p) used := by
  induction ids generalizing p with
  | nil => exact h
  | cons id ids ih => exact ih h.release

/-- A lost number may come back, as if it had been out. -/
theorem lost_iff (h : Valid w p used) : Lost p used id ↔ Valid w p (id :: used) := by
  constructor
  · rintro ⟨hpos, hle, hused, hfree⟩
    refine ⟨h.lt, List.nodup_cons.2 ⟨hused, h.used_nodup⟩, ?_, h.free_nodup, h.free_mem, ?_⟩
    · intro i hi
      rcases List.mem_cons.1 hi with rfl | hi
      · exact ⟨hpos, hle⟩
      · exact h.used_mem i hi
    · intro i hi hu
      rcases List.mem_cons.1 hu with rfl | hu
      · exact hfree hi
      · exact h.disjoint i hi hu
  · intro h'
    obtain ⟨hpos, hle⟩ := h'.used_mem id List.mem_cons_self
    exact ⟨hpos, hle, (List.nodup_cons.1 h'.used_nodup).1,
      fun hfree => h'.disjoint id hfree List.mem_cons_self⟩

/-! ### Numbers that are out already -/

/-- The pool for `used`: the largest of them, and the numbers below it that are missing. -/
def load (used : List ℕ) : IdPool :=
  let maxId := used.foldl max 0
  ⟨(List.range' 1 (maxId - 1)).filter (· ∉ used), maxId⟩

theorem le_foldl_max {n i : ℕ} (h : i ≤ n ∨ i ∈ used) : i ≤ used.foldl max n := by
  induction used generalizing n with
  | nil => simpa using h
  | cons j used ih =>
    apply ih
    rcases h with h | h
    · exact .inl (h.trans (le_max_left n j))
    · rcases List.mem_cons.1 h with rfl | h
      · exact .inl (le_max_right n i)
      · exact .inr h

theorem foldl_max_lt {n : ℕ} (hn : n < w) (h : ∀ i ∈ used, i < w) : used.foldl max n < w := by
  induction used generalizing n with
  | nil => exact hn
  | cons j used ih =>
    exact ih (max_lt hn (h j List.mem_cons_self)) fun i hi => h i (List.mem_cons_of_mem j hi)

theorem mem_freeIds_load {i : ℕ} :
    i ∈ (load used).freeIds ↔ (1 ≤ i ∧ i < 1 + (used.foldl max 0 - 1)) ∧ i ∉ used := by
  show i ∈ (List.range' 1 (used.foldl max 0 - 1)).filter (· ∉ used) ↔ _
  rw [List.mem_filter, List.mem_range'_1, decide_eq_true_eq]

theorem valid_load (hw : 0 < w) (hnodup : used.Nodup) (h : ∀ i ∈ used, 0 < i ∧ i < w) :
    Valid w (load used) used where
  lt := foldl_max_lt hw fun i hi => (h i hi).2
  used_nodup := hnodup
  used_mem := fun i hi => ⟨(h i hi).1, le_foldl_max (.inr hi)⟩
  free_nodup := by
    unfold load
    exact List.Nodup.filter _ List.nodup_range'
  free_mem := by
    intro i hi
    have hmem := (mem_freeIds_load.1 hi).1
    show 0 < i ∧ i ≤ used.foldl max 0
    omega
  disjoint := fun i hi => (mem_freeIds_load.1 hi).2

end IdPool
