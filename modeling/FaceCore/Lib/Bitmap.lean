import Mathlib.Data.Nat.Bitwise
import Mathlib.Order.Interval.Finset.Nat

/-!
# Bitmaps

A growing vector of bits stands for a finite set of numbers. Reading and writing are defined only
below the size of the vector, and `resize` may cut bits off as well as add cleared ones.

* `Represents bits s`: the bits that are set are those of `s`;
* `Represents.write_true`, `write_false`, `resize`: what the operations do to the set;
* `firstClear`: the first bit from `i` on that is not set, counting those past the end;
* `le_card_add_one`: the least positive number outside a set is not larger than its size plus one;
* `word`: some bits put together to one number, `testBit_word`.
-/

namespace Bitmap

variable {bits bits' : List Bool} {s : Finset ℕ} {i j n : ℕ} {b : Bool}

/-- The bit `i` is set. -/
def get (bits : List Bool) (i : ℕ) : Bool := bits.getD i false

/-- Write the bit `i`, which must lie below the size. -/
def write (bits : List Bool) (i : ℕ) (b : Bool) : Option (List Bool) :=
  if i < bits.length then some (bits.set i b) else none

/-- Give the vector the size `n`; new bits are cleared. -/
def resize (bits : List Bool) (n : ℕ) : List Bool :=
  bits.take n ++ List.replicate (n - bits.length) false

/-- The first bit from `i` on that is not set, among `fuel` many. -/
def firstClear (bits : List Bool) : ℕ → ℕ → Option ℕ
  | 0, _ => none
  | fuel + 1, i =>
    if (i < bits.length ∧ ¬ get bits i) ∨ bits.length ≤ i then some i
    else firstClear bits fuel (i + 1)

/-- The bits that are set are those of `s`. -/
def Represents (bits : List Bool) (s : Finset ℕ) : Prop := ∀ i, get bits i = true ↔ i ∈ s

theorem lt_length_of_get (h : get bits i = true) : i < bits.length := by
  by_contra hle
  unfold get at h
  rw [List.getD_eq_getElem?_getD, List.getElem?_eq_none (not_lt.1 hle)] at h
  cases h

theorem Represents.lt_length (h : Represents bits s) (hi : i ∈ s) : i < bits.length :=
  lt_length_of_get ((h i).2 hi)

/-! ### Writing and resizing -/

theorem write_isSome : (write bits i b).isSome ↔ i < bits.length := by
  unfold write
  split_ifs with hi <;> simp [hi]

theorem length_write (hw : write bits i b = some bits') : bits'.length = bits.length := by
  unfold write at hw
  split_ifs at hw
  obtain rfl := Option.some.inj hw
  exact List.length_set

theorem get_set (hi : i < bits.length) :
    get (bits.set i b) j = if i = j then b else get bits j := by
  unfold get
  rw [List.getD_eq_getElem?_getD, List.getD_eq_getElem?_getD, List.getElem?_set]
  split_ifs with hij
  · rfl
  · rfl

@[simp] theorem length_resize : (resize bits n).length = n := by
  unfold resize
  rw [List.length_append, List.length_take, List.length_replicate]
  omega

theorem get_resize : get (resize bits n) i = (decide (i < n) && get bits i) := by
  unfold get resize
  rw [List.getD_eq_getElem?_getD, List.getD_eq_getElem?_getD, List.getElem?_append,
    List.length_take, List.getElem?_replicate, List.getElem?_take]
  by_cases hi : i < n <;> by_cases hl : i < bits.length
  · rw [if_pos (lt_min hi hl), if_pos hi]
    simp [hi]
  · rw [if_neg (by omega), List.getElem?_eq_none (not_lt.1 hl)]
    split_ifs <;> simp
  · rw [if_neg (by omega), if_neg (by omega)]
    simp [hi]
  · rw [if_neg (by omega), if_neg (by omega)]
    simp [hi]

theorem Represents.write_true (h : Represents bits s) (hw : write bits i true = some bits') :
    Represents bits' (insert i s) := by
  unfold write at hw
  split_ifs at hw with hi
  obtain rfl := Option.some.inj hw
  intro j
  rw [get_set hi, Finset.mem_insert, ← h j]
  split_ifs with hij
  · exact iff_of_true rfl (.inl hij.symm)
  · exact (or_iff_right fun heq => hij heq.symm).symm

theorem Represents.write_false (h : Represents bits s) (hw : write bits i false = some bits') :
    Represents bits' (s.erase i) := by
  unfold write at hw
  split_ifs at hw with hi
  obtain rfl := Option.some.inj hw
  intro j
  rw [get_set hi, Finset.mem_erase, ← h j]
  split_ifs with hij
  · exact iff_of_false (by decide) fun hj => hj.1 hij.symm
  · exact (and_iff_right fun heq => hij heq.symm).symm

/-- A new size above every member keeps the set. -/
theorem Represents.resize (h : Represents bits s) (hn : ∀ i ∈ s, i < n) :
    Represents (resize bits n) s := by
  intro i
  rw [get_resize, Bool.and_eq_true, decide_eq_true_eq, h i]
  exact and_iff_right_of_imp (hn i)

theorem represents_nil : Represents [] ∅ := fun i =>
  iff_of_false Bool.false_ne_true (Finset.notMem_empty i)

/-! ### The first bit that is not set -/

/-- The search stops at a bit that is not set, or past the end. -/
theorem firstClear_eq_ite {fuel : ℕ} :
    firstClear bits (fuel + 1) i =
      if get bits i then firstClear bits fuel (i + 1) else some i := by
  rw [firstClear]
  by_cases hi : get bits i = true
  · have hlt := lt_length_of_get hi
    rw [if_neg (by simp [hi, hlt]), if_pos hi]
  · rw [if_pos (by simp [hi, Nat.lt_or_ge]), if_neg hi]

/-- The search finds the least number from `i` on that is outside the set. -/
theorem Represents.firstClear (h : Represents bits s) {fuel : ℕ} (hij : i ≤ j)
    (hj : j < i + fuel) (hfree : j ∉ s) (hleast : ∀ k, i ≤ k → k < j → k ∈ s) :
    firstClear bits fuel i = some j := by
  induction fuel generalizing i with
  | zero => omega
  | succ fuel ih =>
    rw [firstClear_eq_ite]
    rcases hij.eq_or_lt with rfl | hlt
    · rw [if_neg (mt (h i).1 hfree)]
    · rw [if_pos ((h i).2 (hleast i le_rfl hlt))]
      exact ih (by omega) (by omega) fun k hk => hleast k (by omega)

/-! ### The least number outside a set -/

/-- Some positive number is outside a finite set. -/
theorem exists_isLeast (s : Finset ℕ) : ∃ n, IsLeast {i | 0 < i ∧ i ∉ s} n := by
  have hex : ∃ n, 0 < n ∧ n ∉ s := by
    obtain ⟨n, hn⟩ := Infinite.exists_notMem_finset (insert 0 s)
    rw [Finset.mem_insert, not_or] at hn
    exact ⟨n, Nat.pos_of_ne_zero hn.1, hn.2⟩
  classical
  exact ⟨Nat.find hex, Nat.find_spec hex, fun _ hk => Nat.find_min' hex hk⟩

/-- The numbers below the least one outside are members. -/
theorem mem_of_lt_isLeast (h : IsLeast {i | 0 < i ∧ i ∉ s} n) (hpos : 0 < i) (hi : i < n) :
    i ∈ s := by
  by_contra hnot
  exact absurd (h.2 ⟨hpos, hnot⟩) (not_le.2 hi)

/-- The least positive number outside a set is at most its size plus one. -/
theorem le_card_add_one (h : IsLeast {i | 0 < i ∧ i ∉ s} n) : n ≤ s.card + 1 := by
  have hsub : Finset.Ico 1 n ⊆ s := by
    intro k hk
    obtain ⟨hpos, hlt⟩ := Finset.mem_Ico.1 hk
    exact mem_of_lt_isLeast h hpos hlt
  have hcard := Finset.card_le_card hsub
  rw [Nat.card_Ico] at hcard
  omega

/-! ### Words of bits -/

/-- The number whose bits below `n` are those that `p` holds of, put together from the lowest. -/
def word (p : ℕ → Bool) (n : ℕ) : ℕ :=
  (List.range n).foldl (fun part k => if p k then part ||| 1 <<< k else part) 0

theorem word_succ (p : ℕ → Bool) (n : ℕ) :
    word p (n + 1) = if p n then word p n ||| 1 <<< n else word p n := by
  unfold word
  rw [List.range_succ, List.foldl_append]
  rfl

theorem testBit_word (p : ℕ → Bool) (n k : ℕ) :
    (word p n).testBit k = (decide (k < n) && p k) := by
  induction n with
  | zero => simp [word]
  | succ n ih =>
    have hone : (1 <<< n).testBit k = decide (n = k) := by
      rw [Nat.one_shiftLeft, Nat.testBit_two_pow]
    rw [word_succ]
    rcases eq_or_ne n k with rfl | hne
    · split_ifs with hp <;> simp [Nat.testBit_or, ih, hp, hone]
    · have hlt : k < n + 1 ↔ k < n := by omega
      split_ifs with hp <;> simp [Nat.testBit_or, ih, hlt, hone, hne]

theorem word_lt (p : ℕ → Bool) (n : ℕ) : word p n < 2 ^ n := by
  induction n with
  | zero => simp [word]
  | succ n ih =>
    have hone : 1 <<< n < 2 ^ (n + 1) := by
      rw [Nat.one_shiftLeft]
      exact Nat.pow_lt_pow_right (by decide) (by omega)
    have hword : word p n < 2 ^ (n + 1) := ih.trans (Nat.pow_lt_pow_right (by decide) (by omega))
    rw [word_succ]
    split_ifs
    · exact Nat.or_lt_two_pow hword hone
    · exact hword

end Bitmap
