import Mathlib.Algebra.BigOperators.Group.List.Basic
import Mathlib.Algebra.GroupWithZero.Nat
import Mathlib.Algebra.Order.Group.Nat
import Mathlib.Data.List.Nodup
import Mathlib.Logic.Function.Basic

/-!
# Filling places one after another

Units of some kind are put into places, each of which has a space of its own: every place is filled
before the next one is used.

* `fill`: the units that each place takes, and `space_fill`, `fill_append`, what they are together;
* `map_fst_fill_const`: how many empty places of one size are used;
* `Capacity`: the space that is there for several kinds, with a room that each kind has for itself
  and free places that are open to several kinds; `Capacity.take`: the space that units leave.
-/

namespace Filling

variable {P : Type*} {sp : List (P × ℕ)} {q : P × ℕ} {k : ℕ}

/-- The places with the units that they take, when `k` units are put into them in order. -/
def fill : List (P × ℕ) → ℕ → List (P × ℕ)
  | [], _ => []
  | q :: sp, k => if k = 0 then [] else (q.1, min q.2 k) :: fill sp (k - min q.2 k)

/-- The space of all places. -/
def space (sp : List (P × ℕ)) : ℕ := (sp.map Prod.snd).sum

@[simp] theorem space_nil : space ([] : List (P × ℕ)) = 0 := rfl

@[simp] theorem space_cons : space (q :: sp) = q.2 + space sp := by
  rw [space, List.map_cons, List.sum_cons, space]

@[simp] theorem space_append (sp sp' : List (P × ℕ)) :
    space (sp ++ sp') = space sp + space sp' := by
  rw [space, List.map_append, List.sum_append, space, space]

@[simp] theorem fill_zero (sp : List (P × ℕ)) : fill sp 0 = [] := by
  cases sp <;> rfl

theorem fill_append (sp sp' : List (P × ℕ)) (k : ℕ) :
    fill (sp ++ sp') k = fill sp k ++ fill sp' (k - space sp) := by
  induction sp generalizing k with
  | nil => simp [fill]
  | cons q sp ih =>
    by_cases hk : k = 0
    · simp [hk]
    · have hsub : k - min q.2 k - space sp = k - (q.2 + space sp) := by omega
      simp [fill, hk, ih, hsub]

/-- All units are put somewhere if there is space. -/
theorem space_fill (sp : List (P × ℕ)) (k : ℕ) : space (fill sp k) = min (space sp) k := by
  induction sp generalizing k with
  | nil => simp [fill]
  | cons q sp ih =>
    by_cases hk : k = 0
    · simp [hk]
    · simp only [fill, hk, if_false, space_cons, ih]
      omega

/-- The places that are used come first. -/
theorem map_fst_fill_first (sp : List (P × ℕ)) (k : ℕ) :
    (fill sp k).map Prod.fst <+: sp.map Prod.fst := by
  induction sp generalizing k with
  | nil => simp [fill]
  | cons q sp ih =>
    by_cases hk : k = 0
    · simp [hk]
    · simpa [fill, hk] using ih _

theorem mem_fill (hpos : ∀ r ∈ sp, 0 < r.2) (hq : q ∈ fill sp k) :
    0 < q.2 ∧ ∃ n, (q.1, n) ∈ sp ∧ q.2 ≤ n := by
  induction sp generalizing k with
  | nil => simp [fill] at hq
  | cons r sp ih =>
    by_cases hk : k = 0
    · simp [hk] at hq
    · simp only [fill, hk, if_false, List.mem_cons] at hq
      rcases hq with rfl | hq
      · exact ⟨lt_min (hpos r List.mem_cons_self) (Nat.pos_of_ne_zero hk), r.2,
          List.mem_cons_self, min_le_left _ _⟩
      · obtain ⟨hlt, n, hn, hle⟩ := ih (fun t ht => hpos t (List.mem_cons_of_mem r ht)) hq
        exact ⟨hlt, n, List.mem_cons_of_mem r hn, hle⟩

/-- The number of places of the size `s` that `k` units need. -/
def needed (s k : ℕ) : ℕ := (k + s - 1) / s

@[simp] theorem needed_zero (s : ℕ) : needed s 0 = 0 := by
  unfold needed
  rcases Nat.eq_zero_or_pos s with rfl | hs
  · simp
  · exact Nat.div_eq_of_lt (by omega)

theorem needed_of_le {s k : ℕ} (hk : 0 < k) (hle : k ≤ s) : needed s k = 1 := by
  unfold needed
  rw [Nat.div_eq_iff (by omega)]
  omega

theorem needed_of_lt {s k : ℕ} (hs : 0 < s) (h : s ≤ k) : needed s k = needed s (k - s) + 1 := by
  unfold needed
  have hsum : k + s - 1 = k - s + s - 1 + s := by omega
  rw [hsum, Nat.add_div_right _ hs]

theorem le_mul_needed {s : ℕ} (hs : 0 < s) (k : ℕ) : k ≤ s * needed s k := by
  unfold needed
  have hmod := Nat.div_add_mod (k + s - 1) s
  have hlt := Nat.mod_lt (k + s - 1) hs
  omega

theorem needed_le_iff {s k m : ℕ} (hs : 0 < s) : needed s k ≤ m ↔ k ≤ s * m := by
  constructor
  · intro h
    exact (le_mul_needed hs k).trans (Nat.mul_le_mul_left s h)
  · intro h
    unfold needed
    rw [← Nat.lt_succ_iff, Nat.div_lt_iff_lt_mul hs, Nat.succ_mul, Nat.mul_comm m s]
    omega

/-- Of empty places of one size, as many are used as the units need. -/
theorem map_fst_fill_const {s : ℕ} (hs : 0 < s) (ps : List P) (k : ℕ) :
    (fill (ps.map fun p => (p, s)) k).map Prod.fst = ps.take (needed s k) := by
  induction ps generalizing k with
  | nil => simp [fill]
  | cons p ps ih =>
    by_cases hk : k = 0
    · simp [hk]
    · simp only [List.map_cons, fill, hk, if_false, ih]
      rcases Nat.lt_or_ge k s with hlt | hge
      · rw [min_eq_right hlt.le, Nat.sub_self, needed_zero,
          needed_of_le (Nat.pos_of_ne_zero hk) hlt.le]
        rfl
      · rw [min_eq_left hge, needed_of_lt hs hge, List.take_succ_cons]

/-! ### The units at one place -/

/-- The units that a place takes. -/
def amount [DecidableEq P] (dest : List (P × ℕ)) (p : P) : ℕ :=
  space (dest.filter fun q => q.1 = p)

section

variable [DecidableEq P] {dest dest' : List (P × ℕ)} {p : P} {ps : List P}

theorem amount_cons : amount (q :: dest) p = (if q.1 = p then q.2 else 0) + amount dest p := by
  unfold amount
  by_cases hq : q.1 = p <;> simp [hq]

theorem amount_of_notMem (h : p ∉ dest.map Prod.fst) : amount dest p = 0 := by
  induction dest with
  | nil => rfl
  | cons q dest ih =>
    rw [List.map_cons, List.mem_cons, not_or] at h
    rw [amount_cons, if_neg (Ne.symm h.1), ih h.2]

theorem amount_of_mem (hd : (dest.map Prod.fst).Nodup) (h : q ∈ dest) : amount dest q.1 = q.2 := by
  induction dest with
  | nil => simp at h
  | cons r dest ih =>
    rw [List.map_cons, List.nodup_cons] at hd
    rcases List.mem_cons.1 h with rfl | h
    · rw [amount_cons, if_pos rfl, amount_of_notMem hd.1, Nat.add_zero]
    · have hne : r.1 ≠ q.1 := fun heq => hd.1 (heq ▸ List.mem_map_of_mem h)
      rw [amount_cons, if_neg hne, ih hd.2 h, Nat.zero_add]

/-- Units at one place of several. -/
theorem sum_single (hps : ps.Nodup) (n : ℕ) :
    (ps.map fun p' => if p = p' then n else 0).sum = if p ∈ ps then n else 0 := by
  induction ps with
  | nil => rfl
  | cons p' ps ih =>
    obtain ⟨hp', hps⟩ := List.nodup_cons.1 hps
    rw [List.map_cons, List.sum_cons, ih hps]
    by_cases hp : p = p'
    · subst hp
      simp [hp']
    · simp [hp]

/-- The units at some places are all units, if each place with units is one of them. -/
theorem sum_amount (hps : ps.Nodup) (h : ∀ q ∈ dest, q.1 ∈ ps) :
    (ps.map (amount dest)).sum = space dest := by
  induction dest with
  | nil =>
    have hzero : amount ([] : List (P × ℕ)) = fun _ => 0 := rfl
    simp [hzero]
  | cons q dest ih =>
    have hsplit : amount (q :: dest) = fun p => (if q.1 = p then q.2 else 0) + amount dest p := by
      funext p
      exact amount_cons
    rw [hsplit, List.sum_map_add, sum_single hps, if_pos (h q List.mem_cons_self),
      ih fun r hr => h r (List.mem_cons_of_mem q hr), space_cons]

end

/-! ### The space for several kinds -/

/-- The space that is there: `room` for the units of each kind in places that it has already, and
free places. -/
@[ext] structure Capacity (K P : Type*) where
  room : K → ℕ
  free : P → Bool

namespace Capacity

variable {K : Type*} (size : K → ℕ) (openTo : K → List P) (c : Capacity K P) (i : K)

/-- The free places that are open to a kind, in the order in which it uses them. -/
def places : List P := (openTo i).filter c.free

/-- There is space for `n` units of a kind. -/
def Fits (n : ℕ) : Prop := n ≤ c.room i + size i * (c.places openTo i).length

instance (n : ℕ) : Decidable (c.Fits size openTo i n) :=
  inferInstanceAs (Decidable (n ≤ c.room i + size i * (c.places openTo i).length))

/-- The free places that `n` units of a kind use. -/
def used (n : ℕ) : List P := (c.places openTo i).take (needed (size i) (n - c.room i))

/-- The space that `n` units of a kind leave, which are put into the places of the kind first. -/
def take [DecidableEq K] [DecidableEq P] (n : ℕ) : Capacity K P where
  room := Function.update c.room i (c.room i + size i * (c.used size openTo i n).length - n)
  free p := c.free p && p ∉ c.used size openTo i n

/-- A kind that fits finds the places that it uses. -/
theorem length_used {n : ℕ} (hs : 0 < size i) (h : c.Fits size openTo i n) :
    (c.used size openTo i n).length = needed (size i) (n - c.room i) := by
  unfold Fits at h
  rw [used, List.length_take, min_eq_left_iff, needed_le_iff hs]
  omega

end Capacity

end Filling
