import Mathlib.Data.UInt
import Mathlib.Tactic

/-!
# Signed and unsigned 32-bit integers

C converts freely between `uint32` and `int32`; here a conversion is `UInt32.toInt32` or
`Int32.toUInt32`, both of which keep the 32 bits. Every signed value is `y.toInt32` for one
unsigned `y`, so a signed comparison with zero and a signed negation are read off `y`.
-/

namespace FixedWidth

theorem toInt_toInt32 (x : UInt32) :
    x.toInt32.toInt = if x.toNat < 2 ^ 31 then (x.toNat : ℤ) else x.toNat - 2 ^ 32 := by
  have hx := x.toNat_lt
  rw [← Int32.toInt_toBitVec, UInt32.toBitVec_toInt32, BitVec.toInt_eq_toNat_cond,
    UInt32.toNat_toBitVec]
  split_ifs <;> omega

theorem toInt32_lt_zero_iff {x : UInt32} : x.toInt32 < 0 ↔ 2 ^ 31 ≤ x.toNat := by
  have hx := x.toNat_lt
  rw [Int32.lt_iff_toInt_lt, toInt_toInt32, Int32.toInt_zero]
  split_ifs <;> omega

theorem toInt32_eq_zero_iff {x : UInt32} : x.toInt32 = 0 ↔ x = 0 := by
  constructor
  · intro h
    rw [← UInt32.toUInt32_toInt32 x, h]
    rfl
  · rintro rfl
    rfl

theorem toInt32_pos_iff {x : UInt32} : 0 < x.toInt32 ↔ 0 < x.toNat ∧ x.toNat < 2 ^ 31 := by
  have hx := x.toNat_lt
  rw [Int32.lt_iff_toInt_lt, toInt_toInt32, Int32.toInt_zero]
  split_ifs <;> omega

theorem toNat_neg_of_pos {x : UInt32} (h : 0 < x.toNat) : (-x).toNat = 2 ^ 32 - x.toNat := by
  have hx := x.toNat_lt
  rw [UInt32.toNat_neg, UInt32.size]
  omega

theorem toNat_add_of_lt {x y : UInt32} (h : x.toNat + y.toNat < 2 ^ 32) :
    (x + y).toNat = x.toNat + y.toNat := by
  rw [UInt32.toNat_add]
  omega

theorem lt_add_one_of_lt {x y : UInt32} (h : x < y) : x < x + 1 := by
  rw [UInt32.lt_iff_toNat_lt] at h ⊢
  have hy := y.toNat_lt
  have hone : (1 : UInt32).toNat = 1 := rfl
  rw [UInt32.toNat_add]
  omega

/-- Adding a negated value that is not larger is a subtraction. -/
theorem toNat_add_neg_of_le {x y : UInt32} (h : y.toNat ≤ x.toNat) :
    (x + -y).toNat = x.toNat - y.toNat := by
  have hx := x.toNat_lt
  rw [UInt32.toNat_add, UInt32.toNat_neg, UInt32.size]
  omega

/-- A mask of two masks is disjoint from what both are disjoint from. -/
theorem and_or_eq_zero {x a b : UInt32} (ha : x &&& a = 0) (hb : x &&& b = 0) :
    x &&& (a ||| b) = 0 := by
  rw [← UInt32.toBitVec_inj, UInt32.toBitVec_and] at *
  rw [UInt32.toBitVec_or, BitVec.and_or_distrib_left, ha, hb]
  rfl

theorem toNat_sub_one {n : UInt32} (h : n ≠ 0) : (n - 1).toNat + 1 = n.toNat := by
  have hpos : n.toNat ≠ 0 := fun h0 => h (UInt32.toNat_inj.1 h0)
  have hlt := n.toNat_lt
  rw [UInt32.toNat_sub, UInt32.toNat_one]
  omega

/-- A sum of 32-bit numbers is exact when it fits. -/
theorem toNat_sum_of_lt {l : List UInt32} (h : (l.map UInt32.toNat).sum < 2 ^ 32) :
    l.sum.toNat = (l.map UInt32.toNat).sum := by
  induction l with
  | nil => rfl
  | cons x l ih =>
    rw [List.map_cons, List.sum_cons] at h
    have hl := ih (by omega)
    rw [List.sum_cons, List.map_cons, List.sum_cons, toNat_add_of_lt (by omega), hl]

end FixedWidth
