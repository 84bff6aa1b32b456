import Mathlib.Data.UInt

/-!
# Flags of a byte

A byte `x` holds the flag `f` if `x &&& f ≠ 0`; `x ||| f` sets it, and `x &&& ~~~f` clears it. Two
flags do not disturb each other if they share no bit.
-/

namespace Flags

variable {x f h : UInt8}

/-- A flag that is cleared was set, or nothing changes. -/
theorem and_not_eq_self_iff (x y : UInt8) : x &&& ~~~y = x ↔ x &&& y = 0 := by
  constructor
  · intro h
    rw [← h, UInt8.and_assoc, UInt8.not_and_self, UInt8.and_zero]
  · intro h
    rw [← UInt8.toBitVec_inj] at h ⊢
    simp only [UInt8.toBitVec_and, UInt8.toBitVec_not, UInt8.toBitVec_ofNat] at h ⊢
    have hsplit : x.toBitVec &&& (y.toBitVec ||| ~~~y.toBitVec) = x.toBitVec := by
      rw [BitVec.or_not_self, BitVec.and_allOnes]
    rw [BitVec.and_or_distrib_left, h] at hsplit
    simpa using hsplit

theorem and_not_and_of_disjoint (hd : ~~~f &&& h = h) : x &&& ~~~f &&& h = x &&& h := by
  rw [UInt8.and_assoc, hd]

theorem or_and_of_disjoint (hd : f &&& h = 0) : (x ||| f) &&& h = x &&& h := by
  rw [← UInt8.toBitVec_inj] at hd ⊢
  simp only [UInt8.toBitVec_and, UInt8.toBitVec_or, UInt8.toBitVec_ofNat] at hd ⊢
  rw [BitVec.and_or_distrib_right, hd]
  simp

theorem or_and_self : (x ||| f) &&& f = f := by
  rw [← UInt8.toBitVec_inj]
  simp only [UInt8.toBitVec_and, UInt8.toBitVec_or]
  ext i hi
  simp only [BitVec.getElem_and, BitVec.getElem_or]
  cases f.toBitVec[i] <;> simp

theorem and_not_and_self : x &&& ~~~f &&& f = 0 := by
  rw [UInt8.and_assoc, UInt8.not_and_self, UInt8.and_zero]

end Flags
