import FaceCore.Auth.BigNumber
import FaceCore.Lib.Stores

/-!
# Byte arrays of big numbers

`SetBinary` turns the bytes around in an array `t` of 1000 bytes on its stack, which `BN_bin2bn`
reads, most significant byte first. It does not look at the length, so a longer string is written
past the array.

* `setBinaryStores`, `setBinaryThrough`: the loop and what is read behind it;
* `setBinary_asByteArray`: what is read back when `AsByteArray` has filled up its array;
* `roundTrips_iff`: when a number comes back.
-/

namespace FaceCore.BigNumber
open LittleEndian Stores

/-- The size of the array `t` of `SetBinary`. -/
def sizeOfT : ℕ := 1000

/-- The stores of `SetBinary` to its array: `t[i] = bytes[len - 1 - i]`. -/
def setBinaryStores (bytes : List UInt8) : List (UInt8 × ℕ) :=
  (List.range bytes.length).map fun i => (bytes.getD (bytes.length - 1 - i) 0, i)

/-- `BN_bin2bn`. -/
def bin2bn (bytes : List UInt8) : ℕ := bytes.foldl (fun n b => 256 * n + b.toNat) 0

/-- `BigNumber::SetBinary` with what is in the array `t` before. -/
def setBinaryThrough (t bytes : List UInt8) : ℕ :=
  bin2bn ((run (setBinaryStores bytes) t).take bytes.length)

theorem bin2bn_reverse (bytes : List UInt8) : bin2bn bytes.reverse = ofBytes bytes := by
  induction bytes with
  | nil => rfl
  | cons b bytes ih =>
    rw [bin2bn] at ih
    rw [bin2bn, List.reverse_cons, List.foldl_append, ih, ofBytes, List.foldl_cons, List.foldl_nil,
      Nat.add_comm]

theorem setBinaryStores_eq (bytes : List UInt8) :
    setBinaryStores bytes = bytes.reverse.zipIdx := by
  refine List.ext_getElem (by simp [setBinaryStores]) fun i hi hi' => ?_
  have hlt : i < bytes.length := by simpa using hi'
  simp only [setBinaryStores, List.getElem_map, List.getElem_range, List.getElem_zipIdx,
    List.getElem_reverse, Nat.zero_add]
  rw [List.getD_eq_getElem?_getD, List.getElem?_eq_getElem (by omega), Option.getD_some]

theorem within_setBinaryStores {n : ℕ} {bytes : List UInt8} :
    Within n (setBinaryStores bytes) ↔ bytes.length ≤ n := by
  rw [setBinaryStores_eq, within_zipIdx, List.length_reverse]

theorem setBinaryThrough_eq {t bytes : List UInt8} (h : bytes.length ≤ t.length) :
    setBinaryThrough t bytes = setBinary bytes := by
  have hlength : bytes.reverse.length = bytes.length := List.length_reverse
  have hkept : bytes.reverse.take t.length = bytes.reverse :=
    List.take_of_length_le (hlength.trans_le h)
  rw [setBinaryThrough, setBinaryStores_eq, run_zipIdx_zero, hkept, ← hlength, List.take_left,
    bin2bn_reverse, setBinary]

/-! ### The round trip -/

theorem length_asByteArray_eq (n minSize : ℕ) :
    (asByteArray n minSize).length = max minSize (getNumBytes n) := by
  rw [asByteArray_eq, List.length_append, List.length_replicate, length_toBytes, getNumBytes]
  omega

theorem setBinary_asByteArray (n minSize : ℕ) :
    setBinary (asByteArray n minSize) = 256 ^ (minSize - getNumBytes n) * n := by
  rw [setBinary, asByteArray_eq, ofBytes_append, ofBytes_replicate_zero, ofBytes_toBytes,
    List.length_replicate, Nat.zero_add, getNumBytes]

/-- The array of a number has the length that is asked for, and `SetBinary` reads the number back
from it without leaving its own array. -/
structure RoundTrips (n minSize : ℕ) : Prop where
  length : (asByteArray n minSize).length = max minSize (getNumBytes n)
  within : Within sizeOfT (setBinaryStores (asByteArray n minSize))
  value : ∀ t : List UInt8, t.length = sizeOfT → setBinaryThrough t (asByteArray n minSize) = n

/-- A number is not changed by bytes that are put below it only if there are none, or if it is
zero. -/
theorem pow_mul_eq_self_iff {n k : ℕ} : 256 ^ k * n = n ↔ n = 0 ∨ k = 0 := by
  constructor
  · intro h
    rcases Nat.eq_zero_or_pos n with hn | hn
    · exact .inl hn
    · have hpow : 256 ^ k = 1 := Nat.eq_of_mul_eq_mul_right hn (by rw [h, Nat.one_mul])
      exact .inr ((Nat.pow_eq_one.1 hpow).resolve_left (by decide))
  · rintro (rfl | rfl) <;> simp

/-- **Main result.** The byte array of a number brings it back if and only if the number is zero or
nothing is filled up, and the array has at most 1000 bytes. -/
theorem roundTrips_iff (n minSize : ℕ) :
    RoundTrips n minSize ↔
      (n = 0 ∨ minSize ≤ getNumBytes n) ∧ max minSize (getNumBytes n) ≤ sizeOfT := by
  have hlength := length_asByteArray_eq n minSize
  have hvalue : setBinary (asByteArray n minSize) = n ↔ n = 0 ∨ minSize ≤ getNumBytes n := by
    rw [setBinary_asByteArray, pow_mul_eq_self_iff, Nat.sub_eq_zero_iff_le]
  constructor
  · rintro ⟨-, hwithin, hback⟩
    rw [within_setBinaryStores, hlength] at hwithin
    have ht : (List.replicate sizeOfT (0 : UInt8)).length = sizeOfT := List.length_replicate
    have hread := hback _ ht
    rw [setBinaryThrough_eq (by omega)] at hread
    exact ⟨hvalue.1 hread, hwithin⟩
  · rintro ⟨hfull, hle⟩
    refine ⟨hlength, within_setBinaryStores.2 (by omega), fun t ht => ?_⟩
    rw [setBinaryThrough_eq (by omega)]
    exact hvalue.2 hfull

/-- The number one in two bytes comes back as 256. -/
theorem one_in_two_bytes :
    asByteArray 1 2 = [0, 1] ∧ setBinary [0, 1] = 256 ∧ ¬RoundTrips 1 2 := by
  have hbytes : getNumBytes 1 = 1 := by decide
  refine ⟨by decide, by decide, fun h => ?_⟩
  have hcond := (roundTrips_iff 1 2).1 h
  rw [hbytes] at hcond
  omega

end FaceCore.BigNumber
