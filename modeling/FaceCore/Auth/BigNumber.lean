import FaceCore.Lib.LittleEndian
import FaceCore.Lib.Pocklington

/-!
# Big numbers

The part of `BigNumber` that the authentication server uses, on natural numbers.

`AsByteArray` lets `BN_bn2bin` write the bytes, most significant first, to the front of an array
of the wanted length, and then reverses the whole array: a number that needs fewer bytes is filled
up with zeros at the front of the little-endian string, where they count as its low bytes
(`asByteArray_eq`). Without a minimal size there is nothing to fill.
-/

namespace FaceCore.BigNumber

open LittleEndian

/-- `BigNumber::SetBinary`. -/
def setBinary (bytes : List UInt8) : ℕ := ofBytes bytes

/-- `BigNumber::GetNumBytes`. -/
def getNumBytes (n : ℕ) : ℕ := numBytes n

/-- `BN_bn2bin`. -/
def bn2bin (n : ℕ) : List UInt8 := (toBytes n).reverse

/-- `BigNumber::AsByteArray`. -/
def asByteArray (n minSize : ℕ) : List UInt8 :=
  let length := if minSize ≥ getNumBytes n then minSize else getNumBytes n
  (bn2bin n ++ List.replicate (length - getNumBytes n) 0).reverse

/-- `BigNumber::ModExp`. -/
def modExp (b e m : ℕ) : ℕ := Pocklington.powMod b e m

/-- A string of hexadecimal digits, such as `AsHexStr` writes them to the database. -/
abbrev HexStr := List (Fin 16)

/-- `BigNumber::SetHexStr`: `BN_hex2bn` leaves the number as it is when there is no digit. -/
def setHexStr (old : ℕ) (str : HexStr) : ℕ :=
  if str = [] then old else str.foldl (fun n d => 16 * n + d.val) 0

/-- A result of `BigNumber::SetRand`: the top bit is set and the number is odd. -/
structure RandBits (bits : ℕ) where
  val : ℕ
  top : 2 ^ (bits - 1) ≤ val
  lt : val < 2 ^ bits
  odd : val % 2 = 1

theorem asByteArray_eq (n minSize : ℕ) :
    asByteArray n minSize = List.replicate (minSize - numBytes n) 0 ++ toBytes n := by
  unfold asByteArray getNumBytes bn2bin
  dsimp only
  rw [List.reverse_append, List.reverse_reverse, List.reverse_replicate]
  split_ifs with h
  · rfl
  · rw [Nat.sub_self, Nat.sub_eq_zero_of_le (by omega)]

@[simp]
theorem asByteArray_zero (n : ℕ) : asByteArray n 0 = toBytes n := by
  rw [asByteArray_eq, Nat.zero_sub, List.replicate_zero, List.nil_append]

theorem length_asByteArray {n k : ℕ} (h : n < 256 ^ k) : (asByteArray n k).length = k := by
  have := numBytes_le_iff.2 h
  rw [asByteArray_eq, List.length_append, List.length_replicate, length_toBytes]
  omega

/-- An array into which no zero is filled is the little-endian string of the number. -/
theorem asByteArray_of_full {n k : ℕ} (h : numBytes n = k) : asByteArray n k = toBytesLen k n := by
  subst h
  rw [asByteArray_eq, Nat.sub_self, List.replicate_zero, List.nil_append]
  rfl

theorem modExp_eq (b e m : ℕ) : modExp b e m = b ^ e % m := Pocklington.powMod_eq b e m

end FaceCore.BigNumber
