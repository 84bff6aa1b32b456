import Mathlib.Data.Nat.Digits.Lemmas
import Mathlib.Data.Nat.Log

/-!
# Little-endian byte strings

Natural numbers and the strings of their bytes, least significant byte first: `ofBytes` reads a
string, `toBytesLen` writes a number with a fixed number of bytes, and `toBytes` writes it with as
many bytes as it needs (`numBytes`). A string is the minimal one of its number exactly when its
number needs all its bytes (`toBytes_ofBytes`).
-/

namespace LittleEndian

/-- The number that a string of bytes stands for. -/
def ofBytes : List UInt8 → ℕ
  | [] => 0
  | b :: bs => b.toNat + 256 * ofBytes bs

/-- The `k` low bytes of a number. -/
def toBytesLen : ℕ → ℕ → List UInt8
  | 0, _ => []
  | k + 1, n => UInt8.ofNat (n % 256) :: toBytesLen k (n / 256)

/-- How many bytes a number needs. -/
def numBytes (n : ℕ) : ℕ := if n = 0 then 0 else n.log2 / 8 + 1

/-- The bytes of a number, without zeros at the end. -/
def toBytes (n : ℕ) : List UInt8 := toBytesLen (numBytes n) n

@[simp]
theorem length_toBytesLen (k n : ℕ) : (toBytesLen k n).length = k := by
  induction k generalizing n with
  | zero => rfl
  | succ k ih => rw [toBytesLen, List.length_cons, ih]

@[simp]
theorem length_toBytes (n : ℕ) : (toBytes n).length = numBytes n := length_toBytesLen _ _

theorem numBytes_le_iff {n k : ℕ} : numBytes n ≤ k ↔ n < 256 ^ k := by
  unfold numBytes
  split_ifs with h
  · exact iff_of_true (Nat.zero_le k) (h ▸ Nat.pow_pos (by norm_num))
  · rw [show (256 : ℕ) = 2 ^ 8 from rfl, ← pow_mul, ← Nat.log2_lt h]
    omega

theorem numBytes_eq_succ_iff {n k : ℕ} : numBytes n = k + 1 ↔ 256 ^ k ≤ n ∧ n < 256 ^ (k + 1) := by
  rw [← numBytes_le_iff, ← not_lt, ← numBytes_le_iff]
  omega

/-- The low bytes of a number that fits into them. -/
theorem ofBytes_toBytesLen {k n : ℕ} (h : n < 256 ^ k) : ofBytes (toBytesLen k n) = n := by
  induction k generalizing n with
  | zero =>
    obtain rfl : n = 0 := by simpa using h
    rfl
  | succ k ih =>
    rw [pow_succ] at h
    rw [toBytesLen, ofBytes, ih (by omega), UInt8.toNat_ofNat_of_lt' (by
      simp only [UInt8.size]
      omega)]
    omega

@[simp]
theorem ofBytes_toBytes (n : ℕ) : ofBytes (toBytes n) = n :=
  ofBytes_toBytesLen (numBytes_le_iff.1 le_rfl)

theorem ofBytes_lt (l : List UInt8) : ofBytes l < 256 ^ l.length := by
  induction l with
  | nil => decide
  | cons b l ih =>
    have hb := b.toNat_lt
    rw [ofBytes, List.length_cons, pow_succ]
    omega

theorem numBytes_ofBytes_le (l : List UInt8) : numBytes (ofBytes l) ≤ l.length :=
  numBytes_le_iff.2 (ofBytes_lt l)

theorem ofBytes_append (l l' : List UInt8) :
    ofBytes (l ++ l') = ofBytes l + 256 ^ l.length * ofBytes l' := by
  induction l with
  | nil => simp [ofBytes]
  | cons b l ih =>
    rw [List.cons_append, ofBytes, ofBytes, ih, List.length_cons, pow_succ]
    ring

@[simp]
theorem ofBytes_replicate_zero (k : ℕ) : ofBytes (List.replicate k 0) = 0 := by
  induction k with
  | zero => rfl
  | succ k ih =>
    rw [List.replicate_succ, ofBytes, ih]
    rfl

/-- Strings of one length are told apart by their numbers. -/
theorem ofBytes_inj {l l' : List UInt8} (hlen : l.length = l'.length)
    (h : ofBytes l = ofBytes l') : l = l' := by
  induction l generalizing l' with
  | nil => exact (List.length_eq_zero_iff.1 hlen.symm).symm
  | cons b l ih =>
    cases l' with
    | nil => simp at hlen
    | cons b' l' =>
      rw [ofBytes, ofBytes] at h
      have hb := b.toNat_lt
      have hb' := b'.toNat_lt
      obtain rfl : b = b' := UInt8.toNat_inj.1 (by omega)
      rw [ih (by simpa using hlen) (by omega)]

theorem toBytes_ofBytes {l : List UInt8} (h : numBytes (ofBytes l) = l.length) :
    toBytes (ofBytes l) = l :=
  ofBytes_inj (by rw [length_toBytes, h]) (ofBytes_toBytes _)

theorem toBytesLen_ofBytes (l : List UInt8) : toBytesLen l.length (ofBytes l) = l :=
  ofBytes_inj (length_toBytesLen _ _) (ofBytes_toBytesLen (ofBytes_lt l))

end LittleEndian
