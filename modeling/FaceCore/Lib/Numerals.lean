import Mathlib.Data.List.TakeWhile
import Mathlib.Tactic.Ring
import Mathlib.Order.Lattice
import Mathlib.Algebra.Order.Group.Int

/-!
# Numbers and words in a text

A number is written as its decimal numeral, and read by `strtol`: blanks, a sign, and as many digits
as there are; a value outside of the range becomes the nearest bound. Words are written with a
separator behind each, and read by a loop that stops at a NUL.

* `decimal`, `parse`: the numeral of a number, and what `strtol` reads;
* `parse_decimal`: a numeral is read as its number, moved into the range;
* `terminated`, `tokens`: words with separators, and the words of a text;
* `tokens_terminated`: the words are read back.
-/

namespace Numerals

/-! ### Numbers -/

/-- The numeral of a number. -/
def decimal (z : ℤ) : List Char :=
  if z < 0 then '-' :: Nat.toDigits 10 z.natAbs else Nat.toDigits 10 z.natAbs

/-- The characters that `isspace` accepts. -/
def blanks : List Char := [' ', '\t', '\n', '\x0b', '\x0c', '\r']

/-- The value of the digits at the head of a text. -/
def digitsValue (s : List Char) : ℕ := Nat.ofDigitChars 10 (s.takeWhile Char.isDigit) 0

/-- What `strtol` reads behind the blanks, where the largest `long` is `max`. -/
def parseSigned (max : ℕ) (c : Char) (ds : List Char) : ℤ :=
  if c = '-' then -((min (digitsValue ds) (max + 1) : ℕ) : ℤ)
  else if c = '+' then ((min (digitsValue ds) max : ℕ) : ℤ)
  else ((min (digitsValue (c :: ds)) max : ℕ) : ℤ)

/-- `strtol` with base 10. -/
def parse (max : ℕ) (s : List Char) : ℤ :=
  match s.dropWhile (· ∈ blanks) with
  | [] => 0
  | c :: ds => parseSigned max c ds

theorem isDigit_of_mem_toDigits {n : ℕ} {c : Char} (h : c ∈ Nat.toDigits 10 n) :
    c.isDigit = true := Nat.isDigit_of_mem_toDigits (by decide) (by decide) h

@[simp] theorem digitsValue_toDigits (n : ℕ) : digitsValue (Nat.toDigits 10 n) = n := by
  have hall : (Nat.toDigits 10 n).takeWhile Char.isDigit = Nat.toDigits 10 n :=
    List.takeWhile_eq_self_iff.2 fun c hc => isDigit_of_mem_toDigits hc
  rw [digitsValue, hall, Nat.ofDigitChars_ten_toDigits]

theorem isDigit_eq_false_of_mem_blanks {c : Char} (h : c ∈ blanks) : c.isDigit = false := by
  have hall : (blanks.all fun c => !c.isDigit) = true := by decide
  simpa using List.all_eq_true.1 hall c h

theorem parse_cons {max : ℕ} {c : Char} {ds : List Char} (h : c ∉ blanks) :
    parse max (c :: ds) = parseSigned max c ds := by
  have hdrop : (c :: ds).dropWhile (· ∈ blanks) = c :: ds :=
    List.dropWhile_cons_of_neg (by simp [h])
  rw [parse, hdrop]

/-- A numeral is read as its number, moved into the range of `long`. -/
theorem parse_decimal (max : ℕ) (z : ℤ) :
    parse max (decimal z) = min (Max.max z (-(max + 1 : ℕ))) max := by
  unfold decimal
  split_ifs with hz
  · rw [parse_cons (by decide), parseSigned, if_pos rfl, digitsValue_toDigits]
    omega
  · obtain ⟨c, s, hcs⟩ : ∃ c s, Nat.toDigits 10 z.natAbs = c :: s :=
      List.exists_cons_of_length_pos Nat.length_toDigits_pos
    have hc : c.isDigit = true := isDigit_of_mem_toDigits (n := z.natAbs) (by simp [hcs])
    have hblank : c ∉ blanks := fun hmem =>
      Bool.false_ne_true ((isDigit_eq_false_of_mem_blanks hmem).symm.trans hc)
    have hminus : c ≠ '-' := fun heq => absurd hc (by rw [heq]; decide)
    have hplus : c ≠ '+' := fun heq => absurd hc (by rw [heq]; decide)
    rw [hcs, parse_cons hblank, parseSigned, if_neg hminus, if_neg hplus, ← hcs, digitsValue_toDigits]
    omega

theorem parse_decimal_of_mem {max : ℕ} {z : ℤ} (hlo : -(max + 1 : ℕ) ≤ z) (hhi : z ≤ max) :
    parse max (decimal z) = z := by
  rw [parse_decimal, max_eq_left hlo, min_eq_left hhi]

theorem isDigit_or_of_mem_decimal {z : ℤ} {c : Char} (h : c ∈ decimal z) :
    c.isDigit = true ∨ c = '-' := by
  unfold decimal at h
  split_ifs at h
  · rcases List.mem_cons.1 h with rfl | h
    · exact .inr rfl
    · exact .inl (isDigit_of_mem_toDigits h)
  · exact .inl (isDigit_of_mem_toDigits h)

theorem length_decimal_le {z : ℤ} {k : ℕ} (hk : 0 < k) (h : z.natAbs < 10 ^ k) :
    (decimal z).length ≤ k + 1 := by
  have hlen := (Nat.length_toDigits_le_iff (by decide) hk).2 h
  unfold decimal
  split_ifs
  · rw [List.length_cons]
    omega
  · omega

/-! ### Words -/

/-- Words with a separator behind each. -/
def terminated (sep : Char) (words : List (List Char)) : List Char :=
  words.flatMap fun w => w ++ [sep]

theorem length_terminated_le {sep : Char} {words : List (List Char)} {k : ℕ}
    (h : ∀ w ∈ words, w.length ≤ k) : (terminated sep words).length ≤ words.length * (k + 1) := by
  induction words with
  | nil => simp [terminated]
  | cons w words ih =>
    obtain ⟨hw, hwords⟩ := List.forall_mem_cons.1 h
    have hlen : (terminated sep (w :: words)).length =
        w.length + 1 + (terminated sep words).length := by
      rw [terminated, List.flatMap_cons, List.length_append, List.length_append]
      rfl
    have hrest := ih hwords
    rw [hlen, List.length_cons, Nat.succ_mul]
    omega

theorem mem_terminated {sep : Char} {words : List (List Char)} {c : Char} :
    c ∈ terminated sep words ↔ ∃ w ∈ words, c ∈ w ∨ c = sep := by
  simp [terminated]

/-- The words of a text; `word` is what was read of the present one. The last one counts only if it
is not empty. -/
def tokens (sep : Char) (word : List Char) : List Char → List (List Char)
  | [] => if word = [] then [] else [word]
  | c :: s =>
    if c = sep then word :: tokens sep [] s
    else if c = '\x00' then if word = [] then [] else [word]
    else tokens sep (word ++ [c]) s

theorem tokens_append {sep : Char} {w : List Char} (hw : ∀ c ∈ w, c ≠ sep ∧ c ≠ '\x00')
    (word s : List Char) :
    tokens sep word (w ++ sep :: s) = (word ++ w) :: tokens sep [] s := by
  induction w generalizing word with
  | nil => simp [tokens]
  | cons c w ih =>
    obtain ⟨hc, hw⟩ := List.forall_mem_cons.1 hw
    rw [List.cons_append, tokens, if_neg hc.1, if_neg hc.2, ih hw, List.append_assoc,
      List.singleton_append]

/-- Words without separators are read back. -/
theorem tokens_terminated {sep : Char} {words : List (List Char)}
    (h : ∀ w ∈ words, ∀ c ∈ w, c ≠ sep ∧ c ≠ '\x00') :
    tokens sep [] (terminated sep words) = words := by
  induction words with
  | nil => rfl
  | cons w words ih =>
    obtain ⟨hw, hwords⟩ := List.forall_mem_cons.1 h
    have hsplit : terminated sep (w :: words) = w ++ sep :: terminated sep words := by
      simp [terminated]
    rw [hsplit, tokens_append hw, ih hwords, List.nil_append]

end Numerals
