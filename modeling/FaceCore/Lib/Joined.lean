import Mathlib.Data.List.Sort
import Mathlib.Data.List.Infix
import Mathlib.Data.Finset.Dedup

/-!
# Sets of numbers as text

A set of natural numbers is written as its decimal numerals in order, with a separator between
them.

* `decimal`: the numeral of a number;
* `joined`: the numerals of a list, in order and without repetition;
* `lists_joined`: the text says which numbers are in the list;
* `Lists.found`: a number that is listed is found in the text, though not the other way round.
-/

namespace Joined

/-- The decimal numeral of a number. -/
def decimal (n : ℕ) : List Char := Nat.toDigits 10 n

theorem decimal_inj {n m : ℕ} (h : decimal n = decimal m) : n = m :=
  calc
    n = Nat.ofDigitChars 10 (decimal n) 0 := Nat.ofDigitChars_ten_toDigits.symm
    _ = Nat.ofDigitChars 10 (decimal m) 0 := by rw [h]
    _ = m := Nat.ofDigitChars_ten_toDigits

theorem decimal_ne_nil (n : ℕ) : decimal n ≠ [] := Nat.toDigits_ne_nil

theorem isDigit_of_mem_decimal {n : ℕ} {c : Char} (h : c ∈ decimal n) : c.isDigit :=
  Nat.isDigit_of_mem_toDigits (by decide) (by decide) h

/-- The numbers of a list, in order and without repetition. -/
def ordered (l : List ℕ) : List ℕ := l.dedup.insertionSort (· ≤ ·)

@[simp] theorem mem_ordered {l : List ℕ} {n : ℕ} : n ∈ ordered l ↔ n ∈ l := by
  simp [ordered]

/-- The text of the numbers in a list. -/
def joined (sep : Char) (l : List ℕ) : List Char := [sep].intercalate ((ordered l).map decimal)

/-- The numeral of a number is one of the parts of a text. -/
def Lists (sep : Char) (text : List Char) (n : ℕ) : Prop := decimal n ∈ text.splitOn sep

instance (sep : Char) (text : List Char) (n : ℕ) : Decidable (Lists sep text n) :=
  inferInstanceAs (Decidable (_ ∈ _))

/-- A part of a text with separators is found in it. -/
theorem isInfix_intercalate {α : Type*} {sep part : List α} {parts : List (List α)}
    (h : part ∈ parts) : part <:+: sep.intercalate parts := by
  induction parts with
  | nil => cases h
  | cons first parts ih =>
    cases parts with
    | nil =>
      rw [List.mem_singleton.1 h, List.intercalate_singleton]
    | cons next parts =>
      rw [List.intercalate_cons_cons]
      rcases List.mem_cons.1 h with rfl | h
      · exact List.infix_append_of_infix_left (List.infix_append [] part sep)
      · exact (ih h).trans (List.suffix_append _ _).isInfix

theorem Lists.found {sep : Char} {text : List Char} {n : ℕ} (h : Lists sep text n) :
    decimal n <:+: text := by
  have hpart := @isInfix_intercalate _ [sep] _ _ h
  rwa [List.intercalate_splitOn] at hpart

theorem splitOn_joined {sep : Char} (hsep : sep.isDigit = false) {l : List ℕ} (hl : l ≠ []) :
    (joined sep l).splitOn sep = (ordered l).map decimal := by
  refine List.splitOn_intercalate sep (fun ds hds hmem => ?_) ?_
  · obtain ⟨m, -, rfl⟩ := List.mem_map.1 hds
    rw [isDigit_of_mem_decimal hmem] at hsep
    cases hsep
  · obtain ⟨m, hm⟩ := List.exists_mem_of_ne_nil l hl
    exact List.ne_nil_of_mem (List.mem_map_of_mem (mem_ordered.2 hm))

/-- The text of a list of numbers lists these. -/
theorem lists_joined {sep : Char} (hsep : sep.isDigit = false) {l : List ℕ} {n : ℕ} :
    Lists sep (joined sep l) n ↔ n ∈ l := by
  by_cases hl : l = []
  · subst hl
    refine iff_of_false (fun h => decimal_ne_nil n ?_) List.not_mem_nil
    exact List.infix_nil.1 h.found
  · rw [Lists, splitOn_joined hsep hl, List.mem_map_of_injective fun _ _ => decimal_inj,
      mem_ordered]

end Joined
