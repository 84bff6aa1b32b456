import Mathlib.Data.List.TakeWhile
import Mathlib.Order.Lattice
import Mathlib.Order.MinMax
import Mathlib.Algebra.Ring.Int.Defs
import Mathlib.Data.Int.Order.Basic

/-!
# Columns of a table

A column holds some values. A server that is `strict` refuses a number that an integer column does
not hold; another one stores the nearest bound.

* `IntColumn`, `IntColumn.store`: the columns of integers;
* `TextColumn`: a column of texts, with what every character set grants;
* `IntColumn.store_eq_some_self`, `TextColumn.store_cString`: what is stored is the value itself
  exactly when the column holds it.
-/

namespace Columns

/-! ### Integers -/

/-- A column of integers. -/
structure IntColumn where
  lo : ℤ
  hi : ℤ
  lo_le : lo ≤ hi

namespace IntColumn

/-- The column holds a number. -/
def Holds (c : IntColumn) (z : ℤ) : Prop := c.lo ≤ z ∧ z ≤ c.hi

instance (c : IntColumn) (z : ℤ) : Decidable (c.Holds z) :=
  inferInstanceAs (Decidable (c.lo ≤ z ∧ z ≤ c.hi))

/-- The numbers that the column holds. -/
abbrev Value (c : IntColumn) := {z : ℤ // c.Holds z}

theorem holds_clip (c : IntColumn) (z : ℤ) : c.Holds (max c.lo (min c.hi z)) :=
  ⟨le_max_left _ _, max_le c.lo_le (min_le_left _ _)⟩

/-- The nearest number that the column holds. -/
def clip (c : IntColumn) (z : ℤ) : c.Value := ⟨max c.lo (min c.hi z), c.holds_clip z⟩

/-- What is stored. -/
def store (strict : Bool) (c : IntColumn) (z : ℤ) : Option c.Value :=
  if c.Holds z ∨ strict = false then some (c.clip z) else none

variable {c : IntColumn} {strict : Bool} {z : ℤ} {v : c.Value}

theorem clip_of_holds (h : c.Holds z) : c.clip z = ⟨z, h⟩ := by
  have hval : (c.clip z).1 = z := by
    change max c.lo (min c.hi z) = z
    rw [min_eq_right h.2, max_eq_right h.1]
  exact Subtype.ext hval

theorem store_of_holds (h : c.Holds z) : c.store strict z = some ⟨z, h⟩ := by
  rw [store, if_pos (.inl h), clip_of_holds h]

/-- A number is stored as it is exactly when the column holds it. -/
theorem store_eq_some_self (h : c.store strict z = some v) : v.1 = z ↔ c.Holds z := by
  refine ⟨fun heq => heq ▸ v.2, fun hz => ?_⟩
  rw [store_of_holds hz] at h
  rw [← Option.some.inj h]

theorem store_of_not_holds (h : ¬c.Holds z) :
    c.store strict z = if strict then none else some (c.clip z) := by
  unfold store
  cases strict <;> simp [h]

end IntColumn

theorem unsigned_le (bits : ℕ) : (0 : ℤ) ≤ 2 ^ bits - 1 := by
  have := Int.pow_pos (n := 2) (m := bits) (by decide)
  omega

/-- A column of unsigned integers of some bits: `INT UNSIGNED` has 32, `MEDIUMINT UNSIGNED` 24 and
`SMALLINT UNSIGNED` 16. -/
def unsigned (bits : ℕ) : IntColumn := ⟨0, 2 ^ bits - 1, unsigned_le bits⟩

theorem signed_le (bits : ℕ) : -2 ^ (bits - 1) ≤ (2 : ℤ) ^ (bits - 1) - 1 := by
  have := Int.pow_pos (n := 2) (m := bits - 1) (by decide)
  omega

/-- A column of signed integers of some bits: `INT` has 32 and `SMALLINT` 16. -/
def signed (bits : ℕ) : IntColumn := ⟨-2 ^ (bits - 1), 2 ^ (bits - 1) - 1, signed_le bits⟩

/-! ### Texts -/

/-- The text up to its first NUL, as a C string is bound to a statement. -/
def cString (s : List Char) : List Char := s.takeWhile (· ≠ '\x00')

theorem cString_eq_self_iff {s : List Char} : cString s = s ↔ '\x00' ∉ s := by
  rw [cString, List.takeWhile_eq_self_iff]
  refine ⟨fun h hmem => ?_, fun h c hc => ?_⟩
  · simpa using h _ hmem
  · have hne : c ≠ '\x00' := by
      rintro rfl
      exact h hc
    simpa using hne

/-- A column of texts of at most `size` bytes. It takes back what it gave out, and holds short texts
of ASCII characters; what it holds, it holds up to the first NUL as well. -/
structure TextColumn (size : ℕ) where
  Held : List Char → Prop
  store : List Char → Option {s // Held s}
  store_held : ∀ s : {s // Held s}, store s.1 = some s
  held_ascii : ∀ s, s.length ≤ size → (∀ c ∈ s, c.toNat < 128) → Held s
  held_cString : ∀ s, Held s → Held (cString s)

namespace TextColumn

variable {size : ℕ}

/-- The texts that the column holds. -/
abbrev Value (c : TextColumn size) := {s : List Char // c.Held s}

theorem store_of_held {c : TextColumn size} {s : List Char} (h : c.Held s) :
    c.store s = some ⟨s, h⟩ := c.store_held ⟨s, h⟩

/-- A bound text is stored as it is exactly when the column holds it and it has no NUL. -/
theorem store_cString {c : TextColumn size} {s : List Char} {v : c.Value}
    (h : c.store (cString s) = some v) : v.1 = s ↔ c.Held s ∧ '\x00' ∉ s := by
  constructor
  · rintro rfl
    have hheld := c.held_cString v.1 v.2
    rw [store_of_held hheld] at h
    exact ⟨v.2, cString_eq_self_iff.1 (congrArg Subtype.val (Option.some.inj h))⟩
  · rintro ⟨hheld, hnul⟩
    rw [cString_eq_self_iff.2 hnul, store_of_held hheld] at h
    rw [← Option.some.inj h]

end TextColumn

end Columns
