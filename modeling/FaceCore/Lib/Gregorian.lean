import Mathlib.Data.Nat.Basic
import Mathlib.Data.Int.Basic
import Mathlib.Tactic.SplitIfs

/-!
# The Gregorian calendar

Days are counted from 1 January 1970; years are any integers, months and the days in them count from 0.

* `daysBeforeYear`, `yearOf`: the years, in both directions;
* `before`, `place`: numbers of consecutive blocks, and the block of a number;
* `ofDays`, `toDays`: the date of a day and the day of a date, `toDays_ofDays`.
-/

namespace Gregorian

/-! ### Years -/

def isLeap (y : ℤ) : Bool := y % 4 = 0 && (y % 100 ≠ 0 || y % 400 = 0)

/-- The days from 1970 to the start of a year: the leap days are those of the years before it. -/
def daysBeforeYear (y : ℤ) : ℤ :=
  365 * (y - 1970) + (y - 1969) / 4 - (y - 1901) / 100 + (y - 1601) / 400

theorem daysBeforeYear_succ (y : ℤ) :
    daysBeforeYear (y + 1) = daysBeforeYear y + if isLeap y then 366 else 365 := by
  unfold daysBeforeYear isLeap
  simp only [Bool.and_eq_true, Bool.or_eq_true, decide_eq_true_eq]
  split_ifs <;> omega

/-- The year of a day: that of 400 years with the same number of days, or one next to it. -/
def yearOf (days : ℤ) : ℤ :=
  let y := 1970 + 400 * days / 146097
  if days < daysBeforeYear y then y - 1
  else if daysBeforeYear (y + 1) ≤ days then y + 1
  else y

theorem yearOf_spec (days : ℤ) :
    daysBeforeYear (yearOf days) ≤ days ∧ days < daysBeforeYear (yearOf days + 1) := by
  have hbefore : daysBeforeYear (1970 + 400 * days / 146097 - 1) ≤ days := by
    unfold daysBeforeYear
    omega
  have hbehind : days < daysBeforeYear (1970 + 400 * days / 146097 + 2) := by
    unfold daysBeforeYear
    omega
  unfold yearOf
  dsimp only
  split_ifs with hlt hle
  · rw [Int.sub_add_cancel]
    exact ⟨hbefore, hlt⟩
  · refine ⟨hle, ?_⟩
    rw [Int.add_assoc]
    exact hbehind
  · exact ⟨Int.not_lt.1 hlt, Int.not_le.1 hle⟩

/-! ### Blocks -/

/-- The number of days before a block. -/
def before : List ℕ → ℕ → ℕ
  | _, 0 => 0
  | [], _ + 1 => 0
  | l :: ls, n + 1 => l + before ls n

/-- The block of a day, and the place in it. -/
def place : List ℕ → ℕ → ℕ × ℕ
  | [], n => (0, n)
  | l :: ls, n =>
    if n < l then (0, n)
    else ((place ls (n - l)).1 + 1, (place ls (n - l)).2)

theorem place_spec {ls : List ℕ} {n : ℕ} (h : n < before ls ls.length) :
    before ls (place ls n).1 + (place ls n).2 = n ∧ ∃ l, ls[(place ls n).1]? = some l ∧
      (place ls n).2 < l := by
  induction ls generalizing n with
  | nil => exact absurd h (Nat.not_lt_zero n)
  | cons l ls ih =>
    rw [List.length_cons, before] at h
    rw [place]
    split_ifs with hn
    · exact ⟨Nat.zero_add n, l, rfl, hn⟩
    · obtain ⟨hbefore, l', hl', hlt⟩ := ih (n := n - l) (by omega)
      refine ⟨?_, l', hl', hlt⟩
      dsimp only
      rw [before]
      omega

/-! ### Dates -/

def monthLengths (leap : Bool) : List ℕ :=
  [31, if leap then 29 else 28, 31, 30, 31, 30, 31, 31, 30, 31, 30, 31]

structure Date where
  year : ℤ
  month : ℕ
  day : ℕ
  deriving DecidableEq

/-- The date of a day. -/
def ofDays (days : ℤ) : Date :=
  let year := yearOf days
  let p := place (monthLengths (isLeap year)) (days - daysBeforeYear year).toNat
  ⟨year, p.1, p.2⟩

/-- The day of a date. -/
def toDays (d : Date) : ℤ :=
  daysBeforeYear d.year + before (monthLengths (isLeap d.year)) d.month + d.day

theorem before_monthLengths (y : ℤ) :
    (before (monthLengths (isLeap y)) (monthLengths (isLeap y)).length : ℤ) =
      if isLeap y then 366 else 365 := by
  cases isLeap y <;> rfl

/-- What `ofDays` finds. -/
theorem place_ofDays (days : ℤ) :
    daysBeforeYear (ofDays days).year + (before (monthLengths (isLeap (ofDays days).year))
        (ofDays days).month + (ofDays days).day) = days ∧
      ∃ l, (monthLengths (isLeap (ofDays days).year))[(ofDays days).month]? = some l ∧
        (ofDays days).day < l := by
  obtain ⟨hle, hlt⟩ := yearOf_spec days
  rw [daysBeforeYear_succ, ← before_monthLengths] at hlt
  have hn : (days - daysBeforeYear (yearOf days)).toNat <
      before (monthLengths (isLeap (yearOf days)))
        (monthLengths (isLeap (yearOf days))).length := by
    omega
  obtain ⟨hplace, hlength⟩ := place_spec hn
  refine ⟨?_, hlength⟩
  unfold ofDays
  dsimp only
  omega

theorem toDays_ofDays (days : ℤ) : toDays (ofDays days) = days := by
  rw [toDays, Int.add_assoc]
  exact (place_ofDays days).1

/-- A date has one of twelve months, and a day of at most 31. -/
theorem ofDays_lt (days : ℤ) : (ofDays days).month < 12 ∧ (ofDays days).day < 31 := by
  obtain ⟨-, l, hl, hlt⟩ := place_ofDays days
  obtain ⟨hmonth, hl⟩ := List.getElem?_eq_some_iff.1 hl
  refine ⟨hmonth, Nat.lt_of_lt_of_le hlt ?_⟩
  have hle : ∀ leap, ∀ l ∈ monthLengths leap, l ≤ 31 := by decide
  exact hle _ l (hl ▸ List.getElem_mem hmonth)

example : ofDays 11016 = ⟨2000, 1, 28⟩ := by decide

end Gregorian
