import Mathlib.Data.UInt
import Mathlib.Tactic

/-!
# Durations as text

`secsToTimeString` writes a number of seconds as days, hours, minutes and seconds, each with the
letter of its unit in the short form, and `TimeStringToSecs` adds up numbers with such letters, in 32
bits.

* `secsToTimeString`, `timeStringToSecs`: the functions of the source;
* `NoWrap`: no operation of `TimeStringToSecs` leaves the 32 bits;
* `Amount`: a number with a unit, `text` and `total` of a list of them;
* `timeStringToSecs_text`: a list of amounts is read as its total, if that fits;
* `timeStrings_exact`.
-/

namespace FaceCore.Durations

def minute : ℕ := 60
def hour : ℕ := minute * 60
def day : ℕ := hour * 24

/-- `secsToTimeString`. -/
def secsToTimeString (timeInSecs : ℕ) (shortText hoursOnly : Bool) : List Char :=
  let secs := timeInSecs % minute
  let minutes := timeInSecs % hour / minute
  let hours := timeInSecs % day / hour
  let days := timeInSecs / day
  (if days ≠ 0 then Nat.toDigits 10 days ++ (if shortText then "d" else " Day(s) ").toList else []) ++
  (if hours ≠ 0 || hoursOnly then
    Nat.toDigits 10 hours ++ (if shortText then "h" else " Hour(s) ").toList else []) ++
  if !hoursOnly then
    (if minutes ≠ 0 then
      Nat.toDigits 10 minutes ++ (if shortText then "m" else " Minute(s) ").toList else []) ++
    if secs ≠ 0 || days = 0 && hours = 0 && minutes = 0 then
      Nat.toDigits 10 secs ++ (if shortText then "s" else " Second(s).").toList else []
  else []

/-- The `switch` over the letter. -/
def multiplier : Char → Option UInt32
  | 'd' => some (.ofNat day)
  | 'h' => some (.ofNat hour)
  | 'm' => some (.ofNat minute)
  | 's' => some 1
  | _ => none

/-- The value of a digit. -/
def digit (c : Char) : UInt32 := .ofNat (c.toNat - '0'.toNat)

/-- The loop of `TimeStringToSecs`, with its variables `secs` and `buffer`. -/
def readUnits : List Char → UInt32 → UInt32 → UInt32
  | [], secs, _ => secs
  | c :: s, secs, buffer =>
    if c.isDigit then readUnits s secs (buffer * 10 + digit c)
    else
      match multiplier c with
      | none => 0
      | some m => readUnits s (secs + buffer * m) 0

/-- `TimeStringToSecs`. -/
def timeStringToSecs (timestring : List Char) : UInt32 := readUnits timestring 0 0

/-- Every product and every sum that the loop makes is below `2 ^ 32`. -/
def LoopExact : List Char → UInt32 → UInt32 → Prop
  | [], _, _ => True
  | c :: s, secs, buffer =>
    if c.isDigit then
      buffer.toNat * 10 < 2 ^ 32 ∧ (buffer * 10).toNat + (digit c).toNat < 2 ^ 32 ∧
        LoopExact s secs (buffer * 10 + digit c)
    else
      match multiplier c with
      | none => True
      | some m => buffer.toNat * m.toNat < 2 ^ 32 ∧ secs.toNat + (buffer * m).toNat < 2 ^ 32 ∧
          LoopExact s (secs + buffer * m) 0

/-- `TimeStringToSecs` reads the string without a wrap-around. -/
def NoWrap (timestring : List Char) : Prop := LoopExact timestring 0 0

/-! ### Amounts -/

/-- The units of time. -/
inductive TimeUnit
  | days
  | hours
  | minutes
  | seconds

def TimeUnit.letter : TimeUnit → Char
  | days => 'd'
  | hours => 'h'
  | minutes => 'm'
  | seconds => 's'

def TimeUnit.secs : TimeUnit → ℕ
  | days => 86400
  | hours => 3600
  | minutes => 60
  | seconds => 1

/-- A number, as a string of digits, with a unit. A unit that stands alone has no digits. -/
structure Amount where
  digits : List Char
  unit : TimeUnit
  isDigit : ∀ c ∈ digits, c.isDigit

namespace Amount

def number (a : Amount) : ℕ := Nat.ofDigitChars 10 a.digits 0

def secs (a : Amount) : ℕ := a.number * a.unit.secs

def text (a : Amount) : List Char := a.digits ++ [a.unit.letter]

end Amount

def text (as : List Amount) : List Char := as.flatMap Amount.text

def total (as : List Amount) : ℕ := (as.map Amount.secs).sum

theorem multiplier_letter (u : TimeUnit) :
    u.letter.isDigit = false ∧ ∃ m, multiplier u.letter = some m ∧ m.toNat = u.secs := by
  cases u <;> exact ⟨rfl, _, rfl, rfl⟩

/-! ### Digits -/

theorem toNat_digit {c : Char} (h : c.isDigit) : (digit c).toNat = c.toNat - '0'.toNat := by
  have hle : c.toNat ≤ 57 := by
    rw [Char.isDigit, Bool.and_eq_true, decide_eq_true_eq, decide_eq_true_eq] at h
    exact h.2
  rw [digit, UInt32.toNat_ofNat_of_lt']
  simp only [UInt32.size]
  omega

theorem le_ofDigitChars (ds : List Char) (n : ℕ) : n ≤ Nat.ofDigitChars 10 ds n := by
  induction ds generalizing n with
  | nil => exact le_rfl
  | cons c ds ih =>
    rw [Nat.ofDigitChars_cons]
    exact le_trans (by omega) (ih _)

theorem readUnits_digits {ds : List Char} (hds : ∀ c ∈ ds, c.isDigit) {buffer : UInt32}
    (h : Nat.ofDigitChars 10 ds buffer.toNat < 2 ^ 32) (s : List Char) (secs : UInt32) :
    ∃ b : UInt32, b.toNat = Nat.ofDigitChars 10 ds buffer.toNat ∧
      readUnits (ds ++ s) secs buffer = readUnits s secs b ∧
        (LoopExact (ds ++ s) secs buffer ↔ LoopExact s secs b) := by
  induction ds generalizing buffer with
  | nil => exact ⟨buffer, (Nat.ofDigitChars_nil).symm, rfl, Iff.rfl⟩
  | cons c ds ih =>
    obtain ⟨hc, hds⟩ := List.forall_mem_cons.1 hds
    have hdigit := toNat_digit hc
    rw [Nat.ofDigitChars_cons, ← hdigit, Nat.mul_comm] at h ⊢
    have hlt := lt_of_le_of_lt (le_ofDigitChars ds (buffer.toNat * 10 + (digit c).toNat)) h
    have hten : (buffer * 10).toNat = buffer.toNat * 10 := by
      rw [UInt32.toNat_mul, show (10 : UInt32).toNat = 10 from rfl]
      omega
    have hadd : (buffer * 10 + digit c).toNat = buffer.toNat * 10 + (digit c).toNat := by
      rw [UInt32.toNat_add, hten]
      omega
    rw [← hadd] at h ⊢
    obtain ⟨b, hb, hread, hexact⟩ := ih hds h
    refine ⟨b, hb, ?_, ?_⟩
    · rw [List.cons_append, readUnits, if_pos hc, hread]
    · rw [List.cons_append, LoopExact, if_pos hc, hexact]
      exact ⟨fun hs => hs.2.2, fun hs => ⟨by omega, by omega, hs⟩⟩

theorem readUnits_amount (a : Amount) {secs : UInt32} (h : secs.toNat + a.secs < 2 ^ 32)
    (s : List Char) :
    ∃ secs' : UInt32, secs'.toNat = secs.toNat + a.secs ∧
      readUnits (a.text ++ s) secs 0 = readUnits s secs' 0 ∧
        (LoopExact (a.text ++ s) secs 0 ↔ LoopExact s secs' 0) := by
  obtain ⟨hletter, m, hm, hunit⟩ := multiplier_letter a.unit
  have hpos : 0 < a.unit.secs := by cases a.unit <;> decide
  have hnumber : a.number ≤ a.secs := Nat.le_mul_of_pos_right _ hpos
  obtain ⟨b, hb, hread, hexact⟩ := readUnits_digits a.isDigit
    (show Nat.ofDigitChars 10 a.digits (0 : UInt32).toNat < 2 ^ 32 from
      lt_of_le_of_lt hnumber (by omega)) (a.unit.letter :: s) secs
  have hprod : b.toNat * m.toNat = a.secs := by rw [hb, hunit]; rfl
  have hmul : (b * m).toNat = a.secs := by
    rw [UInt32.toNat_mul, hprod]
    omega
  have hadd : (secs + b * m).toNat = secs.toNat + a.secs := by
    rw [UInt32.toNat_add, hmul]
    omega
  rw [Amount.text, List.append_assoc, List.singleton_append, hread, hexact]
  refine ⟨secs + b * m, hadd, ?_, ?_⟩
  · rw [readUnits, hletter, hm]
    rfl
  · rw [LoopExact, hletter, hm]
    exact ⟨fun hs => hs.2.2, fun hs => ⟨by omega, by omega, hs⟩⟩

theorem readUnits_text {as : List Amount} {secs : UInt32} (h : secs.toNat + total as < 2 ^ 32) :
    (readUnits (text as) secs 0).toNat = secs.toNat + total as ∧ LoopExact (text as) secs 0 := by
  induction as generalizing secs with
  | nil => exact ⟨rfl, trivial⟩
  | cons a as ih =>
    have htotal : total (a :: as) = a.secs + total as := List.sum_cons
    have htext : text (a :: as) = a.text ++ text as := List.flatMap_cons
    rw [htotal] at h
    rw [htotal, htext]
    have hamount : secs.toNat + a.secs < 2 ^ 32 := by omega
    obtain ⟨secs', hsecs, hread, hexact⟩ := readUnits_amount a hamount (text as)
    have hsum : secs'.toNat + total as < 2 ^ 32 := by omega
    obtain ⟨hvalue, hrest⟩ := ih hsum
    refine ⟨?_, hexact.2 hrest⟩
    rw [hread, hvalue, hsecs, Nat.add_assoc]

/-- A list of amounts is read as its total. -/
theorem timeStringToSecs_text {as : List Amount} (h : total as < 2 ^ 32) :
    (timeStringToSecs (text as)).toNat = total as ∧ NoWrap (text as) := by
  have hsum : (0 : UInt32).toNat + total as < 2 ^ 32 := by
    rw [UInt32.toNat_zero, Nat.zero_add]
    exact h
  obtain ⟨hvalue, hexact⟩ := readUnits_text hsum
  exact ⟨hvalue.trans (Nat.zero_add _), hexact⟩

/-! ### The amounts of a time -/

/-- A number as it is written. -/
def written (n : ℕ) (unit : TimeUnit) : Amount :=
  ⟨Nat.toDigits 10 n, unit, fun _ hc => Nat.isDigit_of_mem_toDigits (by decide) (by decide) hc⟩

theorem secs_written (n : ℕ) (unit : TimeUnit) : (written n unit).secs = n * unit.secs := by
  rw [Amount.secs, Amount.number, written, Nat.ofDigitChars_ten_toDigits]

/-- An amount that is left out if it is zero. -/
def unlessZero (n : ℕ) (unit : TimeUnit) : List Amount := if n ≠ 0 then [written n unit] else []

theorem total_unlessZero (n : ℕ) (unit : TimeUnit) :
    total (unlessZero n unit) = n * unit.secs := by
  unfold unlessZero
  split_ifs with h
  · rw [total, List.map_singleton, List.sum_singleton, secs_written]
  · rw [not_not.1 h, Nat.zero_mul]
    rfl

theorem text_unlessZero (n : ℕ) (unit : TimeUnit) :
    text (unlessZero n unit) = if n ≠ 0 then Nat.toDigits 10 n ++ [unit.letter] else [] := by
  unfold unlessZero
  split_ifs
  · exact List.append_nil _
  · rfl

theorem total_append (as as' : List Amount) : total (as ++ as') = total as + total as' := by
  rw [total, List.map_append, List.sum_append, total, total]

theorem text_append (as as' : List Amount) : text (as ++ as') = text as ++ text as' :=
  List.flatMap_append

/-- What the short form of a time lists. -/
def amounts (t : ℕ) : List Amount :=
  unlessZero (t / day) .days ++ unlessZero (t % day / hour) .hours ++
    unlessZero (t % hour / minute) .minutes ++
    if t = 0 then [written 0 .seconds] else unlessZero (t % minute) .seconds

theorem total_amounts (t : ℕ) : total (amounts t) = t := by
  have hzero : total [written 0 .seconds] = 0 := by
    rw [total, List.map_singleton, List.sum_singleton, secs_written, Nat.zero_mul]
  simp only [amounts, total_append, total_unlessZero, day, hour, minute, TimeUnit.secs]
  split_ifs with ht
  · rw [hzero, ht]
  · rw [total_unlessZero, TimeUnit.secs]
    omega

theorem secsToTimeString_short (t : ℕ) :
    secsToTimeString t true false = text (amounts t) := by
  have hlast : text (if t = 0 then [written 0 .seconds] else unlessZero (t % minute) .seconds) =
      if t % minute ≠ 0 || t / day = 0 && t % day / hour = 0 && t % hour / minute = 0 then
        Nat.toDigits 10 (t % minute) ++ ['s'] else [] := by
    by_cases ht : t = 0
    · subst ht
      rfl
    · have hcond : (t % minute ≠ 0 || t / day = 0 && t % day / hour = 0 && t % hour / minute = 0) =
          true ↔ t % minute ≠ 0 := by
        simp only [Bool.or_eq_true, Bool.and_eq_true, decide_eq_true_eq]
        unfold day hour minute
        omega
      rw [if_neg ht, text_unlessZero]
      simp only [hcond]
      rfl
  simp only [secsToTimeString, amounts, text_append, text_unlessZero, hlast, Bool.or_false,
    decide_eq_true_eq, Bool.not_false, if_true, List.append_assoc]
  rfl

/-- **Main result.** The short form of every time below `2 ^ 32` is read back, and every list of amounts
whose total is below `2 ^ 32` is read as its total. Nothing wraps around while they are read. -/
theorem timeStrings_exact :
    (∀ t < 2 ^ 32, (timeStringToSecs (secsToTimeString t true false)).toNat = t ∧
      NoWrap (secsToTimeString t true false)) ∧
    ∀ as, total as < 2 ^ 32 →
      (timeStringToSecs (text as)).toNat = total as ∧ NoWrap (text as) := by
  refine ⟨fun t ht => ?_, fun as has => timeStringToSecs_text has⟩
  have htotal := total_amounts t
  rw [secsToTimeString_short]
  have hlt : total (amounts t) < 2 ^ 32 := by rwa [htotal]
  obtain ⟨hvalue, hexact⟩ := timeStringToSecs_text hlt
  exact ⟨hvalue.trans htotal, hexact⟩

theorem timeStrings_sample :
    ((timeStringToSecs (secsToTimeString 4294967295 true false)).toNat = 4294967295 ∧
      NoWrap (secsToTimeString 4294967295 true false)) ∧
    (timeStringToSecs (text [written 1 .days, written 90 .minutes])).toNat = 91800 := by
  refine ⟨timeStrings_exact.1 4294967295 (by decide), ?_⟩
  have htotal : total [written 1 .days, written 90 .minutes] = 91800 := by
    simp [total, secs_written, TimeUnit.secs]
  have hlt : total [written 1 .days, written 90 .minutes] < 2 ^ 32 := by
    rw [htotal]
    decide
  exact (timeStrings_exact.2 _ hlt).1.trans htotal

end FaceCore.Durations
