import Mathlib.Data.UInt
import Mathlib.Tactic

/-!
# The bundled UTF-8 library

The checked functions of `utf8cpp` over lists: an iterator with the end of its range is the list of
the octets from the one to the other, so a decoder takes the octets that are left and gives back
those behind what it has read. An output iterator that is written through and moved on is the list
of what was written. Code points and UTF-16 units are natural numbers.

* `validateNext` reads one sequence, `next` makes an exception of its errors;
* `decodeLoop` is the loop `while (start != end)` around `next`, which `distance`, `utf8to32` and
  `utf8to16` are instances of. It gives back what it had made when it ended or threw, since both write through
  their iterator as they go;
* `append` and `utf16to8` write octets.
-/

namespace FaceCore.Utf8

/-- The errors of `utf_error`. -/
inductive UtfError
  | notEnoughRoom
  | invalidLead
  | incompleteSequence
  | overlongSequence
  | invalidCodePoint
  deriving DecidableEq

/-- The exceptions of the library, with what they carry. -/
inductive Exception
  | invalidCodePoint (cp : ℕ)
  | invalidUtf8 (u8 : UInt8)
  | invalidUtf16 (u16 : ℕ)
  | notEnoughRoom
  deriving DecidableEq

def leadSurrogateMin : ℕ := 0xd800
def leadSurrogateMax : ℕ := 0xdbff
def trailSurrogateMin : ℕ := 0xdc00
def trailSurrogateMax : ℕ := 0xdfff
def leadOffset : ℕ := leadSurrogateMin - (0x10000 >>> 10)

/-- `SURROGATE_OFFSET`, a negative number modulo `2 ^ 32`. -/
def surrogateOffset : ℕ := 2 ^ 32 + 0x10000 - (leadSurrogateMin <<< 10) - trailSurrogateMin

def codePointMax : ℕ := 0x0010ffff

def mask16 (oc : ℕ) : ℕ := oc &&& 0xffff

def isTrail (oc : UInt8) : Bool := oc.toNat >>> 6 == 0x2

def isLeadSurrogate (cp : ℕ) : Bool := leadSurrogateMin ≤ cp && cp ≤ leadSurrogateMax

def isTrailSurrogate (cp : ℕ) : Bool := trailSurrogateMin ≤ cp && cp ≤ trailSurrogateMax

def isSurrogate (cp : ℕ) : Bool := leadSurrogateMin ≤ cp && cp ≤ trailSurrogateMax

def isCodePointValid (cp : ℕ) : Bool := cp ≤ codePointMax && !isSurrogate cp

/-- The length of the sequence that an octet leads, zero if it leads none. -/
def sequenceLength (lead : UInt8) : ℕ :=
  if lead.toNat < 0x80 then 1
  else if lead.toNat >>> 5 = 0x6 then 2
  else if lead.toNat >>> 4 = 0xe then 3
  else if lead.toNat >>> 3 = 0x1e then 4
  else 0

def isOverlongSequence (cp length : ℕ) : Bool :=
  if cp < 0x80 then length != 1
  else if cp < 0x800 then length != 2
  else if cp < 0x10000 then length != 3
  else false

/-! ### One sequence -/

/-- Step to the next octet, which has to be a trail octet. It is given back with the octets
behind it. -/
def increaseSafely : List UInt8 → Except UtfError (UInt8 × List UInt8)
  | [] => .error .notEnoughRoom
  | oc :: after => if isTrail oc then .ok (oc, after) else .error .incompleteSequence

def getSequence1 (lead : UInt8) (after : List UInt8) : Except UtfError (ℕ × List UInt8) :=
  .ok (lead.toNat, after)

def getSequence2 (lead : UInt8) (after : List UInt8) : Except UtfError (ℕ × List UInt8) := do
  let (b, after) ← increaseSafely after
  return (((lead.toNat <<< 6) &&& 0x7ff) + (b.toNat &&& 0x3f), after)

def getSequence3 (lead : UInt8) (after : List UInt8) : Except UtfError (ℕ × List UInt8) := do
  let (b, after) ← increaseSafely after
  let (c, after) ← increaseSafely after
  return (((lead.toNat <<< 12) &&& 0xffff) + ((b.toNat <<< 6) &&& 0xfff) + (c.toNat &&& 0x3f),
    after)

def getSequence4 (lead : UInt8) (after : List UInt8) : Except UtfError (ℕ × List UInt8) := do
  let (b, after) ← increaseSafely after
  let (c, after) ← increaseSafely after
  let (d, after) ← increaseSafely after
  return (((lead.toNat <<< 18) &&& 0x1fffff) + ((b.toNat <<< 12) &&& 0x3ffff) +
    ((c.toNat <<< 6) &&& 0xfff) + (d.toNat &&& 0x3f), after)

/-- The `switch` over the length. -/
def getSequence : ℕ → UInt8 → List UInt8 → Except UtfError (ℕ × List UInt8)
  | 0 => fun _ _ => .error .invalidLead
  | 1 => getSequence1
  | 2 => getSequence2
  | 3 => getSequence3
  | _ => getSequence4

/-- The code point of the next sequence and the octets behind it. At the end of the range the
source looks at the NUL behind the string, a sequence of length one, and finds no room for it. -/
def validateNext : List UInt8 → Except UtfError (ℕ × List UInt8)
  | [] => .error .notEnoughRoom
  | lead :: after =>
    getSequence (sequenceLength lead) lead after >>= fun (cp, after) =>
      if isCodePointValid cp then
        if isOverlongSequence cp (sequenceLength lead) then .error .overlongSequence
        else .ok (cp, after)
      else .error .invalidCodePoint

/-- What `next` throws. The iterator is back where it was, and the code point that the exception
carries is the zero that `cp` was set to. -/
def thrown (it : List UInt8) : UtfError → Exception
  | .notEnoughRoom => .notEnoughRoom
  | .invalidLead | .incompleteSequence | .overlongSequence => .invalidUtf8 (it.headD 0)
  | .invalidCodePoint => .invalidCodePoint 0

def next (it : List UInt8) : Except Exception (ℕ × List UInt8) := (validateNext it).mapError (thrown it)

/-! ### What a sequence is -/

theorem bind_eq_ok {ε α β : Type} {x : Except ε α} {f : α → Except ε β} {r : β} :
    x >>= f = .ok r ↔ ∃ a, x = .ok a ∧ f a = .ok r := by
  cases x <;> simp [bind, Except.bind]

theorem increaseSafely_eq_ok {its : List UInt8} {b : UInt8} {after : List UInt8} :
    increaseSafely its = .ok (b, after) ↔ its = b :: after ∧ isTrail b := by
  cases its with
  | nil => simp [increaseSafely]
  | cons oc rest =>
    by_cases h : isTrail oc <;> simp only [increaseSafely, h, if_true, Bool.false_eq_true, if_false,
      Except.ok.injEq, Prod.mk.injEq, List.cons.injEq, reduceCtorEq, false_iff]
    · constructor
      · rintro ⟨rfl, rfl⟩
        exact ⟨⟨rfl, rfl⟩, h⟩
      · exact fun h => h.1
    · rintro ⟨⟨rfl, -⟩, ht⟩
      exact h ht

/-- The code point that a lead octet and its trail octets stand for. -/
def value : UInt8 → List UInt8 → ℕ
  | a, [b] => ((a.toNat <<< 6) &&& 0x7ff) + (b.toNat &&& 0x3f)
  | a, [b, c] => ((a.toNat <<< 12) &&& 0xffff) + ((b.toNat <<< 6) &&& 0xfff) + (c.toNat &&& 0x3f)
  | a, [b, c, d] => ((a.toNat <<< 18) &&& 0x1fffff) + ((b.toNat <<< 12) &&& 0x3ffff) +
      ((c.toNat <<< 6) &&& 0xfff) + (d.toNat &&& 0x3f)
  | a, _ => a.toNat

/-- A decoded sequence is a lead octet and the trail octets that its length asks for. -/
theorem getSequence_eq_ok {a : UInt8} {its after : List UInt8} {cp : ℕ} :
    getSequence (sequenceLength a) a its = .ok (cp, after) ↔ ∃ trails : List UInt8,
      its = trails ++ after ∧ trails.length + 1 = sequenceLength a ∧ (∀ b ∈ trails, isTrail b) ∧
        cp = value a trails := by
  have hle : sequenceLength a ≤ 4 := by
    unfold sequenceLength
    split_ifs <;> omega
  generalize sequenceLength a = length at hle ⊢
  interval_cases length
  · simp [getSequence]
  · simp only [getSequence, getSequence1, Except.ok.injEq, Prod.mk.injEq]
    constructor
    · rintro ⟨rfl, rfl⟩
      exact ⟨[], rfl, rfl, by simp, rfl⟩
    · rintro ⟨trails, rfl, hlength, -, rfl⟩
      obtain rfl := List.length_eq_zero_iff.1 (Nat.succ.inj hlength)
      exact ⟨rfl, rfl⟩
  · simp only [getSequence, getSequence2, bind_eq_ok, Prod.exists, increaseSafely_eq_ok]
    constructor
    · rintro ⟨b, rest, ⟨rfl, hb⟩, ⟨rfl, rfl⟩⟩
      exact ⟨[b], rfl, rfl, by simpa using hb, rfl⟩
    · rintro ⟨trails, rfl, hlength, htrails, rfl⟩
      obtain ⟨b, rfl⟩ := List.length_eq_one_iff.1 (Nat.succ.inj hlength)
      exact ⟨b, after, ⟨rfl, htrails b (by simp)⟩, rfl⟩
  · simp only [getSequence, getSequence3, bind_eq_ok, Prod.exists, increaseSafely_eq_ok]
    constructor
    · rintro ⟨b, _, ⟨rfl, hb⟩, c, _, ⟨rfl, hc⟩, ⟨rfl, rfl⟩⟩
      exact ⟨[b, c], rfl, rfl, by simp [hb, hc], rfl⟩
    · rintro ⟨trails, rfl, hlength, htrails, rfl⟩
      obtain ⟨b, c, rfl⟩ := List.length_eq_two.1 (Nat.succ.inj hlength)
      exact ⟨b, _, ⟨rfl, htrails b (by simp)⟩, c, _, ⟨rfl, htrails c (by simp)⟩, rfl⟩
  · simp only [getSequence, getSequence4, bind_eq_ok, Prod.exists, increaseSafely_eq_ok]
    constructor
    · rintro ⟨b, _, ⟨rfl, hb⟩, c, _, ⟨rfl, hc⟩, d, _, ⟨rfl, hd⟩, ⟨rfl, rfl⟩⟩
      exact ⟨[b, c, d], rfl, rfl, by simp [hb, hc, hd], rfl⟩
    · rintro ⟨trails, rfl, hlength, htrails, rfl⟩
      obtain ⟨b, c, d, rfl⟩ := List.length_eq_three.1 (Nat.succ.inj hlength)
      exact ⟨b, _, ⟨rfl, htrails b (by simp)⟩, c, _, ⟨rfl, htrails c (by simp)⟩, d, _,
        ⟨rfl, htrails d (by simp)⟩, rfl⟩

/-- The code point of a sequence, if it is one that `validateNext` lets through. -/
def Accepted (a : UInt8) (trails : List UInt8) : Prop :=
  trails.length + 1 = sequenceLength a ∧ (∀ b ∈ trails, isTrail b) ∧
    isCodePointValid (value a trails) ∧ ¬isOverlongSequence (value a trails) (sequenceLength a)

theorem validateNext_eq_ok {its after : List UInt8} {cp : ℕ} :
    validateNext its = .ok (cp, after) ↔ ∃ a trails, its = a :: trails ++ after ∧
      Accepted a trails ∧ cp = value a trails := by
  cases its with
  | nil => simp [validateNext]
  | cons lead rest =>
    simp only [validateNext, bind_eq_ok, Prod.exists, getSequence_eq_ok]
    constructor
    · rintro ⟨_, _, ⟨trails, rfl, hlength, htrails, rfl⟩, h⟩
      split_ifs at h with hvalid hoverlong
      obtain ⟨rfl, rfl⟩ := Prod.mk.inj (Except.ok.inj h)
      exact ⟨lead, trails, rfl, ⟨hlength, htrails, hvalid, hoverlong⟩, rfl⟩
    · rintro ⟨a, trails, h, ⟨hlength, htrails, hvalid, hoverlong⟩, rfl⟩
      obtain ⟨rfl, rfl⟩ := List.cons.inj h
      refine ⟨_, after, ⟨trails, rfl, hlength, htrails, rfl⟩, ?_⟩
      rw [if_pos hvalid, if_neg hoverlong]

theorem next_eq_ok {its after : List UInt8} {cp : ℕ} :
    next its = .ok (cp, after) ↔ ∃ a trails, its = a :: trails ++ after ∧
      Accepted a trails ∧ cp = value a trails := by
  rw [← validateNext_eq_ok, next]
  cases validateNext its <;> simp [Except.mapError]

theorem length_lt_of_next {its after : List UInt8} {cp : ℕ} (h : next its = .ok (cp, after)) :
    after.length < its.length := by
  obtain ⟨a, trails, rfl, -, -⟩ := next_eq_ok.1 h
  simp

/-! ### The loops -/

/-- `while (start != end) st = body(st, next(start, end))`. -/
def decodeLoop {σ : Type} (body : σ → ℕ → σ) (st : σ) (it : List UInt8) : σ × Option Exception :=
  match it with
  | [] => (st, none)
  | oc :: rest =>
    match _h : next (oc :: rest) with
    | .error e => (st, some e)
    | .ok (cp, after) => decodeLoop body (body st cp) after
termination_by it.length
decreasing_by exact length_lt_of_next _h

def distance (it : List UInt8) : Except Exception ℕ :=
  match decodeLoop (fun dist _ => dist + 1) 0 it with
  | (dist, none) => .ok dist
  | (_, some e) => .error e

def utf8to32 (it : List UInt8) : List ℕ × Option Exception :=
  decodeLoop (fun result cp => result ++ [cp]) [] it

/-- The units of a code point. -/
def units (cp : ℕ) : List ℕ :=
  if cp > 0xffff then
    [((cp >>> 10) + leadOffset) % 2 ^ 16, ((cp &&& 0x3ff) + trailSurrogateMin) % 2 ^ 16]
  else [cp % 2 ^ 16]

def utf8to16 (it : List UInt8) : List ℕ × Option Exception :=
  decodeLoop (fun result cp => result ++ units cp) [] it

/-- The octets of a code point. -/
def octets (cp : ℕ) : List UInt8 :=
  if cp < 0x80 then [.ofNat cp]
  else if cp < 0x800 then [.ofNat ((cp >>> 6) ||| 0xc0), .ofNat ((cp &&& 0x3f) ||| 0x80)]
  else if cp < 0x10000 then
    [.ofNat ((cp >>> 12) ||| 0xe0), .ofNat (((cp >>> 6) &&& 0x3f) ||| 0x80),
      .ofNat ((cp &&& 0x3f) ||| 0x80)]
  else
    [.ofNat ((cp >>> 18) ||| 0xf0), .ofNat (((cp >>> 12) &&& 0x3f) ||| 0x80),
      .ofNat (((cp >>> 6) &&& 0x3f) ||| 0x80), .ofNat ((cp &&& 0x3f) ||| 0x80)]

/-- What `append` writes. -/
def append (cp : ℕ) : Except Exception (List UInt8) :=
  if isCodePointValid cp then .ok (octets cp) else .error (.invalidCodePoint cp)

/-- Put octets before what a loop writes later. -/
def written (out : List UInt8) (p : List UInt8 × Option Exception) :
    List UInt8 × Option Exception :=
  (out ++ p.1, p.2)

/-- The body of the loop of `utf16to8` up to the call of `append`: the code point of the units at
the iterator, `u` the first of them, and the units behind. -/
def codePoint16 (u : ℕ) (start : List ℕ) : Except Exception (ℕ × List ℕ) :=
  let cp := mask16 u
  if isLeadSurrogate cp then
    match start with
    | [] => .error (.invalidUtf16 cp)
    | v :: start =>
      let trailSurrogate := mask16 v
      if isTrailSurrogate trailSurrogate then
        .ok (((cp <<< 10) + trailSurrogate + surrogateOffset) % 2 ^ 32, start)
      else .error (.invalidUtf16 trailSurrogate)
  else if isTrailSurrogate cp then .error (.invalidUtf16 cp)
  else .ok (cp, start)

/-- The code point is that of the units that are read, whatever stands behind them. -/
theorem exists_of_codePoint16 {u cp : ℕ} {start after : List ℕ}
    (h : codePoint16 u start = .ok (cp, after)) :
    ∃ front, start = front ++ after ∧ ∀ us, codePoint16 u (front ++ us) = .ok (cp, us) := by
  unfold codePoint16 at h ⊢
  dsimp only at h ⊢
  by_cases hlead : isLeadSurrogate (mask16 u)
  · simp only [if_pos hlead] at h ⊢
    cases start with
    | nil => simp at h
    | cons v start =>
      dsimp only at h
      split_ifs at h with htrail
      obtain ⟨rfl, rfl⟩ := Prod.mk.inj (Except.ok.inj h)
      exact ⟨[v], rfl, fun us => if_pos htrail⟩
  · simp only [if_neg hlead] at h ⊢
    split_ifs at h with htrail
    obtain ⟨rfl, rfl⟩ := Prod.mk.inj (Except.ok.inj h)
    exact ⟨[], rfl, fun us => if_neg htrail⟩

theorem length_le_of_codePoint16 {u cp : ℕ} {start after : List ℕ}
    (h : codePoint16 u start = .ok (cp, after)) : after.length ≤ start.length := by
  obtain ⟨front, rfl, -⟩ := exists_of_codePoint16 h
  simp

def utf16to8 : List ℕ → List UInt8 × Option Exception
  | [] => ([], none)
  | u :: start =>
    match _h : codePoint16 u start with
    | .error e => ([], some e)
    | .ok (cp, after) =>
      match append cp with
      | .error e => ([], some e)
      | .ok out => written out (utf16to8 after)
termination_by us => us.length
decreasing_by exact Nat.lt_succ_of_le (length_le_of_codePoint16 _h)

end FaceCore.Utf8
