import FaceCore.Lib.LittleEndian
import FaceCore.Lib.SortedMap
import Mathlib.Data.Prod.Lex
import Mathlib.Data.List.Lex
import Mathlib.Data.Fin.Basic

/-!
# Byte buffers

`ByteBuffer`, to which values are appended and from which they are read in the same order.

* `Ty`, `Ty.Val`: the types of values that the operators exist for, and their values;
* `ByteBuffer`, `append`, `readBytes`: the storage with its two positions;
* `write`, `read`: `operator<<` and `operator>>` of a type.

There is an `operator>>` for `bool` but no `operator<<`: a written `bool` is promoted to `int32`.
-/

namespace FaceCore.Packet

/-! ### Types and values -/

/-- The width of an integer type. -/
inductive Width
  | w8
  | w16
  | w32
  | w64
  deriving DecidableEq

/-- `sizeof`. -/
def Width.size : Width → ℕ
  | .w8 => 1
  | .w16 => 2
  | .w32 => 4
  | .w64 => 8

/-- The types of values. -/
inductive Ty
  | bool
  | int (signed : Bool) (w : Width)
  | string
  | packGuid
  | vector (t : Ty)
  | list (t : Ty)
  | map (k v : Ty)

/-- The numbers of an integer type. -/
def InRange (signed : Bool) (w : Width) (z : ℤ) : Prop :=
  if signed then -(256 ^ w.size / 2) ≤ z ∧ z < 256 ^ w.size / 2 else 0 ≤ z ∧ z < 256 ^ w.size

instance (signed : Bool) (w : Width) (z : ℤ) : Decidable (InRange signed w z) := by
  unfold InRange
  infer_instance

/-- A number of an integer type. -/
abbrev Number (signed : Bool) (w : Width) := {z : ℤ // InRange signed w z}

/-- A string without NUL. -/
abbrev CString := {s : List UInt8 // 0 ∉ s}

/-- Strings are compared byte by byte. -/
instance : LinearOrder CString :=
  LinearOrder.lift' (fun s => s.1.map UInt8.toNat) fun _ _ h =>
    Subtype.ext (List.map_injective_iff.2 (fun _ _ => UInt8.toNat_inj.1) h)

/-- Maps are compared entry by entry. -/
instance {κ α : Type} [LinearOrder κ] [LinearOrder α] : LinearOrder (SortedMap κ α) :=
  LinearOrder.lift' (fun m => m.entries.map toLex) fun m m' h => by
    obtain ⟨es, hs⟩ := m
    obtain ⟨es', hs'⟩ := m'
    obtain rfl : es = es' := List.map_injective_iff.2 toLex.injective h
    rfl

/-- A type with the order that `std::map` sorts it by. -/
structure OrderedType where
  carrier : Type
  order : LinearOrder carrier

/-- What the types of values stand for. -/
def Ty.ordered : Ty → OrderedType
  | .bool => ⟨Bool, inferInstance⟩
  | .int signed w => ⟨Number signed w, inferInstance⟩
  | .string => ⟨CString, inferInstance⟩
  | .packGuid => ⟨Fin (2 ^ 64), inferInstance⟩
  | .vector t | .list t =>
    let _ := t.ordered.order
    ⟨List t.ordered.carrier, inferInstance⟩
  | .map k v =>
    let _ := k.ordered.order
    let _ := v.ordered.order
    ⟨SortedMap k.ordered.carrier v.ordered.carrier, inferInstance⟩

/-- The values of a type. -/
abbrev Ty.Val (t : Ty) : Type := t.ordered.carrier

instance (t : Ty) : LinearOrder t.Val := t.ordered.order

/-! ### Numbers as bytes -/

/-- The bytes of a number. -/
def encode {signed : Bool} (w : Width) (z : Number signed w) : List UInt8 :=
  LittleEndian.toBytesLen w.size (z.1 % 256 ^ w.size).toNat

/-- The number that has some bits, in two's complement where the type is signed. -/
def ofBits (signed : Bool) (w : Width) (n : ℕ) : ℤ :=
  let z : ℤ := n % 256 ^ w.size
  if signed ∧ 256 ^ w.size / 2 ≤ z then z - 256 ^ w.size else z

theorem Width.two_dvd (w : Width) : (256 : ℤ) ^ w.size / 2 * 2 = 256 ^ w.size := by
  cases w <;> rfl

theorem ofBits_inRange (signed : Bool) (w : Width) (n : ℕ) :
    InRange signed w (ofBits signed w n) := by
  have hpos : (0 : ℤ) < 256 ^ w.size := by positivity
  have h0 := Int.emod_nonneg (n : ℤ) hpos.ne'
  have hlt := Int.emod_lt_of_pos (n : ℤ) hpos
  have hhalf := w.two_dvd
  unfold InRange ofBits
  dsimp only
  cases signed <;> simp only [Bool.false_eq_true, false_and, if_false, if_true, true_and]
  · exact ⟨h0, hlt⟩
  · split_ifs <;> constructor <;> omega

/-- The number that some bytes stand for. -/
def decode (signed : Bool) (w : Width) (bytes : List UInt8) : Number signed w :=
  ⟨ofBits signed w (LittleEndian.ofBytes bytes), ofBits_inRange signed w _⟩

/-- A number of 32 bits. -/
def uint32 (n : ℕ) : Number false .w32 := ⟨ofBits false .w32 n, ofBits_inRange false .w32 n⟩

/-- A number converted to an integer type. -/
def number (signed : Bool) (w : Width) (n : ℕ) : Number signed w :=
  ⟨ofBits signed w n, ofBits_inRange signed w n⟩

/-- What a `bool` is promoted to. -/
def promote (b : Bool) : Number true .w32 := if b then ⟨1, by decide⟩ else ⟨0, by decide⟩

/-! ### The buffer -/

/-- How an operation fails: with `ByteBufferPositionException`, `ByteBufferSourceException` or at
`ASSERT`. -/
inductive Failure
  | position
  | source
  | assertion
  deriving DecidableEq

abbrev Result (α : Type) := Except Failure α

structure ByteBuffer where
  rpos : ℕ
  wpos : ℕ
  storage : List UInt8

namespace ByteBuffer

/-- A new buffer. -/
def empty : ByteBuffer := ⟨0, 0, []⟩

/-- `size`. -/
def size (b : ByteBuffer) : ℕ := b.storage.length

/-- `append(const uint8*, size_t)`: the storage grows where it is too short, and is overwritten
from `wpos` on. -/
def append (b : ByteBuffer) (src : List UInt8) : Result ByteBuffer :=
  if src.length = 0 then .error .source
  else if b.size < 10000000 then
    let storage := b.storage ++ List.replicate (b.wpos + src.length - b.size) 0
    .ok { b with
      wpos := b.wpos + src.length
      storage := storage.take b.wpos ++ src ++ storage.drop (b.wpos + src.length) }
  else .error .assertion

/-- The bytes that `read<T>()` reads. -/
def readBytes (b : ByteBuffer) (n : ℕ) : Result (List UInt8 × ByteBuffer) :=
  if b.size < b.rpos + n then .error .position
  else .ok ((b.storage.drop b.rpos).take n, { b with rpos := b.rpos + n })

/-! ### Packed guids -/

/-- The loop of `appendPackGUID`, from byte `i` on: the mask and the bytes after it. -/
def packBytes (guid i : ℕ) (mask : ℕ) (bytes : List UInt8) : ℕ × List UInt8 :=
  if guid = 0 then (mask, bytes)
  else if guid % 256 = 0 then packBytes (guid / 256) (i + 1) mask bytes
  else packBytes (guid / 256) (i + 1) (mask ||| 1 <<< i) (bytes ++ [UInt8.ofNat (guid % 256)])
termination_by guid
decreasing_by all_goals omega

/-- The bytes that `appendPackGUID` appends. -/
def packGUID (guid : ℕ) : List UInt8 :=
  let packed := packBytes guid 0 0 []
  UInt8.ofNat packed.1 :: packed.2

/-- The loop of `readPackGUID` over the last `n` of eight bytes. -/
def readGuidBytes (guidmark : ℕ) : ℕ → ℕ → ByteBuffer → Result (ℕ × ByteBuffer)
  | 0, guid, b => .ok (guid, b)
  | n + 1, guid, b =>
    if guidmark.testBit (7 - n) then do
      let (bytes, b) ← b.readBytes 1
      readGuidBytes guidmark n (guid ||| LittleEndian.ofBytes bytes <<< ((7 - n) * 8)) b
    else readGuidBytes guidmark n guid b

/-- `readPackGUID`. -/
def readPackGUID (b : ByteBuffer) : Result (Fin (2 ^ 64) × ByteBuffer) := do
  let (guidmark, b) ← b.readBytes 1
  let (guid, b) ← readGuidBytes (LittleEndian.ofBytes guidmark) 8 0 b
  return (Fin.ofNat (2 ^ 64) guid, b)

/-! ### The operators -/

/-- `operator<<` of a container: the number of the elements, and the elements. -/
def writeElements {α : Type} (element : α → ByteBuffer → Result ByteBuffer) (vs : List α)
    (b : ByteBuffer) : Result ByteBuffer := do
  let b ← b.append (encode .w32 (uint32 vs.length))
  vs.foldlM (fun b v => element v b) b

/-- `operator<<(const std::string&)`. -/
def writeString (v : CString) (b : ByteBuffer) : Result ByteBuffer := do
  let b ← if v.1.length ≠ 0 then b.append v.1 else pure b
  b.append [0]

/-- `operator<<` of a type. -/
def write : (t : Ty) → t.Val → ByteBuffer → Result ByteBuffer
  | .bool, (v : Bool), b => b.append (encode .w32 (promote v))
  | .int _ w, v, b => b.append (encode w v)
  | .string, v, b => writeString v b
  | .packGuid, (v : Fin (2 ^ 64)), b => b.append (packGUID v)
  | .vector t, vs, b | .list t, vs, b => writeElements (write t) vs b
  | .map k v, (m : SortedMap k.Val v.Val), b =>
    writeElements (fun e b => do write v e.2 (← write k e.1 b)) m.entries b

/-- The characters before the next NUL, and how many bytes are passed. -/
def readChars : List UInt8 → List UInt8 × ℕ
  | [] => ([], 0)
  | c :: cs => if c = 0 then ([], 1) else ((c :: (readChars cs).1), (readChars cs).2 + 1)

theorem zero_notMem_readChars (bytes : List UInt8) : 0 ∉ (readChars bytes).1 := by
  induction bytes with
  | nil => simp [readChars]
  | cons c cs ih =>
    rw [readChars]
    split_ifs with hc
    · simp
    · simpa [Ne.symm hc] using ih

/-- `operator>>(std::string&)`. -/
def readString (b : ByteBuffer) : CString × ByteBuffer :=
  let chars := readChars (b.storage.drop b.rpos)
  (⟨chars.1, zero_notMem_readChars _⟩, { b with rpos := b.rpos + chars.2 })

/-- The loop over the elements of a container, each of which is put into it. -/
def readElements {α σ : Type} (element : ByteBuffer → Result (α × ByteBuffer)) (put : σ → α → σ) :
    ℕ → σ → ByteBuffer → Result (σ × ByteBuffer)
  | 0, container, b => .ok (container, b)
  | n + 1, container, b => do
    let (v, b) ← element b
    readElements element put n (put container v) b

/-- `operator>>` of a container. -/
def readContainer {α σ : Type} (element : ByteBuffer → Result (α × ByteBuffer)) (put : σ → α → σ)
    (container : σ) (b : ByteBuffer) : Result (σ × ByteBuffer) := do
  let (bytes, b) ← b.readBytes 4
  readElements element put (decode false .w32 bytes).1.toNat container b

/-- `push_back`. -/
def pushBack {α : Type} (vs : List α) (v : α) : List α := vs ++ [v]

/-- `std::map::insert`: an entry that is there stays. -/
def insertNew {κ α : Type} [LinearOrder κ] (m : SortedMap κ α) (e : κ × α) : SortedMap κ α :=
  if m.find e.1 = none then m.insert e.1 e.2 else m

/-- A key and a value. -/
def readEntry {κ α : Type} (key : ByteBuffer → Result (κ × ByteBuffer))
    (value : ByteBuffer → Result (α × ByteBuffer)) (b : ByteBuffer) :
    Result ((κ × α) × ByteBuffer) := do
  let (k, b) ← key b
  let (v, b) ← value b
  return ((k, v), b)

/-- `operator>>` of a type. -/
def read : (t : Ty) → ByteBuffer → Result (t.Val × ByteBuffer)
  | .bool, b => do
    let (bytes, b) ← b.readBytes 1
    return ((decide (0 < (decode true .w8 bytes).1) : Bool), b)
  | .int signed w, b => do
    let (bytes, b) ← b.readBytes w.size
    return (decode signed w bytes, b)
  | .string, b => .ok b.readString
  | .packGuid, b => b.readPackGUID
  | .vector t, b | .list t, b => readContainer (read t) pushBack [] b
  | .map k v, b => readContainer (readEntry (read k) (read v)) insertNew SortedMap.empty b

/-- A value with its type. -/
abbrev TypedValue := (t : Ty) × t.Val

/-- Append a sequence of values. -/
def writeAll (vs : List TypedValue) (b : ByteBuffer) : Result ByteBuffer :=
  vs.foldlM (fun b v => write v.1 v.2 b) b

/-- Read values of some types. -/
def readAll : List Ty → ByteBuffer → Result (List TypedValue × ByteBuffer)
  | [], b => .ok ([], b)
  | t :: ts, b => do
    let (v, b) ← read t b
    let (vs, b) ← readAll ts b
    return (⟨t, v⟩ :: vs, b)

end ByteBuffer

end FaceCore.Packet
