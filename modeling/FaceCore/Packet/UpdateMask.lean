import FaceCore.Lib.Bitmap
import FaceCore.Packet.RoundTrip

/-!
# Update masks

`UpdateMask`: one byte for each field of an object, in blocks of 32, and the words that the client
reads it in.

* `Sized`: a mask made for a number of fields, with no byte set behind them;
* `fields`: the fields that are set, in increasing order;
* `readMask`: the fields that a client reads, `readMask_of_unread`.
-/

namespace FaceCore.Packet

/-- `UpdateMask`. -/
structure UpdateMask where
  fieldCount : ℕ
  blockCount : ℕ
  bits : List UInt8

namespace UpdateMask

/-- `CLIENT_UPDATE_MASK_BITS`. -/
def clientUpdateMaskBits : ℕ := 32

/-- `SetCount`. -/
def setCount (valuesCount : ℕ) : UpdateMask :=
  let blockCount := (valuesCount + clientUpdateMaskBits - 1) / clientUpdateMaskBits
  ⟨valuesCount, blockCount, List.replicate (blockCount * clientUpdateMaskBits) 0⟩

/-- `SetBit`. -/
def setBit (m : UpdateMask) (index : ℕ) : UpdateMask := { m with bits := m.bits.set index 1 }

/-- `GetBit`. -/
def getBit (m : UpdateMask) (index : ℕ) : Bool := m.bits.getD index 0 != 0

/-- The word of a block. -/
def maskPart (m : UpdateMask) (i : ℕ) : ℕ :=
  Bitmap.word (fun j => m.getBit (clientUpdateMaskBits * i + j)) clientUpdateMaskBits

/-- `AppendToPacket`. -/
def appendToPacket (m : UpdateMask) (b : ByteBuffer) : Result ByteBuffer :=
  (List.range m.blockCount).foldlM
    (fun b i => ByteBuffer.write (.int false .w32) (number false .w32 (m.maskPart i)) b) b

/-- A mask of `n` fields. -/
structure Sized (n : ℕ) (m : UpdateMask) : Prop where
  fieldCount_eq : m.fieldCount = n
  blockCount_eq : m.blockCount = (n + 31) / 32
  length_bits : m.bits.length = m.blockCount * 32
  clear : ∀ i, n ≤ i → m.getBit i = false

/-- The masks of `n` fields. -/
abbrev OfSize (n : ℕ) := {m : UpdateMask // m.Sized n}

/-- The fields that are set, in increasing order. -/
def fields (m : UpdateMask) : List ℕ := (List.range m.fieldCount).filter m.getBit

/-- The words of all blocks. -/
def words (m : UpdateMask) : List ℕ := (List.range m.blockCount).map m.maskPart

/-! ### Setting bits -/

theorem getBit_setBit_self {m : UpdateMask} {i : ℕ} (h : i < m.bits.length) :
    (m.setBit i).getBit i = true := by
  simp [getBit, setBit, List.getD_eq_getElem?_getD, h]

theorem getBit_setBit_of_ne {m : UpdateMask} {i j : ℕ} (h : i ≠ j) :
    (m.setBit i).getBit j = m.getBit j := by
  simp [getBit, setBit, List.getD_eq_getElem?_getD, List.getElem?_set_ne h]

theorem getBit_setBit_of_getBit {m : UpdateMask} {i j : ℕ} (h : m.getBit j = true) :
    (m.setBit i).getBit j = true := by
  rcases eq_or_ne i j with rfl | hne
  · refine getBit_setBit_self ?_
    by_contra hle
    simp [getBit, List.getD_eq_getElem?_getD, List.getElem?_eq_none (not_lt.1 hle)] at h
  · rw [getBit_setBit_of_ne hne, h]

theorem sized_setCount (n : ℕ) : (setCount n).Sized n where
  fieldCount_eq := rfl
  blockCount_eq := rfl
  length_bits := List.length_replicate
  clear i _ := by
    simp only [getBit, setCount, List.getD_eq_getElem?_getD, List.getElem?_replicate]
    split_ifs <;> rfl

theorem Sized.setBit {m : UpdateMask} {n i : ℕ} (h : m.Sized n) (hi : i < n) :
    (m.setBit i).Sized n where
  fieldCount_eq := h.fieldCount_eq
  blockCount_eq := h.blockCount_eq
  length_bits := by
    rw [UpdateMask.setBit, List.length_set]
    exact h.length_bits
  clear j hj := by
    rw [getBit_setBit_of_ne (by omega)]
    exact h.clear j hj

/-! ### The words -/

theorem length_words (m : UpdateMask) : m.words.length = m.blockCount := by
  simp [words]

theorem lt_of_mem_words {m : UpdateMask} {w : ℕ} (h : w ∈ m.words) : w < 2 ^ 32 := by
  obtain ⟨i, -, rfl⟩ := List.mem_map.1 h
  exact Bitmap.word_lt _ _

/-- The bit of a field in the words. -/
def testField (words : List ℕ) (i : ℕ) : Bool := (words.getD (i / 32) 0).testBit (i % 32)

theorem testField_words {m : UpdateMask} {i : ℕ} (h : i < m.blockCount * 32) :
    testField m.words i = m.getBit i := by
  have hblock : i / 32 < m.blockCount := by omega
  have hword : m.words.getD (i / 32) 0 = m.maskPart (i / 32) := by
    simp [words, List.getD_eq_getElem?_getD, hblock]
  have hi : clientUpdateMaskBits * (i / 32) + i % 32 = i := Nat.div_add_mod i 32
  have hbit : i % 32 < clientUpdateMaskBits := Nat.mod_lt i (by decide)
  rw [testField, hword, maskPart, Bitmap.testBit_word, hi]
  simp [hbit]

/-- The fields of some words. -/
def fieldsOf (words : List ℕ) : List ℕ := (List.range (words.length * 32)).filter (testField words)

/-- The words tell the fields. -/
theorem Sized.fieldsOf_words {m : UpdateMask} {n : ℕ} (h : m.Sized n) :
    fieldsOf m.words = m.fields := by
  have hle : n ≤ m.blockCount * 32 := by
    rw [h.blockCount_eq]
    omega
  have hsplit : List.range (m.blockCount * 32) =
      List.range n ++ (List.range (m.blockCount * 32 - n)).map (n + ·) := by
    rw [← List.range_add]
    congr 1
    omega
  have hrest : ((List.range (m.blockCount * 32 - n)).map (n + ·)).filter m.getBit = [] := by
    refine List.filter_eq_nil_iff.2 fun i hi => ?_
    obtain ⟨k, -, rfl⟩ := List.mem_map.1 hi
    simp [h.clear (n + k) (by omega)]
  have hbits : ∀ i ∈ List.range (m.blockCount * 32), testField m.words i = m.getBit i :=
    fun i hi => testField_words (List.mem_range.1 hi)
  rw [fieldsOf, length_words, List.filter_congr hbits, hsplit, List.filter_append, hrest,
    List.append_nil, fields, h.fieldCount_eq]

/-! ### The bytes of a mask -/

/-- The number of the blocks and their words. -/
def maskBytes (m : UpdateMask) : List UInt8 :=
  UInt8.ofNat m.blockCount :: m.words.flatMap (LittleEndian.toBytesLen 4)

theorem flatMap_encode_words (m : UpdateMask) :
    (m.words.flatMap fun w => encode .w32 (number false .w32 w)) =
      m.words.flatMap (LittleEndian.toBytesLen 4) :=
  List.flatMap_congr fun _ hw => ByteBuffer.encode_number false .w32 (lt_of_mem_words hw)

theorem encode_blockCount {m : UpdateMask} (h : m.blockCount < 256) :
    encode .w8 (number false .w8 m.blockCount) = [UInt8.ofNat m.blockCount] := by
  rw [ByteBuffer.encode_number false .w8 h]
  change [UInt8.ofNat (m.blockCount % 256)] = _
  rw [Nat.mod_eq_of_lt h]

theorem appendToPacket_eq (m : UpdateMask) (b : ByteBuffer) :
    m.appendToPacket b =
      ByteBuffer.appendAll (m.words.map fun w => encode .w32 (number false .w32 w)) b := by
  have hwrite : ∀ b, ∀ i ∈ List.range m.blockCount,
      ByteBuffer.write (.int false .w32) (number false .w32 (m.maskPart i)) b =
        ByteBuffer.appendAll [encode .w32 (number false .w32 (m.maskPart i))] b :=
    fun b i _ => ByteBuffer.write_eq (.int false .w32) (number false .w32 (m.maskPart i)) b
  rw [appendToPacket, ByteBuffer.foldlM_eq_appendAll hwrite, words, List.map_map,
    List.map_eq_flatMap]
  rfl

/-! ### What a client reads -/

/-- A client reads a `uint32`. -/
def readUInt32 (b : ByteBuffer) : Result (ℕ × ByteBuffer) := do
  let (value, b) ← ByteBuffer.read (.int false .w32) b
  return (value.1.toNat, b)

/-- A client reads the number of the blocks and their words. -/
def readMask (b : ByteBuffer) : Result (List ℕ × ByteBuffer) := do
  let (count, b) ← ByteBuffer.read (.int false .w8) b
  let (words, b) ← ByteBuffer.readElements readUInt32 ByteBuffer.pushBack count.1.toNat [] b
  return (fieldsOf words, b)

theorem readUInt32_of_unread {bs rest : List UInt8} (hbs : bs.length = 4) {b : ByteBuffer}
    (hb : b.unread = bs ++ rest) :
    readUInt32 b = .ok (LittleEndian.ofBytes bs, b.advance bs.length) := by
  have hlt := LittleEndian.ofBytes_lt bs
  rw [hbs] at hlt
  have hencode : encode .w32 (decode false .w32 bs) = bs := ByteBuffer.encode_decode hbs
  have hread : ByteBuffer.read (.int false .w32) b =
      .ok (decode false .w32 bs, b.advance (encode .w32 (decode false .w32 bs)).length) :=
    ByteBuffer.read_int_of_unread (by rw [hencode, hb])
  have hvalue : (decode false .w32 bs).1.toNat = LittleEndian.ofBytes bs :=
    ByteBuffer.toNat_number (w := .w32) hlt
  rw [hencode] at hread
  unfold readUInt32
  rw [hread, ← hvalue]
  rfl

/-- A client that reads a mask passes its bytes. -/
theorem Sized.readMask_of_unread {m : UpdateMask} {n : ℕ} (h : m.Sized n)
    (hcount : m.blockCount < 256) {b : ByteBuffer} {rest : List UInt8}
    (hb : b.unread = m.maskBytes ++ rest) :
    readMask b = .ok (m.fields, b.advance m.maskBytes.length) := by
  have hcountBytes := encode_blockCount hcount
  have hcountRead : ByteBuffer.read (.int false .w8) b =
      .ok (number false .w8 m.blockCount,
        b.advance (encode .w8 (number false .w8 m.blockCount)).length) := by
    have hsplit : b.unread = encode .w8 (number false .w8 m.blockCount) ++
        (m.words.flatMap (LittleEndian.toBytesLen 4) ++ rest) := by
      rw [hcountBytes, hb]
      rfl
    exact ByteBuffer.read_int_of_unread hsplit
  have hrest : (b.advance 1).unread = m.words.flatMap (LittleEndian.toBytesLen 4) ++ rest := by
    rw [ByteBuffer.unread_advance, hb]
    rfl
  have hword : ∀ w ∈ m.words, ∀ b rest, b.unread = LittleEndian.toBytesLen 4 w ++ rest →
      readUInt32 b = .ok (w, b.advance (LittleEndian.toBytesLen 4 w).length) := by
    intro w hw b rest hb
    rw [readUInt32_of_unread (LittleEndian.length_toBytesLen 4 w) hb,
      LittleEndian.ofBytes_toBytesLen (lt_of_mem_words hw)]
  have hwords : ByteBuffer.readElements readUInt32 ByteBuffer.pushBack
      (number false .w8 m.blockCount).1.toNat [] (b.advance 1) =
      .ok (m.words, b.advance m.maskBytes.length) := by
    rw [ByteBuffer.toNat_number hcount, ← length_words,
      ByteBuffer.readElements_of_unread hword [] hrest, ByteBuffer.foldl_pushBack, List.nil_append,
      ByteBuffer.advance_advance, maskBytes, List.length_cons, Nat.add_comm]
  rw [hcountBytes] at hcountRead
  unfold readMask
  rw [hcountRead]
  simp only [bind, Except.bind]
  rw [List.length_singleton, hwords]
  simp only [h.fieldsOf_words]
  rfl

end UpdateMask

end FaceCore.Packet
