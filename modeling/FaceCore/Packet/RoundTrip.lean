import FaceCore.Packet.ByteBuffer
import Mathlib.Algebra.BigOperators.Group.List.Basic
import Mathlib.Data.Nat.Bitwise

/-!
# Values through a byte buffer

Which sequences of values come back from a new buffer as they were appended. A buffer takes no
append that starts with ten million bytes in it (`Fits`), and a `bool` is written with four bytes
and read with one, so three bytes stay behind.

* `appends`: the byte strings that `write` appends, `write_eq`;
* `read_of_unread`: what is written without a `bool` is read back;
* `behind_read`: how many bytes stay behind when a value is read back;
* `roundTrips_condition`.
-/

namespace FaceCore.Packet

/-- A type of maps, or of containers of maps. -/
def Ty.hasMap : Ty → Bool
  | .bool | .int _ _ | .string | .packGuid => false
  | .vector t | .list t => t.hasMap
  | .map _ _ => true

namespace ByteBuffer

/-- The byte strings that a container is appended as. -/
def elementAppends {α : Type} (g : α → List (List UInt8)) (vs : List α) : List (List UInt8) :=
  encode .w32 (uint32 vs.length) :: vs.flatMap g

/-- The byte strings that a value is appended as. -/
def appends : (t : Ty) → t.Val → List (List UInt8)
  | .bool, (v : Bool) => [encode .w32 (promote v)]
  | .int _ w, v => [encode w v]
  | .string, (v : CString) => if v.1.length ≠ 0 then [v.1, [0]] else [[0]]
  | .packGuid, (v : Fin (2 ^ 64)) => [packGUID v]
  | .vector t, vs | .list t, vs => elementAppends (appends t) vs
  | .map k v, (m : SortedMap k.Val v.Val) =>
    elementAppends (fun e => appends k e.1 ++ appends v e.2) m.entries

/-- The bytes of a value. -/
def bytes (t : Ty) (v : t.Val) : List UInt8 := (appends t v).flatten

/-- How many values of type `bool` a value holds. -/
def bools : (t : Ty) → t.Val → ℕ
  | .bool, _ => 1
  | .int _ _, _ | .string, _ | .packGuid, _ => 0
  | .vector t, (vs : List t.Val) | .list t, (vs : List t.Val) => (vs.map (bools t)).sum
  | .map k v, (m : SortedMap k.Val v.Val) =>
    (m.entries.map fun e => bools k e.1 + bools v e.2).sum

/-- Every append starts with fewer than ten million bytes in the buffer. -/
def Fits (size : ℕ) : List (List UInt8) → Prop
  | [] => True
  | src :: srcs => size < 10000000 ∧ Fits (size + src.length) srcs

instance decidableFits : (size : ℕ) → (srcs : List (List UInt8)) → Decidable (Fits size srcs)
  | _, [] => .isTrue trivial
  | size, src :: srcs =>
    let _ := decidableFits (size + src.length) srcs
    inferInstanceAs (Decidable (size < 10000000 ∧ Fits (size + src.length) srcs))

/-- What is appended to a new buffer is read back, up to its end. -/
def RoundTrips (vs : List TypedValue) : Prop :=
  ∃ b b', writeAll vs .empty = .ok b ∧ readAll (vs.map Sigma.fst) b = .ok (vs, b') ∧
    b'.rpos = b'.wpos

/-! ### Writing -/

/-- Appending one byte string after the other. -/
def appendAll (srcs : List (List UInt8)) (b : ByteBuffer) : Result ByteBuffer :=
  srcs.foldlM append b

@[simp] theorem appendAll_nil (b : ByteBuffer) : appendAll [] b = .ok b := rfl

theorem appendAll_cons (src : List UInt8) (srcs : List (List UInt8)) (b : ByteBuffer) :
    appendAll (src :: srcs) b = b.append src >>= appendAll srcs := rfl

theorem appendAll_append (srcs srcs' : List (List UInt8)) (b : ByteBuffer) :
    appendAll (srcs ++ srcs') b = appendAll srcs b >>= appendAll srcs' :=
  List.foldlM_append

theorem appendAll_singleton (src : List UInt8) (b : ByteBuffer) :
    appendAll [src] b = b.append src := by
  rw [appendAll_cons]
  exact bind_pure _

theorem foldlM_eq_appendAll {α : Type} {f : ByteBuffer → α → Result ByteBuffer}
    {g : α → List (List UInt8)} {vs : List α} (h : ∀ b, ∀ v ∈ vs, f b v = appendAll (g v) b)
    (b : ByteBuffer) : vs.foldlM f b = appendAll (vs.flatMap g) b := by
  induction vs generalizing b with
  | nil => rfl
  | cons v vs ih =>
    rw [List.foldlM_cons, List.flatMap_cons, appendAll_append, h b v List.mem_cons_self]
    exact congrArg _ (funext fun b => ih (fun b w hw => h b w (List.mem_cons_of_mem v hw)) b)

theorem writeElements_eq {α : Type} {element : α → ByteBuffer → Result ByteBuffer}
    {g : α → List (List UInt8)} (h : ∀ b v, element v b = appendAll (g v) b) (vs : List α)
    (b : ByteBuffer) : writeElements element vs b = appendAll (elementAppends g vs) b := by
  rw [elementAppends, appendAll_cons]
  exact congrArg _ (funext (foldlM_eq_appendAll fun b v _ => h b v))

theorem writeString_eq (v : CString) (b : ByteBuffer) :
    writeString v b = appendAll (appends .string v) b := by
  by_cases h : v.1.length = 0
  · have happends : appends .string v = [[0]] := if_neg (not_not.2 h)
    rw [writeString, happends, if_neg (not_not.2 h), appendAll_singleton]
    rfl
  · have happends : appends .string v = [v.1, [0]] := if_pos h
    rw [writeString, happends, if_pos h, appendAll_cons]
    exact congrArg _ (funext fun b => (appendAll_singleton _ b).symm)

theorem write_eq (t : Ty) (v : t.Val) (b : ByteBuffer) : write t v b = appendAll (appends t v) b := by
  induction t generalizing b with
  | bool => exact (appendAll_singleton _ b).symm
  | int signed w => exact (appendAll_singleton _ b).symm
  | string => exact writeString_eq v b
  | packGuid => exact (appendAll_singleton _ b).symm
  | vector t ih => exact writeElements_eq (fun b v => ih v b) v b
  | list t ih => exact writeElements_eq (fun b v => ih v b) v b
  | map k t ihk iht =>
    refine writeElements_eq (fun b e => ?_) _ b
    rw [ihk, appendAll_append]
    exact congrArg _ (funext fun b => iht e.2 b)

theorem writeAll_eq (vs : List TypedValue) (b : ByteBuffer) :
    writeAll vs b = appendAll (vs.flatMap fun v => appends v.1 v.2) b :=
  foldlM_eq_appendAll (fun b v _ => write_eq v.1 v.2 b) b

/-- The write position is the end of the storage, as in a buffer that is only appended to. -/
def AtEnd (b : ByteBuffer) : Prop := b.wpos = b.size

/-- The buffer with some more bytes. -/
def extend (b : ByteBuffer) (src : List UInt8) : ByteBuffer :=
  ⟨b.rpos, b.wpos + src.length, b.storage ++ src⟩

theorem AtEnd.extend {b : ByteBuffer} (h : AtEnd b) (src : List UInt8) : AtEnd (b.extend src) := by
  unfold AtEnd ByteBuffer.extend size
  rw [List.length_append]
  exact congrArg (· + src.length) h

theorem AtEnd.append_eq {b : ByteBuffer} (h : AtEnd b) {src : List UInt8} (hsrc : src ≠ []) :
    b.append src = if b.size < 10000000 then .ok (b.extend src) else .error .assertion := by
  have hlen : src.length ≠ 0 := fun hl => hsrc (List.length_eq_zero_iff.1 hl)
  unfold append ByteBuffer.extend
  rw [if_neg hlen]
  unfold AtEnd size at *
  simp [h]

@[simp] theorem length_encode {signed : Bool} (w : Width) (z : Number signed w) :
    (encode w z).length = w.size := LittleEndian.length_toBytesLen _ _

theorem Width.size_pos (w : Width) : 0 < w.size := by
  cases w <;> decide

theorem encode_ne_nil {signed : Bool} (w : Width) (z : Number signed w) : encode w z ≠ [] :=
  List.ne_nil_of_length_pos (by simpa using Width.size_pos w)

theorem ne_nil_of_mem_elementAppends {α : Type} {g : α → List (List UInt8)} {vs : List α}
    (hg : ∀ v, ∀ src ∈ g v, src ≠ []) : ∀ src ∈ elementAppends g vs, src ≠ [] := by
  intro src hsrc
  rcases List.mem_cons.1 hsrc with rfl | hsrc
  · exact encode_ne_nil _ _
  · obtain ⟨v, -, hv⟩ := List.mem_flatMap.1 hsrc
    exact hg v src hv

theorem ne_nil_of_mem_appends {t : Ty} (v : t.Val) : ∀ src ∈ appends t v, src ≠ [] := by
  induction t with
  | bool => exact List.forall_mem_singleton.2 (encode_ne_nil _ _)
  | int signed w => exact List.forall_mem_singleton.2 (encode_ne_nil _ _)
  | string =>
    intro src h
    simp only [appends] at h
    split_ifs at h with hlen
    · rcases List.mem_pair.1 h with rfl | rfl
      · exact fun hnil => hlen (congrArg List.length hnil)
      · simp
    · exact List.mem_singleton.1 h ▸ List.cons_ne_nil _ _
  | packGuid => exact List.forall_mem_singleton.2 (List.cons_ne_nil _ _)
  | vector t ih => exact ne_nil_of_mem_elementAppends ih
  | list t ih => exact ne_nil_of_mem_elementAppends ih
  | map k v ihk ihv =>
    refine ne_nil_of_mem_elementAppends fun e src he => ?_
    rcases List.mem_append.1 he with he | he
    · exact ihk e.1 src he
    · exact ihv e.2 src he

/-- The buffer takes the byte strings exactly when they fit. -/
theorem appendAll_eq_ok {srcs : List (List UInt8)} (hsrcs : ∀ src ∈ srcs, src ≠ [])
    {b b' : ByteBuffer} (h : AtEnd b) :
    appendAll srcs b = .ok b' ↔ Fits b.size srcs ∧ b' = b.extend srcs.flatten := by
  induction srcs generalizing b with
  | nil => simp [Fits, ByteBuffer.extend, eq_comm]
  | cons src srcs ih =>
    obtain ⟨hsrc, hsrcs⟩ := List.forall_mem_cons.1 hsrcs
    rw [appendAll_cons, h.append_eq hsrc, Fits, List.flatten_cons]
    have hsize : (b.extend src).size = b.size + src.length := List.length_append
    split_ifs with hlt
    · have hextend : (b.extend src).extend srcs.flatten = b.extend (src ++ srcs.flatten) := by
        simp [ByteBuffer.extend, Nat.add_assoc]
      rw [and_iff_right hlt, ← hsize, ← hextend]
      exact ih hsrcs (h.extend src)
    · simp [hlt, bind, Except.bind]

theorem flatten_flatMap_appends (vs : List TypedValue) :
    (vs.flatMap fun v => appends v.1 v.2).flatten = vs.flatMap fun v => bytes v.1 v.2 := by
  rw [List.flatMap, List.flatten_flatten, List.map_map]
  rfl

theorem ne_nil_of_mem_flatMap_appends {vs : List TypedValue} :
    ∀ src ∈ vs.flatMap fun v => appends v.1 v.2, src ≠ [] := by
  intro src hsrc
  obtain ⟨v, -, hv⟩ := List.mem_flatMap.1 hsrc
  exact ne_nil_of_mem_appends v.2 src hv

theorem writeAll_eq_ok {vs : List TypedValue} {b : ByteBuffer} :
    writeAll vs .empty = .ok b ↔ Fits 0 (vs.flatMap fun v => appends v.1 v.2) ∧
      b = empty.extend (vs.flatMap fun v => bytes v.1 v.2) := by
  rw [writeAll_eq, appendAll_eq_ok ne_nil_of_mem_flatMap_appends (by rfl),
    flatten_flatMap_appends]
  rfl

theorem fits_of_le {srcs : List (List UInt8)} (hsrcs : ∀ src ∈ srcs, src ≠ []) {n : ℕ}
    (h : n + srcs.flatten.length ≤ 10000000) : Fits n srcs := by
  induction srcs generalizing n with
  | nil => trivial
  | cons src srcs ih =>
    obtain ⟨hsrc, hsrcs⟩ := List.forall_mem_cons.1 hsrcs
    have hpos := List.length_pos_iff.2 hsrc
    rw [List.flatten_cons, List.length_append] at h
    exact ⟨by omega, ih hsrcs (by omega)⟩

/-- Byte strings that fit are few. -/
theorem length_le_of_fits {srcs : List (List UInt8)} (hsrcs : ∀ src ∈ srcs, src ≠ []) {n : ℕ}
    (h : Fits n srcs) : srcs.length ≤ 10000000 - n + 1 := by
  induction srcs generalizing n with
  | nil => simp
  | cons src srcs ih =>
    obtain ⟨hsrc, hsrcs⟩ := List.forall_mem_cons.1 hsrcs
    obtain ⟨hn, hfits⟩ := h
    have hpos := List.length_pos_iff.2 hsrc
    cases srcs with
    | nil => simp
    | cons src' srcs =>
      have hlen := ih hsrcs hfits
      have hnext := hfits.1
      rw [List.length_cons] at hlen ⊢
      rw [List.length_cons]
      omega

/-! ### Reading bytes and numbers -/

/-- The bytes from the read position on. -/
def unread (b : ByteBuffer) : List UInt8 := b.storage.drop b.rpos

/-- The buffer with a later read position. -/
def advance (b : ByteBuffer) (n : ℕ) : ByteBuffer := { b with rpos := b.rpos + n }

@[simp] theorem unread_advance (b : ByteBuffer) (n : ℕ) : (b.advance n).unread = b.unread.drop n := by
  unfold unread advance
  rw [List.drop_drop]

@[simp] theorem advance_advance (b : ByteBuffer) (n m : ℕ) :
    (b.advance n).advance m = b.advance (n + m) := by
  simp [advance, Nat.add_assoc]

theorem readBytes_eq_ok {b b' : ByteBuffer} {n : ℕ} {bs : List UInt8} (hn : 0 < n) :
    b.readBytes n = .ok (bs, b') ↔
      n ≤ b.unread.length ∧ bs = b.unread.take n ∧ b' = b.advance n := by
  unfold readBytes unread advance size
  rw [List.length_drop]
  split_ifs with h
  · exact iff_of_false (by simp) fun h' => absurd h'.1 (by omega)
  · have hle : n ≤ b.storage.length - b.rpos := by omega
    rw [and_iff_right hle, Except.ok.injEq, Prod.mk.injEq]
    exact and_congr eq_comm eq_comm

theorem readBytes_of_unread {b : ByteBuffer} {bs rest : List UInt8} (h : b.unread = bs ++ rest)
    (hbs : bs ≠ []) : b.readBytes bs.length = .ok (bs, b.advance bs.length) := by
  rw [readBytes_eq_ok (List.length_pos_iff.2 hbs), h]
  simp

theorem decode_encode {signed : Bool} (w : Width) (z : Number signed w) :
    decode signed w (encode w z) = z := by
  obtain ⟨z, hz⟩ := z
  have hpos : (0 : ℤ) < 256 ^ w.size := by positivity
  have h0 := Int.emod_nonneg z hpos.ne'
  have hlt := Int.emod_lt_of_pos z hpos
  have hcast : (((z % 256 ^ w.size).toNat : ℕ) : ℤ) = z % 256 ^ w.size := Int.toNat_of_nonneg h0
  have hnat : (z % 256 ^ w.size).toNat < 256 ^ w.size := by
    rw [← Int.ofNat_lt, hcast]
    exact_mod_cast hlt
  apply Subtype.ext
  unfold decode encode ofBits
  dsimp only
  rw [LittleEndian.ofBytes_toBytesLen hnat, hcast, Int.emod_emod_of_dvd z dvd_rfl]
  have hhalf := w.two_dvd
  unfold InRange at hz
  cases signed
  · rw [if_neg (by simp)]
    rw [if_neg (by simp)] at hz
    exact Int.emod_eq_of_lt hz.1 hz.2
  · rw [if_pos rfl] at hz
    rcases le_or_gt 0 z with hz0 | hz0
    · rw [Int.emod_eq_of_lt hz0 (by omega), if_neg (by omega)]
    · have hmod : z % 256 ^ w.size = z + 256 ^ w.size := by
        rw [← Int.add_emod_right, Int.emod_eq_of_lt (by omega) (by omega)]
      rw [hmod, if_pos ⟨rfl, by omega⟩]
      omega

/-- A conversion keeps the bits that the type has. -/
theorem ofBits_emod (signed : Bool) (w : Width) (n : ℕ) :
    ofBits signed w n % 256 ^ w.size = n % 256 ^ w.size := by
  unfold ofBits
  dsimp only
  split_ifs
  · rw [Int.sub_emod_right, Int.emod_emod_of_dvd _ dvd_rfl]
  · rw [Int.emod_emod_of_dvd _ dvd_rfl]

theorem encode_number (signed : Bool) (w : Width) {n : ℕ} (h : n < 256 ^ w.size) :
    encode w (number signed w n) = LittleEndian.toBytesLen w.size n := by
  have hn : (n : ℤ) % 256 ^ w.size = n := Int.emod_eq_of_lt (by positivity) (by exact_mod_cast h)
  unfold encode number
  rw [ofBits_emod, hn, Int.toNat_natCast]

theorem encode_decode {signed : Bool} {w : Width} {bs : List UInt8} (h : bs.length = w.size) :
    encode w (decode signed w bs) = bs := by
  have hlt := LittleEndian.ofBytes_lt bs
  rw [h] at hlt
  have hdecode : decode signed w bs = number signed w (LittleEndian.ofBytes bs) := rfl
  rw [hdecode, encode_number signed w hlt, ← h, LittleEndian.toBytesLen_ofBytes]

theorem toNat_number {w : Width} {n : ℕ} (h : n < 256 ^ w.size) :
    (number false w n).1.toNat = n := by
  have hmod : (n : ℤ) % 256 ^ w.size = n := Int.emod_eq_of_lt (by positivity) (by exact_mod_cast h)
  unfold number ofBits
  dsimp only
  rw [hmod, if_neg (by simp), Int.toNat_natCast]

theorem toNat_uint32 {n : ℕ} (h : n < 2 ^ 32) : (uint32 n).1.toNat = n := toNat_number h

theorem uint32_toNat (z : Number false .w32) : uint32 z.1.toNat = z := by
  obtain ⟨z, hz⟩ := z
  obtain ⟨h0, hlt⟩ : 0 ≤ z ∧ z < 256 ^ Width.w32.size := hz
  apply Subtype.ext
  unfold uint32 ofBits
  dsimp only
  rw [Int.toNat_of_nonneg h0, Int.emod_eq_of_lt h0 hlt, if_neg (by simp)]

/-! ### Packed guids -/

/-- The bytes of a guid that are not zero. -/
def significant : ℕ → ℕ → List UInt8
  | 0, _ => []
  | n + 1, guid =>
    (if guid % 256 = 0 then [] else [UInt8.ofNat (guid % 256)]) ++ significant n (guid / 256)

/-- The mask of the bytes of a guid that are not zero. -/
def marks : ℕ → ℕ → ℕ
  | 0, _ => 0
  | n + 1, guid => (if guid % 256 = 0 then 0 else 1) + 2 * marks n (guid / 256)

theorem marks_lt (n guid : ℕ) : marks n guid < 2 ^ n := by
  induction n generalizing guid with
  | zero => simp [marks]
  | succ n ih =>
    have := ih (guid / 256)
    rw [marks, pow_succ]
    split_ifs <;> omega

theorem testBit_marks {n guid j : ℕ} (hj : j < n) :
    (marks n guid).testBit j = decide (guid / 256 ^ j % 256 ≠ 0) := by
  induction n generalizing guid j with
  | zero => omega
  | succ n ih =>
    rw [marks]
    cases j with
    | zero =>
      rw [Nat.testBit_zero, pow_zero, Nat.div_one]
      by_cases h : guid % 256 = 0 <;> simp [h]
    | succ j =>
      have hhalf : ((if guid % 256 = 0 then 0 else 1) + 2 * marks n (guid / 256)) / 2 =
          marks n (guid / 256) := by
        split_ifs <;> omega
      rw [Nat.testBit_succ, hhalf, ih (by omega), Nat.div_div_eq_div_mul, pow_succ']

@[simp] theorem marks_zero (n : ℕ) : marks n 0 = 0 := by
  induction n with
  | zero => rfl
  | succ n ih => simp [marks, ih]

@[simp] theorem significant_zero (n : ℕ) : significant n 0 = [] := by
  induction n with
  | zero => rfl
  | succ n ih => simp [significant, ih]

/-- What the loop adds to the mask and the bytes. -/
theorem packBytes_eq {n guid : ℕ} (h : guid < 256 ^ n) (i mask : ℕ) (bs : List UInt8) :
    packBytes guid i mask bs = (mask ||| marks n guid <<< i, bs ++ significant n guid) := by
  induction n generalizing guid i mask bs with
  | zero =>
    obtain rfl : guid = 0 := by simpa using h
    rw [packBytes]
    simp [marks, significant]
  | succ n ih =>
    have hnext : guid / 256 < 256 ^ n := by
      rw [pow_succ] at h
      omega
    have hshift : ∀ m, (2 * m) <<< i = m <<< (i + 1) := by
      intro m
      rw [Nat.shiftLeft_eq, Nat.shiftLeft_eq, pow_succ]
      ring
    rw [packBytes]
    by_cases h0 : guid = 0
    · subst h0
      simp
    · rw [if_neg h0, significant, marks]
      by_cases hlow : guid % 256 = 0
      · rw [if_pos hlow, if_pos hlow, if_pos hlow, ih hnext, Nat.zero_add, hshift, List.nil_append]
      · have hodd : ∀ m, 1 + 2 * m = 1 ||| 2 * m := by
          intro m
          rw [Nat.add_comm, Nat.lor_comm]
          simpa [Nat.shiftLeft_eq, Nat.mul_comm] using
            Nat.shiftLeft_add_eq_or_of_lt (i := 1) (b := 1) (by decide) m
        rw [if_neg hlow, if_neg hlow, if_neg hlow, ih hnext, hodd, Nat.shiftLeft_or_distrib, hshift,
          Nat.lor_assoc, List.append_assoc]

theorem packGUID_eq (guid : Fin (2 ^ 64)) :
    packGUID guid = UInt8.ofNat (marks 8 guid) :: significant 8 guid := by
  have hlt : guid.val < 256 ^ 8 := guid.isLt
  rw [packGUID, packBytes_eq hlt]
  simp

theorem readGuidBytes_zero (n guid : ℕ) (b : ByteBuffer) :
    readGuidBytes 0 n guid b = .ok (guid, b) := by
  induction n with
  | zero => rfl
  | succ n ih =>
    rw [readGuidBytes, if_neg (by simp)]
    exact ih

/-- The loop reads the bytes that the mask marks. -/
theorem readGuidBytes_eq {guid mask : ℕ}
    (hmask : ∀ j < 8, mask.testBit j = decide (guid / 256 ^ j % 256 ≠ 0)) {n : ℕ} (hn : n ≤ 8)
    {b : ByteBuffer} {rest : List UInt8}
    (h : b.unread = significant n (guid / 256 ^ (8 - n)) ++ rest) :
    readGuidBytes mask n (guid % 256 ^ (8 - n)) b =
      .ok (guid % 256 ^ 8, b.advance (significant n (guid / 256 ^ (8 - n))).length) := by
  induction n generalizing b with
  | zero => rfl
  | succ n ih =>
    have hindex : 8 - n = 8 - (n + 1) + 1 := by omega
    have hseven : 7 - n = 8 - (n + 1) := by omega
    have hdiv : guid / 256 ^ (8 - (n + 1)) / 256 = guid / 256 ^ (8 - n) := by
      rw [Nat.div_div_eq_div_mul, hindex, pow_succ]
    have hmod : guid % 256 ^ (8 - n) = guid % 256 ^ (8 - (n + 1)) +
        256 ^ (8 - (n + 1)) * (guid / 256 ^ (8 - (n + 1)) % 256) := by
      rw [hindex, pow_succ, Nat.mod_mul]
    rw [significant, hdiv] at h ⊢
    rw [readGuidBytes, hseven, hmask _ (by omega)]
    by_cases hbyte : guid / 256 ^ (8 - (n + 1)) % 256 = 0
    · rw [if_neg (by simpa using hbyte), if_pos hbyte]
      rw [if_pos hbyte] at h
      rw [hbyte, Nat.mul_zero, Nat.add_zero] at hmod
      rw [← hmod]
      exact ih (by omega) h
    · rw [if_pos (by simpa using hbyte), if_neg hbyte]
      rw [if_neg hbyte, List.append_assoc] at h
      have hread : b.readBytes 1 =
          .ok ([UInt8.ofNat (guid / 256 ^ (8 - (n + 1)) % 256)], b.advance 1) :=
        readBytes_of_unread h (by simp)
      have hvalue : LittleEndian.ofBytes [UInt8.ofNat (guid / 256 ^ (8 - (n + 1)) % 256)] =
          guid / 256 ^ (8 - (n + 1)) % 256 := by
        simp [LittleEndian.ofBytes]
      have hpow : 256 ^ (8 - (n + 1)) = 2 ^ ((8 - (n + 1)) * 8) := by
        rw [Nat.mul_comm, pow_mul]
        norm_num
      have hlow : guid % 256 ^ (8 - (n + 1)) < 2 ^ ((8 - (n + 1)) * 8) := by
        rw [← hpow]
        exact Nat.mod_lt _ (by positivity)
      have hor : guid % 256 ^ (8 - (n + 1)) |||
          (guid / 256 ^ (8 - (n + 1)) % 256) <<< ((8 - (n + 1)) * 8) = guid % 256 ^ (8 - n) := by
        rw [Nat.lor_comm, ← Nat.shiftLeft_add_eq_or_of_lt hlow, Nat.shiftLeft_eq, hmod, ← hpow]
        ring
      have hrest : (b.advance 1).unread = significant n (guid / 256 ^ (8 - n)) ++ rest := by
        rw [unread_advance, h]
        rfl
      have hnext := ih (by omega) hrest
      rw [hread]
      simp only [bind, Except.bind]
      rw [hvalue, hor, hnext, advance_advance, List.length_append, List.length_singleton]

theorem readPackGUID_of_unread {b : ByteBuffer} {guid : Fin (2 ^ 64)} {rest : List UInt8}
    (h : b.unread = packGUID guid ++ rest) :
    b.readPackGUID = .ok (guid, b.advance (packGUID guid).length) := by
  replace h : b.unread = [UInt8.ofNat (marks 8 guid)] ++ (significant 8 guid ++ rest) := by
    rw [h, packGUID_eq]
    rfl
  have hread : b.readBytes 1 = .ok ([UInt8.ofNat (marks 8 guid)], b.advance 1) :=
    readBytes_of_unread h (by simp)
  have hmask : LittleEndian.ofBytes [UInt8.ofNat (marks 8 guid)] = marks 8 guid := by
    have hlt := marks_lt 8 guid
    simp only [LittleEndian.ofBytes, UInt8.toNat_ofNat', Nat.mul_zero, Nat.add_zero]
    exact Nat.mod_eq_of_lt hlt
  have hrest : (b.advance 1).unread = significant 8 (guid / 256 ^ (8 - 8)) ++ rest := by
    rw [unread_advance, h, Nat.sub_self, pow_zero, Nat.div_one]
    rfl
  have hloop := readGuidBytes_eq (fun j hj => testBit_marks hj) le_rfl hrest
  rw [Nat.sub_self, pow_zero, Nat.mod_one, Nat.div_one] at hloop
  have hlt : guid.val % 256 ^ 8 = guid := Nat.mod_eq_of_lt guid.isLt
  unfold readPackGUID
  rw [hread]
  simp only [bind, Except.bind]
  rw [hmask, hloop, hlt, advance_advance, packGUID_eq, List.length_cons, Nat.add_comm 1]
  simp only [pure, Except.pure, Fin.ofNat_val_eq_self]

/-! ### Reading back -/

theorem readChars_append {s rest : List UInt8} (h : 0 ∉ s) :
    readChars (s ++ 0 :: rest) = (s, s.length + 1) := by
  induction s with
  | nil => simp [readChars]
  | cons c s ih =>
    obtain ⟨hc, hs⟩ := not_or.1 (mt List.mem_cons.2 h)
    rw [List.cons_append, readChars, if_neg (Ne.symm hc), ih hs, List.length_cons]

theorem bytes_string (v : CString) : bytes .string v = v.1 ++ [0] := by
  have hbytes : bytes .string v = (if v.1.length ≠ 0 then [v.1, [0]] else [[0]]).flatten := rfl
  rw [hbytes]
  split_ifs with h
  · simp
  · rw [not_not, List.length_eq_zero_iff] at h
    simp [h]

theorem readString_of_unread {b : ByteBuffer} {v : CString} {rest : List UInt8}
    (h : b.unread = bytes .string v ++ rest) :
    b.readString = (v, b.advance (bytes .string v).length) := by
  have hchars : readChars (b.storage.drop b.rpos) = (v.1, v.1.length + 1) := by
    rw [show b.storage.drop b.rpos = _ from h, bytes_string, List.append_assoc]
    exact readChars_append v.2
  unfold readString
  simp only [hchars]
  rw [bytes_string, List.length_append]
  rfl

/-- A container is read back when its elements are. -/
theorem readElements_of_unread {α σ : Type} {element : ByteBuffer → Result (α × ByteBuffer)}
    {put : σ → α → σ} {g : α → List UInt8} {vs : List α}
    (h : ∀ v ∈ vs, ∀ b rest, b.unread = g v ++ rest → element b = .ok (v, b.advance (g v).length))
    (container : σ) {b : ByteBuffer} {rest : List UInt8} (hb : b.unread = vs.flatMap g ++ rest) :
    readElements element put vs.length container b =
      .ok (vs.foldl put container, b.advance (vs.flatMap g).length) := by
  induction vs generalizing container b with
  | nil => rfl
  | cons v vs ih =>
    rw [List.flatMap_cons, List.append_assoc] at hb
    have hrest : (b.advance (g v).length).unread = vs.flatMap g ++ rest := by
      rw [unread_advance, hb, List.drop_left]
    rw [List.length_cons, readElements, h v List.mem_cons_self b _ hb]
    simp only [bind, Except.bind]
    rw [ih (fun w hw => h w (List.mem_cons_of_mem v hw)) _ hrest, advance_advance,
      List.flatMap_cons, List.length_append, List.foldl_cons]

theorem flatten_elementAppends {α : Type} (g : α → List (List UInt8)) (vs : List α) :
    (elementAppends g vs).flatten =
      encode .w32 (uint32 vs.length) ++ vs.flatMap fun v => (g v).flatten := by
  rw [elementAppends, List.flatten_cons, List.flatMap, List.flatten_flatten, List.map_map]
  rfl

theorem readContainer_of_unread {α σ : Type} {element : ByteBuffer → Result (α × ByteBuffer)}
    {put : σ → α → σ} {g : α → List (List UInt8)} {vs : List α}
    (h : ∀ v ∈ vs, ∀ b rest, b.unread = (g v).flatten ++ rest →
      element b = .ok (v, b.advance (g v).flatten.length))
    (hlen : vs.length < 2 ^ 32) (container : σ) {b : ByteBuffer} {rest : List UInt8}
    (hb : b.unread = (elementAppends g vs).flatten ++ rest) :
    readContainer element put container b =
      .ok (vs.foldl put container, b.advance (elementAppends g vs).flatten.length) := by
  rw [flatten_elementAppends, List.append_assoc] at hb
  have hread : b.readBytes 4 = .ok (encode .w32 (uint32 vs.length), b.advance 4) := by
    simpa [Width.size] using readBytes_of_unread hb (encode_ne_nil _ _)
  have hrest : (b.advance 4).unread = (vs.flatMap fun v => (g v).flatten) ++ rest := by
    rw [unread_advance, hb]
    exact List.drop_left' (length_encode _ _)
  unfold readContainer
  rw [hread]
  simp only [bind, Except.bind]
  rw [decode_encode, toNat_uint32 hlen, readElements_of_unread h container hrest, advance_advance,
    flatten_elementAppends, List.length_append, length_encode]
  rfl

theorem foldl_pushBack {α : Type} (vs ws : List α) : vs.foldl pushBack ws = ws ++ vs := by
  induction vs generalizing ws with
  | nil => simp
  | cons v vs ih => rw [List.foldl_cons, ih, pushBack, List.append_assoc, List.singleton_append]

/-- Entries that come in the order of their keys are all inserted. -/
theorem foldl_insertNew {κ α : Type} [LinearOrder κ] (m : SortedMap κ α) :
    m.entries.foldl insertNew .empty = m := by
  refine m.foldl_entries fun m e hlt => ?_
  have hnone : m.find e.1 = none := SortedMap.find_eq_none_iff.2 fun x hx => (hlt x hx).ne
  rw [insertNew, if_pos hnone]

theorem appends_ne_nil {t : Ty} (v : t.Val) : appends t v ≠ [] := by
  cases t with
  | string =>
    simp only [appends]
    split_ifs <;> simp
  | _ => exact List.cons_ne_nil _ _

theorem length_lt_of_elementAppends {α : Type} {g : α → List (List UInt8)} {vs : List α} {n : ℕ}
    (hg : ∀ v, g v ≠ []) (h : (elementAppends g vs).length < n) :
    vs.length < n ∧ ∀ v ∈ vs, (g v).length < n := by
  have hcount : ∀ ws : List α, ws.length ≤ (ws.flatMap g).length := by
    intro ws
    induction ws with
    | nil => simp
    | cons w ws ih =>
      have hpos := List.length_pos_iff.2 (hg w)
      rw [List.flatMap_cons, List.length_append, List.length_cons]
      omega
  rw [elementAppends, List.length_cons] at h
  refine ⟨by have := hcount vs; omega, fun v hv => ?_⟩
  obtain ⟨l, l', rfl⟩ := List.append_of_mem hv
  simp only [List.flatMap_append, List.flatMap_cons, List.length_append] at h
  omega

theorem read_int_of_unread {signed : Bool} {w : Width} {v : Number signed w} {b : ByteBuffer}
    {rest : List UInt8} (h : b.unread = encode w v ++ rest) :
    read (.int signed w) b = .ok (v, b.advance (encode w v).length) := by
  have hread := readBytes_of_unread h (encode_ne_nil w v)
  have hdef : read (.int signed w) b =
      b.readBytes w.size >>= fun r => .ok (decode signed w r.1, r.2) := rfl
  rw [length_encode] at hread ⊢
  rw [hdef, hread]
  simp only [bind, Except.bind, decode_encode]
  rfl

theorem readEntry_of_unread {κ α : Type} {key : ByteBuffer → Result (κ × ByteBuffer)}
    {value : ByteBuffer → Result (α × ByteBuffer)} {k : κ} {v : α} {bk bv rest : List UInt8}
    {b : ByteBuffer} (h : b.unread = (bk ++ bv) ++ rest)
    (hk : ∀ rest, b.unread = bk ++ rest → key b = .ok (k, b.advance bk.length))
    (hv : ∀ b rest, b.unread = bv ++ rest → value b = .ok (v, b.advance bv.length)) :
    readEntry key value b = .ok ((k, v), b.advance (bk ++ bv).length) := by
  rw [List.append_assoc] at h
  have hrest : (b.advance bk.length).unread = bv ++ rest := by
    rw [unread_advance, h, List.drop_left]
  unfold readEntry
  rw [hk _ h]
  simp only [bind, Except.bind]
  rw [hv _ _ hrest, advance_advance, List.length_append]
  rfl

theorem readContainer_pushBack {t : Ty}
    (ih : ∀ v : t.Val, bools t v = 0 → (appends t v).length < 2 ^ 32 → ∀ b rest,
      b.unread = bytes t v ++ rest → read t b = .ok (v, b.advance (bytes t v).length))
    {vs : List t.Val} (hbools : (vs.map (bools t)).sum = 0)
    (hlen : (elementAppends (appends t) vs).length < 2 ^ 32) {b : ByteBuffer} {rest : List UInt8}
    (h : b.unread = (elementAppends (appends t) vs).flatten ++ rest) :
    readContainer (read t) pushBack [] b =
      .ok (vs, b.advance (elementAppends (appends t) vs).flatten.length) := by
  obtain ⟨hcount, hall⟩ := length_lt_of_elementAppends appends_ne_nil hlen
  have hzero : ∀ v ∈ vs, bools t v = 0 := fun v hv =>
    List.sum_eq_zero_iff_forall_eq_nat.1 hbools _ (List.mem_map_of_mem hv)
  rw [readContainer_of_unread (fun v hv b rest hb => ih v (hzero v hv) (hall v hv) b rest hb) hcount
    [] h, foldl_pushBack, List.nil_append]

theorem readContainer_insertNew {k t : Ty}
    (ihk : ∀ v : k.Val, bools k v = 0 → (appends k v).length < 2 ^ 32 → ∀ b rest,
      b.unread = bytes k v ++ rest → read k b = .ok (v, b.advance (bytes k v).length))
    (iht : ∀ v : t.Val, bools t v = 0 → (appends t v).length < 2 ^ 32 → ∀ b rest,
      b.unread = bytes t v ++ rest → read t b = .ok (v, b.advance (bytes t v).length))
    {m : SortedMap k.Val t.Val} (hbools : bools (.map k t) m = 0)
    (hlen : (appends (.map k t) m).length < 2 ^ 32) {b : ByteBuffer} {rest : List UInt8}
    (h : b.unread = bytes (.map k t) m ++ rest) :
    readContainer (readEntry (read k) (read t)) insertNew SortedMap.empty b =
      .ok (m, b.advance (bytes (.map k t) m).length) := by
  have happends : ∀ e : k.Val × t.Val, appends k e.1 ++ appends t e.2 ≠ [] := fun e =>
    List.append_ne_nil_of_left_ne_nil (appends_ne_nil e.1) _
  obtain ⟨hcount, hall⟩ := @length_lt_of_elementAppends _ _ m.entries _ happends hlen
  have hzero : ∀ e ∈ m.entries, bools k e.1 = 0 ∧ bools t e.2 = 0 := fun e he =>
    Nat.add_eq_zero_iff.1 (List.sum_eq_zero_iff_forall_eq_nat.1 hbools _ (List.mem_map_of_mem he))
  have hentry : ∀ e ∈ m.entries, ∀ b rest,
      b.unread = (appends k e.1 ++ appends t e.2).flatten ++ rest →
      readEntry (read k) (read t) b =
        .ok (e, b.advance (appends k e.1 ++ appends t e.2).flatten.length) := by
    intro e he b rest hb
    obtain ⟨hk, ht⟩ := hzero e he
    have hlen := hall e he
    rw [List.length_append] at hlen
    rw [List.flatten_append] at hb ⊢
    exact readEntry_of_unread hb (fun rest hb => ihk e.1 hk (by omega) b rest hb)
      fun b rest hb => iht e.2 ht (by omega) b rest hb
  refine (readContainer_of_unread hentry hcount SortedMap.empty h).trans ?_
  rw [foldl_insertNew]
  rfl

/-- What is written without a `bool` is read back. -/
theorem read_of_unread {t : Ty} (v : t.Val) (hbools : bools t v = 0)
    (hlen : (appends t v).length < 2 ^ 32) (b : ByteBuffer) (rest : List UInt8)
    (h : b.unread = bytes t v ++ rest) : read t b = .ok (v, b.advance (bytes t v).length) := by
  induction t generalizing b rest with
  | bool => exact absurd hbools one_ne_zero
  | int signed w =>
    have hbytes : bytes (.int signed w) v = encode w v := List.flatten_singleton
    rw [hbytes] at h ⊢
    exact read_int_of_unread h
  | string => exact congrArg Except.ok (readString_of_unread h)
  | packGuid =>
    have hbytes : bytes .packGuid v = packGUID (Fin.val (n := 2 ^ 64) v) := List.flatten_singleton
    rw [hbytes] at h ⊢
    exact readPackGUID_of_unread h
  | vector t ih => exact readContainer_pushBack ih hbools hlen h
  | list t ih => exact readContainer_pushBack ih hbools hlen h
  | map k t ihk iht => exact readContainer_insertNew ihk iht hbools hlen h

theorem readAll_of_unread {vs : List TypedValue} (hbools : ∀ v ∈ vs, bools v.1 v.2 = 0)
    (hlen : ∀ v ∈ vs, (appends v.1 v.2).length < 2 ^ 32) {b : ByteBuffer} {rest : List UInt8}
    (h : b.unread = (vs.flatMap fun v => bytes v.1 v.2) ++ rest) :
    readAll (vs.map Sigma.fst) b =
      .ok (vs, b.advance (vs.flatMap fun v => bytes v.1 v.2).length) := by
  induction vs generalizing b with
  | nil => rfl
  | cons v vs ih =>
    obtain ⟨hv, hvs⟩ := List.forall_mem_cons.1 hbools
    obtain ⟨hlv, hlvs⟩ := List.forall_mem_cons.1 hlen
    rw [List.flatMap_cons, List.append_assoc] at h
    have hrest : (b.advance (bytes v.1 v.2).length).unread =
        (vs.flatMap fun v => bytes v.1 v.2) ++ rest := by
      rw [unread_advance, h, List.drop_left]
    rw [List.map_cons, readAll, read_of_unread v.2 hv hlv b _ h]
    simp only [bind, Except.bind]
    rw [ih hvs hlvs hrest, advance_advance, List.flatMap_cons, List.length_append]
    rfl

/-! ### What stays behind -/

theorem bind_eq_ok {α β : Type} {x : Result α} {f : α → Result β} {r : β} :
    x >>= f = .ok r ↔ ∃ a, x = .ok a ∧ f a = .ok r := by
  cases x <;> simp [bind, Except.bind]

/-- A string that is read from a number of zeros and itself has only zeros. -/
theorem eq_replicate_zero {w rest : List UInt8} {k : ℕ} (hk : 0 < k)
    (h : w = (List.replicate k 0 ++ (w ++ rest)).take w.length) : w = List.replicate w.length 0 := by
  refine List.ext_getElem (by simp) fun i hi _ => ?_
  rw [List.getElem_replicate]
  induction i using Nat.strong_induction_on with
  | _ i ih =>
    have hget : w[i]? = ((List.replicate k 0 ++ (w ++ rest)).take w.length)[i]? := congrArg (·[i]?) h
    rw [List.getElem?_take_of_lt hi, List.getElem?_eq_getElem hi] at hget
    by_cases hik : i < k
    · rw [List.getElem?_append_left (by simpa using hik), List.getElem?_replicate, if_pos hik] at hget
      exact Option.some.inj hget
    · have hlt : i - k < w.length := by omega
      rw [List.getElem?_append_right (by simpa using hik), List.length_replicate,
        List.getElem?_append_left hlt, List.getElem?_eq_getElem hlt] at hget
      rw [Option.some.inj hget]
      exact ih (i - k) (by omega) hlt (by simpa using hlt)

/-- Zeros before a string that is read from them and itself stay before what follows. -/
theorem drop_number {w rest : List UInt8} {k : ℕ}
    (h : w = (List.replicate k 0 ++ (w ++ rest)).take w.length) :
    (List.replicate k 0 ++ (w ++ rest)).drop w.length = List.replicate k 0 ++ rest := by
  rcases Nat.eq_zero_or_pos k with rfl | hk
  · simp
  · have hzero := eq_replicate_zero hk h
    have hcomm : List.replicate k (0 : UInt8) ++ w = w ++ List.replicate k 0 := by
      rw [hzero, List.replicate_append_replicate, List.replicate_append_replicate, Nat.add_comm]
    rw [← List.append_assoc, hcomm, List.append_assoc, List.drop_left]

/-- The read position moved, and some zeros are left before the rest. -/
def Behind (b b' : ByteBuffer) (zeros : ℕ) (rest : List UInt8) : Prop :=
  (∃ n, b' = b.advance n) ∧ b'.unread = List.replicate zeros 0 ++ rest

theorem Behind.trans {b b' b'' : ByteBuffer} {k k' : ℕ} {rest rest' : List UInt8}
    (h : Behind b b' k rest) (h' : Behind b' b'' k' rest') : Behind b b'' k' rest' := by
  obtain ⟨⟨n, rfl⟩, -⟩ := h
  obtain ⟨⟨m, rfl⟩, hrest⟩ := h'
  exact ⟨⟨n + m, advance_advance b n m⟩, hrest⟩

/-- The bytes of a number are read as they were written. -/
theorem behind_number {signed : Bool} {w : Width} {v : Number signed w} {b b' : ByteBuffer} {k : ℕ}
    {bs rest : List UInt8} (h : b.unread = List.replicate k 0 ++ (encode w v ++ rest))
    (hread : b.readBytes w.size = .ok (bs, b')) (hv : decode signed w bs = v) :
    Behind b b' k rest := by
  obtain ⟨hle, hbs, rfl⟩ := (readBytes_eq_ok (Width.size_pos w)).1 hread
  have hlen : bs.length = w.size := by
    rw [hbs, List.length_take, min_eq_left hle]
  have hencode : encode w v = bs := hv ▸ encode_decode hlen
  refine ⟨⟨_, rfl⟩, ?_⟩
  rw [h, ← length_encode w v] at hbs
  rw [unread_advance, h, ← length_encode w v]
  exact drop_number (hencode.trans hbs)

theorem readBytes_one {b b' : ByteBuffer} {c : UInt8} {bs rest : List UInt8}
    (h : b.unread = c :: rest) (hread : b.readBytes 1 = .ok (bs, b')) :
    bs = [c] ∧ (∃ n, b' = b.advance n) ∧ b'.unread = rest := by
  obtain ⟨-, hbs, rfl⟩ := (readBytes_eq_ok one_pos).1 hread
  rw [h] at hbs
  refine ⟨hbs, ⟨1, rfl⟩, ?_⟩
  rw [unread_advance, h]
  rfl

theorem encode_promote (v : Bool) :
    encode .w32 (promote v) = (if v then 1 else 0) :: List.replicate 3 0 := by
  cases v <;> rfl

/-- A `bool` leaves three bytes behind. -/
theorem behind_bool {v : Bool} {b b' : ByteBuffer} {k : ℕ} {rest : List UInt8}
    (h : b.unread = List.replicate k 0 ++ (bytes .bool v ++ rest))
    (hread : read .bool b = .ok (v, b')) : Behind b b' (k + 3) rest := by
  have hbytes : bytes .bool v = (if v then 1 else 0) :: List.replicate 3 0 :=
    List.flatten_singleton.trans (encode_promote v)
  have hdef : read .bool b = b.readBytes 1 >>= fun r =>
      .ok ((decide (0 < (decode true .w8 r.1).1) : Bool), r.2) := rfl
  obtain ⟨⟨bs, b₁⟩, hbs, hval⟩ := bind_eq_ok.1 (hdef.symm.trans hread)
  obtain ⟨hv, rfl⟩ := Prod.mk.inj (Except.ok.inj hval)
  rw [hbytes] at h
  cases k with
  | zero =>
    obtain ⟨-, hadv, hrest⟩ := readBytes_one h hbs
    exact ⟨hadv, hrest⟩
  | succ k =>
    rw [List.replicate_succ, List.cons_append] at h
    obtain ⟨rfl, hadv, hrest⟩ := readBytes_one h hbs
    have hfalse : v = false := hv.symm.trans rfl
    refine ⟨hadv, hrest.trans ?_⟩
    rw [hfalse, if_neg Bool.false_ne_true, ← List.replicate_succ, ← List.append_assoc,
      List.replicate_append_replicate]

theorem behind_string {v : CString} {b b' : ByteBuffer} {k : ℕ} {rest : List UInt8}
    (h : b.unread = List.replicate k 0 ++ (bytes .string v ++ rest))
    (hread : b.readString = (v, b')) : Behind b b' k rest := by
  cases k with
  | zero =>
    rw [readString_of_unread h] at hread
    obtain ⟨-, rfl⟩ := Prod.mk.inj hread
    refine ⟨⟨_, rfl⟩, ?_⟩
    rw [unread_advance, h]
    exact List.drop_left
  | succ k =>
    have hchars : readChars (b.storage.drop b.rpos) = ([], 1) := by
      rw [show b.storage.drop b.rpos = _ from h, List.replicate_succ, List.cons_append, readChars,
        if_pos rfl]
    unfold readString at hread
    simp only [hchars] at hread
    obtain ⟨hv, rfl⟩ := Prod.mk.inj hread
    have hbytes : bytes .string v = [0] := by
      rw [bytes_string, ← hv, List.nil_append]
    refine ⟨⟨1, rfl⟩, ?_⟩
    rw [show ({ b with rpos := b.rpos + 1 } : ByteBuffer) = b.advance 1 from rfl, unread_advance, h,
      hbytes, List.replicate_succ, List.cons_append, List.drop_one, List.tail_cons,
      ← List.append_assoc, ← List.replicate_succ', List.replicate_succ]

theorem behind_packGUID {guid : Fin (2 ^ 64)} {b b' : ByteBuffer} {k : ℕ} {rest : List UInt8}
    (h : b.unread = List.replicate k 0 ++ (packGUID guid ++ rest))
    (hread : b.readPackGUID = .ok (guid, b')) : Behind b b' k rest := by
  cases k with
  | zero =>
    rw [readPackGUID_of_unread h] at hread
    obtain ⟨-, rfl⟩ := Prod.mk.inj (Except.ok.inj hread)
    refine ⟨⟨_, rfl⟩, ?_⟩
    rw [unread_advance, h]
    exact List.drop_left
  | succ k =>
    obtain ⟨⟨bs, b₁⟩, hbs, hloop⟩ := bind_eq_ok.1 hread
    rw [List.replicate_succ, List.cons_append] at h
    obtain ⟨rfl, hadv, hrest⟩ := readBytes_one h hbs
    have hzero : readGuidBytes (LittleEndian.ofBytes [0]) 8 0 b₁ = .ok (0, b₁) :=
      readGuidBytes_zero 8 0 b₁
    simp only [hzero, bind, Except.bind] at hloop
    obtain ⟨hguid, rfl⟩ := Prod.mk.inj (Except.ok.inj hloop)
    have hbytes : packGUID guid = [0] := by
      rw [← hguid, packGUID_eq]
      simp
    refine ⟨hadv, hrest.trans ?_⟩
    rw [hbytes, ← List.append_assoc, ← List.replicate_succ']

theorem readElements_pushBack {α : Type} {element : ByteBuffer → Result (α × ByteBuffer)} {n : ℕ}
    {acc res : List α} {b b' : ByteBuffer}
    (h : readElements element pushBack n acc b = .ok (res, b')) :
    ∃ ws, res = acc ++ ws ∧ ws.length = n := by
  induction n generalizing acc b with
  | zero =>
    obtain ⟨rfl, rfl⟩ := Prod.mk.inj (Except.ok.inj h)
    exact ⟨[], by simp⟩
  | succ n ih =>
    obtain ⟨⟨w, b₁⟩, -, hrest⟩ := bind_eq_ok.1 h
    obtain ⟨ws, rfl, hlen⟩ := ih hrest
    exact ⟨w :: ws, by simp [pushBack], by simp [hlen]⟩

/-- What stays behind the elements is what stays behind each of them. -/
theorem behind_readElements {t : Ty} {vs : List t.Val}
    (ih : ∀ v ∈ vs, ∀ k b b' rest, k = 0 ∨ 3 ≤ k →
      b.unread = List.replicate k 0 ++ (bytes t v ++ rest) → read t b = .ok (v, b') →
      Behind b b' (k + 3 * bools t v) rest)
    {acc : List t.Val} {k : ℕ} (hk : k = 0 ∨ 3 ≤ k) {b b' : ByteBuffer} {rest : List UInt8}
    (h : b.unread = List.replicate k 0 ++ (vs.flatMap (bytes t) ++ rest))
    (hread : readElements (read t) pushBack vs.length acc b = .ok (acc ++ vs, b')) :
    Behind b b' (k + 3 * (vs.map (bools t)).sum) rest := by
  induction vs generalizing acc k b with
  | nil =>
    obtain ⟨-, rfl⟩ := Prod.mk.inj (Except.ok.inj hread)
    exact ⟨⟨0, rfl⟩, h⟩
  | cons v vs ihvs =>
    obtain ⟨⟨w, b₁⟩, hw, hloop⟩ := bind_eq_ok.1 hread
    replace hloop : readElements (read t) pushBack vs.length (acc ++ [w]) b₁ =
        .ok (acc ++ v :: vs, b') := hloop
    obtain ⟨ws, hres, -⟩ := readElements_pushBack hloop
    rw [List.append_assoc, List.append_cancel_left_eq, List.singleton_append,
      List.cons.injEq] at hres
    obtain ⟨rfl, -⟩ := hres
    rw [List.flatMap_cons, List.append_assoc] at h
    rw [List.append_cons acc v vs] at hloop
    have hfirst := ih v List.mem_cons_self k b b₁ _ hk h hw
    have hothers := ihvs (fun v hv => ih v (List.mem_cons_of_mem _ hv)) (by omega) hfirst.2 hloop
    rw [List.map_cons, List.sum_cons, Nat.mul_add, ← Nat.add_assoc]
    exact hfirst.trans hothers

theorem behind_readContainer {t : Ty} {vs : List t.Val}
    (ih : ∀ v ∈ vs, ∀ k b b' rest, k = 0 ∨ 3 ≤ k →
      b.unread = List.replicate k 0 ++ (bytes t v ++ rest) → read t b = .ok (v, b') →
      Behind b b' (k + 3 * bools t v) rest)
    {k : ℕ} (hk : k = 0 ∨ 3 ≤ k) {b b' : ByteBuffer} {rest : List UInt8}
    (h : b.unread = List.replicate k 0 ++ ((elementAppends (appends t) vs).flatten ++ rest))
    (hread : readContainer (read t) pushBack [] b = .ok (vs, b')) :
    Behind b b' (k + 3 * (vs.map (bools t)).sum) rest := by
  obtain ⟨⟨bs, b₁⟩, hbs, hloop⟩ := bind_eq_ok.1 hread
  replace hloop : readElements (read t) pushBack (decode false .w32 bs).1.toNat [] b₁ =
      .ok (vs, b') := hloop
  obtain ⟨ws, hres, hcount⟩ := readElements_pushBack hloop
  rw [List.nil_append] at hres
  subst hres
  rw [flatten_elementAppends, List.append_assoc] at h
  have hsize : decode false .w32 bs = uint32 vs.length := by
    rw [hcount, uint32_toNat]
  have hnumber := behind_number h hbs hsize
  rw [← hcount] at hloop
  exact hnumber.trans (behind_readElements ih hk hnumber.2 hloop)

/-- When a value that holds no map is read back, three bytes stay behind for each `bool`, with the
zeros that stayed behind before it. -/
theorem behind_read {t : Ty} (ht : t.hasMap = false) (v : t.Val) (k : ℕ) (b b' : ByteBuffer)
    (rest : List UInt8) (hk : k = 0 ∨ 3 ≤ k)
    (h : b.unread = List.replicate k 0 ++ (bytes t v ++ rest))
    (hread : read t b = .ok (v, b')) : Behind b b' (k + 3 * bools t v) rest := by
  induction t generalizing k b b' rest with
  | bool => exact behind_bool h hread
  | int signed w =>
    have hbytes : bytes (.int signed w) v = encode w v := List.flatten_singleton
    rw [hbytes] at h
    obtain ⟨⟨bs, b₁⟩, hbs, hval⟩ := bind_eq_ok.1 hread
    obtain ⟨hv, rfl⟩ := Prod.mk.inj (Except.ok.inj hval)
    exact behind_number h hbs hv
  | string => exact behind_string h (Except.ok.inj hread)
  | packGuid =>
    have hbytes : bytes .packGuid v = packGUID (Fin.val (n := 2 ^ 64) v) := List.flatten_singleton
    rw [hbytes] at h
    exact behind_packGUID h hread
  | vector t ih => exact behind_readContainer (fun v _ => ih ht v) hk h hread
  | list t ih => exact behind_readContainer (fun v _ => ih ht v) hk h hread
  | map k t => exact absurd ht (by simp [Ty.hasMap])

theorem behind_readAll {vs : List TypedValue} (hmaps : ∀ v ∈ vs, v.1.hasMap = false) {k : ℕ}
    (hk : k = 0 ∨ 3 ≤ k) {b b' : ByteBuffer}
    (h : b.unread = List.replicate k 0 ++ vs.flatMap fun v => bytes v.1 v.2)
    (hread : readAll (vs.map Sigma.fst) b = .ok (vs, b')) :
    Behind b b' (k + 3 * (vs.map fun v => bools v.1 v.2).sum) [] := by
  induction vs generalizing k b with
  | nil =>
    obtain ⟨-, rfl⟩ := Prod.mk.inj (Except.ok.inj hread)
    exact ⟨⟨0, rfl⟩, h⟩
  | cons v vs ih =>
    obtain ⟨hv, hvs⟩ := List.forall_mem_cons.1 hmaps
    obtain ⟨⟨w, b₁⟩, hw, hrest⟩ := bind_eq_ok.1 hread
    obtain ⟨⟨ws, b₂⟩, hws, hres⟩ := bind_eq_ok.1 hrest
    obtain ⟨hcons, rfl⟩ := Prod.mk.inj (Except.ok.inj hres)
    obtain ⟨hhead, rfl⟩ := List.cons.inj hcons
    have hwv : w = v.2 := eq_of_heq (Sigma.mk.inj hhead).2
    rw [List.flatMap_cons] at h
    rw [hwv] at hw
    have hfirst := behind_read hv v.2 k b b₁ _ hk h hw
    have hothers := ih hvs (by omega) hfirst.2 hws
    rw [List.map_cons, List.sum_cons, Nat.mul_add, ← Nat.add_assoc]
    exact hfirst.trans hothers

/-! ### Round trips -/

/-- The byte strings that a sequence of values is appended as. -/
def allAppends (vs : List TypedValue) : List (List UInt8) := vs.flatMap fun v => appends v.1 v.2

/-- How many values of type `bool` are written. -/
def allBools (vs : List TypedValue) : ℕ := (vs.map fun v => bools v.1 v.2).sum

theorem unread_extend_empty (src : List UInt8) : (empty.extend src).unread = src := rfl

theorem roundTrips_of_fits {vs : List TypedValue} (hfits : Fits 0 (allAppends vs))
    (hbools : allBools vs = 0) : RoundTrips vs := by
  have hzero : ∀ v ∈ vs, bools v.1 v.2 = 0 := fun v hv =>
    List.sum_eq_zero_iff_forall_eq_nat.1 hbools _ (List.mem_map_of_mem hv)
  have hshort : (allAppends vs).length < 2 ^ 32 := by
    have hlen : (allAppends vs).length ≤ 10000000 - 0 + 1 :=
      length_le_of_fits ne_nil_of_mem_flatMap_appends hfits
    omega
  have hlen : ∀ v ∈ vs, (appends v.1 v.2).length < 2 ^ 32 := by
    intro v hv
    refine lt_of_le_of_lt ?_ hshort
    obtain ⟨l, l', rfl⟩ := List.append_of_mem hv
    simp only [allAppends, List.flatMap_append, List.flatMap_cons, List.length_append]
    omega
  have hunread := (List.append_nil (vs.flatMap fun v => bytes v.1 v.2)).symm
  refine ⟨_, _, writeAll_eq_ok.2 ⟨hfits, rfl⟩, readAll_of_unread hzero hlen hunread, ?_⟩
  simp [advance, ByteBuffer.extend, empty]

/-- **Main result.** Values that fit into the buffer come back when no `bool` is written. Values
that come back fit, and, unless there is a map among them, no `bool` is written. -/
theorem roundTrips_condition (vs : List TypedValue) :
    (Fits 0 (allAppends vs) ∧ allBools vs = 0 → RoundTrips vs) ∧
      (RoundTrips vs →
        Fits 0 (allAppends vs) ∧ (allBools vs = 0 ∨ ∃ v ∈ vs, v.1.hasMap = true)) := by
  refine ⟨fun h => roundTrips_of_fits h.1 h.2, ?_⟩
  rintro ⟨b, b', hwrite, hread, hpos⟩
  obtain ⟨hfits, rfl⟩ := writeAll_eq_ok.1 hwrite
  refine ⟨hfits, or_iff_not_imp_right.2 fun hmaps => ?_⟩
  have hnone : ∀ v ∈ vs, v.1.hasMap = false := fun v hv =>
    Bool.eq_false_iff.2 fun hmap => hmaps ⟨v, hv, hmap⟩
  obtain ⟨⟨n, rfl⟩, hleft⟩ := behind_readAll hnone (Or.inl rfl) (unread_extend_empty _) hread
  -- the read position is the end of the storage
  have hend : ((empty.extend (vs.flatMap fun v => bytes v.1 v.2)).advance n).unread = [] := by
    simp only [advance, ByteBuffer.extend, empty, Nat.zero_add] at hpos
    rw [unread_advance, unread_extend_empty]
    exact List.drop_eq_nil_of_le hpos.ge
  have hzeros := congrArg List.length (hleft.symm.trans hend)
  simp only [List.append_nil, List.length_replicate, List.length_nil] at hzeros
  unfold allBools
  omega

theorem sampleGuid_lt : 0xAB00 < 2 ^ 64 := by norm_num

/-- A number, a packed guid and a vector of strings. -/
def sampleValues : List TypedValue :=
  [⟨.int true .w16, ⟨-2, by decide⟩⟩, ⟨.packGuid, (⟨0xAB00, sampleGuid_lt⟩ : Fin (2 ^ 64))⟩,
    ⟨.vector .string, ([⟨[1, 2], by decide⟩, ⟨[], by decide⟩] : List CString)⟩]

theorem roundTrips_condition_sample : RoundTrips sampleValues := by
  have hpack : appends .packGuid (⟨0xAB00, sampleGuid_lt⟩ : Fin (2 ^ 64)) = [[2, 0xAB]] :=
    congrArg ([·]) ((packGUID_eq _).trans (by decide))
  refine (roundTrips_condition sampleValues).1 ⟨?_, rfl⟩
  simp only [sampleValues, allAppends, List.flatMap_cons, hpack]
  decide

/-- A `bool` is appended with four bytes and read with one. -/
theorem bool_not_roundTrips : ¬RoundTrips [⟨.bool, true⟩] := by
  rintro ⟨b, b', hwrite, hread, hpos⟩
  obtain rfl : (⟨0, 4, [1, 0, 0, 0]⟩ : ByteBuffer) = b := Except.ok.inj hwrite
  obtain ⟨-, rfl⟩ := Prod.mk.inj (Except.ok.inj hread)
  exact absurd hpos (by decide)

end ByteBuffer

end FaceCore.Packet
