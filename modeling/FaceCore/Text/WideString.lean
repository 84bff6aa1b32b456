import FaceCore.Lib.Stores
import FaceCore.Text.Utf8RoundTrip

/-!
# Wide strings

`Utf8toWStr`, `WStrToUtf8` and `utf8truncate` of `Util.cpp`. Each sizes a buffer by `distance`, the
number of code points, and has `utf8to16` write to it. The model keeps every store with the number
of its cell, so that it can be asked whether the stores stay within the buffer; a store that does
not leaves the buffer as it is.

* `utf8toWStr` is the overload with a buffer of the caller, `utf8toWString` the one with a
  `std::wstring`;
* `wstrToUtf8` and `wstringToUtf8` are the overloads of `WStrToUtf8`. `utf16to8` never leaves their
  buffer (`length_utf16to8_le`), and their success means that it read the units to their end.

`utf8to16` writes two units for a code point from `0x10000` on, for which one cell was counted. So
the conversions are right for the strings without such code points, and for no others that they
convert: `conversions_iff`.
-/

namespace FaceCore.WideString
open Stores Utf8

/-- `std::basic_string::resize`. -/
def resize {α : Type} (n : ℕ) (x : α) (l : List α) : List α :=
  l.take n ++ List.replicate (n - l.length) x

@[simp] theorem length_resize {α : Type} (n : ℕ) (x : α) (l : List α) :
    (resize n x l).length = n := by
  simp only [resize, List.length_append, List.length_take, List.length_replicate]
  omega

theorem resize_of_le {α : Type} {n : ℕ} {x : α} {l : List α} (h : n ≤ l.length) :
    resize n x l = l.take n := by
  rw [resize, Nat.sub_eq_zero_of_le h, List.replicate_zero, List.append_nil]

/-! ### The conversions -/

/-- What `Utf8toWStr` returns, what it sets `wsize` to, and its stores to the buffer. -/
structure Filled where
  ok : Bool
  wsize : ℕ
  stores : List (ℕ × ℕ)
  deriving DecidableEq

/-- Fail with the stores made so far: the terminator, if there is room for it. -/
def failWith (stores : List (ℕ × ℕ)) (wsize : ℕ) : Filled :=
  ⟨false, 0, stores ++ if wsize > 0 then [(0, 0)] else []⟩

/-- `Utf8toWStr` with the `wchar_t` buffer of the caller. -/
def utf8toWStr (utf8str : List UInt8) (wsize : ℕ) : Filled :=
  match distance utf8str with
  | .error _ => failWith [] wsize
  | .ok len =>
    if len > wsize then failWith [] wsize
    else
      match utf8to16 utf8str with
      | (out, some _) => failWith out.zipIdx len
      | (out, none) => ⟨true, len, out.zipIdx ++ [(0, len)]⟩

/-- What `Utf8toWStr` returns, the wide string it leaves, and its stores with the size that the
string had then. -/
structure Converted where
  ok : Bool
  wstr : List ℕ
  size : ℕ
  stores : List (ℕ × ℕ)
  deriving DecidableEq

/-- `Utf8toWStr` with a `std::wstring`. An empty string leaves it as it is. -/
def utf8toWString (utf8str : List UInt8) (wstr : List ℕ) : Converted :=
  match distance utf8str with
  | .error _ => ⟨false, [], wstr.length, []⟩
  | .ok len =>
    if len = 0 then ⟨true, wstr, wstr.length, []⟩
    else
      match utf8to16 utf8str with
      | (out, some _) => ⟨false, [], len, out.zipIdx⟩
      | (out, none) => ⟨true, run out.zipIdx (resize len 0 wstr), len, out.zipIdx⟩

/-- `WStrToUtf8` with a `std::wstring`: what it returns and the string it leaves. -/
def wstringToUtf8 (wstr : List ℕ) : Bool × List UInt8 :=
  let utf8str2 := List.replicate (wstr.length * 4) 0
  if wstr.length = 0 then (true, utf8str2)
  else
    match utf16to8 wstr with
    | (_, some _) => (false, [])
    | (out, none) => (true, resize out.length 0 (run out.zipIdx utf8str2))

/-- `WStrToUtf8` with the first `size` units of a buffer. -/
def wstrToUtf8 (wstr : List ℕ) (size : ℕ) : Bool × List UInt8 := wstringToUtf8 (wstr.take size)

/-- What `utf8truncate` leaves in its string, and its stores with the sizes that the wide string
and the string had then. -/
structure Truncated where
  utf8str : List UInt8
  size : ℕ
  stores : List (ℕ × ℕ)
  octets : List (UInt8 × ℕ)
  deriving DecidableEq

def utf8truncate (utf8str : List UInt8) (len : ℕ) : Truncated :=
  match distance utf8str with
  | .error _ => ⟨[], 0, [], []⟩
  | .ok wlen =>
    if wlen ≤ len then ⟨utf8str, 0, [], []⟩
    else
      match utf8to16 utf8str with
      | (units, some _) => ⟨[], wlen, units.zipIdx, []⟩
      | (units, none) =>
        let wstr := resize len 0 (run units.zipIdx (List.replicate wlen 0))
        match utf16to8 wstr with
        | (out, some _) => ⟨[], wlen, units.zipIdx, out.zipIdx⟩
        | (out, none) =>
          ⟨resize out.length 0 (run out.zipIdx utf8str), wlen, units.zipIdx, out.zipIdx⟩

/-! ### Back to UTF-8 -/

theorem wstringToUtf8_eq_iff {wstr : List ℕ} {s : List UInt8} :
    wstringToUtf8 wstr = (true, s) ↔ utf16to8 wstr = (s, none) := by
  have hlength := length_utf16to8_le wstr
  unfold wstringToUtf8
  dsimp only
  split_ifs with hnil
  · obtain rfl := List.length_eq_zero_iff.1 hnil
    rw [utf16to8_nil]
    simp
  · match hout : utf16to8 wstr with
    | (_, some _) => simp
    | (out, none) =>
      rw [hout] at hlength
      have hle : out.length ≤ (List.replicate (wstr.length * 4) (0 : UInt8)).length := by
        simpa using hlength
      have hrun : resize out.length 0 (run out.zipIdx (List.replicate (wstr.length * 4) 0)) =
          out := by
        rw [resize_of_le (by simpa using hlength), run_zipIdx_zero, List.take_of_length_le hle,
          List.take_left]
      simp [hrun]

/-! ### What the conversions should do -/

/-- The stores of `Utf8toWStr` stay within the buffer of `wsize + 1` units, and if it succeeds then
the units that it counts convert back. -/
def BufferSound (utf8str : List UInt8) (wsize : ℕ) (wstr : List ℕ) : Prop :=
  Within (wsize + 1) (utf8toWStr utf8str wsize).stores ∧
    ((utf8toWStr utf8str wsize).ok →
      wstrToUtf8 (run (utf8toWStr utf8str wsize).stores wstr) (utf8toWStr utf8str wsize).wsize =
        (true, utf8str))

/-- The stores of `Utf8toWStr` stay within the wide string, and if it succeeds then the wide string
converts back. -/
def StringSound (utf8str : List UInt8) (wstr : List ℕ) : Prop :=
  Within (utf8toWString utf8str wstr).size (utf8toWString utf8str wstr).stores ∧
    ((utf8toWString utf8str wstr).ok →
      wstringToUtf8 (utf8toWString utf8str wstr).wstr = (true, utf8str))

/-- The stores of `utf8truncate` stay within the wide string, and of a valid string it leaves the
first `len` code points. -/
def TruncationSound (utf8str : List UInt8) (len : ℕ) : Prop :=
  Within (utf8truncate utf8str len).size (utf8truncate utf8str len).stores ∧
    ∀ cps, Reads utf8str cps → (utf8truncate utf8str len).utf8str <+: utf8str ∧
      Reads (utf8truncate utf8str len).utf8str (cps.take len)

/-! ### The buffer of the caller -/

theorem utf8toWStr_of_not_reads {s : List UInt8} (h : ¬∃ cps, Reads s cps) (wsize : ℕ) :
    utf8toWStr s wsize = failWith [] wsize := by
  obtain ⟨e, he⟩ := distance_of_not_reads h
  rw [utf8toWStr, he]

theorem utf8toWStr_of_reads {s : List UInt8} {cps : List ℕ} (h : Reads s cps) (wsize : ℕ) :
    utf8toWStr s wsize =
      if cps.length > wsize then failWith [] wsize
      else ⟨true, cps.length, (cps.flatMap units).zipIdx ++ [(0, cps.length)]⟩ := by
  rw [utf8toWStr, distance_of_reads h, utf8to16_of_reads h]

theorem bufferSound_of_failWith {s : List UInt8} {wsize : ℕ} (wstr : List ℕ)
    (h : utf8toWStr s wsize = failWith [] wsize) : BufferSound s wsize wstr := by
  rw [BufferSound, h]
  refine ⟨?_, by simp [failWith]⟩
  unfold failWith
  split_ifs <;> simp

theorem take_run_terminated {out wstr : List ℕ} {len : ℕ} (hlen : len ≤ out.length)
    (hout : out.length ≤ wstr.length) :
    (run (out.zipIdx ++ [(0, len)]) wstr).take len = out.take len := by
  rw [run_append, run_cons, run_nil, List.take_set_of_le (le_refl len), run_zipIdx_zero,
    List.take_of_length_le hout, List.take_append_of_le_length hlen]

theorem bufferSound_iff {s : List UInt8} {wsize : ℕ} {wstr : List ℕ}
    (hwstr : wstr.length = wsize + 1) :
    BufferSound s wsize wstr ↔ ∀ cps, Reads s cps → cps.length ≤ wsize → SingleUnits cps := by
  by_cases hs : ∃ cps, Reads s cps
  · obtain ⟨cps, hreads⟩ := hs
    have hcond : (∀ cps, Reads s cps → cps.length ≤ wsize → SingleUnits cps) ↔
        (cps.length ≤ wsize → SingleUnits cps) :=
      ⟨fun h => h cps hreads, fun h cps' hreads' => hreads.unique hreads' ▸ h⟩
    have hrun := utf8toWStr_of_reads hreads wsize
    rw [hcond]
    by_cases hlen : cps.length > wsize
    · rw [if_pos hlen] at hrun
      exact iff_of_true (bufferSound_of_failWith wstr hrun) fun hle => by omega
    · obtain ⟨hvalid, rfl⟩ := reads_iff.1 hreads
      have hle := length_le_flatMap_units cps
      have hunits := length_flatMap_units_le_iff cps
      rw [if_neg hlen] at hrun
      rw [BufferSound, hrun, within_append, within_zipIdx, within_singleton]
      simp only [forall_const]
      constructor
      · rintro ⟨⟨hstores, -⟩, hback⟩ -
        rw [wstrToUtf8, take_run_terminated hle (by omega), wstringToUtf8_eq_iff,
          utf16to8_take_eq_iff hvalid] at hback
        exact hunits.1 hback
      · intro hsingle
        have hlength := hunits.2 (hsingle (by omega))
        refine ⟨⟨by omega, by omega⟩, ?_⟩
        rw [wstrToUtf8, take_run_terminated hle (by omega), wstringToUtf8_eq_iff,
          utf16to8_take_eq_iff hvalid]
        exact hlength
  · exact iff_of_true (bufferSound_of_failWith wstr (utf8toWStr_of_not_reads hs wsize))
      fun cps hreads => absurd ⟨cps, hreads⟩ hs

/-! ### The wide string -/

theorem utf8toWString_of_not_reads {s : List UInt8} (h : ¬∃ cps, Reads s cps) (wstr : List ℕ) :
    utf8toWString s wstr = ⟨false, [], wstr.length, []⟩ := by
  obtain ⟨e, he⟩ := distance_of_not_reads h
  rw [utf8toWString, he]

/-- Of the units, those are left for which there is a cell. -/
theorem run_flatMap_units {cps m : List ℕ} (h : m.length = cps.length) :
    run (cps.flatMap units).zipIdx m = (cps.flatMap units).take cps.length := by
  have hle := length_le_flatMap_units cps
  rw [run_zipIdx_zero, h, List.drop_eq_nil_of_le (by omega), List.append_nil]

theorem utf8toWString_of_reads {s : List UInt8} {cps : List ℕ} (h : Reads s cps)
    (wstr : List ℕ) :
    utf8toWString s wstr =
      if cps.length = 0 then ⟨true, wstr, wstr.length, []⟩
      else ⟨true, (cps.flatMap units).take cps.length, cps.length, (cps.flatMap units).zipIdx⟩ := by
  rw [utf8toWString, distance_of_reads h, utf8to16_of_reads h]
  dsimp only
  rw [run_flatMap_units (length_resize _ _ _)]

theorem stringSound_iff {s : List UInt8} {wstr : List ℕ} :
    StringSound s wstr ↔ (∀ cps, Reads s cps → SingleUnits cps) ∧ (s = [] → wstr = []) := by
  by_cases hs : ∃ cps, Reads s cps
  · obtain ⟨cps, hreads⟩ := hs
    obtain ⟨hvalid, rfl⟩ := reads_iff.1 hreads
    have hcond : (∀ cps', Reads (encode cps) cps' → SingleUnits cps') ↔ SingleUnits cps :=
      ⟨fun h => h cps hreads, fun h cps' hreads' => hreads.unique hreads' ▸ h⟩
    rw [hcond, StringSound, utf8toWString_of_reads hreads]
    cases cps with
    | nil =>
      simp only [List.length_nil, if_true, within_nil, true_and, forall_const,
        wstringToUtf8_eq_iff, encode_nil]
      constructor
      · intro h
        exact ⟨by simp [SingleUnits], eq_nil_of_utf16to8 h⟩
      · rintro ⟨-, rfl⟩
        exact utf16to8_nil
    | cons cp cps =>
      have hne : encode (cp :: cps) ≠ [] := by simp [octets_ne_nil]
      have hlength : (cp :: cps).length ≠ 0 := Nat.succ_ne_zero _
      simp only [if_neg hlength, within_zipIdx, forall_const, wstringToUtf8_eq_iff,
        utf16to8_take_eq_iff hvalid, and_self, length_flatMap_units_le_iff, hne, false_imp_iff,
        and_true]
  · have hne : s ≠ [] := by
      rintro rfl
      exact hs ⟨[], reads_iff.2 ⟨by simp, rfl⟩⟩
    rw [StringSound, utf8toWString_of_not_reads hs]
    exact iff_of_true ⟨by simp, by simp⟩
      ⟨fun cps hreads => absurd ⟨cps, hreads⟩ hs, fun h => absurd h hne⟩

/-! ### Truncation -/

theorem utf8truncate_of_not_reads {s : List UInt8} (h : ¬∃ cps, Reads s cps) (len : ℕ) :
    utf8truncate s len = ⟨[], 0, [], []⟩ := by
  obtain ⟨e, he⟩ := distance_of_not_reads h
  rw [utf8truncate, he]

theorem utf8truncate_of_le {s : List UInt8} {cps : List ℕ} (h : Reads s cps) {len : ℕ}
    (hlen : cps.length ≤ len) : utf8truncate s len = ⟨s, 0, [], []⟩ := by
  rw [utf8truncate, distance_of_reads h]
  exact if_pos hlen

theorem utf8truncate_of_lt {s : List UInt8} {cps : List ℕ} (h : Reads s cps) {len : ℕ}
    (hlen : len < cps.length) :
    utf8truncate s len =
      match utf16to8 ((cps.flatMap units).take len) with
      | (out, some _) => ⟨[], cps.length, (cps.flatMap units).zipIdx, out.zipIdx⟩
      | (out, none) => ⟨resize out.length 0 (run out.zipIdx s), cps.length,
          (cps.flatMap units).zipIdx, out.zipIdx⟩ := by
  have hle := length_le_flatMap_units cps
  have hwstr : resize len 0 (run (cps.flatMap units).zipIdx (List.replicate cps.length 0)) =
      (cps.flatMap units).take len := by
    rw [run_flatMap_units List.length_replicate, resize_of_le (by rw [List.length_take]; omega),
      List.take_take,
      Nat.min_eq_left hlen.le]
  rw [utf8truncate, distance_of_reads h, utf8to16_of_reads h]
  dsimp only
  rw [if_neg (by omega), hwstr]

/-- Whether the truncated units can be read does not matter for the stores. -/
theorem stores_utf8truncate_of_lt {s : List UInt8} {cps : List ℕ} (h : Reads s cps) {len : ℕ}
    (hlen : len < cps.length) :
    (utf8truncate s len).size = cps.length ∧
      (utf8truncate s len).stores = (cps.flatMap units).zipIdx ∧
        (utf8truncate s len).octets = (utf16to8 ((cps.flatMap units).take len)).1.zipIdx := by
  rw [utf8truncate_of_lt h hlen]
  split
  · rename_i hout
    rw [hout]
    exact ⟨rfl, rfl, rfl⟩
  · rename_i hout
    rw [hout]
    exact ⟨rfl, rfl, rfl⟩

/-- `utf8truncate` never leaves its string, not even where it leaves the wide string. -/
theorem within_octets_utf8truncate (s : List UInt8) (len : ℕ) :
    Within s.length (utf8truncate s len).octets := by
  by_cases hs : ∃ cps, Reads s cps
  · obtain ⟨cps, hreads⟩ := hs
    obtain hlen | hlen := Nat.lt_or_ge len cps.length
    · obtain ⟨hvalid, rfl⟩ := reads_iff.1 hreads
      have hprefix := prefix_utf16to8 ((cps.flatMap units).take len) ((cps.flatMap units).drop len)
      rw [List.take_append_drop, utf16to8_units hvalid] at hprefix
      rw [(stores_utf8truncate_of_lt hreads hlen).2.2, within_zipIdx]
      exact hprefix.length_le
    · rw [utf8truncate_of_le hreads hlen]
      exact within_nil _
  · rw [utf8truncate_of_not_reads hs]
    exact within_nil _

/-- Truncation of a string whose code points need one unit each. -/
theorem utf8truncate_of_singleUnits {s : List UInt8} {cps : List ℕ} (h : Reads s cps) {len : ℕ}
    (hlen : len < cps.length) (hsingle : SingleUnits cps) :
    (utf8truncate s len).utf8str = encode (cps.take len) := by
  obtain ⟨hvalid, rfl⟩ := reads_iff.1 h
  have htake : SingleUnits (cps.take len) := fun cp hcp => hsingle cp (List.mem_of_mem_take hcp)
  have hunits : (cps.flatMap units).take len = (cps.take len).flatMap units := by
    rw [hsingle.flatMap_units, htake.flatMap_units]
  have hread : utf16to8 ((cps.flatMap units).take len) = (encode (cps.take len), none) := by
    rw [hunits]
    exact utf16to8_units fun cp hcp => hvalid cp (List.mem_of_mem_take hcp)
  have hle := (prefix_encode_take cps len).length_le
  rw [utf8truncate_of_lt h hlen, hread]
  dsimp only
  rw [resize_of_le (by rwa [length_run]), run_zipIdx_zero, List.take_of_length_le hle,
    List.take_left]

theorem truncationSound_iff {s : List UInt8} {len : ℕ} :
    TruncationSound s len ↔ ∀ cps, Reads s cps → len < cps.length → SingleUnits cps := by
  by_cases hs : ∃ cps, Reads s cps
  · obtain ⟨cps, hreads⟩ := hs
    have hcond : (∀ cps, Reads s cps → len < cps.length → SingleUnits cps) ↔
        (len < cps.length → SingleUnits cps) :=
      ⟨fun h => h cps hreads, fun h cps' hreads' => hreads.unique hreads' ▸ h⟩
    have hcps : (∀ cps', Reads s cps' → (utf8truncate s len).utf8str <+: s ∧
          Reads (utf8truncate s len).utf8str (cps'.take len)) ↔
        (utf8truncate s len).utf8str <+: s ∧ Reads (utf8truncate s len).utf8str (cps.take len) :=
      ⟨fun h => h cps hreads, fun h cps' hreads' => hreads.unique hreads' ▸ h⟩
    rw [hcond, TruncationSound, hcps]
    obtain hlen | hlen := Nat.lt_or_ge len cps.length
    · obtain ⟨hsize, hstores, -⟩ := stores_utf8truncate_of_lt hreads hlen
      rw [hsize, hstores, within_zipIdx, length_flatMap_units_le_iff]
      refine ⟨fun h _ => h.1, fun h => ⟨h hlen, ?_⟩⟩
      obtain ⟨hvalid, rfl⟩ := reads_iff.1 hreads
      rw [utf8truncate_of_singleUnits hreads hlen (h hlen)]
      exact ⟨prefix_encode_take cps len,
        reads_iff.2 ⟨fun cp hcp => hvalid cp (List.mem_of_mem_take hcp), rfl⟩⟩
    · rw [utf8truncate_of_le hreads hlen, List.take_of_length_le hlen]
      exact iff_of_true ⟨by simp, List.prefix_rfl, hreads⟩ fun hlt => by omega
  · rw [TruncationSound, utf8truncate_of_not_reads hs]
    exact iff_of_true ⟨by simp, fun cps hreads => absurd ⟨cps, hreads⟩ hs⟩
      fun cps hreads => absurd ⟨cps, hreads⟩ hs

/-! ### The conversions together -/

/-- **Main result.** `Utf8toWStr` stays within the buffer of its caller and its units convert back
exactly if the code points of a valid string that the buffer has room for need one unit each. The
overload with a `std::wstring` needs that of every valid string, and for the empty string that the
wide string was empty before. `utf8truncate` stays within its wide string and leaves the first `len`
code points exactly if those of a valid string with more than `len` need one unit each. -/
theorem conversions_iff (s : List UInt8) :
    (∀ wsize wstr, wstr.length = wsize + 1 →
      (BufferSound s wsize wstr ↔
        ∀ cps, Reads s cps → cps.length ≤ wsize → SingleUnits cps)) ∧
    (∀ wstr, StringSound s wstr ↔
      (∀ cps, Reads s cps → SingleUnits cps) ∧ (s = [] → wstr = [])) ∧
    ∀ len, TruncationSound s len ↔
      ∀ cps, Reads s cps → len < cps.length → SingleUnits cps :=
  ⟨fun _ _ hwstr => bufferSound_iff hwstr, fun _ => stringSound_iff,
    fun _ => truncationSound_iff⟩

theorem reads_sample : Reads [0xd0, 0x96, 0x31] [0x416, 0x31] := reads_iff.2 (by decide)

theorem conversions_sample :
    BufferSound [0xd0, 0x96, 0x31] 2 [7, 7, 7] ∧ StringSound [0xd0, 0x96, 0x31] [7] ∧
      TruncationSound [0xd0, 0x96, 0x31] 1 := by
  have hsingle (cps : List ℕ) (h : Reads [0xd0, 0x96, 0x31] cps) : SingleUnits cps := by
    rw [reads_sample.unique h]
    simp [SingleUnits]
  obtain ⟨hbuffer, hstring, htruncation⟩ := conversions_iff [0xd0, 0x96, 0x31]
  refine ⟨(hbuffer _ _ rfl).2 fun cps h _ => hsingle cps h, (hstring _).2 ⟨hsingle, by simp⟩,
    (htruncation _).2 fun cps h _ => hsingle cps h⟩

theorem reads_emoji : Reads [0xf0, 0x9f, 0x98, 0x80] [0x1f600] := reads_iff.2 (by decide)

/-- For one code point from the second plane, `Utf8toWStr` and `utf8truncate` write two units to a
wide string of one. The overload with a buffer counts one of the two units, half of a pair. -/
theorem emoji_overruns :
    (utf8toWString [0xf0, 0x9f, 0x98, 0x80] []).size = 1 ∧
      (utf8toWString [0xf0, 0x9f, 0x98, 0x80] []).stores = [(0xd83d, 0), (0xde00, 1)] ∧
      ¬StringSound [0xf0, 0x9f, 0x98, 0x80] [] ∧
      ¬BufferSound [0xf0, 0x9f, 0x98, 0x80] 1 [0, 0] ∧
      ¬TruncationSound [0xf0, 0x9f, 0x98, 0x80] 0 := by
  have hpair : ¬SingleUnits [0x1f600] := by simp [SingleUnits]
  refine ⟨?_, ?_, ?_, ?_, ?_⟩
  · rw [utf8toWString_of_reads reads_emoji]
    rfl
  · rw [utf8toWString_of_reads reads_emoji]
    rfl
  · rw [stringSound_iff]
    exact fun h => hpair (h.1 _ reads_emoji)
  · rw [bufferSound_iff rfl]
    exact fun h => hpair (h _ reads_emoji (by decide))
  · rw [truncationSound_iff]
    exact fun h => hpair (h _ reads_emoji (by decide))

end FaceCore.WideString
