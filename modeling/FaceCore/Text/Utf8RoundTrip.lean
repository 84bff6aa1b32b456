import FaceCore.Text.Utf8

/-!
# Round trips of the UTF-8 library

A string is valid if `next` reads it to its end, and the valid strings are exactly the encodings of
lists of valid code points: `reads_iff`. On a valid string `distance` counts the code
points, `utf8to16` writes one unit for each below `0x10000` and two for the others, and `utf16to8`
brings the units back to the string (`utf16to8_units`). It brings no shorter part of the units back
to it (`utf16to8_take_eq_iff`).
-/

namespace FaceCore.Utf8

/-! ### Octets as numbers -/

theorem or_eq_add {x i : ℕ} (h : x < 2 ^ i) (k : ℕ) : x ||| 2 ^ i * k = x + 2 ^ i * k := by
  rw [Nat.or_comm, ← Nat.two_pow_add_eq_or_of_lt h, Nat.add_comm]

theorem and_mask (m i : ℕ) (h : m = 2 ^ i - 1) (x : ℕ) : x &&& m = x % 2 ^ i := by
  rw [h, Nat.and_two_pow_sub_one_eq_mod]

theorem isTrail_iff {b : UInt8} : isTrail b ↔ 128 ≤ b.toNat ∧ b.toNat < 192 := by
  have hb := b.toNat_lt
  simp only [isTrail, beq_iff_eq, Nat.shiftRight_eq_div_pow]
  omega

/-- The lead octets as ranges. -/
theorem sequenceLength_eq (a : UInt8) : sequenceLength a =
    if a.toNat < 128 then 1 else if a.toNat < 192 then 0 else if a.toNat < 224 then 2
    else if a.toNat < 240 then 3 else if a.toNat < 248 then 4 else 0 := by
  rw [sequenceLength, Nat.shiftRight_eq_div_pow, Nat.shiftRight_eq_div_pow,
    Nat.shiftRight_eq_div_pow]
  split_ifs <;> omega

theorem sequenceLength_eq_one_iff {a : UInt8} : sequenceLength a = 1 ↔ a.toNat < 128 := by
  rw [sequenceLength_eq]
  split_ifs <;> simp only [Nat.reduceEqDiff, true_iff, false_iff] <;> omega

theorem sequenceLength_eq_two_iff {a : UInt8} :
    sequenceLength a = 2 ↔ 192 ≤ a.toNat ∧ a.toNat < 224 := by
  rw [sequenceLength_eq]
  split_ifs <;> simp only [Nat.reduceEqDiff, true_iff, false_iff] <;> omega

theorem sequenceLength_eq_three_iff {a : UInt8} :
    sequenceLength a = 3 ↔ 224 ≤ a.toNat ∧ a.toNat < 240 := by
  rw [sequenceLength_eq]
  split_ifs <;> simp only [Nat.reduceEqDiff, true_iff, false_iff] <;> omega

theorem sequenceLength_eq_four_iff {a : UInt8} :
    sequenceLength a = 4 ↔ 240 ≤ a.toNat ∧ a.toNat < 248 := by
  rw [sequenceLength_eq]
  split_ifs <;> simp only [Nat.reduceEqDiff, true_iff, false_iff] <;> omega

theorem sequenceLength_le (a : UInt8) : sequenceLength a ≤ 4 := by
  unfold sequenceLength
  split_ifs <;> omega

theorem not_isOverlongSequence_iff {cp length : ℕ} :
    ¬isOverlongSequence cp length ↔ (cp < 0x80 → length = 1) ∧
      (0x80 ≤ cp → cp < 0x800 → length = 2) ∧ (0x800 ≤ cp → cp < 0x10000 → length = 3) := by
  unfold isOverlongSequence
  split_ifs <;> simp <;> omega

theorem isCodePointValid_iff {cp : ℕ} :
    isCodePointValid cp ↔ cp ≤ 0x10ffff ∧ ¬(0xd800 ≤ cp ∧ cp ≤ 0xdfff) := by
  rw [isCodePointValid, isSurrogate, Bool.and_eq_true, Bool.not_eq_true', Bool.and_eq_false_iff,
    decide_eq_true_eq, decide_eq_false_iff_not, decide_eq_false_iff_not, not_and_or]
  rfl

theorem value_two (a b : UInt8) : value a [b] = a.toNat % 32 * 64 + b.toNat % 64 := by
  rw [value, Nat.shiftLeft_eq, and_mask 0x7ff 11 rfl, and_mask 0x3f 6 rfl]
  omega

theorem value_three (a b c : UInt8) :
    value a [b, c] = a.toNat % 16 * 4096 + b.toNat % 64 * 64 + c.toNat % 64 := by
  rw [value, Nat.shiftLeft_eq, Nat.shiftLeft_eq, and_mask 0xffff 16 rfl,
    and_mask 0xfff 12 rfl, and_mask 0x3f 6 rfl]
  omega

theorem value_four (a b c d : UInt8) :
    value a [b, c, d] =
      a.toNat % 8 * 262144 + b.toNat % 64 * 4096 + c.toNat % 64 * 64 + d.toNat % 64 := by
  rw [value, Nat.shiftLeft_eq, Nat.shiftLeft_eq, Nat.shiftLeft_eq, and_mask 0x1fffff 21 rfl,
    and_mask 0x3ffff 18 rfl, and_mask 0xfff 12 rfl, and_mask 0x3f 6 rfl]
  omega

/-- The octets of a code point by division. -/
theorem octets_eq {cp : ℕ} (h : cp ≤ codePointMax) :
    octets cp =
      if cp < 0x80 then [.ofNat cp]
      else if cp < 0x800 then [.ofNat (cp / 64 + 192), .ofNat (cp % 64 + 128)]
      else if cp < 0x10000 then
        [.ofNat (cp / 4096 + 224), .ofNat (cp / 64 % 64 + 128), .ofNat (cp % 64 + 128)]
      else
        [.ofNat (cp / 262144 + 240), .ofNat (cp / 4096 % 64 + 128), .ofNat (cp / 64 % 64 + 128),
          .ofNat (cp % 64 + 128)] := by
  have htrail (x : ℕ) : (x &&& 0x3f) ||| 0x80 = x % 64 + 128 := by
    rw [and_mask 0x3f 6 rfl]
    exact or_eq_add (by omega : x % 2 ^ 6 < 2 ^ 6) 2
  unfold codePointMax at h
  simp only [octets, htrail, Nat.shiftRight_eq_div_pow]
  split_ifs with h1 h2 h3
  · rfl
  · rw [show cp / 2 ^ 6 ||| 0xc0 = cp / 64 + 192 from or_eq_add (i := 6) (by omega) 3]
  · rw [show cp / 2 ^ 12 ||| 0xe0 = cp / 4096 + 224 from or_eq_add (i := 5) (by omega) 7]
  · rw [show cp / 2 ^ 18 ||| 0xf0 = cp / 262144 + 240 from or_eq_add (i := 4) (by omega) 15]

theorem ofNat_eq {n : ℕ} {b : UInt8} (h : n = b.toNat) : UInt8.ofNat n = b := by
  rw [h, UInt8.ofNat_toNat]

theorem toNat_ofNat {n : ℕ} (h : n < 256) : (UInt8.ofNat n).toNat = n :=
  UInt8.toNat_ofNat_of_lt' h

/-- An accepted sequence is the one that `append` writes. -/
theorem octets_value {a : UInt8} {trails : List UInt8} (h : Accepted a trails) :
    octets (value a trails) = a :: trails := by
  obtain ⟨hlength, htrails, hvalid, hoverlong⟩ := h
  have hmax := (isCodePointValid_iff.1 hvalid).1
  rw [not_isOverlongSequence_iff, ← hlength] at hoverlong
  simp only [isTrail_iff] at htrails
  rw [octets_eq hmax]
  match trails with
  | [] =>
    have ha := sequenceLength_eq_one_iff.1 hlength.symm
    have hvalue : value a [] = a.toNat := rfl
    rw [hvalue, if_pos ha, ofNat_eq rfl]
  | [b] =>
    have ha := sequenceLength_eq_two_iff.1 hlength.symm
    have hb := htrails b (by simp)
    rw [value_two] at hoverlong hmax ⊢
    simp only [List.length_singleton] at hoverlong
    rw [if_neg (by omega), if_pos (by omega), ofNat_eq (b := a) (by omega),
      ofNat_eq (b := b) (by omega)]
  | [b, c] =>
    have ha := sequenceLength_eq_three_iff.1 hlength.symm
    have hb := htrails b (by simp)
    have hc := htrails c (by simp)
    rw [value_three] at hoverlong hmax ⊢
    simp only [List.length_cons, List.length_nil] at hoverlong
    rw [if_neg (by omega), if_neg (by omega), if_pos (by omega), ofNat_eq (b := a) (by omega),
      ofNat_eq (b := b) (by omega), ofNat_eq (b := c) (by omega)]
  | [b, c, d] =>
    have ha := sequenceLength_eq_four_iff.1 hlength.symm
    have hb := htrails b (by simp)
    have hc := htrails c (by simp)
    have hd := htrails d (by simp)
    rw [value_four] at hoverlong hmax ⊢
    simp only [List.length_cons, List.length_nil] at hoverlong
    rw [if_neg (by omega), if_neg (by omega), if_neg (by omega), ofNat_eq (b := a) (by omega),
      ofNat_eq (b := b) (by omega), ofNat_eq (b := c) (by omega), ofNat_eq (b := d) (by omega)]
  | _ :: _ :: _ :: _ :: _ =>
    have hle := sequenceLength_le a
    simp only [List.length_cons] at hlength
    omega

/-- The sequence that `append` writes for a valid code point is accepted. -/
theorem accepted_octets {cp : ℕ} (h : isCodePointValid cp) :
    ∃ a trails, octets cp = a :: trails ∧ Accepted a trails ∧ value a trails = cp := by
  have hmax := (isCodePointValid_iff.1 h).1
  rw [octets_eq hmax]
  split_ifs with h1 h2 h3
  · have ha := toNat_ofNat (show cp < 256 by omega)
    have hvalue : value (.ofNat cp) [] = cp := ha
    have hlength := sequenceLength_eq_one_iff.2 (by rw [ha]; exact h1)
    refine ⟨_, [], rfl, ⟨hlength.symm, by simp, by rw [hvalue]; exact h, ?_⟩, hvalue⟩
    rw [not_isOverlongSequence_iff, hlength, hvalue]
    omega
  · have ha := toNat_ofNat (show cp / 64 + 192 < 256 by omega)
    have hb := toNat_ofNat (show cp % 64 + 128 < 256 by omega)
    have hvalue : value (.ofNat (cp / 64 + 192)) [.ofNat (cp % 64 + 128)] = cp := by
      rw [value_two, ha, hb]
      omega
    have hlength := sequenceLength_eq_two_iff.2 (by rw [ha]; omega)
    refine ⟨_, [_], rfl, ⟨hlength.symm, ?_, by rw [hvalue]; exact h, ?_⟩, hvalue⟩
    · simp only [List.mem_singleton, forall_eq, isTrail_iff, hb]
      omega
    · rw [not_isOverlongSequence_iff, hlength, hvalue]
      omega
  · have ha := toNat_ofNat (show cp / 4096 + 224 < 256 by omega)
    have hb := toNat_ofNat (show cp / 64 % 64 + 128 < 256 by omega)
    have hc := toNat_ofNat (show cp % 64 + 128 < 256 by omega)
    have hvalue : value (.ofNat (cp / 4096 + 224))
        [.ofNat (cp / 64 % 64 + 128), .ofNat (cp % 64 + 128)] = cp := by
      rw [value_three, ha, hb, hc]
      omega
    have hlength := sequenceLength_eq_three_iff.2 (by rw [ha]; omega)
    refine ⟨_, [_, _], rfl, ⟨hlength.symm, ?_, by rw [hvalue]; exact h, ?_⟩, hvalue⟩
    · simp only [List.mem_cons, List.not_mem_nil, or_false, forall_eq_or_imp, forall_eq,
        isTrail_iff, hb, hc]
      omega
    · rw [not_isOverlongSequence_iff, hlength, hvalue]
      omega
  · have ha := toNat_ofNat (show cp / 262144 + 240 < 256 by omega)
    have hb := toNat_ofNat (show cp / 4096 % 64 + 128 < 256 by omega)
    have hc := toNat_ofNat (show cp / 64 % 64 + 128 < 256 by omega)
    have hd := toNat_ofNat (show cp % 64 + 128 < 256 by omega)
    have hvalue : value (.ofNat (cp / 262144 + 240)) [.ofNat (cp / 4096 % 64 + 128),
        .ofNat (cp / 64 % 64 + 128), .ofNat (cp % 64 + 128)] = cp := by
      rw [value_four, ha, hb, hc, hd]
      omega
    have hlength := sequenceLength_eq_four_iff.2 (by rw [ha]; omega)
    refine ⟨_, [_, _, _], rfl, ⟨hlength.symm, ?_, by rw [hvalue]; exact h, ?_⟩, hvalue⟩
    · simp only [List.mem_cons, List.not_mem_nil, or_false, forall_eq_or_imp, forall_eq,
        isTrail_iff, hb, hc, hd]
      omega
    · rw [not_isOverlongSequence_iff, hlength, hvalue]
      omega

/-! ### Valid strings -/

/-- The string of code points. -/
def encode (cps : List ℕ) : List UInt8 := cps.flatMap octets

@[simp] theorem encode_nil : encode [] = [] := rfl

@[simp] theorem encode_cons (cp : ℕ) (cps : List ℕ) : encode (cp :: cps) = octets cp ++ encode cps :=
  rfl

@[simp] theorem encode_append (cps cps' : List ℕ) :
    encode (cps ++ cps') = encode cps ++ encode cps' := List.flatMap_append

theorem prefix_encode_take (cps : List ℕ) (n : ℕ) : encode (cps.take n) <+: encode cps := by
  conv_rhs => rw [← List.take_append_drop n cps, encode_append]
  exact List.prefix_append _ _

theorem octets_ne_nil (cp : ℕ) : octets cp ≠ [] := by
  unfold octets
  split_ifs <;> exact List.cons_ne_nil _ _

theorem length_octets_le (cp : ℕ) : (octets cp).length ≤ 4 := by
  unfold octets
  split_ifs <;> simp

/-- `next` reads what `append` writes, and nothing else. -/
theorem next_eq_ok_iff {its after : List UInt8} {cp : ℕ} :
    next its = .ok (cp, after) ↔ isCodePointValid cp ∧ its = octets cp ++ after := by
  rw [next_eq_ok]
  constructor
  · rintro ⟨a, trails, rfl, haccepted, rfl⟩
    exact ⟨haccepted.2.2.1, by rw [octets_value haccepted]⟩
  · rintro ⟨hvalid, rfl⟩
    obtain ⟨a, trails, hoctets, haccepted, rfl⟩ := accepted_octets hvalid
    exact ⟨a, trails, by rw [hoctets], haccepted, rfl⟩

section
variable {σ : Type} (body : σ → ℕ → σ)

theorem decodeLoop_nil (st : σ) : decodeLoop body st [] = (st, none) := by rw [decodeLoop]

theorem decodeLoop_of_next {st : σ} {its after : List UInt8} {cp : ℕ}
    (h : next its = .ok (cp, after)) :
    decodeLoop body st its = decodeLoop body (body st cp) after := by
  cases its with
  | nil => exact absurd (length_lt_of_next h) (Nat.not_lt_zero _)
  | cons oc rest =>
    rw [decodeLoop]
    split
    · rename_i herror
      rw [herror] at h
      exact absurd h (by simp)
    · rename_i hok
      rw [hok] at h
      obtain ⟨rfl, rfl⟩ := Prod.mk.inj (Except.ok.inj h)
      rfl

/-- The loop goes through the code points of a valid string. -/
theorem decodeLoop_encode {cps : List ℕ} (h : ∀ cp ∈ cps, isCodePointValid cp) (st : σ) :
    decodeLoop body st (encode cps) = (cps.foldl body st, none) := by
  induction cps generalizing st with
  | nil => exact decodeLoop_nil body st
  | cons cp cps ih =>
    have hnext : next (encode (cp :: cps)) = .ok (cp, encode cps) :=
      next_eq_ok_iff.2 ⟨h cp (by simp), rfl⟩
    rw [decodeLoop_of_next body hnext, ih fun x hx => h x (by simp [hx]), List.foldl_cons]

/-- The loop ends without an exception only on a valid string. -/
theorem exists_of_decodeLoop {st st' : σ} {its : List UInt8}
    (h : decodeLoop body st its = (st', none)) :
    ∃ cps, (∀ cp ∈ cps, isCodePointValid cp) ∧ its = encode cps := by
  fun_induction decodeLoop body st its with
  | case1 st => exact ⟨[], by simp, rfl⟩
  | case2 st oc rest e herror => simp at h
  | case3 st oc rest cp after hok ih =>
    obtain ⟨cps, hvalid, rfl⟩ := ih h
    obtain ⟨hcp, hits⟩ := next_eq_ok_iff.1 hok
    exact ⟨cp :: cps, by simpa using ⟨hcp, hvalid⟩, hits⟩

end

/-- A string is valid and has these code points. -/
def Reads (s : List UInt8) (cps : List ℕ) : Prop := utf8to32 s = (cps, none)

theorem utf8to32_encode {cps : List ℕ} (h : ∀ cp ∈ cps, isCodePointValid cp) :
    utf8to32 (encode cps) = (cps, none) := by
  rw [utf8to32, decodeLoop_encode _ h, ← List.flatMap_eq_foldl, List.flatMap_singleton']

theorem reads_iff {s : List UInt8} {cps : List ℕ} :
    Reads s cps ↔ (∀ cp ∈ cps, isCodePointValid cp) ∧ s = encode cps := by
  constructor
  · intro h
    obtain ⟨cps', hvalid, rfl⟩ := exists_of_decodeLoop _ h
    rw [Reads, utf8to32_encode hvalid] at h
    obtain rfl : cps' = cps := (Prod.mk.inj h).1
    exact ⟨hvalid, rfl⟩
  · rintro ⟨hvalid, rfl⟩
    exact utf8to32_encode hvalid

theorem Reads.unique {s : List UInt8} {cps cps' : List ℕ} (h : Reads s cps) (h' : Reads s cps') :
    cps' = cps := by
  unfold Reads at h h'
  exact (Prod.mk.inj (h'.symm.trans h)).1

theorem distance_of_reads {s : List UInt8} {cps : List ℕ} (h : Reads s cps) :
    distance s = .ok cps.length := by
  obtain ⟨hvalid, rfl⟩ := reads_iff.1 h
  rw [distance, decodeLoop_encode _ hvalid, List.foldl_add_const, Nat.zero_add, Nat.one_mul]

theorem exists_reads_of_distance {s : List UInt8} {len : ℕ} (h : distance s = .ok len) :
    ∃ cps, Reads s cps ∧ cps.length = len := by
  have hs : ∃ cps, Reads s cps := by
    unfold distance at h
    split at h
    · rename_i hloop
      obtain ⟨cps, hvalid, rfl⟩ := exists_of_decodeLoop _ hloop
      exact ⟨cps, reads_iff.2 ⟨hvalid, rfl⟩⟩
    · exact absurd h (by simp)
  obtain ⟨cps, hreads⟩ := hs
  rw [distance_of_reads hreads] at h
  exact ⟨cps, hreads, Except.ok.inj h⟩

theorem distance_of_not_reads {s : List UInt8} (h : ¬∃ cps, Reads s cps) :
    ∃ e, distance s = .error e := by
  cases hd : distance s with
  | error e => exact ⟨e, rfl⟩
  | ok len =>
    obtain ⟨cps, hreads, -⟩ := exists_reads_of_distance hd
    exact absurd ⟨cps, hreads⟩ h

theorem utf8to16_of_reads {s : List UInt8} {cps : List ℕ} (h : Reads s cps) :
    utf8to16 s = (cps.flatMap units, none) := by
  obtain ⟨hvalid, rfl⟩ := reads_iff.1 h
  rw [utf8to16, decodeLoop_encode _ hvalid, List.flatMap_eq_foldl]

/-! ### Units -/

theorem units_of_lt {cp : ℕ} (h : cp < 0x10000) : units cp = [cp] := by
  have hmod : cp % 2 ^ 16 = cp := by omega
  rw [units, if_neg (by omega), hmod]

theorem length_units (cp : ℕ) : (units cp).length = if cp < 0x10000 then 1 else 2 := by
  unfold units
  split_ifs <;> first | rfl | omega

theorem length_flatMap_units (cps : List ℕ) :
    (cps.flatMap units).length = cps.length + cps.countP (0x10000 ≤ ·) := by
  induction cps with
  | nil => rfl
  | cons cp cps ih =>
    rw [List.flatMap_cons, List.length_append, ih, length_units, List.length_cons, List.countP_cons]
    simp only [decide_eq_true_eq]
    split_ifs <;> omega

/-- No code point needs two units. -/
def SingleUnits (cps : List ℕ) : Prop := ∀ cp ∈ cps, cp < 0x10000

theorem length_flatMap_units_le_iff (cps : List ℕ) :
    (cps.flatMap units).length ≤ cps.length ↔ SingleUnits cps := by
  have hcount := List.countP_eq_zero (p := fun cp => decide (0x10000 ≤ cp)) (l := cps)
  simp only [decide_eq_true_eq, not_le] at hcount
  rw [length_flatMap_units, SingleUnits, ← hcount]
  omega

theorem length_le_flatMap_units (cps : List ℕ) : cps.length ≤ (cps.flatMap units).length := by
  rw [length_flatMap_units]
  omega

theorem SingleUnits.flatMap_units {cps : List ℕ} (h : SingleUnits cps) :
    cps.flatMap units = cps := by
  induction cps with
  | nil => rfl
  | cons cp cps ih =>
    rw [List.flatMap_cons, units_of_lt (h cp (by simp)), ih fun x hx => h x (by simp [hx]),
      List.singleton_append]

theorem units_of_le {cp : ℕ} (hmin : 0x10000 ≤ cp) (hmax : cp ≤ 0x10ffff) :
    units cp = [cp / 1024 + 0xd7c0, cp % 1024 + 0xdc00] := by
  have hlead : ((cp >>> 10) + leadOffset) % 2 ^ 16 = cp / 1024 + 0xd7c0 := by
    rw [Nat.shiftRight_eq_div_pow, show leadOffset = 0xd7c0 from rfl]
    omega
  have htrail : ((cp &&& 0x3ff) + trailSurrogateMin) % 2 ^ 16 = cp % 1024 + 0xdc00 := by
    rw [and_mask 0x3ff 10 rfl, show trailSurrogateMin = 0xdc00 from rfl]
    omega
  rw [units, if_pos (by omega), hlead, htrail]

theorem mask16_of_lt {u : ℕ} (h : u < 0x10000) : mask16 u = u := by
  rw [mask16, and_mask 0xffff 16 rfl]
  omega

theorem isLeadSurrogate_iff {u : ℕ} : isLeadSurrogate u ↔ 0xd800 ≤ u ∧ u ≤ 0xdbff := by
  rw [isLeadSurrogate, Bool.and_eq_true, decide_eq_true_eq, decide_eq_true_eq, leadSurrogateMin,
    leadSurrogateMax]

theorem isTrailSurrogate_iff {u : ℕ} : isTrailSurrogate u ↔ 0xdc00 ≤ u ∧ u ≤ 0xdfff := by
  rw [isTrailSurrogate, Bool.and_eq_true, decide_eq_true_eq, decide_eq_true_eq, trailSurrogateMin,
    trailSurrogateMax]

theorem append_of_valid {cp : ℕ} (h : isCodePointValid cp) : append cp = .ok (octets cp) :=
  if_pos h

theorem utf16to8_nil : utf16to8 [] = ([], none) := by rw [utf16to8]

theorem utf16to8_of_codePoint16 {u cp : ℕ} {start after : List ℕ} {out : List UInt8}
    (hnext : codePoint16 u start = .ok (cp, after)) (hout : append cp = .ok out) :
    utf16to8 (u :: start) = written out (utf16to8 after) := by
  rw [utf16to8]
  split
  · rename_i herror
    rw [herror] at hnext
    exact absurd hnext (by simp)
  · rename_i hok
    rw [hok] at hnext
    obtain ⟨rfl, rfl⟩ := Prod.mk.inj (Except.ok.inj hnext)
    rw [hout]

theorem utf16to8_units_append {cp : ℕ} (h : isCodePointValid cp) (us : List ℕ) :
    utf16to8 (units cp ++ us) = written (octets cp) (utf16to8 us) := by
  obtain ⟨hmax, hsurrogate⟩ := isCodePointValid_iff.1 h
  by_cases hcp : cp < 0x10000
  · have hlead : ¬isLeadSurrogate cp := by
      rw [isLeadSurrogate_iff]
      omega
    have htrail : ¬isTrailSurrogate cp := by
      rw [isTrailSurrogate_iff]
      omega
    have hnext : codePoint16 cp us = .ok (cp, us) := by
      simp only [codePoint16, mask16_of_lt hcp, if_neg hlead, if_neg htrail]
    rw [units_of_lt hcp, List.singleton_append]
    exact utf16to8_of_codePoint16 hnext (append_of_valid h)
  · have hlead : isLeadSurrogate (cp / 1024 + 0xd7c0) := by
      rw [isLeadSurrogate_iff]
      omega
    have htrail : isTrailSurrogate (cp % 1024 + 0xdc00) := by
      rw [isTrailSurrogate_iff]
      omega
    have hpair : (((cp / 1024 + 0xd7c0) <<< 10) + (cp % 1024 + 0xdc00) + surrogateOffset) % 2 ^ 32 =
        cp := by
      rw [Nat.shiftLeft_eq, show surrogateOffset = 0xfca02400 from rfl]
      omega
    have hnext : codePoint16 (cp / 1024 + 0xd7c0) ((cp % 1024 + 0xdc00) :: us) =
        .ok (cp, us) := by
      simp only [codePoint16, mask16_of_lt (show cp / 1024 + 0xd7c0 < 0x10000 by omega),
        mask16_of_lt (show cp % 1024 + 0xdc00 < 0x10000 by omega), if_pos hlead, if_pos htrail, hpair]
    rw [units_of_le (by omega) hmax, List.cons_append, List.singleton_append]
    exact utf16to8_of_codePoint16 hnext (append_of_valid h)

theorem utf16to8_units {cps : List ℕ} (h : ∀ cp ∈ cps, isCodePointValid cp) :
    utf16to8 (cps.flatMap units) = (encode cps, none) := by
  induction cps with
  | nil => exact utf16to8_nil
  | cons cp cps ih =>
    rw [List.flatMap_cons, utf16to8_units_append (h cp (by simp)), ih fun x hx => h x (by simp [hx])]
    rfl

/-! ### Parts of the units -/

theorem append_ne_nil {cp : ℕ} {out : List UInt8} (h : append cp = .ok out) :
    out ≠ [] ∧ out.length ≤ 4 := by
  unfold append at h
  split_ifs at h
  obtain rfl := Except.ok.inj h
  exact ⟨octets_ne_nil cp, length_octets_le cp⟩

/-- Units that are read to their end may be followed by others. -/
theorem utf16to8_append {us : List ℕ} {out : List UInt8} (h : utf16to8 us = (out, none))
    (us' : List ℕ) : utf16to8 (us ++ us') = written out (utf16to8 us') := by
  fun_induction utf16to8 us generalizing out with
  | case1 =>
    obtain rfl := (Prod.mk.inj h).1
    rfl
  | case2 u start e hnext => simp at h
  | case3 u start cp after hnext e hout => simp at h
  | case4 u start cp after hnext o hout ih =>
    obtain ⟨front, rfl, hfront⟩ := exists_of_codePoint16 hnext
    have hsome := (Prod.mk.inj h).2
    have hread : utf16to8 after = ((utf16to8 after).1, none) := Prod.ext rfl hsome
    obtain rfl : o ++ (utf16to8 after).1 = out := (Prod.mk.inj h).1
    rw [List.cons_append, List.append_assoc, utf16to8_of_codePoint16 (hfront _) hout, ih hread]
    simp [written]

theorem prefix_utf16to8 (us us' : List ℕ) : (utf16to8 us).1 <+: (utf16to8 (us ++ us')).1 := by
  fun_induction utf16to8 us with
  | case1 => exact List.nil_prefix
  | case2 u start e hnext => exact List.nil_prefix
  | case3 u start cp after hnext e hout => exact List.nil_prefix
  | case4 u start cp after hnext o hout ih =>
    obtain ⟨front, rfl, hfront⟩ := exists_of_codePoint16 hnext
    rw [List.cons_append, List.append_assoc, utf16to8_of_codePoint16 (hfront _) hout]
    exact (List.prefix_append_right_inj o).2 ih

/-- Units that are read to their end stand for octets. -/
theorem eq_nil_of_utf16to8 {us : List ℕ} (h : utf16to8 us = ([], none)) : us = [] := by
  cases us with
  | nil => rfl
  | cons u start =>
    rw [utf16to8] at h
    split at h
    · simp at h
    · split at h
      · simp at h
      · rename_i hout
        obtain ⟨hnil, -⟩ := List.append_eq_nil_iff.1 (Prod.mk.inj h).1
        exact absurd hnil (append_ne_nil hout).1

/-- No unit stands for more than four octets. -/
theorem length_utf16to8_le (us : List ℕ) : (utf16to8 us).1.length ≤ us.length * 4 := by
  fun_induction utf16to8 us with
  | case1 => simp
  | case2 u start e hnext => simp
  | case3 u start cp after hnext e hout => simp
  | case4 u start cp after hnext o hout ih =>
    have hle := length_le_of_codePoint16 hnext
    have ho := (append_ne_nil hout).2
    rw [written, List.length_append, List.length_cons]
    omega

/-- The units of a string bring no shorter part of them back to it. -/
theorem utf16to8_take_eq_iff {cps : List ℕ} (h : ∀ cp ∈ cps, isCodePointValid cp) {n : ℕ} :
    utf16to8 ((cps.flatMap units).take n) = (encode cps, none) ↔
      (cps.flatMap units).length ≤ n := by
  constructor
  · intro htake
    have happend := utf16to8_append htake ((cps.flatMap units).drop n)
    rw [List.take_append_drop, utf16to8_units h] at happend
    obtain ⟨hself, hnone⟩ := Prod.mk.inj happend
    have hdrop : utf16to8 ((cps.flatMap units).drop n) = ([], none) :=
      Prod.ext (List.self_eq_append_right.1 hself) hnone.symm
    exact List.drop_eq_nil_iff.1 (eq_nil_of_utf16to8 hdrop)
  · intro hle
    rw [List.take_of_length_le hle, utf16to8_units h]

end FaceCore.Utf8
