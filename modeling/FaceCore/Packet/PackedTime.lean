import FaceCore.Lib.Gregorian
import FaceCore.Packet.RoundTrip

/-!
# Packed times

The calendar of the client takes a local time in 32 bits: the minute, the hour, the day of the week, the
day, the month and the year. `AppendPackedTime` packs what `localtime` makes of a time, `ReadPackedTime`
unpacks it for `mktime` and then adds `timezone` once more, which `mktime` has taken into account.

* `Tm`, `localtime`, `mktime`: local times at a constant offset;
* `packedDate`, `unpack`: the fields in the 32 bits, `unpack_packedDate`;
* `packedTime_roundTrips_iff`: when a time comes back.
-/

namespace FaceCore.Packet

/-! ### Local times -/

/-- `tm`, without the fields that are not used here. -/
structure Tm where
  sec : ℤ
  min : ℤ
  hour : ℤ
  mday : ℤ
  mon : ℤ
  year : ℤ
  wday : ℤ

/-- `localtime`, where the local time is `timezone` seconds behind UTC, without daylight saving. -/
def localtime (timezone time : ℤ) : Tm :=
  let days := (time - timezone) / 86400
  let seconds := (time - timezone) % 86400
  let date := Gregorian.ofDays days
  { sec := seconds % 60
    min := seconds / 60 % 60
    hour := seconds / 3600
    mday := date.day + 1
    mon := date.month
    year := date.year - 1900
    wday := (days + 4) % 7 }

/-- `mktime`: the fields may be out of their ranges. -/
def mktime (timezone : ℤ) (lt : Tm) : ℤ :=
  let first := Gregorian.toDays ⟨lt.year + 1900 + lt.mon / 12, (lt.mon % 12).toNat, 0⟩
  (first + lt.mday - 1) * 86400 + lt.hour * 3600 + lt.min * 60 + lt.sec + timezone

/-- `mktime` and `localtime` are inverse to each other. -/
theorem mktime_localtime (timezone time : ℤ) : mktime timezone (localtime timezone time) = time := by
  have hmonth := (Gregorian.ofDays_lt ((time - timezone) / 86400)).1
  have hdays := Gregorian.toDays_ofDays ((time - timezone) / 86400)
  unfold mktime localtime
  unfold Gregorian.toDays at hdays ⊢
  dsimp only
  rw [show ((Gregorian.ofDays ((time - timezone) / 86400)).month : ℤ) / 12 = 0 by omega,
    show (((Gregorian.ofDays ((time - timezone) / 86400)).month : ℤ) % 12).toNat =
      (Gregorian.ofDays ((time - timezone) / 86400)).month by omega, Int.sub_add_cancel, Int.add_zero]
  omega

/-! ### Packed dates -/

/-- What `AppendPackedTime` appends. -/
def packedDate (lt : Tm) : UInt32 :=
  UInt32.ofInt (lt.year - 100) <<< 24 ||| UInt32.ofInt lt.mon <<< 20 |||
    UInt32.ofInt (lt.mday - 1) <<< 14 ||| UInt32.ofInt lt.wday <<< 11 |||
    UInt32.ofInt lt.hour <<< 6 ||| UInt32.ofInt lt.min

/-- `lt` in `ReadPackedTime`; the day of the week is not read. -/
def unpack (packedDate : UInt32) : Tm where
  sec := 0
  min := (packedDate &&& 0x3F).toNat
  hour := (packedDate >>> 6 &&& 0x1F).toNat
  mday := (packedDate >>> 14 &&& 0x3F).toNat + 1
  mon := (packedDate >>> 20 &&& 0xF).toNat
  year := (packedDate >>> 24 &&& 0x1F).toNat + 100
  wday := 0

/-- Fields that fit into their bits. -/
structure Tm.Fits (lt : Tm) : Prop where
  year : 0 ≤ lt.year - 100 ∧ lt.year - 100 < 32
  mon : 0 ≤ lt.mon ∧ lt.mon < 16
  mday : 0 ≤ lt.mday - 1 ∧ lt.mday - 1 < 64
  wday : 0 ≤ lt.wday ∧ lt.wday < 8
  hour : 0 ≤ lt.hour ∧ lt.hour < 32
  min : 0 ≤ lt.min ∧ lt.min < 64

namespace ByteBuffer

/-- `AppendPackedTime`. -/
def appendPackedTime (timezone time : ℤ) (b : ByteBuffer) : Result ByteBuffer :=
  b.append (encode .w32 (uint32 (packedDate (localtime timezone time)).toNat))

/-- `ReadPackedTime`. -/
def readPackedTime (timezone : ℤ) (b : ByteBuffer) : Result (UInt32 × ByteBuffer) := do
  let (bytes, b) ← b.readBytes 4
  let lt := unpack (UInt32.ofNat (decode false .w32 bytes).1.toNat)
  return (UInt32.ofInt (mktime timezone lt + timezone), b)

end ByteBuffer

/-! ### The fields in the bits -/

theorem or_eq_add_of_dvd {i x y : ℕ} (hx : 2 ^ i ∣ x) (hy : y < 2 ^ i) : x ||| y = x + y := by
  obtain ⟨q, rfl⟩ := hx
  exact (Nat.two_pow_add_eq_or_of_lt hy q).symm

theorem toNat_ofInt (z : ℤ) : ((UInt32.ofInt z).toNat : ℤ) = z % 2 ^ 32 := by
  rw [UInt32.ofInt, UInt32.toNat_ofNat']
  omega

theorem toNat_ofInt_of_lt {z : ℤ} (h : 0 ≤ z ∧ z < 2 ^ 32) : (UInt32.ofInt z).toNat = z.toNat := by
  have hz := toNat_ofInt z
  rw [Int.emod_eq_of_lt h.1 h.2] at hz
  omega

/-- Six fields in their places. -/
theorem or_fields {y m d w h n : ℕ} (hy : y < 32) (hm : m < 16) (hd : d < 64) (hw : w < 8)
    (hh : h < 32) (hn : n < 64) :
    y * 2 ^ 24 % 2 ^ 32 ||| m * 2 ^ 20 % 2 ^ 32 ||| d * 2 ^ 14 % 2 ^ 32 ||| w * 2 ^ 11 % 2 ^ 32 |||
        h * 2 ^ 6 % 2 ^ 32 ||| n =
      y * 2 ^ 24 + m * 2 ^ 20 + d * 2 ^ 14 + w * 2 ^ 11 + h * 2 ^ 6 + n := by
  have hmod : ∀ {x : ℕ}, x < 2 ^ 32 → x % 2 ^ 32 = x := Nat.mod_eq_of_lt
  rw [hmod (x := y * 2 ^ 24) (by omega), hmod (x := m * 2 ^ 20) (by omega),
    hmod (x := d * 2 ^ 14) (by omega), hmod (x := w * 2 ^ 11) (by omega),
    hmod (x := h * 2 ^ 6) (by omega)]
  rw [or_eq_add_of_dvd (i := 24) (x := y * 2 ^ 24) (y := m * 2 ^ 20) (by omega) (by omega),
    or_eq_add_of_dvd (i := 20) (y := d * 2 ^ 14) (by omega) (by omega),
    or_eq_add_of_dvd (i := 14) (y := w * 2 ^ 11) (by omega) (by omega),
    or_eq_add_of_dvd (i := 11) (y := h * 2 ^ 6) (by omega) (by omega),
    or_eq_add_of_dvd (i := 6) (by omega) (by omega)]

theorem toNat_packedDate {lt : Tm} (h : lt.Fits) : (packedDate lt).toNat =
    (lt.year - 100).toNat * 2 ^ 24 + lt.mon.toNat * 2 ^ 20 + (lt.mday - 1).toNat * 2 ^ 14 +
      lt.wday.toNat * 2 ^ 11 + lt.hour.toNat * 2 ^ 6 + lt.min.toNat := by
  obtain ⟨hyear, hmon, hmday, hwday, hhour, hmin⟩ := h
  unfold packedDate
  simp only [UInt32.toNat_or, UInt32.toNat_shiftLeft, UInt32.reduceToNat, Nat.reduceMod,
    Nat.shiftLeft_eq]
  rw [toNat_ofInt_of_lt ⟨hyear.1, by omega⟩, toNat_ofInt_of_lt ⟨hmon.1, by omega⟩,
    toNat_ofInt_of_lt ⟨hmday.1, by omega⟩, toNat_ofInt_of_lt ⟨hwday.1, by omega⟩,
    toNat_ofInt_of_lt ⟨hhour.1, by omega⟩, toNat_ofInt_of_lt ⟨hmin.1, by omega⟩]
  exact or_fields (by omega) (by omega) (by omega) (by omega) (by omega) (by omega)

theorem field_of_bits {f low : ℕ} (high i b : ℕ) (hlow : low < 2 ^ i) (hf : f < 2 ^ b) :
    (high * 2 ^ (i + b) + f * 2 ^ i + low) / 2 ^ i % 2 ^ b = f := by
  have hsum : high * 2 ^ (i + b) + f * 2 ^ i + low = low + (f + high * 2 ^ b) * 2 ^ i := by ring
  rw [hsum, Nat.add_mul_div_right _ _ (Nat.two_pow_pos i), Nat.div_eq_of_lt hlow, Nat.zero_add,
    Nat.add_mul_mod_self_right, Nat.mod_eq_of_lt hf]

/-- Five of the fields, from their places. -/
theorem fields_of_bits {y m d w h n : ℕ} (hy : y < 32) (hm : m < 16) (hd : d < 64) (hw : w < 8)
    (hh : h < 32) (hn : n < 64) {bits : ℕ}
    (hbits : bits = y * 2 ^ 24 + m * 2 ^ 20 + d * 2 ^ 14 + w * 2 ^ 11 + h * 2 ^ 6 + n) :
    bits % 2 ^ 6 = n ∧ bits / 2 ^ 6 % 2 ^ 5 = h ∧ bits / 2 ^ 14 % 2 ^ 6 = d ∧
      bits / 2 ^ 20 % 2 ^ 4 = m ∧ bits / 2 ^ 24 % 2 ^ 5 = y := by
  have hhour : bits =
      (y * 2 ^ 13 + m * 2 ^ 9 + d * 2 ^ 3 + w) * 2 ^ (6 + 5) + h * 2 ^ 6 + n := by
    rw [hbits]
    ring
  have hmday : bits =
      (y * 2 ^ 4 + m) * 2 ^ (14 + 6) + d * 2 ^ 14 + (w * 2 ^ 11 + h * 2 ^ 6 + n) := by
    rw [hbits]
    ring
  have hmon : bits =
      y * 2 ^ (20 + 4) + m * 2 ^ 20 + (d * 2 ^ 14 + w * 2 ^ 11 + h * 2 ^ 6 + n) := by
    rw [hbits]
    ring
  have hyear : bits =
      0 * 2 ^ (24 + 5) + y * 2 ^ 24 + (m * 2 ^ 20 + d * 2 ^ 14 + w * 2 ^ 11 + h * 2 ^ 6 + n) := by
    rw [hbits]
    ring
  refine ⟨by omega, ?_, ?_, ?_, ?_⟩
  · rw [hhour, field_of_bits _ 6 5 hn hh]
  · rw [hmday, field_of_bits _ 14 6 (by omega) hd]
  · rw [hmon, field_of_bits _ 20 4 (by omega) hm]
  · rw [hyear, field_of_bits _ 24 5 (by omega) hy]

/-- The fields that `ReadPackedTime` takes out of the bits are those that `AppendPackedTime` put in. -/
theorem unpack_packedDate {lt : Tm} (h : lt.Fits) :
    unpack (packedDate lt) = { lt with sec := 0, wday := 0 } := by
  have hbits := toNat_packedDate h
  obtain ⟨hyear, hmon, hmday, hwday, hhour, hmin⟩ := h
  have h63 : ∀ x : ℕ, x &&& 63 = x % 2 ^ 6 := fun x => Nat.and_two_pow_sub_one_eq_mod x 6
  have h31 : ∀ x : ℕ, x &&& 31 = x % 2 ^ 5 := fun x => Nat.and_two_pow_sub_one_eq_mod x 5
  have h15 : ∀ x : ℕ, x &&& 15 = x % 2 ^ 4 := fun x => Nat.and_two_pow_sub_one_eq_mod x 4
  unfold unpack
  simp only [UInt32.toNat_and, UInt32.toNat_shiftRight, UInt32.reduceToNat, Nat.reduceMod,
    Nat.shiftRight_eq_div_pow, h63, h31, h15, Tm.mk.injEq, true_and, and_true]
  obtain ⟨hmin', hhour', hmday', hmon', hyear'⟩ := fields_of_bits (by omega) (by omega) (by omega)
    (by omega) (by omega) (by omega) hbits
  rw [hmin', hhour', hmday', hmon', hyear']
  refine ⟨Int.toNat_of_nonneg hmin.1, Int.toNat_of_nonneg hhour.1, ?_, Int.toNat_of_nonneg hmon.1,
    ?_⟩
  · rw [Int.toNat_of_nonneg hmday.1, Int.sub_add_cancel]
  · rw [Int.toNat_of_nonneg hyear.1, Int.sub_add_cancel]

theorem fits_localtime {timezone time : ℤ} (hyear : 100 ≤ (localtime timezone time).year ∧
    (localtime timezone time).year ≤ 131) : (localtime timezone time).Fits := by
  obtain ⟨hmonth, hday⟩ := Gregorian.ofDays_lt ((time - timezone) / 86400)
  refine ⟨by omega, ?_, ?_, ?_, ?_, ?_⟩
  all_goals
    unfold localtime
    dsimp only
    omega

/-- `mktime` of a local time without its seconds. -/
theorem mktime_minute {timezone : ℤ} (hminute : timezone % 60 = 0) (time : ℤ) :
    mktime timezone { localtime timezone time with sec := 0, wday := 0 } = time - time % 60 := by
  have hall := mktime_localtime timezone time
  have hsec : (localtime timezone time).sec = time % 60 := by
    unfold localtime
    dsimp only
    omega
  unfold mktime at hall ⊢
  dsimp only at hall ⊢
  omega

theorem local_of_year {timezone time : ℤ} (hyear : 100 ≤ (localtime timezone time).year ∧
    (localtime timezone time).year ≤ 131) :
    946684800 ≤ time - timezone ∧ time - timezone < 1956528000 := by
  obtain ⟨hle, hlt⟩ := Gregorian.yearOf_spec ((time - timezone) / 86400)
  change 100 ≤ Gregorian.yearOf ((time - timezone) / 86400) - 1900 ∧
    Gregorian.yearOf ((time - timezone) / 86400) - 1900 ≤ 131 at hyear
  unfold Gregorian.daysBeforeYear at hle hlt
  omega

/-- A minute in the years 2000 to 2031 of local time, to which the offset is added once more. -/
theorem offset_iff {timezone time : ℤ}
    (h : 946684800 ≤ time - timezone ∧ time - timezone < 1956528000) :
    (time - time % 60 + timezone) % 2 ^ 32 = time - time % 60 ↔ timezone = 0 := by
  have hminute : time - 59 ≤ time - time % 60 ∧ time - time % 60 ≤ time := by omega
  generalize time - time % 60 = minute at hminute ⊢
  omega

namespace ByteBuffer

/-- What is packed at the end of a buffer that is read to its end is read next. -/
theorem readPackedTime_appendPackedTime {b : ByteBuffer} (hb : AtEnd b) (hread : b.rpos = b.size)
    (hsize : b.size < 10000000) {timezone time : ℤ}
    (hfits : (localtime timezone time).Fits) :
    ∃ b₁ b₂, b.appendPackedTime timezone time = .ok b₁ ∧ b₁.readPackedTime timezone =
      .ok (UInt32.ofInt (mktime timezone { localtime timezone time with sec := 0, wday := 0 } +
        timezone), b₂) := by
  set z := uint32 (packedDate (localtime timezone time)).toNat with hz
  have hunread : (b.extend (encode .w32 z)).unread = encode .w32 z ++ [] := by
    unfold unread ByteBuffer.extend
    rw [hread, size, List.drop_left, List.append_nil]
  refine ⟨b.extend (encode .w32 z), (b.extend (encode .w32 z)).advance 4, ?_, ?_⟩
  · rw [appendPackedTime, hb.append_eq (encode_ne_nil _ _), if_pos hsize]
  · have hbytes := readBytes_of_unread hunread (encode_ne_nil _ _)
    rw [length_encode] at hbytes
    have hnat : UInt32.ofNat z.1.toNat = packedDate (localtime timezone time) := by
      rw [hz, toNat_uint32 (packedDate (localtime timezone time)).toNat_lt, UInt32.ofNat_toNat]
    rw [readPackedTime]
    change (b.extend (encode .w32 z)).readBytes 4 = _ at hbytes
    rw [hbytes]
    change Except.ok (UInt32.ofInt (mktime timezone (unpack (UInt32.ofNat
      (decode false .w32 (encode .w32 z)).1.toNat)) + timezone), _) = _
    rw [decode_encode, hnat, unpack_packedDate hfits]
    rfl

end ByteBuffer

/-- **Main result.** A time with a local date in the years 2000 to 2031 comes back, without its
seconds, exactly if the local time is UTC. -/
theorem packedTime_roundTrips_iff (b : ByteBuffer) (hb : b.AtEnd) (hread : b.rpos = b.size)
    (hsize : b.size < 10000000) (timezone time : ℤ) (hminute : timezone % 60 = 0)
    (hyear : 100 ≤ (localtime timezone time).year ∧ (localtime timezone time).year ≤ 131) :
    (∃ b₁ b₂ result, b.appendPackedTime timezone time = .ok b₁ ∧
        b₁.readPackedTime timezone = .ok (result, b₂) ∧
          (result.toNat : ℤ) = time - time % 60) ↔ timezone = 0 := by
  obtain ⟨b₁, b₂, hwrite, hget⟩ :=
    ByteBuffer.readPackedTime_appendPackedTime hb hread hsize (fits_localtime hyear)
  rw [mktime_minute hminute] at hget
  have hlocal := local_of_year hyear
  have hresult := toNat_ofInt (time - time % 60 + timezone)
  constructor
  · rintro ⟨b₁', b₂', result, hwrite', hget', htime⟩
    obtain rfl := Except.ok.inj (hwrite.symm.trans hwrite')
    rw [hget, Except.ok.injEq, Prod.mk.injEq] at hget'
    rw [← hget'.1, hresult] at htime
    exact (offset_iff hlocal).1 htime
  · intro hzero
    exact ⟨b₁, b₂, _, hwrite, hget, hresult.trans ((offset_iff hlocal).2 hzero)⟩

/-! ### An hour east of UTC -/

/-- A time in UTC. -/
theorem packedTime_utc : ∃ b₁ b₂ result, ByteBuffer.empty.appendPackedTime 0 1262304059 = .ok b₁ ∧
    b₁.readPackedTime 0 = .ok (result, b₂) ∧ (result.toNat : ℤ) = 1262304059 - 1262304059 % 60 :=
  (packedTime_roundTrips_iff .empty rfl rfl (by decide) 0 1262304059 rfl (by decide)).2 rfl

/-- 1 January 2010, one o'clock: what is read is the midnight before. -/
theorem packedTime_east : (localtime (-3600) 1262304000).year = 110 ∧
    (localtime (-3600) 1262304000).hour = 1 ∧
      ¬∃ b₁ b₂ result, ByteBuffer.empty.appendPackedTime (-3600) 1262304000 = .ok b₁ ∧
        b₁.readPackedTime (-3600) = .ok (result, b₂) ∧
          (result.toNat : ℤ) = 1262304000 - 1262304000 % 60 := by
  refine ⟨by decide, by decide, ?_⟩
  rintro ⟨b₁, b₂, result, hwrite, hread, htime⟩
  have hbytes : ByteBuffer.empty.appendPackedTime (-3600) 1262304000 =
      .ok ⟨0, 4, [64, 40, 0, 10]⟩ := by rfl
  obtain rfl := Except.ok.inj (hbytes.symm.trans hwrite)
  have hvalue : ByteBuffer.readPackedTime (-3600) ⟨0, 4, [64, 40, 0, 10]⟩ =
      .ok (1262300400, ⟨4, 4, [64, 40, 0, 10]⟩) := by rfl
  rw [hvalue, Except.ok.injEq, Prod.mk.injEq] at hread
  rw [← hread.1] at htime
  exact absurd htime (by decide)

end FaceCore.Packet
