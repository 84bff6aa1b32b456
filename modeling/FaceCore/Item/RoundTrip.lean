import FaceCore.Item.Persist
import FaceCore.Lib.FixedWidth

/-!
# Items through the database

Which items come back from the row that they are saved in, and which rows stay the same when an item
is loaded from them and saved.

* `Consistent`, `Restores`, `Survives`: an item that fits its template, and what is restored of it;
* `Storable`: the flags have 24 bits, the duration 31, and the column holds the text;
* `Stable`: a load, a save and another load give the same item as the first load;
* `DurationFits`, `EnchantmentsFit`: when they do;
* `items_survive_iff`.
-/

namespace FaceCore.Items

open Columns Numerals

variable {db : Database} {p : Platform} {item : Item} {row : Row db}

/-! ### Numbers in columns -/

theorem toUInt32_toNat (x : UInt32) : toUInt32 x.toNat = x := by
  have hx := x.toNat_lt
  have hmod : ((x.toNat : ℤ) % 2 ^ 32).toNat = x.toNat := by omega
  rw [toUInt32, hmod, UInt32.ofNat_toNat]

theorem toNat_toUInt32 {z : ℤ} (h0 : 0 ≤ z) (h : z < 2 ^ 32) : ((toUInt32 z).toNat : ℤ) = z := by
  have hmod : (z % 2 ^ 32).toNat = z.toNat := by omega
  rw [toUInt32, hmod, UInt32.toNat_ofNat_of_lt' (by rw [UInt32.size]; omega)]
  omega

theorem toUInt16_toNat (x : UInt16) : toUInt16 x.toNat = x := by
  have hx := x.toNat_lt
  have hmod : ((x.toNat : ℤ) % 2 ^ 16).toNat = x.toNat := by omega
  rw [toUInt16, hmod, UInt16.ofNat_toNat]

theorem holds_uint32 (x : UInt32) : (unsigned 32).Holds x.toNat := by
  have hx := x.toNat_lt
  constructor
  · change (0 : ℤ) ≤ x.toNat
    omega
  · change (x.toNat : ℤ) ≤ 2 ^ 32 - 1
    omega

theorem holds_uint16 (x : UInt16) : (unsigned 16).Holds x.toNat := by
  have hx := x.toNat_lt
  constructor
  · change (0 : ℤ) ≤ x.toNat
    omega
  · change (x.toNat : ℤ) ≤ 2 ^ 16 - 1
    omega

theorem holds_int16 (x : Int16) : (signed 16).Holds x.toInt := by
  have hlo := x.le_toInt
  have hhi := x.toInt_lt
  constructor
  · change -2 ^ 15 ≤ x.toInt
    omega
  · change x.toInt ≤ 2 ^ 15 - 1
    omega

theorem holds_duration_iff {x : UInt32} : (signed 32).Holds x.toNat ↔ x.toNat < 2 ^ 31 := by
  change (-2 ^ 31 ≤ (x.toNat : ℤ) ∧ (x.toNat : ℤ) ≤ 2 ^ 31 - 1) ↔ _
  omega

theorem holds_flags_iff {x : UInt32} : (unsigned 24).Holds x.toNat ↔ x.toNat < 2 ^ 24 := by
  change ((0 : ℤ) ≤ x.toNat ∧ (x.toNat : ℤ) ≤ 2 ^ 24 - 1) ↔ _
  omega

/-! ### Texts of numbers -/

theorem toNat_lt_of_mem_decimal {z : ℤ} {c : Char} (h : c ∈ decimal z) :
    c.toNat < 128 ∧ c ≠ ' ' ∧ c ≠ '\x00' := by
  rcases isDigit_or_of_mem_decimal h with hc | rfl
  · have hle : c.toNat ≤ 57 := by
      simp only [Char.isDigit, Bool.and_eq_true, decide_eq_true_eq] at hc
      exact UInt32.le_iff_toNat_le.1 hc.2
    refine ⟨by omega, ?_, ?_⟩
    · rintro rfl
      exact absurd hc (by decide)
    · rintro rfl
      exact absurd hc (by decide)
  · decide

theorem toNat_lt_of_mem_terminated {zs : List ℤ} {c : Char}
    (h : c ∈ terminated ' ' (zs.map decimal)) : c.toNat < 128 ∧ c ≠ '\x00' := by
  obtain ⟨w, hw, hc | rfl⟩ := mem_terminated.1 h
  · obtain ⟨z, -, rfl⟩ := List.mem_map.1 hw
    obtain ⟨hlt, -, hnul⟩ := toNat_lt_of_mem_decimal hc
    exact ⟨hlt, hnul⟩
  · decide

theorem cString_terminated (zs : List ℤ) :
    cString (terminated ' ' (zs.map decimal)) = terminated ' ' (zs.map decimal) :=
  cString_eq_self_iff.2 fun h => (toNat_lt_of_mem_terminated h).2 rfl

theorem tokens_decimals (zs : List ℤ) :
    tokens ' ' [] (terminated ' ' (zs.map decimal)) = zs.map decimal := by
  refine tokens_terminated fun w hw c hc => ?_
  obtain ⟨z, -, rfl⟩ := List.mem_map.1 hw
  exact (toNat_lt_of_mem_decimal hc).2

theorem putText_decimals {size : ℕ} (c : TextColumn size) {zs : List ℤ}
    (hzs : ∀ z ∈ zs, z.natAbs < 10 ^ 10) (hsize : zs.length * 12 ≤ size) :
    ∃ v, Database.putText c (terminated ' ' (zs.map decimal)) = some v ∧
      v.1 = terminated ' ' (zs.map decimal) := by
  have hlen : (terminated ' ' (zs.map decimal)).length ≤ (zs.map decimal).length * 12 := by
    refine length_terminated_le (k := 11) fun w hw => ?_
    obtain ⟨z, hz, rfl⟩ := List.mem_map.1 hw
    exact length_decimal_le (by decide) (hzs z hz)
  rw [List.length_map] at hlen
  have hheld : c.Held (terminated ' ' (zs.map decimal)) :=
    c.held_ascii _ (hlen.trans hsize) fun x hx => (toNat_lt_of_mem_terminated hx).1
  exact ⟨⟨_, hheld⟩, by
    rw [Database.putText, cString_terminated, TextColumn.store_of_held hheld], rfl⟩

theorem ssSpells_eq (item : Item) :
    item.ssSpells = terminated ' ' ((List.ofFn fun i => (item.spellCharges i).toInt).map decimal) := by
  rw [Item.ssSpells, List.map_ofFn, List.map_ofFn]
  rfl

theorem ssEnchants_eq (item : Item) :
    item.ssEnchants =
      terminated ' ' ((List.ofFn fun i => ((item.enchantments i).toNat : ℤ)).map decimal) := by
  rw [Item.ssEnchants, List.map_ofFn, List.map_ofFn]
  rfl

theorem putText_ssSpells (db : Database) (item : Item) :
    ∃ v, Database.putText db.charges item.ssSpells = some v ∧ v.1 = item.ssSpells := by
  rw [ssSpells_eq]
  refine putText_decimals db.charges (fun z hz => ?_) (by rw [List.length_ofFn]; decide)
  obtain ⟨i, rfl⟩ := List.mem_ofFn.1 hz
  have hlo := (item.spellCharges i).le_toInt
  have hhi := (item.spellCharges i).toInt_lt
  omega

theorem putText_ssEnchants (db : Database) (item : Item) :
    ∃ v, Database.putText db.enchantments item.ssEnchants = some v ∧ v.1 = item.ssEnchants := by
  rw [ssEnchants_eq]
  refine putText_decimals db.enchantments (fun z hz => ?_) (by rw [List.length_ofFn]; decide)
  obtain ⟨i, rfl⟩ := List.mem_ofFn.1 hz
  have hlt := (item.enchantments i).toNat_lt
  omega

/-! ### The row that is written -/

theorem put_uint32 (x : UInt32) : db.put (unsigned 32) x.toNat = some ⟨x.toNat, holds_uint32 x⟩ :=
  IntColumn.store_of_holds _

theorem put_uint16 (x : UInt16) : db.put (unsigned 16) x.toNat = some ⟨x.toNat, holds_uint16 x⟩ :=
  IntColumn.store_of_holds _

theorem put_int16 (x : Int16) : db.put (signed 16) x.toInt = some ⟨x.toInt, holds_int16 x⟩ :=
  IntColumn.store_of_holds _

/-- A row with the columns of an item. The duration, the flags and the text are what the columns make
of them. -/
structure Writes (item : Item) (row : Row db) : Prop where
  creatorGuid : row.creatorGuid.1 = item.creator.toNat
  giftCreatorGuid : row.giftCreatorGuid.1 = item.giftCreator.toNat
  count : row.count.1 = item.count.toNat
  duration : db.put (signed 32) item.duration.toNat = some row.duration
  charges : row.charges.1 = item.ssSpells
  flags : db.put (unsigned 24) item.flags.toNat = some row.flags
  enchantments : row.enchantments.1 = item.ssEnchants
  randomPropertyId : row.randomPropertyId.1 = item.randomPropertyId.toInt16.toInt
  durability : row.durability.1 = item.durability.toUInt16.toNat
  playedTime : row.playedTime.1 = item.playedTime.toNat
  text : Database.putText db.text item.text = some row.text

/-- The row is written exactly when the duration, the flags and the text can be stored. -/
theorem row_eq_some_iff : item.row db = some row ↔ Writes item row := by
  obtain ⟨charges, hcharges, hchargesText⟩ := putText_ssSpells db item
  obtain ⟨enchants, henchants, henchantsText⟩ := putText_ssEnchants db item
  constructor
  · intro h
    simp only [Item.row, put_uint32, put_uint16, put_int16, hcharges, henchants,
      Option.bind_eq_bind, Option.bind_some, Option.bind_eq_some_iff] at h
    obtain ⟨duration, hduration, flags, hflags, text, htext, hrow⟩ := h
    obtain rfl := Option.some.inj hrow
    exact ⟨rfl, rfl, rfl, hduration, hchargesText, hflags, henchantsText, rfl, rfl, rfl, htext⟩
  · intro h
    obtain ⟨hcreator, hgift, hcount, hduration, hchargesRow, hflags, henchantsRow, hproperty,
      hdurability, hplayed, htext⟩ := h
    simp only [Item.row, put_uint32, put_uint16, put_int16, hcharges, henchants, hduration, hflags,
      htext, Option.bind_eq_bind, Option.bind_some]
    exact congrArg some (Row.ext (Subtype.ext hcreator.symm) (Subtype.ext hgift.symm)
      (Subtype.ext hcount.symm) rfl (Subtype.ext (hchargesText.trans hchargesRow.symm)) rfl
      (Subtype.ext (henchantsText.trans henchantsRow.symm)) (Subtype.ext hproperty.symm)
      (Subtype.ext hdurability.symm) (Subtype.ext hplayed.symm) rfl)

/-! ### Loading what was written -/

theorem atoi_decimal (p : Platform) (x : Int32) : p.atoi (decimal x.toInt) = x := by
  have hlong := p.le_longMax
  have hlo := x.le_toInt
  have hhi := x.toInt_lt
  rw [Platform.atoi, parse_decimal_of_mem (by omega) (by omega), Int32.ofInt_toInt]

/-- A number without a sign is read back when it is a `long`. -/
theorem atol_decimal (p : Platform) (x : UInt32) :
    p.atol (decimal x.toNat) = x ↔ x.toNat ≤ p.longMax := by
  have hlt := x.toNat_lt
  rcases le_or_gt x.toNat p.longMax with hle | hgt
  · rw [Platform.atol, parse_decimal_of_mem (by omega) (by omega), toUInt32_toNat]
    exact iff_of_true rfl hle
  · have hparse : parse p.longMax (decimal x.toNat) = p.longMax := by
      rw [parse_decimal]
      omega
    refine iff_of_false (fun heq => ?_) (not_le.2 hgt)
    have hnat := toNat_toUInt32 (z := p.longMax) (by omega) (by omega)
    rw [Platform.atol, hparse] at heq
    rw [heq] at hnat
    omega

theorem getD_ofFn {n : ℕ} (f : Fin n → List Char) (i : Fin n) : (List.ofFn f).getD i [] = f i := by
  rw [List.getD_eq_getElem?_getD, List.getElem?_ofFn, dif_pos i.isLt]
  rfl

theorem spellCharges_loadItem {proto : ItemTemplate} {old : Item}
    (h : row.charges.1 = item.ssSpells) :
    (loadItem p proto old row).1.spellCharges = item.spellCharges := by
  have htokens : tokens ' ' [] row.charges.1 =
      List.ofFn fun i => decimal (item.spellCharges i).toInt := by
    rw [h, ssSpells_eq, tokens_decimals, List.map_ofFn]
    rfl
  unfold loadItem
  dsimp only
  rw [htokens, if_pos List.length_ofFn]
  funext i
  rw [getD_ofFn, atoi_decimal]

theorem enchantments_loadItem {proto : ItemTemplate} {old : Item}
    (h : row.enchantments.1 = item.ssEnchants) :
    (loadItem p proto old row).1.enchantments =
      fun i => p.atol (decimal (item.enchantments i).toNat) := by
  have htokens : tokens ' ' [] (cString row.enchantments.1) =
      List.ofFn fun i => decimal ((item.enchantments i).toNat : ℤ) := by
    rw [h, ssEnchants_eq, cString_terminated, tokens_decimals, List.map_ofFn]
    rfl
  unfold loadItem
  dsimp only
  rw [htokens, if_pos List.length_ofFn]
  funext i
  rw [getD_ofFn]

/-! ### The fields that are normalised -/

theorem toNat_and_not_le (x f : UInt32) : (x &&& ~~~f).toNat ≤ x.toNat := by
  rw [UInt32.toNat_and]
  exact Nat.and_le_left

theorem toNat_flags_loadItem_lt (proto : ItemTemplate) (old : Item) (row : Row db) :
    (loadItem p proto old row).1.flags.toNat < 2 ^ 24 := by
  have hlo : 0 ≤ row.flags.1 := row.flags.2.1
  have hhi : row.flags.1 ≤ 2 ^ 24 - 1 := row.flags.2.2
  have hread := toNat_toUInt32 hlo (by omega)
  have hle := toNat_and_not_le (toUInt32 row.flags.1) itemFlagSoulbound
  unfold loadItem
  dsimp only
  split_ifs <;> omega

theorem durability_loadItem {proto : ItemTemplate} {old : Item} (hle : item.durability ≤ proto.maxDurability)
    (hlt : item.durability.toNat < 2 ^ 16) (h : row.durability.1 = item.durability.toUInt16.toNat) :
    (loadItem p proto old row).1.durability = item.durability := by
  have hread : (toUInt16 row.durability.1).toUInt32 = item.durability := by
    rw [h, toUInt16_toNat]
    apply UInt32.toNat_inj.1
    rw [UInt16.toNat_toUInt32, UInt32.toNat_toUInt16]
    omega
  unfold loadItem
  dsimp only
  rw [hread, if_neg (UInt32.not_lt.2 hle)]

theorem randomPropertyId_loadItem {proto : ItemTemplate} {old : Item}
    (h : row.randomPropertyId.1 = item.randomPropertyId.toInt16.toInt) :
    (loadItem p proto old row).1.randomPropertyId = item.randomPropertyId.toInt16.toInt32 := by
  unfold loadItem
  dsimp only
  rw [h, Int16.ofInt_toInt]

theorem toInt32_toInt16 {x : Int32} (hlo : -2 ^ 15 ≤ x.toInt) (hhi : x.toInt < 2 ^ 15) :
    x.toInt16.toInt32 = x := by
  apply Int32.toInt_inj.1
  rw [Int16.toInt_toInt32, Int32.toInt_toInt16]
  exact Int.bmod_eq_of_le (by omega) (by omega)

theorem fixDuration_eq_false_iff {proto : ItemTemplate} {duration : UInt32} :
    proto.fixDuration duration = false ↔ (duration = 0 ↔ proto.duration = 0) := by
  unfold ItemTemplate.fixDuration
  by_cases hd : duration = 0 <;> by_cases hp : proto.duration = 0 <;> simp [hd, hp]

theorem fixBinding_eq_false_iff {proto : ItemTemplate} {flags : UInt32} :
    proto.fixBinding flags = false ↔ (proto.bonding = noBind → flags &&& itemFlagSoulbound = 0) := by
  unfold ItemTemplate.fixBinding
  by_cases hf : flags &&& itemFlagSoulbound = 0 <;> by_cases hb : proto.bonding = noBind <;>
    simp [hf, hb]

theorem clip_duration {x : UInt32} {v : (signed 32).Value} (hx : ¬x.toNat < 2 ^ 31)
    (h : db.put (signed 32) x.toNat = some v) : v.1 = 2 ^ 31 - 1 ∧ db.strict = false := by
  rw [Database.put, IntColumn.store_of_not_holds (mt holds_duration_iff.1 hx)] at h
  split_ifs at h with hstrict
  refine ⟨?_, Bool.eq_false_iff.2 hstrict⟩
  rw [← Option.some.inj h]
  change max (-2 ^ 31) (min (2 ^ 31 - 1) (x.toNat : ℤ)) = 2 ^ 31 - 1
  omega

/-- A duration that comes back fits its column. -/
theorem duration_lt_of_loadItem {proto : ItemTemplate} (h : item.duration = 0 ↔ proto.duration = 0)
    (hw : Writes item row) {old : Item}
    (hloaded : (loadItem p proto old row).1.duration = item.duration) :
    item.duration.toNat < 2 ^ 31 := by
  by_contra hge
  obtain ⟨hval, -⟩ := clip_duration hge hw.duration
  have hlong := toNat_toUInt32 (z := 2 ^ 31 - 1) (by decide) (by decide)
  have hne : toUInt32 row.duration.1 ≠ 0 := by
    rw [hval]
    decide
  have hitem : item.duration ≠ 0 := by
    intro heq
    rw [heq] at hge
    exact hge (by decide)
  have hfix : proto.fixDuration (toUInt32 row.duration.1) = false :=
    fixDuration_eq_false_iff.2 (iff_of_false hne (mt h.2 hitem))
  have hread : (loadItem p proto old row).1.duration = toUInt32 row.duration.1 := by
    unfold loadItem
    dsimp only
    rw [hfix]
    rfl
  rw [← hloaded, hread, hval] at hge
  omega

/-! ### Items that survive -/

/-- An item that fits its template, and whose numbers can be read. -/
structure Consistent (p : Platform) (proto : ItemTemplate) (item : Item) : Prop where
  enchantments : ∀ i, (item.enchantments i).toNat ≤ p.longMax
  randomPropertyId : -2 ^ 15 ≤ item.randomPropertyId.toInt ∧ item.randomPropertyId.toInt < 2 ^ 15
  durability_le : item.durability ≤ proto.maxDurability
  durability_lt : item.durability.toNat < 2 ^ 16
  duration : item.duration = 0 ↔ proto.duration = 0
  binding : proto.bonding = noBind → item.flags &&& itemFlagSoulbound = 0

/-- The fields that are restored. -/
structure Restores (item loaded : Item) : Prop where
  count : loaded.count = item.count
  duration : loaded.duration = item.duration
  spellCharges : loaded.spellCharges = item.spellCharges
  flags : loaded.flags = item.flags
  enchantments : loaded.enchantments = item.enchantments
  randomPropertyId : loaded.randomPropertyId = item.randomPropertyId
  durability : loaded.durability = item.durability
  playedTime : loaded.playedTime = item.playedTime
  text : loaded.text = item.text

/-- The item comes back from the row that is written, into whatever object it is loaded. -/
def Survives (db : Database) (p : Platform) (proto : ItemTemplate) (state : UpdateState)
    (item : Item) : Prop :=
  ∃ row, written db state item = some row ∧
    ∀ old, ∃ loaded, loadFromDB p (some proto) old row = some loaded ∧ Restores item loaded.1

/-- The duration, the flags and the text fit their columns. -/
structure Storable (db : Database) (item : Item) : Prop where
  flags_lt : item.flags.toNat < 2 ^ 24
  duration_lt : item.duration.toNat < 2 ^ 31
  text_held : db.text.Held item.text
  text_nul : '\x00' ∉ item.text

/-- The row is written when the duration, the flags and the text are stored. -/
theorem exists_writes_of_put {duration : (signed 32).Value} {flags : (unsigned 24).Value}
    {text : db.text.Value} (hduration : db.put (signed 32) item.duration.toNat = some duration)
    (hflags : db.put (unsigned 24) item.flags.toNat = some flags)
    (htext : Database.putText db.text item.text = some text) :
    ∃ row : Row db, Writes item row ∧ row.text = text := by
  obtain ⟨charges, -, hcharges⟩ := putText_ssSpells db item
  obtain ⟨enchants, -, henchants⟩ := putText_ssEnchants db item
  exact ⟨⟨⟨_, holds_uint32 item.creator⟩, ⟨_, holds_uint32 item.giftCreator⟩,
    ⟨_, holds_uint32 item.count⟩, duration, charges, flags, enchants,
    ⟨_, holds_int16 item.randomPropertyId.toInt16⟩, ⟨_, holds_uint16 item.durability.toUInt16⟩,
    ⟨_, holds_uint32 item.playedTime⟩, text⟩,
    ⟨rfl, rfl, rfl, hduration, hcharges, hflags, henchants, rfl, rfl, rfl, htext⟩, rfl⟩

theorem Storable.exists_writes (h : Storable db item) :
    ∃ row : Row db, Writes item row ∧ row.text.1 = item.text := by
  have htext : Database.putText db.text item.text = some ⟨item.text, h.text_held⟩ := by
    rw [Database.putText, cString_eq_self_iff.2 h.text_nul, TextColumn.store_of_held h.text_held]
  obtain ⟨row, hw, hrow⟩ := exists_writes_of_put
    (IntColumn.store_of_holds (holds_duration_iff.2 h.duration_lt))
    (IntColumn.store_of_holds (holds_flags_iff.2 h.flags_lt)) htext
  exact ⟨row, hw, congrArg Subtype.val hrow⟩

/-- A row with the duration and the flags of the item restores it. -/
theorem Consistent.restores {proto : ItemTemplate} (h : Consistent p proto item) (hw : Writes item row)
    (hduration : row.duration.1 = item.duration.toNat) (hflags : row.flags.1 = item.flags.toNat)
    (htext : row.text.1 = item.text) (old : Item) :
    Restores item (loadItem p proto old row).1 where
  count := by
    change toUInt32 row.count.1 = item.count
    rw [hw.count, toUInt32_toNat]
  duration := by
    have hfix := fixDuration_eq_false_iff.2 h.duration
    unfold loadItem
    dsimp only
    rw [hduration, toUInt32_toNat, hfix]
    rfl
  spellCharges := spellCharges_loadItem hw.charges
  flags := by
    have hfix := fixBinding_eq_false_iff.2 h.binding
    unfold loadItem
    dsimp only
    rw [hflags, toUInt32_toNat, hfix]
    rfl
  enchantments := by
    rw [enchantments_loadItem hw.enchantments]
    exact funext fun i => (atol_decimal p _).2 (h.enchantments i)
  randomPropertyId := by
    rw [randomPropertyId_loadItem hw.randomPropertyId,
      toInt32_toInt16 h.randomPropertyId.1 h.randomPropertyId.2]
  durability := durability_loadItem h.durability_le h.durability_lt hw.durability
  playedTime := by
    change toUInt32 row.playedTime.1 = item.playedTime
    rw [hw.playedTime, toUInt32_toNat]
  text := htext

theorem survives_iff {proto : ItemTemplate} {state : UpdateState} (h : Consistent p proto item)
    (hstate : state = .new ∨ state = .changed) :
    Survives db p proto state item ↔ Storable db item := by
  have hwritten : written db state item = item.row db := by
    rcases hstate with rfl | rfl <;> rfl
  unfold Survives
  rw [hwritten]
  constructor
  · rintro ⟨row, hrow, hload⟩
    have hw := row_eq_some_iff.1 hrow
    obtain ⟨loaded, hloaded, hr⟩ := hload Item.new
    obtain rfl : loadItem p proto Item.new row = loaded := Option.some.inj hloaded
    have htext := (TextColumn.store_cString hw.text).1 hr.text
    exact ⟨hr.flags ▸ toNat_flags_loadItem_lt proto Item.new row, duration_lt_of_loadItem h.duration hw hr.duration,
      htext.1, htext.2⟩
  · intro hs
    obtain ⟨row, hw, htext⟩ := hs.exists_writes
    have hduration := (IntColumn.store_eq_some_self hw.duration).2
      (holds_duration_iff.2 hs.duration_lt)
    have hflags := (IntColumn.store_eq_some_self hw.flags).2 (holds_flags_iff.2 hs.flags_lt)
    exact ⟨row, row_eq_some_iff.2 hw, fun old => ⟨_, rfl, h.restores hw hduration hflags htext old⟩⟩

/-! ### Rows that stay the same -/

/-- What is loaded from a row into a new object. -/
def loaded (p : Platform) (proto : ItemTemplate) (row : Row db) : Item :=
  (loadItem p proto Item.new row).1

/-- The row of the item after a load and a save in a state. -/
def rowAfterSave (p : Platform) (proto : ItemTemplate) (state : UpdateState) (row : Row db) :
    Option (Row db) :=
  saveToDB state (loaded p proto row) (rowAfterLoad row (loadItem p proto Item.new row))

/-- A load, a save and another load give the item of the first load. -/
def Stable (p : Platform) (proto : ItemTemplate) (state : UpdateState) (row : Row db) : Prop :=
  ∃ row', rowAfterSave p proto state row = some row' ∧ loaded p proto row' = loaded p proto row

/-- The duration that is loaded has 31 bits: that of the row is not negative, or that of the template,
where only one of them is zero, is not too large. -/
def DurationFits (proto : ItemTemplate) (row : Row db) : Prop :=
  if proto.duration = 0 ↔ row.duration.1 = 0 then 0 ≤ row.duration.1
  else proto.duration.toNat < 2 ^ 31

instance (proto : ItemTemplate) (row : Row db) : Decidable (DurationFits proto row) := by
  unfold DurationFits
  infer_instance

/-- The enchantments of the row, where there are enough of them, are each a `long`. -/
def EnchantmentsFit (p : Platform) (row : Row db) : Prop :=
  (tokens ' ' [] (cString row.enchantments.1)).length = maxEnchantmentSlot * maxEnchantmentOffset →
    ∀ w ∈ tokens ' ' [] (cString row.enchantments.1), (p.atol w).toNat ≤ p.longMax

section Loaded

variable {proto : ItemTemplate}

theorem toUInt32_eq_zero_iff (v : (signed 32).Value) : toUInt32 v.1 = 0 ↔ v.1 = 0 := by
  have hlo : -2 ^ 31 ≤ v.1 := v.2.1
  have hhi : v.1 ≤ 2 ^ 31 - 1 := v.2.2
  constructor
  · intro h
    have hnat := congrArg UInt32.toNat h
    rw [toUInt32, UInt32.toNat_ofNat_of_lt' (by rw [UInt32.size]; omega), UInt32.toNat_zero] at hnat
    omega
  · rintro h
    rw [h]
    rfl

theorem duration_loaded : (loaded p proto row).duration =
    if proto.duration = 0 ↔ row.duration.1 = 0 then toUInt32 row.duration.1 else proto.duration := by
  have hfix : proto.fixDuration (toUInt32 row.duration.1) = false ↔
      (toUInt32 row.duration.1 = 0 ↔ proto.duration = 0) := fixDuration_eq_false_iff
  rw [toUInt32_eq_zero_iff, iff_comm (a := row.duration.1 = 0)] at hfix
  unfold loaded loadItem
  dsimp only
  split_ifs with hb hp hp
  · exact absurd (hfix.2 hp) (by simp [hb])
  · rfl
  · rfl
  · exact absurd (hfix.1 (Bool.eq_false_iff.2 hb)) hp

theorem duration_loaded_lt_iff :
    (loaded p proto row).duration.toNat < 2 ^ 31 ↔ DurationFits proto row := by
  have hlo : -2 ^ 31 ≤ row.duration.1 := row.duration.2.1
  have hhi : row.duration.1 ≤ 2 ^ 31 - 1 := row.duration.2.2
  rw [duration_loaded, DurationFits]
  split_ifs with hsame
  · rw [toUInt32, UInt32.toNat_ofNat_of_lt' (by rw [UInt32.size]; omega)]
    omega
  · rfl

theorem duration_loaded_eq_zero_iff : (loaded p proto row).duration = 0 ↔ proto.duration = 0 := by
  rw [duration_loaded]
  split_ifs with hsame
  · rw [toUInt32_eq_zero_iff, hsame]
  · rfl

theorem flags_loaded (hbind : proto.bonding = noBind) :
    (loaded p proto row).flags &&& itemFlagSoulbound = 0 := by
  unfold loaded loadItem
  dsimp only
  split_ifs with hfix
  · rw [UInt32.and_assoc, UInt32.not_and_self, UInt32.and_zero]
  · exact fixBinding_eq_false_iff.1 (Bool.eq_false_iff.2 hfix) hbind

theorem durability_loaded_le : (loaded p proto row).durability ≤ proto.maxDurability := by
  unfold loaded loadItem
  dsimp only
  split_ifs with hlt
  · exact UInt32.le_refl _
  · exact UInt32.not_lt.1 hlt

theorem durability_loaded_lt : (loaded p proto row).durability.toNat < 2 ^ 16 := by
  have hlt := (toUInt16 row.durability.1).toNat_lt
  have hread := UInt16.toNat_toUInt32 (toUInt16 row.durability.1)
  unfold loaded loadItem
  dsimp only
  split_ifs with hmax
  · rw [UInt32.lt_iff_toNat_lt] at hmax
    omega
  · omega

theorem randomPropertyId_loaded :
    (loaded p proto row).randomPropertyId = (Int16.ofInt row.randomPropertyId.1).toInt32 := rfl

theorem enchantments_loaded_le_iff (p : Platform) (proto : ItemTemplate) (row : Row db) :
    (∀ i, ((loaded p proto row).enchantments i).toNat ≤ p.longMax) ↔ EnchantmentsFit p row := by
  unfold loaded loadItem EnchantmentsFit
  dsimp only
  split_ifs with hlen
  · rw [imp_iff_right hlen]
    constructor
    · intro h w hw
      obtain ⟨i, hi, rfl⟩ := List.mem_iff_getElem.1 hw
      have hget := h ⟨i, hlen ▸ hi⟩
      dsimp only at hget
      rwa [List.getD_eq_getElem?_getD, List.getElem?_eq_getElem hi] at hget
    · intro h i
      have hi : i.val < (tokens ' ' [] (cString row.enchantments.1)).length := by
        rw [hlen]
        exact i.isLt
      dsimp only
      rw [List.getD_eq_getElem?_getD, List.getElem?_eq_getElem hi]
      exact h _ (List.getElem_mem hi)
  · exact iff_of_true (fun _ => Nat.zero_le _) fun h => absurd h hlen

theorem consistent_loaded (h : EnchantmentsFit p row) : Consistent p proto (loaded p proto row) where
  enchantments := (enchantments_loaded_le_iff p proto row).2 h
  randomPropertyId := by
    have hlo := (Int16.ofInt row.randomPropertyId.1).le_toInt
    have hhi := (Int16.ofInt row.randomPropertyId.1).toInt_lt
    rw [randomPropertyId_loaded, Int16.toInt_toInt32]
    omega
  durability_le := durability_loaded_le
  durability_lt := durability_loaded_lt
  duration := duration_loaded_eq_zero_iff
  binding := flags_loaded

/-- What is loaded from the row that a loaded item is written in. -/
theorem loaded_of_writes {row' : Row db} (hw : Writes (loaded p proto row) row')
    (hduration : (loaded p proto row).duration.toNat < 2 ^ 31) :
    loaded p proto row' = loaded p proto row ↔
      EnchantmentsFit p row ∧ row'.text.1 = row.text.1 := by
  constructor
  · intro h
    have henchants : (loaded p proto row').enchantments =
        fun i => p.atol (decimal ((loaded p proto row).enchantments i).toNat) :=
      enchantments_loadItem hw.enchantments
    refine ⟨(enchantments_loaded_le_iff p proto row).1 fun i => ?_, congrArg Item.text h⟩
    have heq : p.atol (decimal ((loaded p proto row).enchantments i).toNat) =
        (loaded p proto row).enchantments i :=
      (congrFun henchants i).symm.trans (congrFun (congrArg Item.enchantments h) i)
    exact (atol_decimal p _).1 heq
  · rintro ⟨hfit, htext⟩
    have hd := (IntColumn.store_eq_some_self hw.duration).2 (holds_duration_iff.2 hduration)
    have hf := (IntColumn.store_eq_some_self hw.flags).2
      (holds_flags_iff.2 (toNat_flags_loadItem_lt proto Item.new row))
    have hconsistent : Consistent p proto (loaded p proto row) := consistent_loaded hfit
    have hr := hconsistent.restores hw hd hf htext Item.new
    have hcreator : toUInt32 row'.creatorGuid.1 = (loaded p proto row).creator := by
      rw [hw.creatorGuid, toUInt32_toNat]
    have hgift : toUInt32 row'.giftCreatorGuid.1 = (loaded p proto row).giftCreator := by
      rw [hw.giftCreatorGuid, toUInt32_toNat]
    have hseed : (loaded p proto row').propertySeed = (loaded p proto row).propertySeed := by
      have hproperty : (Int16.ofInt row'.randomPropertyId.1).toInt32 =
          (Int16.ofInt row.randomPropertyId.1).toInt32 := hr.randomPropertyId
      unfold loaded loadItem
      dsimp only
      rw [hproperty]
    exact Item.ext hcreator hgift hr.count hr.duration hr.spellCharges hr.flags hr.enchantments
      hseed hr.randomPropertyId hr.durability rfl hr.playedTime hr.text

theorem putText_loaded (p : Platform) (proto : ItemTemplate) (row : Row db) :
    Database.putText db.text (loaded p proto row).text =
      some ⟨cString row.text.1, db.text.held_cString _ row.text.2⟩ :=
  TextColumn.store_of_held (db.text.held_cString _ row.text.2)

theorem exists_put_flags_loaded (p : Platform) (proto : ItemTemplate) (row : Row db) :
    ∃ flags, db.put (unsigned 24) (loaded p proto row).flags.toNat = some flags :=
  ⟨_, IntColumn.store_of_holds (holds_flags_iff.2 (toNat_flags_loadItem_lt proto Item.new row))⟩

/-- A strict server refuses a row whose duration does not fit, and the row stays as it is. -/
theorem row_of_strict (hstrict : db.strict = true)
    (hge : ¬(loaded p proto row).duration.toNat < 2 ^ 31) :
    ((loaded p proto row).row db).getD (rowAfterLoad row (loadItem p proto Item.new row)) = row := by
  have hput : db.put (signed 32) (loaded p proto row).duration.toNat = none := by
    rw [Database.put, IntColumn.store_of_not_holds (mt holds_duration_iff.1 hge), if_pos hstrict]
  have hrow : (loaded p proto row).row db = none := by
    refine Option.eq_none_iff_forall_ne_some.2 fun row' hrow' => ?_
    have hduration := (row_eq_some_iff.1 hrow').duration
    rw [hput] at hduration
    cases hduration
  have honLoad : (loaded p proto row).rowOnLoad row = none := by
    rw [Item.rowOnLoad, hput]
    rfl
  have hafter : rowAfterLoad row (loadItem p proto Item.new row) = row := by
    unfold rowAfterLoad
    split_ifs
    · exact congrArg (Option.getD · row) honLoad
    · rfl
  rw [hrow, Option.getD_none, hafter]

/-- Another server stores a duration that does not fit as another one. -/
theorem not_stable_of_not_strict (hstrict : db.strict = false)
    (hge : ¬(loaded p proto row).duration.toNat < 2 ^ 31) :
    loaded p proto (((loaded p proto row).row db).getD
      (rowAfterLoad row (loadItem p proto Item.new row))) ≠ loaded p proto row := by
  obtain ⟨flags, hflags⟩ := exists_put_flags_loaded p proto row
  have hput : db.put (signed 32) (loaded p proto row).duration.toNat =
      some ((signed 32).clip (loaded p proto row).duration.toNat) := by
    rw [Database.put, IntColumn.store_of_not_holds (mt holds_duration_iff.1 hge), hstrict]
    rfl
  obtain ⟨row', hw, -⟩ := exists_writes_of_put hput hflags (putText_loaded p proto row)
  rw [row_eq_some_iff.2 hw, Option.getD_some]
  exact fun heq =>
    hge (duration_lt_of_loadItem duration_loaded_eq_zero_iff hw (congrArg Item.duration heq))

theorem rowAfterSave_eq {state : UpdateState} (hstate : state = .new ∨ state = .changed) :
    rowAfterSave p proto state row = some (((loaded p proto row).row db).getD
      (rowAfterLoad row (loadItem p proto Item.new row))) := by
  rcases hstate with rfl | rfl <;> rfl

theorem stable_iff {state : UpdateState} (hstate : state = .new ∨ state = .changed) :
    Stable p proto state row ↔
      if DurationFits proto row then EnchantmentsFit p row ∧ '\x00' ∉ row.text.1
      else db.strict = true := by
  unfold Stable
  rw [rowAfterSave_eq hstate]
  simp only [Option.some.injEq, exists_eq_left']
  split_ifs with hfits
  · have hlt : (loaded p proto row).duration.toNat < 2 ^ 31 := duration_loaded_lt_iff.2 hfits
    obtain ⟨flags, hflags⟩ := exists_put_flags_loaded p proto row
    obtain ⟨row', hw, hrow'⟩ := exists_writes_of_put
      (IntColumn.store_of_holds (holds_duration_iff.2 hlt)) hflags (putText_loaded p proto row)
    rw [row_eq_some_iff.2 hw, Option.getD_some, loaded_of_writes hw hlt, hrow',
      cString_eq_self_iff]
  · have hge : ¬(loaded p proto row).duration.toNat < 2 ^ 31 := mt duration_loaded_lt_iff.1 hfits
    cases hstrict : db.strict with
    | false => exact iff_of_false (not_stable_of_not_strict hstrict hge) Bool.false_ne_true
    | true =>
      rw [row_of_strict hstrict hge]
      exact iff_of_true rfl rfl

end Loaded

/-- **Main result.** A consistent item comes back from the database exactly when its flags have 24
bits, its duration 31, and the column holds its text. A row gives the same item again exactly when
the duration that is loaded has 31 bits, the enchantments are each a `long` and the text has no NUL,
or when the server refuses the duration. -/
theorem items_survive_iff (db : Database) (p : Platform) (proto : ItemTemplate) (state : UpdateState)
    (hstate : state = .new ∨ state = .changed) :
    (∀ item, Consistent p proto item → (Survives db p proto state item ↔ Storable db item)) ∧
      ∀ row : Row db, Stable p proto state row ↔
        if DurationFits proto row then EnchantmentsFit p row ∧ '\x00' ∉ row.text.1
        else db.strict = true :=
  ⟨fun _ h => survives_iff h hstate, fun _ => stable_iff hstate⟩

/-! ### An item whose flags do not fit -/

/-- Short texts of ASCII characters. -/
def AsciiHeld (size : ℕ) (s : List Char) : Prop := s.length ≤ size ∧ ∀ c ∈ s, c.toNat < 128

instance (size : ℕ) (s : List Char) : Decidable (AsciiHeld size s) :=
  @instDecidableAnd _ _ _ (List.decidableBAll (fun c => c.toNat < 128) s)

theorem asciiHeld_cString (size : ℕ) (s : List Char) (h : AsciiHeld size s) :
    AsciiHeld size (cString s) :=
  ⟨(List.takeWhile_sublist _).length_le.trans h.1,
    fun c hc => h.2 c ((List.takeWhile_sublist _).subset hc)⟩

/-- What a column for short ASCII texts stores. -/
def storeAscii (size : ℕ) (s : List Char) : Option {s // AsciiHeld size s} :=
  if h : AsciiHeld size s then some ⟨s, h⟩ else none

theorem storeAscii_held (size : ℕ) (s : {s // AsciiHeld size s}) : storeAscii size s.1 = some s :=
  dif_pos s.2

/-- A column for short ASCII texts. -/
def asciiColumn (size : ℕ) : TextColumn size where
  Held := AsciiHeld size
  store := storeAscii size
  store_held := storeAscii_held size
  held_ascii _ hlen hascii := ⟨hlen, hascii⟩
  held_cString := asciiHeld_cString size

/-- A server that moves numbers into the range of their columns. -/
def sampleDatabase : Database := ⟨false, asciiColumn 255, asciiColumn 65535, asciiColumn 65535⟩

theorem samplePlatform_le : 2 ^ 31 - 1 ≤ 2 ^ 63 - 1 := by decide

/-- A `long` of 64 bits. -/
def samplePlatform : Platform := ⟨2 ^ 63 - 1, samplePlatform_le⟩

/-- A template without duration. -/
def sampleTemplate : ItemTemplate := ⟨0, 1, 100, 7⟩

/-- A worn item with a negative random property, a used spell and some flags. -/
def sampleItem (flags : UInt32) : Item :=
  { Item.new with
    count := 1
    spellCharges := fun i => if i = 0 then -3 else 0
    flags := flags
    randomPropertyId := -12
    durability := 55
    maxDurability := 100
    text := ['h', 'i'] }

theorem sampleItem_consistent (flags : UInt32) :
    Consistent samplePlatform sampleTemplate (sampleItem flags) where
  enchantments _ := Nat.zero_le _
  randomPropertyId := (by decide : -2 ^ 15 ≤ (-12 : Int32).toInt ∧ (-12 : Int32).toInt < 2 ^ 15)
  durability_le := (by decide : (55 : UInt32) ≤ 100)
  durability_lt := (by decide : (55 : UInt32).toNat < 2 ^ 16)
  duration := Iff.rfl
  binding h := absurd h (by decide)

/-- A soulbound item. -/
theorem items_survive_sample :
    Survives sampleDatabase samplePlatform sampleTemplate .new (sampleItem itemFlagSoulbound) :=
  ((items_survive_iff sampleDatabase samplePlatform sampleTemplate .new (.inl rfl)).1 _
    (sampleItem_consistent itemFlagSoulbound)).2
    ⟨by decide, by decide, (by decide : AsciiHeld 65535 ['h', 'i']), by decide⟩

theorem zero_holds (bits : ℕ) : (unsigned bits).Holds 0 := ⟨le_rfl, unsigned_le bits⟩

theorem minus_one_holds : (signed 32).Holds (-1) := by decide

theorem zero_holds_signed : (signed 16).Holds 0 := by decide

theorem nil_held (size : ℕ) : AsciiHeld size [] := ⟨Nat.zero_le _, by simp⟩

/-- A row with a negative duration. -/
def negativeRow : Row sampleDatabase :=
  ⟨⟨0, zero_holds 32⟩, ⟨0, zero_holds 32⟩, ⟨0, zero_holds 32⟩, ⟨-1, minus_one_holds⟩,
    ⟨[], nil_held 255⟩, ⟨0, zero_holds 24⟩, ⟨[], nil_held 65535⟩, ⟨0, zero_holds_signed⟩,
    ⟨0, zero_holds 16⟩, ⟨0, zero_holds 32⟩, ⟨[], nil_held 65535⟩⟩

/-- `ItemFieldFlags` has the flag 0x01000000, which the column has not. And the column of the
durations has negative ones, which are saved as other ones. -/
theorem flags_and_durations_lost :
    Consistent samplePlatform sampleTemplate (sampleItem 0x01000001) ∧
      ¬Survives sampleDatabase samplePlatform sampleTemplate .new (sampleItem 0x01000001) ∧
      ¬Stable samplePlatform { sampleTemplate with duration := 60 } .changed negativeRow := by
  refine ⟨sampleItem_consistent _, fun h => ?_, fun h => ?_⟩
  · have hstorable := (survives_iff (sampleItem_consistent _) (.inl rfl)).1 h
    exact absurd hstorable.flags_lt (by decide)
  · have hstable := (stable_iff (.inr rfl)).1 h
    rw [if_neg (by decide)] at hstable
    exact Bool.false_ne_true hstable

end FaceCore.Items
