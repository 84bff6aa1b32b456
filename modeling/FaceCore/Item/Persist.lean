import FaceCore.Lib.Columns
import FaceCore.Lib.Numerals
import Mathlib.Data.List.OfFn

/-!
# Items in the database

The row of `item_instance` that an item is saved in, and the item that is loaded from it.

* `Item`, `ItemTemplate`: an item with the fields that are saved, and what loading asks its template;
* `Row`: a row of the table, each value in its column;
* `Item.row`, `written`, `saveToDB`: the columns that `SaveToDB` writes;
* `loadItem`, `loadFromDB`: `LoadFromDB`, with the row that is corrected while loading.

The creators are players, whose guids are their low parts. The owner and the entry are not looked at
when a row is loaded: they are arguments.
-/

namespace FaceCore.Items

open Columns Numerals

/-! ### Items -/

/-- `MAX_ITEM_PROTO_SPELLS`. -/
abbrev maxItemProtoSpells : ℕ := 5

/-- `MAX_ENCHANTMENT_SLOT`. -/
abbrev maxEnchantmentSlot : ℕ := 12

/-- `MAX_ENCHANTMENT_OFFSET`: an id, a duration and charges. -/
abbrev maxEnchantmentOffset : ℕ := 3

/-- What a template says about an item that is loaded. -/
structure ItemTemplate where
  duration : UInt32
  bonding : UInt32
  maxDurability : UInt32
  /-- `GenerateEnchSuffixFactor` of the entry. -/
  suffixFactor : UInt32

/-- An item. The enchantments are in the order of their fields: id, duration and charges of one slot
after the other. -/
@[ext]
structure Item where
  creator : UInt32
  giftCreator : UInt32
  count : UInt32
  duration : UInt32
  spellCharges : Fin maxItemProtoSpells → Int32
  flags : UInt32
  enchantments : Fin (maxEnchantmentSlot * maxEnchantmentOffset) → UInt32
  propertySeed : UInt32
  randomPropertyId : Int32
  durability : UInt32
  maxDurability : UInt32
  playedTime : UInt32
  text : List Char

/-- The fields of an object that was just made. -/
def Item.new : Item := ⟨0, 0, 0, 0, fun _ => 0, 0, fun _ => 0, 0, 0, 0, 0, 0, []⟩

def itemFlagSoulbound : UInt32 := 0x1

/-- `NO_BIND`. -/
def noBind : UInt32 := 0

/-- `ItemUpdateState`. -/
inductive UpdateState
  | unchanged
  | changed
  | new
  | removed
  deriving DecidableEq

/-! ### The table -/

/-- The server: whether it refuses numbers that a column does not hold, and its text columns. -/
structure Database where
  strict : Bool
  /-- `charges tinytext`. -/
  charges : TextColumn 255
  /-- `enchantments text`. -/
  enchantments : TextColumn 65535
  /-- `text text`. -/
  text : TextColumn 65535

/-- A row of `item_instance`. A text that is null is read as an empty one. -/
@[ext]
structure Row (db : Database) where
  /-- `int(10) unsigned`. -/
  creatorGuid : (unsigned 32).Value
  /-- `int(10) unsigned`. -/
  giftCreatorGuid : (unsigned 32).Value
  /-- `int(10) unsigned`. -/
  count : (unsigned 32).Value
  /-- `int(10)`. -/
  duration : (signed 32).Value
  charges : db.charges.Value
  /-- `mediumint(8) unsigned`. -/
  flags : (unsigned 24).Value
  enchantments : db.enchantments.Value
  /-- `smallint(5)`. -/
  randomPropertyId : (signed 16).Value
  /-- `smallint(5) unsigned`. -/
  durability : (unsigned 16).Value
  /-- `int(10) unsigned`. -/
  playedTime : (unsigned 32).Value
  text : db.text.Value

/-- Store a number. -/
def Database.put (db : Database) (c : IntColumn) (z : ℤ) : Option c.Value := c.store db.strict z

/-- Store a text. -/
def Database.putText {size : ℕ} (c : TextColumn size) (s : List Char) : Option c.Value :=
  c.store (cString s)

/-! ### Saving -/

/-- `ssSpells`. -/
def Item.ssSpells (item : Item) : List Char :=
  terminated ' ' ((List.ofFn item.spellCharges).map fun x => decimal x.toInt)

/-- `ssEnchants`. -/
def Item.ssEnchants (item : Item) : List Char :=
  terminated ' ' ((List.ofFn item.enchantments).map fun x => decimal x.toNat)

/-- The row that `CHAR_REP_ITEM_INSTANCE` and `CHAR_UPD_ITEM_INSTANCE` write, if they do not fail. -/
def Item.row (db : Database) (item : Item) : Option (Row db) := do
  let creatorGuid ← db.put (unsigned 32) item.creator.toNat
  let giftCreatorGuid ← db.put (unsigned 32) item.giftCreator.toNat
  let count ← db.put (unsigned 32) item.count.toNat
  let duration ← db.put (signed 32) item.duration.toNat
  let charges ← Database.putText db.charges item.ssSpells
  let flags ← db.put (unsigned 24) item.flags.toNat
  let enchantments ← Database.putText db.enchantments item.ssEnchants
  let randomPropertyId ← db.put (signed 16) item.randomPropertyId.toInt16.toInt
  let durability ← db.put (unsigned 16) item.durability.toUInt16.toNat
  let playedTime ← db.put (unsigned 32) item.playedTime.toNat
  let text ← Database.putText db.text item.text
  return ⟨creatorGuid, giftCreatorGuid, count, duration, charges, flags, enchantments,
    randomPropertyId, durability, playedTime, text⟩

/-- The row that `SaveToDB` writes. -/
def written (db : Database) (state : UpdateState) (item : Item) : Option (Row db) :=
  match state with
  | .new | .changed => item.row db
  | .unchanged | .removed => none

/-- `SaveToDB`: the row of the item before and after it. A statement that fails leaves it. -/
def saveToDB {db : Database} (state : UpdateState) (item : Item) (row : Row db) :
    Option (Row db) :=
  match state with
  | .removed => none
  | state => some ((written db state item).getD row)

/-! ### Loading -/

/-- `GetUInt32`, and what is assigned to a `uint32`. -/
def toUInt32 (z : ℤ) : UInt32 := UInt32.ofNat (z % 2 ^ 32).toNat

/-- `GetUInt16`. -/
def toUInt16 (z : ℤ) : UInt16 := UInt16.ofNat (z % 2 ^ 16).toNat

/-- The largest `long`, which `atoi` and `atol` read. -/
structure Platform where
  longMax : ℕ
  le_longMax : 2 ^ 31 - 1 ≤ longMax

/-- `atoi`. -/
def Platform.atoi (p : Platform) (s : List Char) : Int32 := Int32.ofInt (parse p.longMax s)

/-- `atol`, assigned to a `uint32`. -/
def Platform.atol (p : Platform) (s : List Char) : UInt32 := toUInt32 (parse p.longMax s)

/-- The duration has to be updated: it is zero and that of the template is not, or the other way
round. -/
def ItemTemplate.fixDuration (proto : ItemTemplate) (duration : UInt32) : Bool :=
  (proto.duration == 0) != (duration == 0)

/-- The item is soulbound and its template does not bind. -/
def ItemTemplate.fixBinding (proto : ItemTemplate) (flags : UInt32) : Bool :=
  flags &&& itemFlagSoulbound != 0 && proto.bonding == noBind

/-- `LoadFromDB` behind the template check, into an object with some fields: the item and
`need_save`. A list of charges or enchantments of the wrong length is not read. -/
def loadItem {db : Database} (p : Platform) (proto : ItemTemplate) (old : Item) (row : Row db) :
    Item × Bool :=
  let duration := toUInt32 row.duration
  let flags := toUInt32 row.flags
  let charges := tokens ' ' [] row.charges.1
  let enchants := tokens ' ' [] (cString row.enchantments.1)
  let randomPropertyId := (Int16.ofInt row.randomPropertyId).toInt32
  let durability := (toUInt16 row.durability).toUInt32
  ({  creator := toUInt32 row.creatorGuid
      giftCreator := toUInt32 row.giftCreatorGuid
      count := toUInt32 row.count
      duration := if proto.fixDuration duration then proto.duration else duration
      spellCharges :=
        if charges.length = maxItemProtoSpells then fun i => p.atoi (charges.getD i [])
        else old.spellCharges
      flags := if proto.fixBinding flags then flags &&& ~~~itemFlagSoulbound else flags
      enchantments :=
        if enchants.length = maxEnchantmentSlot * maxEnchantmentOffset then
          fun i => p.atol (enchants.getD i [])
        else old.enchantments
      randomPropertyId := randomPropertyId
      propertySeed := if randomPropertyId < 0 then proto.suffixFactor else old.propertySeed
      durability := if proto.maxDurability < durability then proto.maxDurability else durability
      maxDurability := proto.maxDurability
      playedTime := toUInt32 row.playedTime
      text := row.text.1 },
    proto.fixDuration duration || proto.fixBinding flags ||
      decide (proto.maxDurability < durability))

/-- `LoadFromDB`: without a template there is no item. -/
def loadFromDB {db : Database} (p : Platform) (proto : Option ItemTemplate) (old : Item)
    (row : Row db) : Option (Item × Bool) :=
  proto.map fun proto => loadItem p proto old row

/-- `CHAR_UPD_ITEM_INSTANCE_ON_LOAD`. -/
def Item.rowOnLoad {db : Database} (item : Item) (row : Row db) : Option (Row db) := do
  let duration ← db.put (signed 32) item.duration.toNat
  let flags ← db.put (unsigned 24) item.flags.toNat
  let durability ← db.put (unsigned 16) item.durability.toNat
  return { row with duration := duration, flags := flags, durability := durability }

/-- The row after the item was loaded from it. -/
def rowAfterLoad {db : Database} (row : Row db) (loaded : Item × Bool) : Row db :=
  if loaded.2 then (loaded.1.rowOnLoad row).getD row else row

end FaceCore.Items
