import FaceCore.Lib.Stock

/-!
# Where a player may store an item

The items of a player in their slots and bags, and the search for places of `Player::CanStoreItem`:
`CanStoreItem_InSpecificSlot`, `CanStoreItem_InBag`, `CanStoreItem_InInventorySlots`,
`CanTakeMoreSimilarItems`, and `Player::StoreItem`, which executes the plan found.

A position is a pair of a bag and a slot. `m_items` and the slots of every bag are one `Stock`: the
contents of a bag belong to the bag object, so a bag keeps them when it is moved. The answers that
depend on the rest of the server are in `World`: the templates, the limit categories and whether an
item is bound to somebody else.

The blocks of `CanStoreItem` between two tests of `count == 0` are the values of a list of `Stage`s,
which `runStages` goes through.
-/

namespace FaceCore.Storage

/-- The values of `InventoryResult` that the functions below name; `other` stands for those that
`CanUseItem` and `CanEquipUniqueItem` answer besides. -/
inductive InventoryResult
  | ok
  | itemDoesntGoToSlot
  | nonemptyBagOverOtherBag
  | noEquipmentSlotAvailable
  | cantEquipWithTwohanded
  | cantDualWield
  | itemDoesntGoIntoBag
  | cantCarryMoreOfThis
  | itemCantStack
  | itemCantBeEquipped
  | itemsCantBeSwapped
  | itemNotFound
  | cantDropSoulbound
  | triedToSplitMoreThanCount
  | couldntSplitItems
  | canOnlyDoWithEmptyBags
  | dontOwnThatItem
  | canEquipOnly1Quiver
  | mustPurchaseThatBagSlot
  | youAreDead
  | cantDoRightNow
  | canEquipOnly1Ammopouch
  | alreadyLooted
  | inventoryFull
  | bankFull
  | itemMaxLimitCategoryCountExceeded
  | other (code : ℕ)
  deriving DecidableEq

/-- `InventoryType`. -/
inductive InventoryType
  | nonEquip | head | neck | shoulders | body | chest | waist | legs | feet | wrists | hands
  | finger | trinket | weapon | shield | ranged | cloak | twoHandWeapon | bag | tabard | robe
  | weaponMainhand | weaponOffhand | holdable | ammo | thrown | rangedRight | quiver | relic
  deriving DecidableEq

/-- The values of `ItemClass` that are told apart. -/
inductive ItemClass
  | container | weapon | armor | quiver
  | other (cls : ℕ)
  deriving DecidableEq

/-- The fields of an `ItemTemplate` that storing an item reads. -/
structure ItemTemplate where
  itemClass : ItemClass
  subClass : ℕ
  inventoryType : InventoryType
  bagFamily : UInt32
  stackable : ℤ
  maxCount : ℤ
  itemLimitCategory : ℕ
  containerSlots : ℕ
  /-- `Bag::Create` refuses a template with more than `MAX_BAG_SIZE` slots. -/
  containerSlots_le : containerSlots ≤ 36
  /-- `GemProperties` is not zero: the item is a gem. -/
  gemProperties : Bool
  /-- `Socket[0].Color` is not zero. -/
  socketColor : Bool

theorem noSlots_le : 0 ≤ 36 := Nat.zero_le 36

/-- The fields of an item object besides its stack count. -/
structure Item where
  guid : ℕ
  entry : ℕ
  lootGenerated : Bool
  /-- `GemID` of the enchantments in its gem sockets. -/
  gems : List ℕ
  deriving DecidableEq

/-- An `ItemLimitCategoryEntry`; `modeHave` says that its mode is `ITEM_LIMIT_CATEGORY_MODE_HAVE`. -/
structure ItemLimitCategoryEntry where
  maxCount : ℕ
  modeHave : Bool

/-- What the functions below ask of the rest of the server. -/
structure World where
  /-- `ObjectMgr::GetItemTemplate`. -/
  template : ℕ → ItemTemplate
  /-- `sItemLimitCategoryStore.LookupEntry`. -/
  limitCategory : ℕ → Option ItemLimitCategoryEntry
  /-- `Item::IsBindedNotWith` the player. -/
  isBindedNotWith : Item → Bool

/-- A place of an item: a slot of `m_items`, or a slot of the bag with the given guid. -/
inductive Loc
  | slot (slot : ℕ)
  | inBag (guid slot : ℕ)
  deriving DecidableEq

/-- The items of a player. -/
abbrev Bags := Stock Loc Item

/-- A position: a bag and a slot. -/
abbrev Pos := ℕ × ℕ

/-- `NULL_BAG`, `NULL_SLOT` and `INVENTORY_SLOT_BAG_0`. -/
def nullBag : ℕ := 0

@[inherit_doc nullBag]
def nullSlot : ℕ := 255

@[inherit_doc nullBag]
def inventorySlotBag0 : ℕ := 255

/-- The first slot of a kind and the one behind its last: `INVENTORY_SLOT_BAG_START`, ... -/
def inventorySlotBagStart : ℕ := 19

@[inherit_doc inventorySlotBagStart]
def inventorySlotBagEnd : ℕ := 23

@[inherit_doc inventorySlotBagStart]
def inventorySlotItemStart : ℕ := 23

@[inherit_doc inventorySlotBagStart]
def inventorySlotItemEnd : ℕ := 39

@[inherit_doc inventorySlotBagStart]
def bankSlotItemStart : ℕ := 39

@[inherit_doc inventorySlotBagStart]
def bankSlotItemEnd : ℕ := 67

@[inherit_doc inventorySlotBagStart]
def bankSlotBagStart : ℕ := 67

@[inherit_doc inventorySlotBagStart]
def bankSlotBagEnd : ℕ := 74

@[inherit_doc inventorySlotBagStart]
def buybackSlotStart : ℕ := 74

@[inherit_doc inventorySlotBagStart]
def buybackSlotEnd : ℕ := 86

@[inherit_doc inventorySlotBagStart]
def keyringSlotStart : ℕ := 86

@[inherit_doc inventorySlotBagStart]
def keyringSlotEnd : ℕ := 118

@[inherit_doc inventorySlotBagStart]
def currencyTokenSlotStart : ℕ := 118

@[inherit_doc inventorySlotBagStart]
def currencyTokenSlotEnd : ℕ := 150

/-- `PLAYER_SLOT_END`. -/
def playerSlotEnd : ℕ := 150

/-- `Player::GetMaxKeyringSize`. -/
def getMaxKeyringSize : ℕ := keyringSlotEnd - keyringSlotStart

/-- The bag families `BAG_FAMILY_MASK_ARROWS`, ... -/
def bagFamilyMaskArrows : UInt32 := 0x1

@[inherit_doc bagFamilyMaskArrows]
def bagFamilyMaskBullets : UInt32 := 0x2

@[inherit_doc bagFamilyMaskArrows]
def bagFamilyMaskSoulShards : UInt32 := 0x4

@[inherit_doc bagFamilyMaskArrows]
def bagFamilyMaskLeatherworkingSupp : UInt32 := 0x8

@[inherit_doc bagFamilyMaskArrows]
def bagFamilyMaskInscriptionSupp : UInt32 := 0x10

@[inherit_doc bagFamilyMaskArrows]
def bagFamilyMaskHerbs : UInt32 := 0x20

@[inherit_doc bagFamilyMaskArrows]
def bagFamilyMaskEnchantingSupp : UInt32 := 0x40

@[inherit_doc bagFamilyMaskArrows]
def bagFamilyMaskEngineeringSupp : UInt32 := 0x80

@[inherit_doc bagFamilyMaskArrows]
def bagFamilyMaskKeys : UInt32 := 0x100

@[inherit_doc bagFamilyMaskArrows]
def bagFamilyMaskGems : UInt32 := 0x200

@[inherit_doc bagFamilyMaskArrows]
def bagFamilyMaskMiningSupp : UInt32 := 0x400

@[inherit_doc bagFamilyMaskArrows]
def bagFamilyMaskCurrencyTokens : UInt32 := 0x2000

namespace ItemTemplate

/-- `ItemTemplate::GetMaxStackSize`. -/
def getMaxStackSize (t : ItemTemplate) : ℕ :=
  if t.stackable = 2147483647 ∨ t.stackable ≤ 0 then 0x7FFFFFFE else t.stackable.toNat

/-- `BagFamily` has a bit of the mask. -/
def hasFamily (t : ItemTemplate) (mask : UInt32) : Bool := t.bagFamily &&& mask ≠ 0

/-- `ItemTemplate::IsCurrencyToken`. -/
def isCurrencyToken (t : ItemTemplate) : Bool := t.hasFamily bagFamilyMaskCurrencyTokens

/-- The template of a plain container: `ITEM_CLASS_CONTAINER` and `ITEM_SUBCLASS_CONTAINER`. -/
def isPlainContainer (t : ItemTemplate) : Bool := t.itemClass = .container ∧ t.subClass = 0

end ItemTemplate

/-- `ItemCanGoIntoBag`, by the subclass of the container or the quiver. -/
def itemCanGoIntoBag (proto bagProto : ItemTemplate) : Bool :=
  match bagProto.itemClass, bagProto.subClass with
  | .container, 0 => true
  | .container, 1 => proto.hasFamily bagFamilyMaskSoulShards
  | .container, 2 => proto.hasFamily bagFamilyMaskHerbs
  | .container, 3 => proto.hasFamily bagFamilyMaskEnchantingSupp
  | .container, 4 => proto.hasFamily bagFamilyMaskEngineeringSupp
  | .container, 5 => proto.hasFamily bagFamilyMaskGems
  | .container, 6 => proto.hasFamily bagFamilyMaskMiningSupp
  | .container, 7 => proto.hasFamily bagFamilyMaskLeatherworkingSupp
  | .container, 8 => proto.hasFamily bagFamilyMaskInscriptionSupp
  | .quiver, 2 => proto.hasFamily bagFamilyMaskArrows
  | .quiver, 3 => proto.hasFamily bagFamilyMaskBullets
  | _, _ => false

/-- The difference of two 32-bit numbers. -/
def sub32 (a b : ℕ) : ℕ := if b ≤ a then a - b else a + 2 ^ 32 - b

namespace World

variable (W : World)

/-- `Item::GetTemplate`. -/
def proto (item : Item) : ItemTemplate := W.template item.entry

/-- `ItemTemplate::GetMaxStackSize` of the template of an entry. -/
def maxStack (entry : ℕ) : ℕ := (W.template entry).getMaxStackSize

/-- `Item::IsBag`. -/
def isBag (item : Item) : Bool := (W.proto item).inventoryType = .bag

/-- `Bag::GetBagSize`. -/
def getBagSize (bag : Item) : ℕ := (W.proto bag).containerSlots

end World

section

variable (W : World) (inv : Bags)

/-- `Player::GetBagByPos`. -/
def getBagByPos (bag : ℕ) : Option (Cell Loc Item) :=
  if (inventorySlotBagStart ≤ bag ∧ bag < inventorySlotBagEnd) ∨
      (bankSlotBagStart ≤ bag ∧ bag < bankSlotBagEnd) then
    (inv.find (.slot bag)).filter fun c => W.isBag c.item
  else none

/-- The slots of `m_items` that `GetItemByPos` reads: all but those of the buyback. -/
def isItemSlot (slot : ℕ) : Bool :=
  slot < bankSlotBagEnd || (keyringSlotStart ≤ slot && slot < currencyTokenSlotEnd)

/-- The place at a position. -/
def locate (pos : Pos) : Option Loc :=
  if pos.1 = inventorySlotBag0 ∧ isItemSlot pos.2 then some (.slot pos.2)
  else
    match getBagByPos W inv pos.1 with
    | some b => if pos.2 < W.getBagSize b.item then some (.inBag b.item.guid pos.2) else none
    | none => none

/-- `Player::GetItemByPos`. -/
def getItemByPos (pos : Pos) : Option (Cell Loc Item) := (locate W inv pos).bind inv.find

/-- `Item::IsNotEmptyBag`. -/
def isNotEmptyBag (item : Item) : Bool :=
  W.isBag item && (List.range (W.getBagSize item)).any fun j =>
    (inv.find (.inBag item.guid j)).isSome

/-- `Item::CanBeMergedPartlyWith` the template of `entry`. -/
def canBeMergedPartlyWith (c : Cell Loc Item) (entry : ℕ) : InventoryResult :=
  if c.item.lootGenerated then .alreadyLooted
  else if c.item.entry ≠ entry then .itemCantStack
  else if c.count ≥ W.maxStack entry then .itemCantStack
  else .ok

/-- `Player::IsBagPos`. -/
def isBagPos (pos : Pos) : Bool :=
  (pos.1 = inventorySlotBag0 ∧ inventorySlotBagStart ≤ pos.2 ∧ pos.2 < inventorySlotBagEnd) ∨
    (pos.1 = inventorySlotBag0 ∧ bankSlotBagStart ≤ pos.2 ∧ pos.2 < bankSlotBagEnd)

/-! ### How many similar items there are -/

/-- The slots of `m_items` from `a` on and before `b`. -/
def slots (a b : ℕ) : List Pos := (List.range' a (b - a)).map fun j => (inventorySlotBag0, j)

/-- The slots of the bag at a bag position. -/
def bagSlots (bag : ℕ) : List Pos :=
  match getBagByPos W inv bag with
  | some b => (List.range (W.getBagSize b.item)).map fun j => (bag, j)
  | none => []

/-- The sum of a value of the items at some positions, without `skip`. -/
def sumAt (skip : Item) (f : Cell Loc Item → ℕ) (ps : List Pos) : ℕ :=
  (ps.map fun pos =>
    match getItemByPos W inv pos with
    | some c => if c.item.guid ≠ skip.guid then f c else 0
    | none => 0).sum

/-- The bags of the inventory and the bank. -/
def allBagSlots : List Pos :=
  ((List.range' inventorySlotBagStart 4) ++ List.range' bankSlotBagStart 7).flatMap (bagSlots W inv)

/-- The positions over which `GetItemCount` sums stack counts. -/
def countedSlots : List Pos :=
  slots 0 inventorySlotItemEnd ++ slots keyringSlotStart currencyTokenSlotEnd ++
    slots bankSlotItemStart bankSlotBagEnd ++ allBagSlots W inv

/-- `Player::GetItemCount` with `inBankAlso`: a gem is also counted in the sockets. -/
def getItemCount (entry : ℕ) (skip : Item) : ℕ :=
  (sumAt W inv skip (fun c => if c.item.entry = entry then c.count else 0) (countedSlots W inv) +
    if (W.proto skip).gemProperties then
      sumAt W inv skip
        (fun c => if (W.proto c.item).socketColor then c.item.gems.count entry else 0)
        (slots 0 inventorySlotItemEnd ++ slots bankSlotItemStart bankSlotItemEnd ++
          allBagSlots W inv)
    else 0) % 2 ^ 32

/-- `Player::GetItemCountWithLimitCategory`. -/
def getItemCountWithLimitCategory (limitCategory : ℕ) (skip : Item) : ℕ :=
  sumAt W inv skip
    (fun c => if (W.proto c.item).itemLimitCategory = limitCategory then c.count else 0)
    (countedSlots W inv) % 2 ^ 32

/-- `Player::CanTakeMoreSimilarItems` for an item of the given count: the answer and the number of
units that are too many. -/
def canTakeMoreSimilarItems (item : Item) (count : ℕ) : InventoryResult × ℕ :=
  let proto := W.proto item
  if item.lootGenerated then (.alreadyLooted, 0)
  else if (proto.maxCount ≤ 0 ∧ proto.itemLimitCategory = 0) ∨ proto.maxCount = 2147483647 then
    (.ok, 0)
  else
    let curcount := getItemCount W inv item.entry item
    let maxCount := proto.maxCount.toNat
    if proto.maxCount > 0 ∧ (curcount + count) % 2 ^ 32 > maxCount then
      (.cantCarryMoreOfThis, sub32 ((count + curcount) % 2 ^ 32) maxCount)
    else if proto.itemLimitCategory ≠ 0 then
      match W.limitCategory proto.itemLimitCategory with
      | none => (.itemCantBeEquipped, count)
      | some limitEntry =>
        let curcount := getItemCountWithLimitCategory W inv proto.itemLimitCategory item
        if limitEntry.modeHave ∧ (curcount + count) % 2 ^ 32 > limitEntry.maxCount then
          (.itemMaxLimitCategoryCountExceeded,
            sub32 ((count + curcount) % 2 ^ 32) limitEntry.maxCount)
        else (.ok, 0)
    else (.ok, 0)

/-! ### The search for places -/

/-- The item at a position, ignoring the item that is moved: its slot will be empty. -/
def otherItemByPos (src : Item) (pos : Pos) : Option (Cell Loc Item) :=
  (getItemByPos W inv pos).filter fun c => c.item.guid ≠ src.guid

/-- The room at a position for units of `src`, if the search for stacks to merge with (`merge`), or
for free slots (`¬ merge`), considers it. -/
def needSpace (src : Item) (merge : Bool) (pos : Pos) : Option ℕ :=
  match otherItemByPos W inv src pos with
  | some c =>
    if merge ∧ canBeMergedPartlyWith W c src.entry = .ok then
      some (W.maxStack src.entry - c.count)
    else none
  | none => if merge then none else some (W.maxStack src.entry)

/-- The loop of `CanStoreItem_InBag` and `CanStoreItem_InInventorySlots` over their positions. -/
def reserveIn (src : Item) (merge : Bool) : List Pos → Plan Pos → Plan Pos
  | [], plan => plan
  | pos :: ps, plan =>
    match needSpace W inv src merge pos with
    | none => reserveIn src merge ps plan
    | some need =>
      if pos ∈ plan.dest.map Prod.fst then reserveIn src merge ps plan
      else
        let plan' := plan.push pos need
        if plan'.count = 0 then plan' else reserveIn src merge ps plan'

/-- The tests of `CanStoreItem_InSpecificSlot` on an empty slot: the item must fit there. -/
def fitsToSlot (src : Item) (pos : Pos) : Bool :=
  if pos.1 = inventorySlotBag0 then
    !(keyringSlotStart ≤ pos.2 && pos.2 < keyringSlotStart + getMaxKeyringSize &&
        !(W.proto src).hasFamily bagFamilyMaskKeys) &&
      !(currencyTokenSlotStart ≤ pos.2 && pos.2 < currencyTokenSlotEnd &&
        !(W.proto src).isCurrencyToken) &&
      !((buybackSlotStart ≤ pos.2 && pos.2 < buybackSlotEnd) || playerSlotEnd ≤ pos.2)
  else
    match getBagByPos W inv pos.1 with
    | none => false
    | some b => pos.2 < W.getBagSize b.item && itemCanGoIntoBag (W.proto src) (W.proto b.item)

/-- `Player::CanStoreItem_InSpecificSlot`. -/
def canStoreItemInSpecificSlot (pos : Pos) (swap : Bool) (src : Item) (plan : Plan Pos) :
    Except InventoryResult (Plan Pos) :=
  if isNotEmptyBag W inv src && !isBagPos pos then .error .canOnlyDoWithEmptyBags
  else
    match otherItemByPos W inv src pos, swap with
    | some c, false =>
      match canBeMergedPartlyWith W c src.entry with
      | .ok => .ok (plan.reserve pos (W.maxStack src.entry - c.count))
      | res => .error res
    | _, _ =>
      if fitsToSlot W inv src pos then .ok (plan.reserve pos (W.maxStack src.entry))
      else .error .itemDoesntGoIntoBag

/-- `Player::CanStoreItem_InBag`. -/
def canStoreItemInBag (bag : ℕ) (merge nonSpecialized : Bool) (src : Item) (skip : Pos)
    (plan : Plan Pos) : Except InventoryResult (Plan Pos) :=
  if bag = skip.1 then .error .itemDoesntGoIntoBag
  else
    match getBagByPos W inv bag with
    | none => .error .itemDoesntGoIntoBag
    | some b =>
      if b.item.guid = src.guid then .error .itemDoesntGoIntoBag
      else if isNotEmptyBag W inv src then .error .canOnlyDoWithEmptyBags
      else if nonSpecialized ≠ (W.proto b.item).isPlainContainer then .error .itemDoesntGoIntoBag
      else if !itemCanGoIntoBag (W.proto src) (W.proto b.item) then .error .itemDoesntGoIntoBag
      else
        .ok (reserveIn W inv src merge ((bagSlots W inv bag).filter fun pos => pos.2 ≠ skip.2) plan)

/-- `Player::CanStoreItem_InInventorySlots`. -/
def canStoreItemInInventorySlots (slotBegin slotEnd : ℕ) (merge : Bool) (src : Item) (skip : Pos)
    (plan : Plan Pos) : Except InventoryResult (Plan Pos) :=
  if isNotEmptyBag W inv src then .error .canOnlyDoWithEmptyBags
  else .ok (reserveIn W inv src merge ((slots slotBegin slotEnd).filter fun pos => pos ≠ skip) plan)

end

/-- A block of `CanStoreItem` or `CanBankItem`: a search whose error ends the function (`fatal`) or
is passed over, or a test that may end it. -/
inductive Stage
  | search (fatal : Bool) (find : Plan Pos → Except InventoryResult (Plan Pos))
  | refuse (res : Option InventoryResult)

/-- Go through the blocks. After a search the function ends if every unit has a place; units of
which the player may not have more (`noSimilarCount`) are then refused. `full` is the answer when
no block is left. -/
def runStages (full : InventoryResult) (noSimilarCount : ℕ) :
    List Stage → Plan Pos → Except InventoryResult (List (Pos × ℕ))
  | [], _ => .error full
  | .refuse none :: stages, plan => runStages full noSimilarCount stages plan
  | .refuse (some res) :: _, _ => .error res
  | .search fatal find :: stages, plan =>
    match find plan with
    | .error res => if fatal then .error res else runStages full noSimilarCount stages plan
    | .ok plan' =>
      if plan'.count = 0 then
        if noSimilarCount = 0 then .ok plan'.dest else .error .cantCarryMoreOfThis
      else runStages full noSimilarCount stages plan'

section

variable (W : World) (inv : Bags) (src : Item)

/-- The search in the slots from `a` on and before `b`. -/
def inSlots (skip : Pos) (merge : Bool) (a b : ℕ) : Stage :=
  .search true (canStoreItemInInventorySlots W inv a b merge src skip)

/-- The search in one bag, specialized or not. -/
def inBag (pos : Pos) (merge : Bool) : Stage :=
  .search true fun plan =>
    match canStoreItemInBag W inv pos.1 merge false src (nullBag, pos.2) plan with
    | .ok plan' => .ok plan'
    | .error _ => canStoreItemInBag W inv pos.1 merge true src (nullBag, pos.2) plan

/-- The loop over the bags at the bag positions from `a` on and before `b`. -/
def inBags (skip : Pos) (merge nonSpecialized : Bool) (a b : ℕ) : List Stage :=
  (List.range' a (b - a)).map fun bag =>
    .search false (canStoreItemInBag W inv bag merge nonSpecialized src skip)

/-- The search for a free slot of the keyring or among the currency tokens; in a specific bag the
slots of the tokens are also tried for a key. -/
def inKeysOrTokens (skip : Pos) (specificBag : Bool) : List Stage :=
  if (W.proto src).hasFamily bagFamilyMaskKeys then
    inSlots W inv src skip false keyringSlotStart (keyringSlotStart + getMaxKeyringSize) ::
      if specificBag then [inSlots W inv src skip false currencyTokenSlotStart currencyTokenSlotEnd]
      else []
  else if (W.proto src).isCurrencyToken then
    [inSlots W inv src skip false currencyTokenSlotStart currencyTokenSlotEnd]
  else []

/-- The blocks of `Player::CanStoreItem`. -/
def canStoreItemStages (pos : Pos) (swap : Bool) : List Stage :=
  let proto := W.proto src
  let skip := pos
  -- in specific slot
  (if pos.1 ≠ nullBag ∧ pos.2 ≠ nullSlot then
    [.search true (canStoreItemInSpecificSlot W inv pos swap src)] else []) ++
  -- in specific bag
  (if pos.1 ≠ nullBag then
    (if proto.stackable ≠ 1 then
      if pos.1 = inventorySlotBag0 then
        [inSlots W inv src skip true keyringSlotStart currencyTokenSlotEnd,
          inSlots W inv src skip true inventorySlotItemStart inventorySlotItemEnd]
      else [inBag W inv src pos true]
    else []) ++
    (if pos.1 = inventorySlotBag0 then
      inKeysOrTokens W inv src skip true ++
        [inSlots W inv src skip false inventorySlotItemStart inventorySlotItemEnd]
    else [inBag W inv src pos false])
  else []) ++
  -- search stack for merge to
  (if proto.stackable ≠ 1 then
    [inSlots W inv src skip true keyringSlotStart currencyTokenSlotEnd,
      inSlots W inv src skip true inventorySlotItemStart inventorySlotItemEnd] ++
    (if proto.bagFamily ≠ 0 then
      inBags W inv src skip true false inventorySlotBagStart inventorySlotBagEnd else []) ++
    inBags W inv src skip true true inventorySlotBagStart inventorySlotBagEnd
  else []) ++
  -- search free slot - special bag case
  (if proto.bagFamily ≠ 0 then
    inKeysOrTokens W inv src skip false ++
      inBags W inv src skip false false inventorySlotBagStart inventorySlotBagEnd
  else []) ++
  [.refuse (if isNotEmptyBag W inv src then some .nonemptyBagOverOtherBag else none)] ++
  -- search free slot
  [inSlots W inv src skip false inventorySlotItemStart inventorySlotItemEnd] ++
  inBags W inv src skip false true inventorySlotBagStart inventorySlotBagEnd

/-- `Player::CanStoreItem` for an item of the given count: the plan, or the error. -/
def canStoreItem (pos : Pos) (count : ℕ) (swap : Bool) :
    Except InventoryResult (List (Pos × ℕ)) :=
  if src.lootGenerated then .error .alreadyLooted
  else if W.isBindedNotWith src then .error .dontOwnThatItem
  else
    let (res, noSimilarCount) := canTakeMoreSimilarItems W inv src count
    if res ≠ .ok ∧ count = noSimilarCount then .error res
    else
      runStages .inventoryFull noSimilarCount (canStoreItemStages W inv src pos swap)
        ⟨[], if res = .ok then count else sub32 count noSimilarCount⟩

end

/-! ### Storing along a plan -/

section

variable (W : World)

/-- `Item::CloneItem`: a new item object of the same entry, with the next free guid, and its
count. -/
def cloneItem (item : Item) (count guid : ℕ) : Option (Item × ℕ) :=
  if count < 1 then none
  else some (⟨guid, item.entry, false, []⟩, min count (W.maxStack item.entry))

/-- The place that `Player::_StoreItem` gives to an item at an empty position. -/
def storeLoc (inv : Bags) (pos : Pos) : Loc :=
  if pos.1 = inventorySlotBag0 then .slot pos.2
  else
    match getBagByPos W inv pos.1 with
    | some b => .inBag b.item.guid pos.2
    | none => .slot pos.2

/-- Put an item object into an empty position; `Bag::StoreItem` keeps a bag out of itself. -/
def place (inv : Bags) (pos : Pos) (item : Item) (count : ℕ) : Bags :=
  match storeLoc W inv pos with
  | .slot slot => inv.insert ⟨.slot slot, item, count⟩
  | .inBag guid slot =>
    if item.guid ≠ guid then inv.insert ⟨.inBag guid slot, item, count⟩ else inv

/-- `Player::_StoreItem`; `next` is the next free item guid. -/
def storeItemAt (next : ℕ) (inv : Bags) (pos : Pos) (item : Item) (count : ℕ) (clone : Bool) :
    ℕ × Bags :=
  match getItemByPos W inv pos with
  | some c => (next, inv.setCount c.loc (c.count + count))
  | none =>
    if clone then
      match cloneItem W item count next with
      | some (copy, n) => (next + 1, place W inv pos copy n)
      | none => (next, inv)
    else (next, place W inv pos item count)

/-- `Player::StoreItem`. -/
def storeItem (item : Item) : ℕ → Bags → List (Pos × ℕ) → ℕ × Bags
  | next, inv, [] => (next, inv)
  | next, inv, q :: dest =>
    if dest.isEmpty then storeItemAt W next inv q.1 item q.2 false
    else
      let r := storeItemAt W next inv q.1 item q.2 true
      storeItem item r.1 r.2 dest

/-- `Player::RemoveItem`: the object at a position leaves it. -/
def removeItem (inv : Bags) (pos : Pos) : Bags :=
  match getItemByPos W inv pos with
  | some c => inv.erase c.loc
  | none => inv

end

end FaceCore.Storage
