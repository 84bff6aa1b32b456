import FaceCore.Lib.Runs
import FaceCore.Lib.Table

/-!
# Loot

A `Loot` and what is done with it: `Loot::AddItem`, `FillLoot`, `FillNotNormalLootFor` with
`FillQuestLoot`, `FillFFALoot` and `FillNonQuestNonFFAConditionalLoot`, `LootItemInSlot`,
`Player::StoreLootItem` and `WorldSession::HandleLootMasterGiveOpcode`.

Whether an entry is looted is kept in the entry (`is_looted`) and, for entries that are listed for
single players, in their lists; `unlootedCount` is a byte that the filling counts up and the looting
counts down.

* `Loot`, `Event`, `step`: the loot with a record of the deliveries, what can happen to it, and what
  it is afterwards;
* `fillLoot`: `Loot::FillLoot`, and `fillEvents`, the run of events that it is
  (`fillLoot_eq_foldl`).

What the loot does not decide is a parameter: the item templates, the answer of `AllowedForPlayer`
and `CanStoreNewItem`, the entries that a loot template rolls. Random properties, the players allowed
to trade the item, thresholds, achievements and messages are left out; rolls of a group, which block
entries, are not part of these runs.
-/

namespace FaceCore.LootMgr

/-- `MAX_NR_LOOT_ITEMS`. -/
def maxNrLootItems : ℕ := 16

/-- `MAX_NR_QUEST_ITEMS`. -/
def maxNrQuestItems : ℕ := 32

/-- `LootMethod`. -/
inductive LootMethod
  | freeForAll
  | roundRobin
  | masterLoot
  | groupLoot
  | needBeforeGreed
  deriving DecidableEq

/-- The fields of `ItemTemplate` that the loot reads: `GetMaxStackSize()`, the flags
`ITEM_PROTO_FLAG_PARTY_LOOT` and `ITEM_FLAGS_CU_FOLLOW_LOOT_RULES`, and `IsCurrencyToken()`. -/
structure ItemTemplate where
  maxStackSize : ℕ
  partyLoot : Bool
  followLootRules : Bool
  currencyToken : Bool

/-- What the loot asks of the rest of the world: item templates, and for an item, its conditions,
its `needs_quest` flag and a player the answer of `LootItem::AllowedForPlayer`. -/
structure World where
  template : UInt32 → Option ItemTemplate
  allowed : UInt32 → List UInt32 → Bool → UInt32 → Bool

/-- `LootStoreItem`, for an entry that is not a reference. -/
structure LootStoreItem where
  itemid : UInt32
  needsQuest : Bool
  conditions : List UInt32

/-- `LootItem`. -/
structure LootItem where
  itemid : UInt32
  conditions : List UInt32
  needsQuest : Bool
  freeforall : Bool
  followLootRules : Bool
  count : ℕ
  isLooted : Bool
  isBlocked : Bool
  isCounted : Bool

/-- `QuestItem`: an entry as it is listed for one player. -/
structure QuestItem where
  index : ℕ
  isLooted : Bool

/-- `QuestItemMap`: lists of entries by the guid of the player. -/
abbrev QuestItemMap := Table (Prod.fst : UInt32 × List QuestItem → UInt32)

/-- `Loot`. -/
structure Loot where
  items : List LootItem
  questItems : List LootItem
  gold : UInt32
  unlootedCount : UInt8
  playerQuestItems : QuestItemMap
  playerFFAItems : QuestItemMap
  playerNonQuestNonFFAConditionalItems : QuestItemMap

/-- `Loot::Loot`. -/
def Loot.new (gold : UInt32) : Loot :=
  ⟨[], [], gold, 0, Table.empty _, Table.empty _, Table.empty _⟩

/-- `Loot::isLooted`. -/
def Loot.isLooted (l : Loot) : Bool := l.gold = 0 && l.unlootedCount = 0

/-- A player who is given access to the loot, and the group he is in: its loot method and the guid
of its looter. -/
structure Looter where
  guid : UInt32
  group : Option (LootMethod × UInt32)

/-- `LootItem::AllowedForPlayer`. -/
def LootItem.allowedForPlayer (w : World) (item : LootItem) (player : UInt32) : Bool :=
  w.allowed item.itemid item.conditions item.needsQuest player

/-- The test of `FillQuestLoot` and `FillNonQuestNonFFAConditionalLoot`: the item is allowed for the
player, or it follows the loot rules and these do not leave it to another master looter. -/
def LootItem.availableTo (w : World) (item : LootItem) (p : Looter) : Bool :=
  item.allowedForPlayer w p.guid ||
    (item.followLootRules &&
      match p.group with
      | none => false
      | some (method, looterGuid) =>
        (method = .masterLoot && looterGuid = p.guid) || method ≠ .masterLoot)

/-! ### Filling -/

/-- `LootItem::LootItem(LootStoreItem const&)`, with its count. -/
def LootItem.new (w : World) (li : LootStoreItem) (count : ℕ) : LootItem where
  itemid := li.itemid
  conditions := li.conditions
  needsQuest := li.needsQuest
  freeforall := ((w.template li.itemid).map ItemTemplate.partyLoot).getD false
  followLootRules := ((w.template li.itemid).map ItemTemplate.followLootRules).getD false
  count := count
  isLooted := false
  isBlocked := false
  isCounted := false

/-- The loop of `AddItem` over the stacks; `count` is a bit field of eight bits in the item. -/
def addStacks (w : World) (item : LootStoreItem) (proto : ItemTemplate) :
    ℕ → ℕ → Loot → Loot
  | 0, _, l => l
  | stackCount + 1, count, l =>
    let generatedLoot := LootItem.new w item (min count proto.maxStackSize % 256)
    if item.needsQuest then
      if l.questItems.length < maxNrQuestItems then
        addStacks w item proto stackCount (count - proto.maxStackSize)
          { l with questItems := l.questItems ++ [generatedLoot] }
      else l
    else if l.items.length < maxNrLootItems then
      addStacks w item proto stackCount (count - proto.maxStackSize)
        { l with
          items := l.items ++ [generatedLoot]
          -- free for all and conditional items are counted when they are listed
          unlootedCount :=
            if item.conditions.isEmpty && !proto.partyLoot then l.unlootedCount + 1
            else l.unlootedCount }
    else l

/-- `Loot::AddItem`, where `urand` gave `count`. -/
def addItem (w : World) (l : Loot) (item : LootStoreItem) (count : ℕ) : Loot :=
  match w.template item.itemid with
  | none => l
  | some proto =>
    let stackCount :=
      count / proto.maxStackSize + (if count % proto.maxStackSize ≠ 0 then 1 else 0)
    addStacks w item proto stackCount count l

/-- One turn of the loop of `FillFFALoot`: the loot and the list so far. -/
def ffaTurn (w : World) (p : Looter) (s : Loot × List QuestItem) (i : ℕ) : Loot × List QuestItem :=
  match s.1.items[i]? with
  | none => s
  | some item =>
    if !item.isLooted && item.freeforall && item.allowedForPlayer w p.guid then
      ({ s.1 with unlootedCount := s.1.unlootedCount + 1 }, s.2 ++ [⟨i, false⟩])
    else s

/-- `Loot::FillFFALoot`. -/
def fillFFALoot (w : World) (l : Loot) (p : Looter) : Loot :=
  let (l, ql) := (List.range l.items.length).foldl (ffaTurn w p) (l, [])
  if ql.isEmpty then l
  else { l with playerFFAItems := l.playerFFAItems.insert (p.guid, ql) }

/-- Whether listing a quest item for the player blocks it: always but under group loot and round
robin. -/
def Looter.blocks (p : Looter) : Bool :=
  match p.group with
  | none => true
  | some (method, _) => method ≠ .groupLoot && method ≠ .roundRobin

/-- The loot after the quest item at `i` is listed for a player. -/
def Loot.listQuest (l : Loot) (p : Looter) (i : ℕ) (item : LootItem) : Loot :=
  { l with
    -- once if one looter only, looter-times if free for all
    unlootedCount :=
      if item.freeforall || !item.isBlocked then l.unlootedCount + 1 else l.unlootedCount
    questItems :=
      if p.blocks then l.questItems.set i { item with isBlocked := true } else l.questItems }

/-- The loop of `FillQuestLoot` over the indices that are left: the loot and the list. -/
def questLoop (w : World) (p : Looter) : List ℕ → Loot × List QuestItem → Loot × List QuestItem
  | [], s => s
  | i :: is, s =>
    match s.1.questItems[i]? with
    | none => s
    | some item =>
      if !item.isLooted && item.availableTo w p then
        let l := s.1.listQuest p i item
        let ql := s.2 ++ [⟨i, false⟩]
        if l.items.length + ql.length = maxNrLootItems then (l, ql)
        else questLoop w p is (l, ql)
      else questLoop w p is s

/-- `Loot::FillQuestLoot`. -/
def fillQuestLoot (w : World) (l : Loot) (p : Looter) : Loot :=
  if l.items.length = maxNrLootItems then l
  else
    let (l, ql) := questLoop w p (List.range l.questItems.length) (l, [])
    if ql.isEmpty then l
    else { l with playerQuestItems := l.playerQuestItems.insert (p.guid, ql) }

/-- The loot after the conditional item at `i` is listed for a player. -/
def Loot.listCond (l : Loot) (i : ℕ) (item : LootItem) : Loot :=
  if item.isCounted then l
  else
    { l with
      unlootedCount := l.unlootedCount + 1
      items := l.items.set i { item with isCounted := true } }

/-- One turn of the loop of `FillNonQuestNonFFAConditionalLoot`. -/
def condTurn (w : World) (p : Looter) (s : Loot × List QuestItem) (i : ℕ) :
    Loot × List QuestItem :=
  match s.1.items[i]? with
  | none => s
  | some item =>
    if !item.isLooted && !item.freeforall && item.availableTo w p && !item.conditions.isEmpty then
      (s.1.listCond i item, s.2 ++ [⟨i, false⟩])
    else s

/-- `Loot::FillNonQuestNonFFAConditionalLoot`. -/
def fillNonQuestNonFFAConditionalLoot (w : World) (l : Loot) (p : Looter) : Loot :=
  let (l, ql) := (List.range l.items.length).foldl (condTurn w p) (l, [])
  if ql.isEmpty then l
  else
    { l with
      playerNonQuestNonFFAConditionalItems :=
        l.playerNonQuestNonFFAConditionalItems.insert (p.guid, ql) }

/-- The first part of `Loot::FillNotNormalLootFor`: the lists of a player who has none yet. -/
def fillLists (w : World) (l : Loot) (p : Looter) : Loot :=
  let l := if (l.playerQuestItems.find p.guid).isNone then fillQuestLoot w l p else l
  let l := if (l.playerFFAItems.find p.guid).isNone then fillFFALoot w l p else l
  if (l.playerNonQuestNonFFAConditionalItems.find p.guid).isNone then
    fillNonQuestNonFFAConditionalLoot w l p
  else l

/-- `Loot::GetMaxSlotInLootFor`. -/
def getMaxSlotInLootFor (l : Loot) (player : UInt32) : ℕ :=
  l.items.length +
    match l.playerQuestItems.find player with
    | some (_, ql) => ql.length
    | none => 0

/-! ### Looting -/

/-- An entry of the loot, by its place in `items` or `quest_items`. -/
inductive Entry
  | item (i : ℕ)
  | quest (i : ℕ)
  deriving DecidableEq

/-- The item of an entry. -/
def Loot.itemAt (l : Loot) : Entry → Option LootItem
  | .item i => l.items[i]?
  | .quest i => l.questItems[i]?

/-- Put an item in the place of an entry. -/
def Loot.setItem (l : Loot) (e : Entry) (item : LootItem) : Loot :=
  match e with
  | .item i => { l with items := l.items.set i item }
  | .quest i => { l with questItems := l.questItems.set i item }

/-- The `QuestItem` that `LootItemInSlot` points to, by its place in the player's list: `qitem`,
`ffaitem` or `conditem`. -/
inductive Listed
  | qitem (pos : ℕ)
  | ffaitem (pos : ℕ)
  | conditem (pos : ℕ)
  deriving DecidableEq

/-- The first place of an entry in the list of a player, with what stands there. -/
def position (m : QuestItemMap) (player : UInt32) (i : ℕ) : Option (ℕ × QuestItem) :=
  match m.find player with
  | none => none
  | some (_, ql) =>
    match ql.findIdx? fun q => q.index = i with
    | none => none
    | some pos => (ql[pos]?).map fun q => (pos, q)

/-- What `LootItemInSlot` finds: the entry, its item, and what it points to. -/
structure Found where
  entry : Entry
  item : LootItem
  listed : Option Listed

/-- `Loot::LootItemInSlot`. A flag in the player's own list overrides the one of the entry. -/
def lootItemInSlot (l : Loot) (lootSlot : ℕ) (player : UInt32) : Option Found :=
  if l.items.length ≤ lootSlot then
    let questSlot := lootSlot - l.items.length
    match l.playerQuestItems.find player with
    | none => none
    | some (_, ql) =>
      match ql[questSlot]? with
      | none => none
      | some q =>
        match l.questItems[q.index]? with
        | none => none
        | some item =>
          if q.isLooted then none else some ⟨.quest q.index, item, some (.qitem questSlot)⟩
  else
    match l.items[lootSlot]? with
    | none => none
    | some item =>
      let found : Option (Listed × QuestItem) :=
        if item.freeforall then
          (position l.playerFFAItems player lootSlot).map fun (pos, q) => (.ffaitem pos, q)
        else if !item.conditions.isEmpty then
          (position l.playerNonQuestNonFFAConditionalItems player lootSlot).map
            fun (pos, q) => (.conditem pos, q)
        else none
      match found with
      | some (listed, q) => if q.isLooted then none else some ⟨.item lootSlot, item, some listed⟩
      | none => if item.isLooted then none else some ⟨.item lootSlot, item, none⟩

/-- Set `is_looted` in the list of a player. -/
def markLooted (m : QuestItemMap) (player : UInt32) (pos : ℕ) : QuestItemMap :=
  m.modify player (fun r => (r.1, r.2.modify pos fun q => { q with isLooted := true }))
    fun _ => rfl

/-- Set `is_looted` in what `LootItemInSlot` points to. -/
def Loot.mark (l : Loot) (player : UInt32) : Option Listed → Loot
  | none => l
  | some (.qitem pos) => { l with playerQuestItems := markLooted l.playerQuestItems player pos }
  | some (.ffaitem pos) => { l with playerFFAItems := markLooted l.playerFFAItems player pos }
  | some (.conditem pos) =>
    { l with
      playerNonQuestNonFFAConditionalItems :=
        markLooted l.playerNonQuestNonFFAConditionalItems player pos }

/-- Whether what `LootItemInSlot` found is a quest item of the player. -/
def Found.isQuest (f : Found) : Bool :=
  match f.listed with
  | some (.qitem _) => true
  | _ => false

/-- A loot with the record of what was put into inventories: the entry and the player, the last
delivery first. -/
structure State where
  loot : Loot
  log : List (Entry × UInt32)

/-- Record a delivery; no item is created at count zero. -/
def State.deliver (s : State) (e : Entry) (player : UInt32) (count : ℕ) : State :=
  if count = 0 then s else { s with log := (e, player) :: s.log }

/-- The loot after an item that `LootItemInSlot` found is looted. -/
def Loot.take (l : Loot) (player : UInt32) (f : Found) : Loot :=
  let l := l.mark player f.listed
  -- if only one person is supposed to loot the item, then set it to looted
  let l := if f.item.freeforall then l else l.setItem f.entry { f.item with isLooted := true }
  { l with unlootedCount := l.unlootedCount - 1 }

/-- `Player::StoreLootItem`; `canStore` is whether `CanStoreNewItem` answers `EQUIP_ERR_OK`. -/
def storeLootItem (s : State) (player : UInt32) (lootSlot : ℕ) (canStore : Bool) : State :=
  match lootItemInSlot s.loot lootSlot player with
  | none => s
  | some f =>
    -- quest items use the blocked field for other purposes
    if !f.isQuest && f.item.isBlocked then s
    else if !canStore then s
    else { s.deliver f.entry player f.item.count with loot := s.loot.take player f }

/-- The entry of a slot of the master looter. -/
def Loot.entryOfSlot (l : Loot) (slot : ℕ) : Entry :=
  if l.items.length ≤ slot then .quest (slot - l.items.length) else .item slot

/-- The loot after the master looter gives an entry away. -/
def Loot.give (l : Loot) (e : Entry) (item : LootItem) : Loot :=
  let l := l.setItem e { item with count := 0, isLooted := true }
  { l with unlootedCount := l.unlootedCount - 1 }

/-- `WorldSession::HandleLootMasterGiveOpcode`. `valid` is the outcome of the checks before the loot
is looked at: the player is the looter of his group, the target is found, and the loot is the one
that he has open; `canStore` is whether the target's `CanStoreNewItem` answers `EQUIP_ERR_OK`. -/
def lootMasterGive (w : World) (s : State) (valid : Bool) (slotid : ℕ) (target : UInt32)
    (canStore : Bool) : State :=
  if !valid then s
  else
    match s.loot.itemAt (s.loot.entryOfSlot slotid) with
    | none => s
    | some item =>
      if !canStore || (item.followLootRules && !item.allowedForPlayer w target) then s
      else
        let e := s.loot.entryOfSlot slotid
        { s.deliver e target item.count with loot := s.loot.give e item }

/-- One turn of the loop of `FillNotNormalLootFor` over the currency items. It looks at the entry
with the number of the slot, and asks for the slot. -/
def currencyTurn (w : World) (p : Looter) (canStore : Bool) (s : State) (i : ℕ) : State :=
  match s.loot.itemAt (s.loot.entryOfSlot i) with
  | none => s
  | some item =>
    if !item.isLooted && item.freeforall && item.allowedForPlayer w p.guid then
      match w.template item.itemid with
      | none => s
      | some proto => if proto.currencyToken then storeLootItem s p.guid i canStore else s
    else s

/-- A member of the group at the filling: whether he is near enough, and the answers of his
`CanStoreNewItem` by slot. -/
structure Member where
  looter : Looter
  presentAtLooting : Bool
  canStore : ℕ → Bool

/-- `Loot::FillNotNormalLootFor`. -/
def fillNotNormalLootFor (w : World) (s : State) (m : Member) : State :=
  let s := { s with loot := fillLists w s.loot m.looter }
  if !m.presentAtLooting then s
  else
    (List.range (getMaxSlotInLootFor s.loot m.looter.guid)).foldl
      (fun s i => currencyTurn w m.looter (m.canStore i) s i) s

/-- What `FillLoot` gets: the entries that the loot template rolls with their counts, and the
members of the group, or for personal loot the owner alone, who is present. -/
structure Fill where
  gold : UInt32
  drops : List (LootStoreItem × ℕ)
  members : List Member

/-- The loot after the template is processed. -/
def processed (w : World) (fill : Fill) : State :=
  ⟨fill.drops.foldl (fun l d => addItem w l d.1 d.2) (Loot.new fill.gold), []⟩

/-- `Loot::FillLoot`. -/
def fillLoot (w : World) (fill : Fill) : State :=
  fill.members.foldl (fillNotNormalLootFor w) (processed w fill)

/-! ### Events -/

/-- A request on a loot. -/
inductive Request
  | storeLootItem (player : UInt32) (lootSlot : ℕ) (canStore : Bool)
  | lootMasterGive (valid : Bool) (slotid : ℕ) (target : UInt32) (canStore : Bool)

/-- What can happen to a loot: the steps of its filling, and requests. -/
inductive Event
  | addItem (item : LootStoreItem) (count : ℕ)
  | fillLists (p : Looter)
  | currency (p : Looter) (i : ℕ) (canStore : Bool)
  | request (r : Request)

/-- The loot after a request. -/
def serve (w : World) (s : State) : Request → State
  | .storeLootItem player lootSlot canStore => storeLootItem s player lootSlot canStore
  | .lootMasterGive valid slotid target canStore => lootMasterGive w s valid slotid target canStore

/-- The loot after an event. -/
def step (w : World) (s : State) : Event → State
  | .addItem item count => { s with loot := addItem w s.loot item count }
  | .fillLists p => { s with loot := fillLists w s.loot p }
  | .currency p i canStore => currencyTurn w p canStore s i
  | .request r => serve w s r

/-- The events of `FillNotNormalLootFor`. -/
def memberEvents (w : World) (s : State) (m : Member) : List Event :=
  .fillLists m.looter ::
    if !m.presentAtLooting then []
    else
      (List.range (getMaxSlotInLootFor (fillLists w s.loot m.looter) m.looter.guid)).map
        fun i => .currency m.looter i (m.canStore i)

/-- The events of the members, one after the other. -/
def membersEvents (w : World) : State → List Member → List Event
  | _, [] => []
  | s, m :: ms => memberEvents w s m ++ membersEvents w (fillNotNormalLootFor w s m) ms

/-- The events of `FillLoot`. -/
def fillEvents (w : World) (fill : Fill) : List Event :=
  fill.drops.map (fun d => .addItem d.1 d.2) ++ membersEvents w (processed w fill) fill.members

/-- A loot before it is filled. -/
def State.new (gold : UInt32) : State := ⟨Loot.new gold, []⟩

theorem fillNotNormalLootFor_eq_foldl (w : World) (s : State) (m : Member) :
    fillNotNormalLootFor w s m = (memberEvents w s m).foldl (step w) s := by
  unfold fillNotNormalLootFor memberEvents
  rw [List.foldl_cons]
  split_ifs
  · rfl
  · rw [List.foldl_map]
    rfl

theorem foldl_membersEvents (w : World) (s : State) (ms : List Member) :
    ms.foldl (fillNotNormalLootFor w) s = (membersEvents w s ms).foldl (step w) s := by
  induction ms generalizing s with
  | nil => rfl
  | cons m ms ih =>
    rw [List.foldl_cons, ih, membersEvents, List.foldl_append, ← fillNotNormalLootFor_eq_foldl]

theorem processed_eq_foldl (w : World) (fill : Fill) :
    processed w fill =
      (fill.drops.map fun d => Event.addItem d.1 d.2).foldl (step w) (State.new fill.gold) := by
  have haux : ∀ (ds : List (LootStoreItem × ℕ)) (l : Loot),
      (⟨ds.foldl (fun l d => addItem w l d.1 d.2) l, []⟩ : State) =
        (ds.map fun d => Event.addItem d.1 d.2).foldl (step w) ⟨l, []⟩ := by
    intro ds
    induction ds with
    | nil => exact fun _ => rfl
    | cons d ds ih => exact fun l => ih _
  exact haux fill.drops (Loot.new fill.gold)

/-- `FillLoot` is the run of its events. -/
theorem fillLoot_eq_foldl (w : World) (fill : Fill) :
    fillLoot w fill = (fillEvents w fill).foldl (step w) (State.new fill.gold) := by
  unfold fillLoot fillEvents
  rw [List.foldl_append, ← processed_eq_foldl, foldl_membersEvents]

/-- A world with one kind of item, which anybody may loot. -/
def oneItemWorld : World where
  template := fun _ => some ⟨1, false, false, false⟩
  allowed := fun _ _ _ _ => true

end FaceCore.LootMgr
