import FaceCore.Loot.Loot
import FaceCore.Lib.SortedMap
import Mathlib.Algebra.Order.Ring.Rat

/-!
# Loot templates

The tables of `LootMgr`: `LoadLootTable` builds a store of templates from rows, `LootTemplate::Process`
rolls a template and adds what it rolls to a loot, and `HasQuestDrop` looks for a quest drop in it.

An entry of a template may be a reference to a template of the reference store. `Process` calls
itself along references, and so does `HasQuestDrop`, along those it finds in the store itself; both
are computed with the depth of the recursion, and answer `none` if it is too small.

* `LootStore`, `loadLootTable`: templates and how they are loaded;
* `process`: `LootTemplate::Process`;
* `haveQuestLootFor`: `LootStore::HaveQuestLootFor`.

Chances are rational numbers, and what the program computes of them with floats is a parameter.
`Verify` and `CheckLootRefs` only report, so that every store that is loaded is used.
-/

namespace FaceCore.LootTemplates

open LootMgr (Loot addItem)

/-- What the templates ask of the rest of the world: item templates with their quality, and the
products and differences of floats. -/
structure World extends LootMgr.World where
  quality : UInt32 → ℕ
  /-- A chance times the rate of a quality. -/
  qualityChance : ℕ → ℚ → ℚ
  /-- A chance times `RATE_DROP_ITEM_REFERENCED`. -/
  referencedChance : ℚ → ℚ
  /-- `uint32` of a count times `RATE_DROP_ITEM_REFERENCED_AMOUNT`. -/
  referencedAmount : UInt8 → ℕ
  /-- What is left of a roll after a chance. -/
  minus : ℚ → ℚ → ℚ

/-- `LootStoreItem`. -/
structure LootStoreItem extends LootMgr.LootStoreItem where
  chance : ℚ
  mincountOrRef : ℤ
  lootmode : UInt16
  group : UInt8
  maxcount : UInt8

/-- The id of the template that a reference refers to. -/
def LootStoreItem.ref (item : LootStoreItem) : ℕ := (-item.mincountOrRef).toNat

/-- `LootTemplate::LootGroup`. -/
structure LootGroup where
  explicitlyChanced : List LootStoreItem
  equalChanced : List LootStoreItem

/-- All entries of a group. -/
def LootGroup.items (g : LootGroup) : List LootStoreItem := g.explicitlyChanced ++ g.equalChanced

/-- `LootTemplate`; a group that no entry belongs to is a null pointer. -/
structure LootTemplate where
  entries : List LootStoreItem
  groups : List (Option LootGroup)

/-- The templates of a `LootStore` by their id. -/
abbrev LootStore := SortedMap ℕ LootTemplate

/-! ### Loading -/

/-- A row of a loot table. -/
structure LootRow where
  entry : ℕ
  item : UInt32
  chanceOrQuestChance : ℚ
  lootmode : UInt16
  group : UInt8
  mincountOrRef : ℤ
  maxcount : UInt8

/-- `LootStoreItem::LootStoreItem`. -/
def LootStoreItem.new (row : LootRow) : LootStoreItem where
  itemid := row.item
  needsQuest := row.chanceOrQuestChance < 0
  conditions := []
  chance := |row.chanceOrQuestChance|
  mincountOrRef := row.mincountOrRef
  lootmode := row.lootmode
  group := row.group
  maxcount := row.maxcount

/-- `LootStoreItem::IsValid`. -/
def LootStoreItem.isValid (W : World) (item : LootStoreItem) : Bool :=
  if item.mincountOrRef = 0 then false
  else if item.mincountOrRef > 0 then
    if (W.template item.itemid).isNone then false
    else if item.chance = 0 ∧ item.group = 0 then false
    -- the float next to a millionth
    else if item.chance ≠ 0 ∧ item.chance < 8796093 / 2 ^ 43 then false
    else if (item.maxcount.toNat : ℤ) < item.mincountOrRef then false
    else true
  else if item.needsQuest then true
  else if item.chance = 0 then false
  else true

/-- `LootGroup::AddEntry`. -/
def LootGroup.addEntry (g : LootGroup) (item : LootStoreItem) : LootGroup :=
  if item.chance ≠ 0 then { g with explicitlyChanced := g.explicitlyChanced ++ [item] }
  else { g with equalChanced := g.equalChanced ++ [item] }

/-- `LootTemplate::AddEntry`. -/
def LootTemplate.addEntry (t : LootTemplate) (item : LootStoreItem) : LootTemplate :=
  if item.group > 0 ∧ item.mincountOrRef > 0 then
    let index := item.group.toNat
    let groups := t.groups ++ List.replicate (index - t.groups.length) none
    let group := (groups[index - 1]?.join).getD ⟨[], []⟩
    { t with groups := groups.set (index - 1) (some (group.addEntry item)) }
  else { t with entries := t.entries ++ [item] }

/-- The loop of `LoadLootTable`, which ends at a row with a group that does not fit in seven bits. -/
def loadRows (W : World) : LootStore → List LootRow → LootStore
  | store, [] => store
  | store, row :: rows =>
    if row.group ≥ 128 then store
    else
      let item := LootStoreItem.new row
      if !item.isValid W then loadRows W store rows
      else
        let tab := (store.find row.entry).getD ⟨[], []⟩
        loadRows W (store.insert row.entry (tab.addEntry item)) rows

/-- `LootStore::LoadLootTable`. -/
def loadLootTable (W : World) (rows : List LootRow) : LootStore := loadRows W SortedMap.empty rows

/-! ### Rolling -/

/-- A random number: as `rand_chance` gives it, and as an index or a count is taken from it. -/
structure Draw where
  chance : ℚ
  number : ℕ
  nonneg : 0 ≤ chance
  lt : chance < 100

/-- What is rolled so far: the loot, its `maxDuplicates`, and the number of draws. -/
structure Rolled where
  loot : Loot
  maxDuplicates : ℕ
  draws : ℕ

/-- What `Process` hands on to all its calls. -/
structure Call where
  rate : Bool
  lootMode : UInt16

section

variable (W : World) (c : Call)

/-- The chance of an entry after its rate. -/
def LootStoreItem.ratedChance (item : LootStoreItem) : ℚ :=
  if item.mincountOrRef < 0 then if c.rate then W.referencedChance item.chance else item.chance
  else if (W.template item.itemid).isSome ∧ c.rate then
    W.qualityChance (W.quality item.itemid) item.chance
  else item.chance

/-- The entry is not for the loot mode. -/
def LootStoreItem.mismatch (item : LootStoreItem) : Bool := item.lootmode &&& c.lootMode = 0

/-- The number of times that a reference is followed. -/
def LootStoreItem.times (item : LootStoreItem) : ℕ := W.referencedAmount item.maxcount

/-- `LootGroupInvalidSelector`. -/
def invalidSelector (s : Rolled) (item : LootStoreItem) : Bool :=
  item.mismatch c ||
    (0 < s.maxDuplicates &&
      s.maxDuplicates ≤ s.loot.items.countP fun i => i.itemid = item.itemid)

/-- Call `f` a number of times. -/
def repeatCall (f : Rolled → Option Rolled) : ℕ → Rolled → Option Rolled
  | 0, s => some s
  | n + 1, s => (f s).bind (repeatCall f n)

variable (rnd : ℕ → Draw)

/-- `LootStoreItem::Roll`. -/
def LootStoreItem.roll (item : LootStoreItem) (s : Rolled) : Bool × Rolled :=
  if item.chance ≥ 100 then (true, s)
  else (item.ratedChance W c > (rnd s.draws).chance, { s with draws := s.draws + 1 })

/-- `Loot::AddItem`, with its random count. -/
def Rolled.addItem (s : Rolled) (item : LootStoreItem) : Rolled :=
  match W.template item.itemid with
  | none => s
  | some _ =>
    let mincount := item.mincountOrRef.toNat
    let count := mincount + (rnd s.draws).number % (item.maxcount.toNat - mincount + 1)
    { s with
      loot := LootMgr.addItem W.toWorld s.loot item.toLootStoreItem count
      draws := s.draws + 1 }

/-- The loop of `LootGroup::Roll` over the entries with a chance of their own. -/
def rollChanced : ℚ → List LootStoreItem → Option LootStoreItem
  | _, [] => none
  | roll, item :: items =>
    if item.chance ≥ 100 then some item
    else if W.minus roll item.chance < 0 then some item
    else rollChanced (W.minus roll item.chance) items

/-- The explicitly chanced entries are rolled first. -/
def LootGroup.rollExplicit (g : LootGroup) (s : Rolled) : Option LootStoreItem × Rolled :=
  match g.explicitlyChanced.filter fun item => !invalidSelector c s item with
  | [] => (none, s)
  | item :: items =>
    (rollChanced W (rnd s.draws).chance (item :: items), { s with draws := s.draws + 1 })

/-- `LootGroup::Roll`. -/
def LootGroup.roll (g : LootGroup) (s : Rolled) : Option LootStoreItem × Rolled :=
  match g.rollExplicit W c rnd s with
  | (some item, s) => (some item, s)
  | (none, s) =>
    match g.equalChanced.filter fun item => !invalidSelector c s item with
    | [] => (none, s)
    | item :: items =>
      ((item :: items)[(rnd s.draws).number % (items.length + 1)]?,
        { s with draws := s.draws + 1 })

/-- `LootGroup::Process`. -/
def LootGroup.process (g : LootGroup) (s : Rolled) : Rolled :=
  match g.roll W c rnd s with
  | (some item, s) => s.addItem W rnd item
  | (none, s) => s

/-- A group that may be a null pointer. -/
def processGroup (s : Rolled) (g : Option LootGroup) : Rolled :=
  match g with
  | none => s
  | some g => g.process W c rnd s

/-- `Process` with the number of a group. -/
def LootTemplate.processOneGroup (t : LootTemplate) (groupId : UInt8) (s : Rolled) : Rolled :=
  processGroup W c rnd s (t.groups[groupId.toNat - 1]?.join)

/-- The body of the loop of `Process` over the entries; `call` is `Process`. -/
def processEntry (refs : LootStore) (call : LootTemplate → UInt8 → Rolled → Option Rolled)
    (s : Rolled) (item : LootStoreItem) : Option Rolled :=
  if item.mismatch c then some s
  else
    match item.roll W c rnd s with
    | (false, s) => some s
    | (true, s) =>
      if item.mincountOrRef < 0 then
        match refs.find item.ref with
        | none => some s
        | some referenced => repeatCall (call referenced item.group) (item.times W) s
      else some (s.addItem W rnd item)

/-- `LootTemplate::Process`, with the depth of the recursion; `refs` is `LootTemplates_Reference`. -/
def process (refs : LootStore) (depth : ℕ) (t : LootTemplate) (groupId : UInt8) (s : Rolled) :
    Option Rolled :=
  if groupId ≠ 0 then some (t.processOneGroup W c rnd groupId s)
  else
    match depth with
    | 0 => none
    | depth + 1 =>
      (t.entries.foldlM (processEntry W c rnd refs (process refs depth)) s).map fun s =>
        t.groups.foldl (processGroup W c rnd) s

end

/-! ### Quest drops -/

/-- `LootGroup::HasQuestDrop`. -/
def LootGroup.hasQuestDrop (g : LootGroup) : Bool :=
  g.explicitlyChanced.any (fun item => item.needsQuest) ||
    g.equalChanced.any fun item => item.needsQuest

/-- The loop of `HasQuestDrop` over the entries; `call` is `HasQuestDrop`. -/
def searchEntries (store : LootStore) (call : LootTemplate → UInt8 → Option Bool) :
    List LootStoreItem → Option Bool
  | [] => some false
  | item :: items =>
    if item.mincountOrRef < 0 then
      match store.find item.ref with
      | none => searchEntries store call items
      | some referenced =>
        match call referenced item.group with
        | none => none
        | some true => some true
        | some false => searchEntries store call items
    else if item.needsQuest then some true
    else searchEntries store call items

/-- `LootTemplate::HasQuestDrop`, with the depth of the recursion. -/
def hasQuestDrop (store : LootStore) (depth : ℕ) (t : LootTemplate) (groupId : UInt8) :
    Option Bool :=
  if groupId ≠ 0 then
    some (((t.groups[groupId.toNat - 1]?.join).map LootGroup.hasQuestDrop).getD false)
  else
    match depth with
    | 0 => none
    | depth + 1 =>
      (searchEntries store (hasQuestDrop store depth) t.entries).map fun found =>
        found || t.groups.any fun g => (g.map LootGroup.hasQuestDrop).getD false

/-- `LootStore::HaveQuestLootFor`. -/
def haveQuestLootFor (store : LootStore) (depth lootId : ℕ) : Option Bool :=
  match store.find lootId with
  | none => some false
  | some t => hasQuestDrop store depth t 0

end FaceCore.LootTemplates
