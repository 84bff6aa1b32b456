import FaceCore.Loot.View
import FaceCore.Lib.Runs

/-!
# Saved container loot

The loot of an item that can be opened: `Item::ItemContainerSaveLootToDB` writes it to the tables
`item_loot_items` and `item_loot_money` when it is generated, every looting step deletes what was
taken, and `Item::ItemContainerLoadLootFromDB` restores it after the item was unloaded.

An item is deleted by its item id, together with every other row of that id; quest items are not
saved; the conditions are copied from the ungrouped entries of the loot template.

* `LootTables`, `Container`: the rows, and what of the item the saving and the loading read;
* `openContainer`, `lootStep`: the generation with its save, and the looting steps;
* `Restored`: loading again gives what is not taken yet;
* `container_loot_restored`: it does along every run in which the loot is `Savable` and each step
  takes an item that is the only one of its id.

`canSave` is left out: every place that writes it sets it to `true`.
-/

namespace FaceCore.LootMgr

/-- A row of `item_loot_items`. -/
structure ItemRow where
  containerId : UInt32
  itemId : UInt32
  itemCount : ℕ
  followRules : Bool
  ffa : Bool
  blocked : Bool
  counted : Bool
  underThreshold : Bool
  needsQuest : Bool
  rndProp : UInt32
  rndSuffix : UInt32

/-- A row of `item_loot_money`. -/
structure MoneyRow where
  containerId : UInt32
  money : UInt32

/-- The two tables. -/
structure LootTables where
  items : List ItemRow
  money : List MoneyRow

/-- A signed `int` column of the database: what is read after an unsigned value was written. Values
that a signed column can hold are kept. -/
structure IntColumn where
  read : UInt32 → UInt32
  keeps : ∀ v, v.toNat < 2 ^ 31 → read v = v

/-- `CHAR_DEL_ITEMCONTAINER_ITEMS`. -/
def LootTables.delItems (t : LootTables) (containerId : UInt32) : LootTables :=
  { t with items := t.items.filter fun r => !(r.containerId = containerId) }

/-- `CHAR_DEL_ITEMCONTAINER_ITEM`. -/
def LootTables.delItem (t : LootTables) (containerId itemId : UInt32) : LootTables :=
  { t with items := t.items.filter fun r => !(r.containerId = containerId && r.itemId = itemId) }

/-- `CHAR_INS_ITEMCONTAINER_ITEMS`. -/
def LootTables.insItem (t : LootTables) (r : ItemRow) : LootTables :=
  { t with items := t.items ++ [r] }

/-- `CHAR_DEL_ITEMCONTAINER_MONEY`. -/
def LootTables.delMoney (t : LootTables) (containerId : UInt32) : LootTables :=
  { t with money := t.money.filter fun r => !(r.containerId = containerId) }

/-- `CHAR_INS_ITEMCONTAINER_MONEY`. -/
def LootTables.insMoney (t : LootTables) (r : MoneyRow) : LootTables :=
  { t with money := t.money ++ [r] }

/-- `CHAR_SEL_ITEMCONTAINER_ITEMS`. -/
def LootTables.selItems (t : LootTables) (containerId : UInt32) : List ItemRow :=
  t.items.filter fun r => r.containerId = containerId

/-- `CHAR_SEL_ITEMCONTAINER_MONEY`. -/
def LootTables.selMoney (t : LootTables) (containerId : UInt32) : List MoneyRow :=
  t.money.filter fun r => r.containerId = containerId

/-- An item that can be opened: its guid, which is not zero, the ungrouped entries of the loot
template of its entry, if there is one, and the remaining fields of the entries of its loot. -/
structure Container where
  guid : UInt32
  template : Option (List LootStoreItem)
  extra : Entry → ItemExtra
  guid_ne_zero : guid ≠ 0

/-- The row of an item. -/
def Container.row (ct : Container) (col : IntColumn) (i : ℕ) (item : LootItem) : ItemRow where
  containerId := ct.guid
  itemId := item.itemid
  itemCount := item.count
  followRules := item.followLootRules
  ffa := item.freeforall
  blocked := item.isBlocked
  counted := item.isCounted
  underThreshold := (ct.extra (.item i)).isUnderthreshold
  needsQuest := item.needsQuest
  rndProp := col.read (ct.extra (.item i)).randomPropertyId
  rndSuffix := col.read (ct.extra (.item i)).randomSuffix

/-- `Item::ItemContainerSaveLootToDB`. -/
def Container.itemContainerSaveLootToDB (ct : Container) (col : IntColumn) (l : Loot)
    (t : LootTables) : LootTables :=
  if l.isLooted then t
  else
    let t :=
      if 0 < l.gold then
        (t.delMoney ct.guid).insMoney ⟨col.read ct.guid, col.read l.gold⟩
      else t
    l.items.zipIdx.foldl (fun t x => t.insItem (ct.row col x.2 x.1)) (t.delItems ct.guid)

/-- `LootTemplate::CopyConditions(LootItem*)` over the ungrouped entries. -/
def copyConditions (entries : List LootStoreItem) (itemid : UInt32) : List UInt32 :=
  match entries.find? fun e => e.itemid = itemid with
  | none => []
  | some e => e.conditions

/-- The item of a row, and the fields beside it. The flag `is_looted` is not written: it is what
happens to be there. -/
def loadItem (entries : List LootStoreItem) (isLooted : Bool) (r : ItemRow) :
    LootItem × ItemExtra :=
  (⟨r.itemId, copyConditions entries r.itemId, r.needsQuest, r.ffa, r.followRules, r.itemCount % 256,
    isLooted, r.blocked, r.counted⟩, ⟨r.underThreshold, r.rndSuffix, r.rndProp⟩)

/-- What the loading leaves in the item: its loot, the remaining fields of the items in it, and
`m_lootGenerated`. -/
structure Loaded where
  loot : Loot
  extras : List ItemExtra
  lootGenerated : Bool

/-- Put a loaded item at the end of the loot and count it. -/
def Loaded.push (ld : Loaded) (x : LootItem × ItemExtra) : Loaded :=
  { ld with
    loot :=
      { ld.loot with
        items := ld.loot.items ++ [x.1]
        unlootedCount := ld.loot.unlootedCount + 1 }
    extras := ld.extras ++ [x.2] }

/-- `Item::ItemContainerLoadLootFromDB`, for an item whose loot is as it was constructed. It returns
`m_lootGenerated`. -/
def Container.itemContainerLoadLootFromDB (ct : Container) (isLooted : Bool) (t : LootTables) :
    Loaded :=
  let gold :=
    match t.selMoney ct.guid with
    | [] => 0
    | r :: _ => r.money
  let ld : Loaded := ⟨Loot.new gold, [], false⟩
  let ld :=
    match ct.template with
    | none => ld
    | some entries =>
      (t.selItems ct.guid).foldl (fun ld r => ld.push (loadItem entries isLooted r)) ld
  { ld with lootGenerated := !ld.loot.isLooted }

/-- An opened container: its loot, the entries that were taken from it, the tables, and whether the
item is still there. -/
structure Opened where
  loot : Loot
  taken : List Entry
  tables : LootTables
  present : Bool

/-- A container that is opened for the first time: the loot that is filled for its owner is saved. -/
def openContainer (ct : Container) (col : IntColumn) (w : World) (fill : Fill) (t : LootTables) :
    Opened where
  loot := (fillLoot w fill).loot
  taken := (fillLoot w fill).log.map Prod.fst
  tables := ct.itemContainerSaveLootToDB col (fillLoot w fill).loot t
  present := true

/-- A looting step of the owner: `HandleAutostoreLootItemOpcode`, or `HandleLootMoneyOpcode`. -/
inductive LootStep
  | storeLootItem (lootSlot : ℕ) (canStore : Bool)
  | lootMoney

/-- What `StoreLootItem` gives out: what is found in the slot, if it gets past the checks. -/
def givenOut (l : Loot) (player : UInt32) (lootSlot : ℕ) (canStore : Bool) : Option Found :=
  match lootItemInSlot l lootSlot player with
  | none => none
  | some f => if (!f.isQuest && f.item.isBlocked) || !canStore then none else some f

/-- `DoLootRelease`: an item with nothing left in it is destroyed, with its rows. -/
def Opened.release (ct : Container) (s : Opened) : Opened :=
  if s.loot.isLooted then
    { s with tables := (s.tables.delMoney ct.guid).delItems ct.guid, present := false }
  else s

/-- The container after a looting step. -/
def lootStep (ct : Container) (owner : UInt32) (s : Opened) : LootStep → Opened
  | .storeLootItem lootSlot canStore =>
    if !s.present then s
    else
      let l := (storeLootItem ⟨s.loot, []⟩ owner lootSlot canStore).loot
      match givenOut s.loot owner lootSlot canStore with
      | none => Opened.release ct { s with loot := l }
      | some f =>
        Opened.release ct
          { s with
            loot := l
            taken := f.entry :: s.taken
            -- DeleteLootItemFromContainerItemDB
            tables := s.tables.delItem ct.guid f.item.itemid }
  | .lootMoney =>
    if !s.present then s
    else
      Opened.release ct
        { s with
          loot := { s.loot with gold := 0 }
          -- DeleteLootMoneyFromContainerItemDB
          tables := s.tables.delMoney ct.guid }

/-! ### What is to be restored, and when it is -/

/-- What of an entry is restored: item id, count, conditions and random properties. -/
structure Content where
  itemid : UInt32
  count : ℕ
  conditions : List UInt32
  randomSuffix : UInt32
  randomPropertyId : UInt32
  deriving DecidableEq

/-- The content of an entry. -/
def content (item : LootItem) (x : ItemExtra) : Content :=
  ⟨item.itemid, item.count, item.conditions, x.randomSuffix, x.randomPropertyId⟩

/-- The contents of the items that were loaded. -/
def Loaded.contents (ld : Loaded) : List Content := ld.loot.items.zipWith content ld.extras

/-- The content of an entry that is not taken. -/
def Opened.contentAt (ct : Container) (s : Opened) (e : Entry) : Option Content :=
  if e ∈ s.taken then none else (s.loot.itemAt e).map fun item => content item (ct.extra e)

/-- The contents of the entries that are not taken. -/
def Opened.left (ct : Container) (s : Opened) : List Content :=
  ((List.range s.loot.items.length).filterMap fun i => s.contentAt ct (.item i)) ++
    (List.range s.loot.questItems.length).filterMap fun i => s.contentAt ct (.quest i)

/-- As long as the item is there, loading gives the entries that are not taken in some order, the
gold, and their number, and returns true if anything is left. -/
def Restored (ct : Container) (isLooted : Bool) (s : Opened) : Prop :=
  s.present = true →
    let ld := ct.itemContainerLoadLootFromDB isLooted s.tables
    ld.contents.Perm (s.left ct) ∧ ld.loot.gold = s.loot.gold ∧
      ld.loot.unlootedCount.toNat = (s.left ct).length ∧
      (s.left ct ≠ [] ∨ s.loot.gold ≠ 0 → ld.lootGenerated = true)

/-- What the saving can keep: there is no quest item and nothing is taken already, the conditions of
every item are those of the first ungrouped entry of the loot template with its id, and the gold and
the random properties fit in their columns. -/
structure Savable (ct : Container) (l : Loot) (taken : List Entry) : Prop where
  quest : l.questItems = []
  fresh : taken = []
  template : ∀ (i : ℕ) (item : LootItem), l.items[i]? = some item →
    ∃ entries, ct.template = some entries ∧ item.conditions = copyConditions entries item.itemid
  random : ∀ (i : ℕ) (item : LootItem), l.items[i]? = some item →
    (ct.extra (.item i)).randomSuffix.toNat < 2 ^ 31 ∧
      (ct.extra (.item i)).randomPropertyId.toNat < 2 ^ 31
  gold : l.gold = 0 ∨ l.gold.toNat < 2 ^ 31 ∧ ct.guid.toNat < 2 ^ 31

/-- The step gives out no item of an id of which another item is left. -/
def LastOfItsId (owner : UInt32) (s : Opened) : LootStep → Prop
  | .storeLootItem lootSlot canStore => ∀ f, givenOut s.loot owner lootSlot canStore = some f →
      ∀ i item, s.loot.items[i]? = some item → item.itemid = f.item.itemid → .item i ∉ s.taken →
        f.entry = .item i
  | .lootMoney => True

/-! ### Counts -/

variable {w : World} {l : Loot} {s : Opened} {ct : Container} {col : IntColumn}

/-- The counts of the items fit in their bit fields. -/
def SmallCounts (l : Loot) : Prop := ∀ item ∈ l.items, item.count < 256

theorem smallCounts_fillLoot (w : World) (fill : Fill) : SmallCounts (fillLoot w fill).loot :=
  (all_iff.1 (byteCounts_fillLoot w fill)).1

theorem reached_fillLoot (w : World) (fill : Fill) : Reached w (fillLoot w fill).loot := by
  refine ⟨fill.gold, (fillEvents w fill).map .event, ?_⟩
  rw [List.foldl_map]
  exact congrArg State.loot (fillLoot_eq_foldl w fill).symm

/-! ### The tables -/

/-- An item without the flag that is not saved. -/
def LootItem.saved (item : LootItem) : LootItem := { item with isLooted := false }

/-- What is computed from the items that are not taken. -/
def untaken {β : Type*} (items : List LootItem) (taken : List Entry) (f : ℕ → LootItem → β) :
    List β :=
  (List.range items.length).filterMap fun i =>
    if .item i ∈ taken then none else (items[i]?).map (f i)

theorem length_untaken_le {β : Type*} (items : List LootItem) (taken : List Entry)
    (f : ℕ → LootItem → β) : (untaken items taken f).length ≤ items.length :=
  (List.length_filterMap_le _ _).trans_eq List.length_range

theorem map_untaken {β γ : Type*} {items : List LootItem} {taken : List Entry}
    {f : ℕ → LootItem → β} {g : β → γ} {h : ℕ → LootItem → γ}
    (hg : ∀ i item, items[i]? = some item → g (f i item) = h i item) :
    (untaken items taken f).map g = untaken items taken h := by
  unfold untaken
  rw [List.map_filterMap]
  congr 1
  funext i
  split_ifs
  · rfl
  · cases hi : items[i]? with
    | none => rfl
    | some item => exact congrArg some (hg i item hi)

theorem untaken_cons {β : Type*} {items : List LootItem} {taken : List Entry}
    {f : ℕ → LootItem → β} {keep : β → Bool} {k : ℕ}
    (hkeep : ∀ i item, items[i]? = some item → .item i ∉ taken → (keep (f i item) = false ↔ i = k)) :
    untaken items (.item k :: taken) f = (untaken items taken f).filter keep := by
  unfold untaken
  rw [List.filter_filterMap]
  congr 1
  funext i
  by_cases htaken : Entry.item i ∈ taken
  · rw [if_pos htaken, if_pos (List.mem_cons_of_mem _ htaken)]
    rfl
  · rw [if_neg htaken]
    cases hi : items[i]? with
    | none =>
      split_ifs <;> rfl
    | some item =>
      have hiff := hkeep i item hi htaken
      by_cases hik : i = k
      · subst hik
        rw [if_pos List.mem_cons_self, Option.map_some, Option.filter_some, hiff.2 rfl]
        rfl
      · have hkept : keep (f i item) = true := by
          by_contra h
          exact hik (hiff.1 (by simpa using h))
        rw [if_neg (by simp [hik, htaken]), Option.map_some, Option.filter_some, hkept]
        rfl

theorem filterMap_range {α β : Type*} (xs : List α) (g : α → β) :
    (List.range xs.length).filterMap (fun i => (xs[i]?).map g) = xs.map g := by
  have hmap : (List.range xs.length).map (fun i => (xs[i]?).map g) = (xs.map g).map some := by
    apply List.ext_getElem
    · simp
    · intro i hi _
      have hlt : i < xs.length := by simpa using hi
      simp [hlt]
  calc (List.range xs.length).filterMap (fun i => (xs[i]?).map g)
      = ((List.range xs.length).map fun i => (xs[i]?).map g).filterMap id := by
        rw [List.filterMap_map]
        rfl
    _ = xs.map g := by rw [hmap, List.filterMap_map]; simp

theorem untaken_nil {β : Type*} (items : List LootItem) (f : ℕ → LootItem → β) :
    untaken items [] f = items.zipIdx.map fun x => f x.2 x.1 := by
  have hindex : (fun i => if Entry.item i ∈ [] then none else (items[i]?).map (f i)) =
      fun i => (items.zipIdx[i]?).map fun x => f x.2 x.1 := by
    funext i
    rw [if_neg List.not_mem_nil, List.getElem?_zipIdx, Option.map_map, Nat.zero_add]
    rfl
  rw [untaken, hindex, ← filterMap_range, List.length_zipIdx]

/-- The gold that the loading reads. -/
def firstMoney : List MoneyRow → UInt32
  | [] => 0
  | r :: _ => r.money

theorem selItems_delItem (t : LootTables) (containerId itemId : UInt32) :
    (t.delItem containerId itemId).selItems containerId =
      (t.selItems containerId).filter fun r => !(r.itemId = itemId) := by
  unfold LootTables.selItems LootTables.delItem
  rw [List.filter_filter, List.filter_filter]
  apply List.filter_congr
  intro r _
  by_cases h : r.containerId = containerId <;> simp [h]

theorem selMoney_delMoney (t : LootTables) (containerId : UInt32) :
    (t.delMoney containerId).selMoney containerId = [] := by
  unfold LootTables.selMoney LootTables.delMoney
  rw [List.filter_filter, List.filter_eq_nil_iff]
  simp

theorem selItems_delItems (t : LootTables) (containerId : UInt32) :
    (t.delItems containerId).selItems containerId = [] := by
  unfold LootTables.selItems LootTables.delItems
  rw [List.filter_filter, List.filter_eq_nil_iff]
  simp

theorem foldl_insItem {α : Type*} (f : α → ItemRow) (containerId : UInt32)
    (hf : ∀ x, (f x).containerId = containerId) (xs : List α) (t : LootTables) :
    (xs.foldl (fun t x => t.insItem (f x)) t).selItems containerId =
        t.selItems containerId ++ xs.map f ∧
      (xs.foldl (fun t x => t.insItem (f x)) t).money = t.money := by
  induction xs generalizing t with
  | nil => simp
  | cons x xs ih =>
    rw [List.foldl_cons, (ih _).1, (ih _).2]
    refine ⟨?_, rfl⟩
    simp [LootTables.selItems, LootTables.insItem, List.filter_append, hf]

theorem foldl_push (entries : List LootStoreItem) (isLooted : Bool) (rows : List ItemRow)
    (ld : Loaded) :
    rows.foldl (fun ld r => ld.push (loadItem entries isLooted r)) ld =
      { ld with
        loot :=
          { ld.loot with
            items := ld.loot.items ++ rows.map fun r => (loadItem entries isLooted r).1
            unlootedCount := ld.loot.unlootedCount + UInt8.ofNat rows.length }
        extras := ld.extras ++ rows.map fun r => (loadItem entries isLooted r).2 } := by
  induction rows generalizing ld with
  | nil => simp
  | cons r rows ih =>
    rw [List.foldl_cons, ih]
    simp only [Loaded.push, List.map_cons, List.append_assoc, List.singleton_append,
      List.length_cons, UInt8.ofNat_add, Loaded.mk.injEq, Loot.mk.injEq, true_and, and_true]
    rw [UInt8.add_assoc, UInt8.add_comm 1]
    rfl

/-- What is loaded from the rows of a container, if it has rows only with a template. -/
theorem load_eq (isLooted : Bool) {t : LootTables}
    (htemplate : ct.template = none → t.selItems ct.guid = []) :
    let entries := ct.template.getD []
    let ld := ct.itemContainerLoadLootFromDB isLooted t
    ld.contents = (t.selItems ct.guid).map (fun r => content (loadItem entries isLooted r).1
        (loadItem entries isLooted r).2) ∧
      ld.loot.gold = firstMoney (t.selMoney ct.guid) ∧
      ld.loot.unlootedCount = UInt8.ofNat (t.selItems ct.guid).length ∧
      ld.lootGenerated = !ld.loot.isLooted := by
  unfold Container.itemContainerLoadLootFromDB
  cases hct : ct.template with
  | none =>
    rw [htemplate hct]
    exact ⟨rfl, by cases t.selMoney ct.guid <;> rfl, rfl, rfl⟩
  | some entries =>
    simp only [foldl_push, Loot.new, List.nil_append, Loaded.contents, Option.getD_some]
    refine ⟨?_, ?_, ?_, trivial⟩
    · rw [List.zipWith_map, List.zipWith_self]
    · cases t.selMoney ct.guid <;> rfl
    · simp

/-! ### Runs -/

/-- What a run keeps: the items but for their flag, what is left in the tables, and the gold. -/
structure Kept (ct : Container) (col : IntColumn) (items : List LootItem) (s : Opened) : Prop where
  items_eq : s.loot.items.map LootItem.saved = items
  quest : s.loot.questItems = []
  rows : s.present = true →
    s.tables.selItems ct.guid = untaken items s.taken (ct.row col)
  money : s.present = true → firstMoney (s.tables.selMoney ct.guid) = s.loot.gold

/-- The items that are not taken, computed from what is kept of the items. -/
theorem left_eq {items : List LootItem} (h : Kept ct col items s) :
    s.left ct = untaken items s.taken fun i item => content item (ct.extra (.item i)) := by
  unfold Opened.left Opened.contentAt untaken
  rw [h.quest, ← h.items_eq, List.length_map, List.length_nil, List.range_zero, List.filterMap_nil,
    List.append_nil]
  congr 1
  funext i
  rw [List.getElem?_map, Option.map_map]
  rfl

/-- Items that the tables can hold: few, with small counts, the conditions of the template, and random
properties that fit in their columns. -/
structure Storable (ct : Container) (items : List LootItem) : Prop where
  length_le : items.length ≤ maxNrLootItems
  count_lt : ∀ item ∈ items, item.count < 256
  template : ∀ (i : ℕ) (item : LootItem), items[i]? = some item →
    ∃ entries, ct.template = some entries ∧ item.conditions = copyConditions entries item.itemid
  random : ∀ (i : ℕ) (item : LootItem), items[i]? = some item →
    (ct.extra (.item i)).randomSuffix.toNat < 2 ^ 31 ∧
      (ct.extra (.item i)).randomPropertyId.toNat < 2 ^ 31

theorem Savable.storable {taken : List Entry} (h : Savable ct l taken) (hl : Formed l)
    (hcounts : SmallCounts l) : Storable ct (l.items.map LootItem.saved) := by
  have horigin : ∀ {i : ℕ} {item : LootItem}, (l.items.map LootItem.saved)[i]? = some item →
      ∃ item', l.items[i]? = some item' ∧ item'.saved = item := by
    intro i item hi
    rwa [List.getElem?_map, Option.map_eq_some_iff] at hi
  constructor
  · rw [List.length_map]
    exact hl.items_le
  · intro item hitem
    obtain ⟨item', hitem', rfl⟩ := List.mem_map.1 hitem
    exact hcounts item' hitem'
  · intro i item hi
    obtain ⟨item', hitem', rfl⟩ := horigin hi
    exact h.template i item' hitem'
  · intro i item hi
    obtain ⟨item', hitem', rfl⟩ := horigin hi
    exact h.random i item' hitem'

theorem content_loadItem {entries : List LootStoreItem} {i : ℕ} {item : LootItem} (isLooted : Bool)
    (hcount : item.count < 256) (hconditions : item.conditions = copyConditions entries item.itemid)
    (hsuffix : (ct.extra (.item i)).randomSuffix.toNat < 2 ^ 31)
    (hprop : (ct.extra (.item i)).randomPropertyId.toNat < 2 ^ 31) :
    content (loadItem entries isLooted (ct.row col i item)).1
        (loadItem entries isLooted (ct.row col i item)).2 =
      content item (ct.extra (.item i)) := by
  simp only [content, loadItem, Container.row, col.keeps _ hsuffix, col.keeps _ hprop,
    Nat.mod_eq_of_lt hcount, ← hconditions]

/-- Loading what the tables keep gives what is left. -/
theorem restored_of_kept {items : List LootItem} (hitems : Storable ct items)
    (h : Kept ct col items s) (isLooted : Bool) : Restored ct isLooted s := by
  intro hpresent
  have hrows := h.rows hpresent
  have htemplate : ct.template = none → s.tables.selItems ct.guid = [] := by
    intro hnone
    have hempty : items = [] := by
      by_contra hne
      obtain ⟨item, hitem⟩ := List.exists_mem_of_ne_nil items hne
      obtain ⟨i, hi⟩ := List.mem_iff_getElem?.1 hitem
      obtain ⟨entries, hsome, -⟩ := hitems.template i item hi
      rw [hnone] at hsome
      cases hsome
    rw [hrows, hempty]
    rfl
  obtain ⟨hcontents, hgold, hcount, hgenerated⟩ := load_eq isLooted htemplate
  have hleft : (ct.itemContainerLoadLootFromDB isLooted s.tables).contents = s.left ct := by
    rw [hcontents, hrows, left_eq h]
    apply map_untaken
    intro i item hi
    obtain ⟨entries, hsome, hconditions⟩ := hitems.template i item hi
    obtain ⟨hsuffix, hprop⟩ := hitems.random i item hi
    rw [hsome]
    exact content_loadItem isLooted (hitems.count_lt item (List.mem_of_getElem? hi)) hconditions
      hsuffix hprop
  have hlength : (s.tables.selItems ct.guid).length = (s.left ct).length := by
    rw [← hleft, hcontents, List.length_map]
  have hnumber : (UInt8.ofNat (s.left ct).length).toNat = (s.left ct).length := by
    apply UInt8.toNat_ofNat_of_lt'
    rw [left_eq h]
    exact (length_untaken_le _ _ _).trans_lt (hitems.length_le.trans_lt (by decide))
  rw [hlength] at hcount
  rw [h.money hpresent] at hgold
  refine ⟨hleft ▸ List.Perm.refl _, hgold, by rw [hcount, hnumber], fun hany => ?_⟩
  rw [hgenerated, Loot.isLooted, hgold, hcount]
  rcases hany with hne | hne
  · have hpos : UInt8.ofNat (s.left ct).length ≠ 0 := by
      intro hzero
      rw [hzero] at hnumber
      exact hne (List.length_eq_zero_iff.1 hnumber.symm)
    simp [hpos]
  · simp [hne]

theorem givenOut_eq_some {p : UInt32} {slot : ℕ} {canStore : Bool} {f : Found} :
    givenOut l p slot canStore = some f ↔ lootItemInSlot l slot p = some f ∧
      (f.isQuest = true ∨ f.item.isBlocked = false) ∧ canStore = true := by
  unfold givenOut
  cases lootItemInSlot l slot p with
  | none => simp
  | some f' =>
    simp only [Option.ite_none_left_eq_some, Option.some.injEq, Bool.or_eq_true, not_or,
      Bool.not_eq_true', Bool.and_eq_true, not_and, Bool.not_eq_true, Bool.not_eq_false]
    constructor
    · rintro ⟨⟨hfree, hstore⟩, rfl⟩
      refine ⟨rfl, ?_, hstore⟩
      cases hquest : f'.isQuest with
      | true => exact .inl rfl
      | false => exact .inr (hfree hquest)
    · rintro ⟨rfl, hfree, hstore⟩
      refine ⟨⟨fun hquest => ?_, hstore⟩, rfl⟩
      rcases hfree with hfree | hfree
      · exact absurd (hquest.symm.trans hfree) (by decide)
      · exact hfree

theorem loot_storeLootItem (l : Loot) (p : UInt32) (slot : ℕ) (canStore : Bool) :
    (storeLootItem ⟨l, []⟩ p slot canStore).loot =
      match givenOut l p slot canStore with
      | none => l
      | some f => l.take p f := by
  rcases storeLootItem_cases ⟨l, []⟩ p slot canStore with ⟨heq, hstuck⟩ | ⟨f, hf, hfree, rfl, heq⟩
  · have hnone : givenOut l p slot canStore = none := by
      rw [Option.eq_none_iff_forall_ne_some]
      intro f hf
      obtain ⟨hfound, hfree, rfl⟩ := givenOut_eq_some.1 hf
      exact absurd (hstuck f hfound hfree) (by decide)
    rw [heq, hnone]
  · rw [heq, givenOut_eq_some.2 ⟨hf, hfree, rfl⟩]

/-- Taking sets flags only. -/
theorem saved_take {p : UInt32} {f : Found} (he : l.itemAt f.entry = some f.item) :
    (l.take p f).items.map LootItem.saved = l.items.map LootItem.saved := by
  apply List.ext_getElem?
  intro i
  have htake := itemAt_take (p := p) he (.item i)
  rw [List.getElem?_map, List.getElem?_map]
  show ((l.take p f).itemAt (.item i)).map LootItem.saved = (l.itemAt (.item i)).map LootItem.saved
  rw [htake]
  split_ifs with heq hffa
  · rw [heq, he]
  · rw [heq, he]
    rfl
  · rfl

theorem gold_take (l : Loot) (p : UInt32) (f : Found) : (l.take p f).gold = l.gold := by
  have hmark : (l.mark p f.listed).gold = l.gold := by
    rcases f.listed with _ | _ | _ | _ <;> rfl
  have hset : ∀ (l : Loot) (e : Entry) (item : LootItem), (l.setItem e item).gold = l.gold := by
    intro l e item
    cases e <;> rfl
  unfold Loot.take
  dsimp only
  split_ifs
  · exact hmark
  · rw [hset, hmark]

theorem length_questItems_take (l : Loot) (p : UInt32) (f : Found) :
    (l.take p f).questItems.length = l.questItems.length := by
  have hmark : (l.mark p f.listed).questItems = l.questItems := by
    rcases f.listed with _ | _ | _ | _ <;> rfl
  have hset : ∀ (l : Loot) (e : Entry) (item : LootItem),
      (l.setItem e item).questItems.length = l.questItems.length := by
    intro l e item
    cases e with
    | item i => rfl
    | quest i => exact List.length_set ..
  unfold Loot.take
  dsimp only
  split_ifs
  · rw [hmark]
  · rw [hset, hmark]

theorem kept_release {items : List LootItem} (h : Kept ct col items s) :
    Kept ct col items (Opened.release ct s) := by
  unfold Opened.release
  split_ifs
  · exact ⟨h.items_eq, h.quest, nofun, nofun⟩
  · exact h

theorem kept_lootStep {items : List LootItem} {owner : UInt32} {step : LootStep}
    (h : Kept ct col items s) (hstep : LastOfItsId owner s step) :
    Kept ct col items (lootStep ct owner s step) := by
  cases step with
  | lootMoney =>
    unfold lootStep
    split_ifs
    · exact h
    · refine kept_release ⟨h.items_eq, h.quest, h.rows, fun _ => ?_⟩
      rw [selMoney_delMoney]
      rfl
  | storeLootItem slot canStore =>
    simp only [lootStep, loot_storeLootItem]
    split_ifs with hp
    · exact h
    cases hf : givenOut s.loot owner slot canStore with
    | none => exact kept_release h
    | some f =>
      have he := (finds_of_lootItemInSlot (givenOut_eq_some.1 hf).1).itemAt
      obtain ⟨k, hk⟩ : ∃ k, f.entry = .item k := by
        cases hentry : f.entry with
        | item k => exact ⟨k, rfl⟩
        | quest k =>
          rw [hentry, Loot.itemAt, h.quest] at he
          cases he
      have hsaved : items[k]? = some f.item.saved := by
        rw [hk] at he
        rw [← h.items_eq, List.getElem?_map]
        exact congrArg (Option.map LootItem.saved) he
      apply kept_release
      constructor
      · exact (saved_take he).trans h.items_eq
      · rw [← List.length_eq_zero_iff, length_questItems_take, h.quest]
        rfl
      · intro hpresent
        show (s.tables.delItem ct.guid f.item.itemid).selItems ct.guid = _
        rw [selItems_delItem, h.rows hpresent, hk, ← untaken_cons]
        intro i item hi htaken
        simp only [Container.row, Bool.not_eq_false']
        constructor
        · intro hid
          rw [← h.items_eq, List.getElem?_map, Option.map_eq_some_iff] at hi
          obtain ⟨item', hitem', rfl⟩ := hi
          have hsole := hstep f hf i item' hitem' (of_decide_eq_true hid) htaken
          exact (Entry.item.inj (hk.symm.trans hsole)).symm
        · rintro rfl
          obtain rfl := Option.some.inj (hsaved.symm.trans hi)
          exact decide_eq_true rfl
      · intro hpresent
        show firstMoney (s.tables.selMoney ct.guid) = (s.loot.take owner f).gold
        rw [gold_take]
        exact h.money hpresent

theorem firstMoney_of_load {t : LootTables} {isLooted : Bool}
    (h : (ct.itemContainerLoadLootFromDB isLooted t).lootGenerated = false) :
    firstMoney (t.selMoney ct.guid) = 0 := by
  have hgold : (ct.itemContainerLoadLootFromDB isLooted t).loot.gold =
      firstMoney (t.selMoney ct.guid) := by
    unfold Container.itemContainerLoadLootFromDB
    cases ct.template with
    | none => cases t.selMoney ct.guid <;> rfl
    | some entries =>
      simp only [foldl_push]
      cases t.selMoney ct.guid <;> rfl
  have hlooted : (ct.itemContainerLoadLootFromDB isLooted t).loot.isLooted = true := by
    simpa [Container.itemContainerLoadLootFromDB] using h
  rw [← hgold]
  unfold Loot.isLooted at hlooted
  rw [Bool.and_eq_true, decide_eq_true_eq] at hlooted
  exact hlooted.1

/-- What the saving leaves in the tables. -/
theorem save_spec {t : LootTables} (hlooted : l.isLooted = false)
    (hgold : l.gold = 0 ∨ l.gold.toNat < 2 ^ 31 ∧ ct.guid.toNat < 2 ^ 31)
    (hold : firstMoney (t.selMoney ct.guid) = 0) :
    (ct.itemContainerSaveLootToDB col l t).selItems ct.guid = untaken l.items [] (ct.row col) ∧
      firstMoney ((ct.itemContainerSaveLootToDB col l t).selMoney ct.guid) = l.gold := by
  have hitems := foldl_insItem (fun x : LootItem × ℕ => ct.row col x.2 x.1) ct.guid
    (fun _ => rfl) l.items.zipIdx
  unfold Container.itemContainerSaveLootToDB
  rw [if_neg (by simp [hlooted]), untaken_nil]
  dsimp only
  constructor
  · rw [(hitems _).1, selItems_delItems, List.nil_append]
  · rw [LootTables.selMoney, (hitems _).2]
    show firstMoney (LootTables.selMoney _ ct.guid) = l.gold
    rcases hgold with hzero | ⟨hgold, hguid⟩
    · rw [if_neg (by simp [hzero]), hzero]
      exact hold
    · by_cases hzero : l.gold = 0
      · rw [if_neg (by simp [hzero]), hzero]
        exact hold
      · have hinsert : (((t.delMoney ct.guid).insMoney
            ⟨col.read ct.guid, col.read l.gold⟩).delItems ct.guid).selMoney ct.guid =
              (t.delMoney ct.guid).selMoney ct.guid ++ [⟨ct.guid, l.gold⟩] := by
          simp [LootTables.selMoney, LootTables.insMoney, LootTables.delItems, List.filter_append,
            col.keeps _ hgold, col.keeps _ hguid]
        rw [if_pos (UInt32.pos_iff_ne_zero.2 hzero), hinsert, selMoney_delMoney]
        rfl

/-- A loot that is saved when the container is opened. -/
theorem kept_openContainer {fill : Fill} {t : LootTables} {isLooted : Bool}
    (hopen : (ct.itemContainerLoadLootFromDB isLooted t).lootGenerated = false)
    (hsaved : (fillLoot w fill).loot.isLooted = false)
    (h : Savable ct (fillLoot w fill).loot ((fillLoot w fill).log.map Prod.fst)) :
    Kept ct col ((fillLoot w fill).loot.items.map LootItem.saved)
      (openContainer ct col w fill t) := by
  obtain ⟨hrows, hmoney⟩ := @save_spec _ ct col t hsaved h.gold (firstMoney_of_load hopen)
  refine ⟨rfl, h.quest, fun _ => ?_, fun _ => hmoney⟩
  show (ct.itemContainerSaveLootToDB col (fillLoot w fill).loot t).selItems ct.guid =
    untaken _ ((fillLoot w fill).log.map Prod.fst) (ct.row col)
  rw [hrows, h.fresh]
  unfold untaken
  rw [List.length_map]
  congr 1
  funext i
  rw [List.getElem?_map, Option.map_map]
  rfl

/-- **Main result.** A container that is opened for the first time, and whose loot can be saved, is
restored by loading it again after every run of looting steps each of which gives out the last item of
its id: exactly what is left, and the loading returns true if anything is. -/
theorem container_loot_restored (w : World) (ct : Container) (col : IntColumn) (owner : UInt32)
    (fill : Fill) (t : LootTables) (isLooted : Bool)
    (hopen : (ct.itemContainerLoadLootFromDB isLooted t).lootGenerated = false)
    (hsaved : (fillLoot w fill).loot.isLooted = false)
    (h : Savable ct (fillLoot w fill).loot ((fillLoot w fill).log.map Prod.fst))
    (steps : List LootStep)
    (hsteps : Runs.EachStep (lootStep ct owner) (LastOfItsId owner) (openContainer ct col w fill t)
      steps) :
    Runs.Along (lootStep ct owner) (Restored ct isLooted) (openContainer ct col w fill t) steps := by
  have hitems := h.storable (reached_formed (reached_fillLoot w fill)) (smallCounts_fillLoot w fill)
  have hrun := Runs.along_of_inv hsteps (@kept_openContainer w ct col fill t isLooted hopen hsaved h)
    fun s step hs hstep => kept_lootStep hs hstep
  exact fun pre hpre => restored_of_kept hitems (hrun pre hpre) isLooted

/-- A column in which all values fit. -/
def wideColumn : IntColumn := ⟨id, fun _ _ => rfl⟩

/-- A container in whose template the items 7 and 8 are. -/
def sampleContainer : Container where
  guid := 5
  template := some [⟨7, false, []⟩, ⟨8, false, []⟩]
  extra := fun _ => ⟨false, 0, 0⟩
  guid_ne_zero := by decide

/-- The filling for a single owner. -/
def ownerFill (drops : List (LootStoreItem × ℕ)) : Fill where
  gold := 0
  drops := drops
  members := [⟨⟨1, none⟩, true, fun _ => true⟩]

/-- An item of each kind. -/
def mixedFill : Fill := ownerFill [(⟨7, false, []⟩, 1), (⟨8, false, []⟩, 1)]

/-- A plain item that nobody took. -/
def plainItem (itemid : UInt32) : LootItem := ⟨itemid, [], false, false, false, 1, false, false, false⟩

theorem items_mixedFill :
    (fillLoot oneItemWorld mixedFill).loot.items = [plainItem 7, plainItem 8] := rfl

theorem savable_mixedFill : Savable sampleContainer (fillLoot oneItemWorld mixedFill).loot
    ((fillLoot oneItemWorld mixedFill).log.map Prod.fst) := by
  refine ⟨rfl, rfl, fun i item hi => ⟨_, rfl, ?_⟩, fun i item hi => ⟨by simp [sampleContainer], by
    simp [sampleContainer]⟩, .inl rfl⟩
  have hmem : item ∈ [plainItem 7, plainItem 8] := items_mixedFill ▸ List.mem_of_getElem? hi
  rcases List.mem_pair.1 hmem with rfl | rfl <;> rfl

/-- The first of two different items is taken. -/
theorem container_loot_restored_mixed :
    Runs.Along (lootStep sampleContainer 1) (Restored sampleContainer false)
      (openContainer sampleContainer wideColumn oneItemWorld mixedFill ⟨[], []⟩)
      [.storeLootItem 0 true] := by
  refine container_loot_restored oneItemWorld sampleContainer wideColumn 1 mixedFill ⟨[], []⟩ false
    rfl rfl savable_mixedFill _ (Runs.eachStep_cons.2 ⟨?_, Runs.EachStep.nil _⟩)
  intro f hf i item hi hid _
  have hfound : givenOut (fillLoot oneItemWorld mixedFill).loot 1 0 true =
      some ⟨.item 0, plainItem 7, none⟩ := rfl
  obtain rfl := Option.some.inj (hfound.symm.trans hf)
  have hi' : [plainItem 7, plainItem 8][i]? = some item := hi
  match i with
  | 0 => rfl
  | 1 =>
    obtain rfl := Option.some.inj hi'
    exact absurd hid (by decide)
  | i + 2 => cases hi'

/-- Two stacks of one item. -/
def twinFill : Fill := ownerFill [(⟨7, false, []⟩, 2)]

/-- When one of two stacks is taken, the other one is lost, and the loading returns false. -/
theorem twin_stack_not_restored :
    let s := lootStep sampleContainer 1
      (openContainer sampleContainer wideColumn oneItemWorld twinFill ⟨[], []⟩)
      (.storeLootItem 0 true)
    s.present = true ∧ s.left sampleContainer = [⟨7, 1, [], 0, 0⟩] ∧
      (sampleContainer.itemContainerLoadLootFromDB false s.tables).contents = [] ∧
      (sampleContainer.itemContainerLoadLootFromDB false s.tables).lootGenerated = false ∧
      ¬ Restored sampleContainer false s := by
  refine ⟨rfl, rfl, rfl, rfl, fun h => ?_⟩
  exact absurd ((h rfl).2.2.2 (.inl (List.cons_ne_nil _ _))) Bool.false_ne_true

end FaceCore.LootMgr
