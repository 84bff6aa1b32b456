import FaceCore.Loot.Lists
import Mathlib.Data.List.Perm.Subperm

/-!
# The loot window

`operator<<(ByteBuffer&, LootView const&)`, what a player sees of a loot, against
`Player::StoreLootItem`, what he can take of it. The window goes through the shared items and
through the three lists of the viewer, each with a filter of its own; the taking looks up one slot
with `LootItemInSlot`, and asks neither `AllowedForPlayer` nor the round robin owner, and where the
viewer has a list it asks the flag in the list and not the one of the item.

* `LootView.window`: what is written, record by record;
* `Change`, `Reached`: the loots that there can be, with whatever flags the rolls leave;
* `Formed`, `reached_formed`: which items the lists of the players hold;
* `window_slots`: what the window lists can be looked up under the slot that it gives;
* `LootView.Covers`, `loot_view_agrees_iff`: when nothing else can be taken.
-/

namespace FaceCore.LootMgr

/-- `PermissionTypes`. -/
inductive PermissionTypes
  | all
  | group
  | master
  | roundRobin
  | owner
  | none
  deriving DecidableEq

/-- `LootSlotType`. -/
inductive LootSlotType
  | allowLoot
  | rollOngoing
  | master
  | locked
  | owner
  deriving DecidableEq

/-- The fields of a `LootItem` that neither filling nor looting reads. -/
structure ItemExtra where
  isUnderthreshold : Bool
  randomSuffix : UInt32
  randomPropertyId : UInt32

/-- `LootView`, with `roundRobinPlayer` of the loot, the remaining fields of its entries, and
`DisplayInfoID` of the item templates. -/
structure LootView where
  loot : Loot
  roundRobinPlayer : UInt32
  extra : Entry → ItemExtra
  displayInfoID : UInt32 → UInt32
  viewer : UInt32
  permission : PermissionTypes

/-- What is written for an entry: its slot, the item, and the slot type. -/
structure SlotRecord where
  slot : UInt8
  itemid : UInt32
  count : ℕ
  displayInfoID : UInt32
  randomSuffix : UInt32
  randomPropertyId : UInt32
  slotType : LootSlotType
  deriving DecidableEq

/-- What is written: the gold, the item count byte, and the records. -/
structure Window where
  gold : UInt32
  itemsShown : UInt8
  records : List SlotRecord

variable {w : World} {l l' : Loot} {lv : LootView}

/-- Write a record, if there is one, and count it. -/
def Window.put (win : Window) : Option SlotRecord → Window
  | none => win
  | some r => { win with itemsShown := win.itemsShown + 1, records := win.records ++ [r] }

namespace LootView

/-- The record of an entry: `operator<<(ByteBuffer&, LootItem const&)` between slot and slot type. -/
def record (lv : LootView) (slot : ℕ) (e : Entry) (item : LootItem) (slotType : LootSlotType) :
    SlotRecord where
  slot := UInt8.ofNat slot
  itemid := item.itemid
  count := item.count
  displayInfoID := lv.displayInfoID item.itemid
  randomSuffix := (lv.extra e).randomSuffix
  randomPropertyId := (lv.extra e).randomPropertyId
  slotType := slotType

/-- The slot type of an item in the first loop; `none` where the item shall not be displayed. -/
def sharedType (lv : LootView) (i : ℕ) (item : LootItem) : Option LootSlotType :=
  match lv.permission with
  | .group =>
    if item.isBlocked then some .rollOngoing
    else if lv.roundRobinPlayer = 0 || !(lv.extra (.item i)).isUnderthreshold ||
        lv.viewer = lv.roundRobinPlayer then some .allowLoot
    else none
  | .roundRobin =>
    if lv.roundRobinPlayer ≠ 0 && lv.viewer ≠ lv.roundRobinPlayer then none else some .allowLoot
  | .all => some .allowLoot
  | .master => some .master
  | .owner => some .owner
  | .none => none

/-- What the first loop writes for an item. -/
def sharedRecord (w : World) (lv : LootView) (i : ℕ) : Option SlotRecord :=
  match lv.loot.items[i]? with
  | none => none
  | some item =>
    if !item.isLooted && !item.freeforall && item.conditions.isEmpty &&
        item.allowedForPlayer w lv.viewer then
      (lv.sharedType i item).map (lv.record i (.item i) item)
    else none

/-- `slotType` of the loops over the lists. -/
def slotType (lv : LootView) : LootSlotType :=
  if lv.permission = .owner then .owner else .allowLoot

/-- The slot type of a quest item or of a conditional item. -/
def ruledType (lv : LootView) (item : LootItem) : LootSlotType :=
  if item.followLootRules then
    match lv.permission with
    | .master => .master
    | .group | .roundRobin => if !item.isBlocked then .allowLoot else .rollOngoing
    | _ => lv.slotType
  else lv.slotType

/-- What a loop over a list writes for an entry that neither the list nor the entry says is
looted. -/
def listedRecord (lv : LootView) (slot : ℕ) (e : Entry) (q : QuestItem)
    (slotType : LootItem → LootSlotType) : Option SlotRecord :=
  match lv.loot.itemAt e with
  | none => none
  | some item =>
    if !q.isLooted && !item.isLooted then some (lv.record slot e item (slotType item)) else none

/-- What the loop over the viewer's quest items writes. -/
def questRecord (lv : LootView) (pos : ℕ) (q : QuestItem) : Option SlotRecord :=
  lv.listedRecord (lv.loot.items.length + pos) (.quest q.index) q lv.ruledType

/-- What the loop over the viewer's free-for-all items writes. -/
def ffaRecord (lv : LootView) (_ : ℕ) (q : QuestItem) : Option SlotRecord :=
  lv.listedRecord q.index (.item q.index) q fun _ => lv.slotType

/-- What the loop over the viewer's conditional items writes. -/
def condRecord (lv : LootView) (_ : ℕ) (q : QuestItem) : Option SlotRecord :=
  lv.listedRecord q.index (.item q.index) q lv.ruledType

/-- A loop over a list of the viewer, if he has one. -/
def putList (lv : LootView) (m : QuestItemMap) (record : ℕ → QuestItem → Option SlotRecord)
    (win : Window) : Window :=
  match m.find lv.viewer with
  | none => win
  | some (_, ql) => ql.zipIdx.foldl (fun win q => win.put (record q.2 q.1)) win

/-- `operator<<(ByteBuffer&, LootView const&)`. -/
def window (w : World) (lv : LootView) : Window :=
  if lv.permission = .none then ⟨0, 0, []⟩
  else
    let win := (List.range lv.loot.items.length).foldl
      (fun (win : Window) i => win.put (lv.sharedRecord w i)) ⟨lv.loot.gold, 0, []⟩
    let win := lv.putList lv.loot.playerQuestItems lv.questRecord win
    let win := lv.putList lv.loot.playerFFAItems lv.ffaRecord win
    lv.putList lv.loot.playerNonQuestNonFFAConditionalItems lv.condRecord win

/-- A window lists a slot. -/
def Lists (w : World) (lv : LootView) (slot : UInt8) : Prop :=
  ∃ r ∈ (lv.window w).records, r.slot = slot

/-- `StoreLootItem` gives the viewer the entry of a slot: it gets past its checks, each of which
leaves everything as it was. -/
def Gives (lv : LootView) (slot : UInt8) : Prop :=
  ∃ log canStore, storeLootItem ⟨lv.loot, log⟩ lv.viewer slot.toNat canStore ≠ ⟨lv.loot, log⟩

/-- The records are found under their slots: the entry there has the item and the count. -/
def Resolves (w : World) (lv : LootView) : Prop :=
  ∀ r ∈ (lv.window w).records, ∃ f, lootItemInSlot lv.loot r.slot.toNat lv.viewer = some f ∧
    f.item.itemid = r.itemid ∧ f.item.count = r.count

/-- Window and taking agree: the records are found under their slots, the item count byte is their
number, and only listed slots give something. -/
def Agrees (w : World) (lv : LootView) : Prop :=
  lv.Resolves w ∧ (lv.window w).itemsShown.toNat = (lv.window w).records.length ∧
    ∀ slot, lv.Gives slot → lv.Lists w slot

end LootView

/-! ### The loots that there can be -/

/-- What happens to a loot: the filling and the requests; a roll of the group, which blocks an entry,
frees it or gives it away; the money; `Loot::clear`; and `ItemContainerLoadLootFromDB` with the items
that were saved of a loot. -/
inductive Change
  | event (e : Event)
  | roll (e : Entry) (isLooted isBlocked : Bool) (unlootedCount : UInt8)
  | money (gold : UInt32)
  | clear
  | load (gold : UInt32) (saved : List LootItem) (hlen : saved.length ≤ maxNrLootItems)

/-- The loot after a change. -/
def change (w : World) (s : State) : Change → State
  | .event e => step w s e
  | .roll e isLooted isBlocked unlootedCount =>
    match s.loot.itemAt e with
    | none => s
    | some item =>
      let l := s.loot.setItem e { item with isLooted := isLooted, isBlocked := isBlocked }
      { s with loot := { l with unlootedCount := unlootedCount } }
  | .money gold => { s with loot := { s.loot with gold := gold } }
  | .clear => { s with loot := Loot.new 0 }
  | .load gold saved _ =>
    { s with
      loot := { Loot.new gold with items := saved, unlootedCount := UInt8.ofNat saved.length } }

/-- The loots that come about by changes. -/
def Reached (w : World) (l : Loot) : Prop :=
  ∃ (gold : UInt32) (cs : List Change), (cs.foldl (change w) (State.new gold)).loot = l

/-! ### What the lists hold -/

/-- The lists hold every entry once, and only entries with a property. -/
structure ListsOnly (m : QuestItemMap) (P : ℕ → Prop) : Prop where
  distinct : Distinct m
  holds : ∀ r ∈ m, ∀ i ∈ r.2.map QuestItem.index, P i

theorem listsOnly_empty (P : ℕ → Prop) : ListsOnly (Table.empty _) P :=
  ⟨fun _ hr => absurd hr Table.not_mem_empty, fun _ hr => absurd hr Table.not_mem_empty⟩

theorem ListsOnly.mono {m : QuestItemMap} {P Q : ℕ → Prop} (h : ListsOnly m P)
    (hPQ : ∀ i, P i → Q i) : ListsOnly m Q :=
  ⟨h.distinct, fun r hr i hi => hPQ i (h.holds r hr i hi)⟩

theorem ListsOnly.markLooted {m : QuestItemMap} {P : ℕ → Prop} (h : ListsOnly m P) (p : UInt32)
    (pos : ℕ) : ListsOnly (markLooted m p pos) P := by
  refine ⟨distinct_markLooted h.distinct p pos, (Table.forall_mem_modify _).2 fun r hr => ?_⟩
  split_ifs
  · rw [map_index_modify]
    exact h.holds r hr
  · exact h.holds r hr

theorem ListsOnly.list {m : QuestItemMap} {P : ℕ → Prop} (h : ListsOnly m P) (p : UInt32)
    {is : List ℕ} (his : is.Nodup) (hP : ∀ i ∈ is, P i) : ListsOnly (m.list p is) P := by
  refine ⟨distinct_list h.distinct his, ?_⟩
  unfold QuestItemMap.list
  split_ifs
  · exact h.holds
  · intro r hr
    rcases Table.mem_insert.1 hr with rfl | ⟨hr, -⟩
    · rw [map_index_listed]
      exact hP
    · exact h.holds r hr

theorem ListsOnly.of_find {m : QuestItemMap} {P : ℕ → Prop} (h : ListsOnly m P) {p : UInt32}
    {ql : List QuestItem} (hfind : m.find p = some (p, ql)) {pos : ℕ} {q : QuestItem}
    (hq : ql[pos]? = some q) : P q.index :=
  h.holds _ (Table.of_find hfind).1 _ (List.mem_map_of_mem (List.mem_of_getElem? hq))

/-- What of an item says in which lists it can be: whether it is free for all, and whether it is
unconditional. -/
def LootItem.kind (item : LootItem) : Bool × Bool := (item.freeforall, item.conditions.isEmpty)

/-- The kinds of the items. -/
def Loot.kinds (l : Loot) : List (Bool × Bool) := l.items.map LootItem.kind

theorem getElem?_kinds {i : ℕ} {k : Bool × Bool} :
    l.kinds[i]? = some k ↔ ∃ item, l.items[i]? = some item ∧ item.kind = k := by
  rw [Loot.kinds, List.getElem?_map, Option.map_eq_some_iff]

/-- The sizes of the loot, and what stands in the lists of the players: quest items, items that are
free for all, and items that are conditional and not free for all. -/
structure Formed (l : Loot) : Prop where
  items_le : l.items.length ≤ maxNrLootItems
  questItems_le : l.questItems.length ≤ maxNrQuestItems
  quest : ListsOnly l.playerQuestItems fun i => i < l.questItems.length
  ffa : ListsOnly l.playerFFAItems fun i => ∃ c, l.kinds[i]? = some (true, c)
  cond : ListsOnly l.playerNonQuestNonFFAConditionalItems fun i => l.kinds[i]? = some (false, false)

theorem kinds_of_prefix (h : l.kinds <+: l'.kinds) {i : ℕ} {k : Bool × Bool}
    (hi : l.kinds[i]? = some k) : l'.kinds[i]? = some k := by
  obtain ⟨hlt, rfl⟩ := List.getElem?_eq_some_iff.1 hi
  exact List.prefix_iff_getElem?.1 h i hlt

/-- A change that only adds items, and adds no listing. -/
theorem Formed.grow (h : Formed l) (hitems : l'.items.length ≤ maxNrLootItems)
    (hquests : l'.questItems.length ≤ maxNrQuestItems) (hkinds : l.kinds <+: l'.kinds)
    (hlen : l.questItems.length ≤ l'.questItems.length)
    (hquest : ∀ P, ListsOnly l.playerQuestItems P → ListsOnly l'.playerQuestItems P)
    (hffa : ∀ P, ListsOnly l.playerFFAItems P → ListsOnly l'.playerFFAItems P)
    (hcond : ∀ P, ListsOnly l.playerNonQuestNonFFAConditionalItems P →
      ListsOnly l'.playerNonQuestNonFFAConditionalItems P) : Formed l' where
  items_le := hitems
  questItems_le := hquests
  quest := hquest _ (h.quest.mono fun _ hi => hi.trans_le hlen)
  ffa := hffa _ (h.ffa.mono fun _ ⟨c, hc⟩ => ⟨c, kinds_of_prefix hkinds hc⟩)
  cond := hcond _ (h.cond.mono fun _ hi => kinds_of_prefix hkinds hi)

theorem formed_new (gold : UInt32) : Formed (Loot.new gold) :=
  ⟨Nat.zero_le _, Nat.zero_le _, listsOnly_empty _, listsOnly_empty _, listsOnly_empty _⟩

theorem formed_mark (h : Formed l) (p : UInt32) (x : Option Listed) : Formed (l.mark p x) := by
  rcases x with _ | pos | pos | pos
  · exact h
  · exact h.grow h.items_le h.questItems_le List.prefix_rfl le_rfl
      (fun _ hl => hl.markLooted p pos) (fun _ => id) fun _ => id
  · exact h.grow h.items_le h.questItems_le List.prefix_rfl le_rfl
      (fun _ => id) (fun _ hl => hl.markLooted p pos) fun _ => id
  · exact h.grow h.items_le h.questItems_le List.prefix_rfl le_rfl
      (fun _ => id) (fun _ => id) fun _ hl => hl.markLooted p pos

theorem formed_setItem (h : Formed l) {e : Entry} {item item' : LootItem}
    (he : l.itemAt e = some item) (hkind : item'.kind = item.kind) : Formed (l.setItem e item') := by
  cases e with
  | quest i =>
    have hlen : (l.questItems.set i item').length = l.questItems.length := List.length_set ..
    exact h.grow h.items_le (hlen.trans_le h.questItems_le) List.prefix_rfl hlen.ge (fun _ => id)
      (fun _ => id) fun _ => id
  | item i =>
    have hlen : (l.items.set i item').length = l.items.length := List.length_set ..
    have hkinds : (l.setItem (.item i) item').kinds = l.kinds := by
      obtain ⟨hlt, rfl⟩ := List.getElem?_eq_some_iff.1 he
      show (l.items.set i item').map LootItem.kind = l.items.map LootItem.kind
      rw [List.map_set, hkind, ← List.getElem_map LootItem.kind (h := by simpa using hlt),
        List.set_getElem_self]
    exact h.grow (hlen.trans_le h.items_le) h.questItems_le (by rw [hkinds]) le_rfl
      (fun _ => id) (fun _ => id) fun _ => id

/-- The counter and the gold say nothing about the lists. -/
theorem formed_count (h : Formed l) (gold : UInt32) (n : UInt8) :
    Formed { l with gold := gold, unlootedCount := n } :=
  ⟨h.items_le, h.questItems_le, h.quest, h.ffa, h.cond⟩

theorem formed_take (h : Formed l) {p : UInt32} {f : Found} (he : l.itemAt f.entry = some f.item) :
    Formed (l.take p f) := by
  have hmark := formed_mark h p f.listed
  have hkind : LootItem.kind { f.item with isLooted := true } = f.item.kind := rfl
  unfold Loot.take
  dsimp only
  split_ifs
  · exact formed_count hmark _ _
  · exact formed_count (formed_setItem hmark ((itemAt_mark p f.listed f.entry).trans he) hkind) _ _

theorem formed_storeLootItem {s : State} (h : Formed s.loot) (p : UInt32) (slot : ℕ)
    (canStore : Bool) : Formed (storeLootItem s p slot canStore).loot := by
  rcases storeLootItem_cases s p slot canStore with ⟨heq, -⟩ | ⟨f, hf, -, -, heq⟩
  · rw [heq]
    exact h
  · rw [heq]
    exact formed_take h (finds_of_lootItemInSlot hf).itemAt

theorem formed_serve {s : State} (h : Formed s.loot) (r : Request) :
    Formed (serve w s r).loot := by
  cases r with
  | storeLootItem p slot canStore => exact formed_storeLootItem h p slot canStore
  | lootMasterGive valid slotid target canStore =>
    show Formed (lootMasterGive w s valid slotid target canStore).loot
    rcases lootMasterGive_cases w s valid slotid target canStore with
      ⟨heq, -⟩ | ⟨item, hitem, -, -, -, heq⟩
    · rw [heq]
      exact h
    · have hkind : LootItem.kind { item with count := 0, isLooted := true } = item.kind := rfl
      rw [heq]
      exact formed_count (formed_setItem h hitem hkind) _ _

theorem formed_pushQuest (h : Formed l) (hroom : l.questItems.length < maxNrQuestItems)
    (item : LootItem) : Formed { l with questItems := l.questItems ++ [item] } := by
  refine h.grow h.items_le ?_ List.prefix_rfl ?_ (fun _ => id) (fun _ => id) fun _ => id
  · rw [List.length_append, List.length_singleton]
    exact hroom
  · rw [List.length_append]
    exact Nat.le_add_right _ _

theorem formed_pushItem (h : Formed l) (hroom : l.items.length < maxNrLootItems)
    (item : LootItem) (n : UInt8) :
    Formed { l with items := l.items ++ [item], unlootedCount := n } := by
  refine h.grow ?_ h.questItems_le ?_ le_rfl (fun _ => id) (fun _ => id) fun _ => id
  · rw [List.length_append, List.length_singleton]
    exact hroom
  · rw [Loot.kinds, Loot.kinds, List.map_append]
    exact List.prefix_append _ _

theorem formed_addItem (h : Formed l) (item : LootStoreItem) (count : ℕ) :
    Formed (addItem w l item count) :=
  addItem_induction (fun _ _ _ hroom hl => formed_pushQuest hl hroom _)
    (fun _ _ _ hroom hl => formed_pushItem hl hroom _ _) count h

theorem formed_fillLists (h : Formed l) (p : Looter) : Formed (fillLists w l p) := by
  have hkinds : (updateAt l.items (l.condListed w p) LootItem.counted).map LootItem.kind =
      l.kinds := by
    apply List.ext_getElem?
    intro i
    rw [List.getElem?_map, getElem?_updateAt, Loot.kinds, List.getElem?_map, Option.map_map]
    congr 1
    funext item
    rw [Function.comp_apply]
    split_ifs <;> rfl
  have hlen : (updateAt l.questItems (l.questListed w p) p.block).length =
      l.questItems.length := by simp [updateAt]
  have hitems : (updateAt l.items (l.condListed w p) LootItem.counted).length =
      l.items.length := by simp [updateAt]
  rw [fillLists_eq]
  constructor
  · exact hitems.trans_le h.items_le
  · exact hlen.trans_le h.questItems_le
  · refine (h.quest.list p.guid (nodup_questListed l p) fun i hi => ?_).mono
      fun i hi => hi.trans_eq hlen.symm
    obtain ⟨item, hitem, -⟩ := mem_indices.1 ((questListed_sublist l p).mem hi)
    exact (List.getElem?_eq_some_iff.1 hitem).1
  · show ListsOnly _ fun i => ∃ c, (List.map LootItem.kind _)[i]? = some (true, c)
    rw [hkinds]
    refine h.ffa.list p.guid (List.nodup_range.sublist ((ffaListed_sublist l p).trans
      (indices_sublist _ _))) fun i hi => ?_
    obtain ⟨item, hitem, htest⟩ := mem_indices.1 ((ffaListed_sublist l p).mem hi)
    simp only [LootItem.ffaTest, Bool.and_eq_true] at htest
    exact ⟨_, getElem?_kinds.2 ⟨item, hitem, Prod.ext htest.1.2 rfl⟩⟩
  · show ListsOnly _ fun i => (List.map LootItem.kind _)[i]? = some (false, false)
    rw [hkinds]
    refine h.cond.list p.guid (List.nodup_range.sublist ((condListed_sublist l p).trans
      (indices_sublist _ _))) fun i hi => ?_
    obtain ⟨item, hitem, htest⟩ := mem_indices.1 ((condListed_sublist l p).mem hi)
    simp only [LootItem.condTest, Bool.and_eq_true, Bool.not_eq_true'] at htest
    exact getElem?_kinds.2 ⟨item, hitem, Prod.ext htest.1.1.2 htest.2⟩

theorem formed_step {s : State} (h : Formed s.loot) (e : Event) : Formed (step w s e).loot := by
  cases e with
  | addItem item count => exact formed_addItem h item count
  | fillLists p => exact formed_fillLists h p
  | request r => exact formed_serve h r
  | currency p i canStore =>
    show Formed (currencyTurn w p canStore s i).loot
    rcases currencyTurn_cases w p canStore s i with ⟨heq, -⟩ | ⟨-, heq⟩
    · rw [heq]
      exact h
    · rw [heq]
      exact formed_storeLootItem h p.guid i canStore

theorem formed_change {s : State} (h : Formed s.loot) (c : Change) :
    Formed (change w s c).loot := by
  cases c with
  | event e => exact formed_step h e
  | roll e isLooted isBlocked n =>
    simp only [change]
    cases he : s.loot.itemAt e with
    | none => exact h
    | some item =>
      have hkind : LootItem.kind { item with isLooted := isLooted, isBlocked := isBlocked } =
          item.kind := rfl
      exact formed_count (formed_setItem h he hkind) _ n
  | money gold => exact formed_count h gold _
  | clear => exact formed_new 0
  | load gold saved hlen =>
    exact ⟨hlen, Nat.zero_le _, listsOnly_empty _, listsOnly_empty _, listsOnly_empty _⟩

/-- Every loot that comes about has its lists in order. -/
theorem reached_formed (h : Reached w l) : Formed l := by
  obtain ⟨gold, cs, rfl⟩ := h
  suffices haux : ∀ s : State, Formed s.loot → Formed (cs.foldl (change w) s).loot from
    haux _ (formed_new gold)
  induction cs with
  | nil => exact fun _ hs => hs
  | cons c cs ih => exact fun s hs => ih _ (formed_change hs c)

/-! ### What the window lists -/

theorem foldl_put {α : Type*} (f : α → Option SlotRecord) (xs : List α) (win : Window) :
    xs.foldl (fun win x => win.put (f x)) win =
      { win with
        itemsShown := win.itemsShown + UInt8.ofNat (xs.filterMap f).length
        records := win.records ++ xs.filterMap f } := by
  induction xs generalizing win with
  | nil => simp
  | cons x xs ih =>
    rw [List.foldl_cons, ih, List.filterMap_cons]
    cases f x with
    | none => rfl
    | some r =>
      simp only [Window.put, List.length_cons, List.append_assoc, List.singleton_append,
        UInt8.ofNat_add, Window.mk.injEq, true_and, and_true]
      rw [UInt8.add_assoc, UInt8.add_comm 1]
      rfl

namespace LootView

/-- What a loop over a list of the viewer writes. -/
def listRecords (lv : LootView) (m : QuestItemMap) (record : ℕ → QuestItem → Option SlotRecord) :
    List SlotRecord :=
  match m.find lv.viewer with
  | none => []
  | some (_, ql) => ql.zipIdx.filterMap fun q => record q.2 q.1

theorem putList_eq (m : QuestItemMap) (record : ℕ → QuestItem → Option SlotRecord) (win : Window) :
    lv.putList m record win =
      { win with
        itemsShown := win.itemsShown + UInt8.ofNat (lv.listRecords m record).length
        records := win.records ++ lv.listRecords m record } := by
  unfold putList listRecords
  cases m.find lv.viewer with
  | none => simp
  | some r => exact foldl_put _ _ win

/-- What the first loop writes. -/
def sharedRecords (w : World) (lv : LootView) : List SlotRecord :=
  (List.range lv.loot.items.length).filterMap (lv.sharedRecord w)

/-- All that is written. -/
def allRecords (w : World) (lv : LootView) : List SlotRecord :=
  lv.sharedRecords w ++ lv.listRecords lv.loot.playerQuestItems lv.questRecord ++
    lv.listRecords lv.loot.playerFFAItems lv.ffaRecord ++
    lv.listRecords lv.loot.playerNonQuestNonFFAConditionalItems lv.condRecord

theorem window_eq (hperm : lv.permission ≠ .none) :
    lv.window w =
      ⟨lv.loot.gold, UInt8.ofNat (lv.allRecords w).length, lv.allRecords w⟩ := by
  unfold window
  rw [if_neg hperm]
  simp only [putList_eq, foldl_put, allRecords, sharedRecords, List.nil_append, List.length_append,
    UInt8.ofNat_add, Window.mk.injEq, true_and, and_true]
  simp

theorem mem_listRecords {m : QuestItemMap} {record : ℕ → QuestItem → Option SlotRecord}
    {r : SlotRecord} :
    r ∈ lv.listRecords m record ↔ ∃ ql pos q, m.find lv.viewer = some (lv.viewer, ql) ∧
      ql[pos]? = some q ∧ record pos q = some r := by
  unfold listRecords
  cases hfind : m.find lv.viewer with
  | none => simp
  | some x =>
    obtain ⟨g, ql⟩ := x
    obtain rfl : g = lv.viewer := (Table.of_find hfind).2
    simp only [List.mem_filterMap, Prod.exists, List.mem_zipIdx_iff_getElem?, Option.some.injEq,
      Prod.mk.injEq, true_and, exists_and_left, exists_eq_left']
    exact exists_comm

theorem length_le_of_find {m : QuestItemMap} {P : ℕ → Prop} (hm : ListsOnly m P) {n : ℕ}
    (hn : ∀ i, P i → i < n) {p : UInt32} {ql : List QuestItem}
    (hfind : m.find p = some (p, ql)) : ql.length ≤ n := by
  have hmem := (Table.of_find hfind).1
  calc ql.length = (ql.map QuestItem.index).length := (List.length_map _).symm
    _ ≤ (List.range n).length := by
      refine (List.subperm_of_subset (hm.distinct _ hmem) fun i hi => ?_).length_le
      exact List.mem_range.2 (hn i (hm.holds _ hmem i hi))
    _ = n := List.length_range

theorem length_listRecords_le (lv : LootView) {m : QuestItemMap} {P : ℕ → Prop}
    (hm : ListsOnly m P) {n : ℕ} (hn : ∀ i, P i → i < n)
    (record : ℕ → QuestItem → Option SlotRecord) : (lv.listRecords m record).length ≤ n := by
  unfold listRecords
  cases hfind : m.find lv.viewer with
  | none => exact Nat.zero_le n
  | some x =>
    obtain ⟨g, ql⟩ := x
    obtain rfl : g = lv.viewer := (Table.of_find hfind).2
    calc (ql.zipIdx.filterMap fun q => record q.2 q.1).length
        ≤ ql.zipIdx.length := List.length_filterMap_le _ _
      _ = ql.length := List.length_zipIdx
      _ ≤ n := length_le_of_find hm hn hfind

theorem listedRecord_eq_some {slot : ℕ} {e : Entry} {q : QuestItem} {f : LootItem → LootSlotType}
    {r : SlotRecord} :
    lv.listedRecord slot e q f = some r ↔ ∃ item, lv.loot.itemAt e = some item ∧
      q.isLooted = false ∧ item.isLooted = false ∧ lv.record slot e item (f item) = r := by
  unfold listedRecord
  cases lv.loot.itemAt e with
  | none => simp
  | some item =>
    simp only [Bool.and_eq_true, Bool.not_eq_true', Option.ite_none_right_eq_some, Option.some.injEq,
      exists_eq_left', and_assoc]

theorem sharedRecord_eq_some {i : ℕ} {r : SlotRecord} :
    lv.sharedRecord w i = some r ↔ ∃ item, lv.loot.items[i]? = some item ∧
      item.isLooted = false ∧ item.kind = (false, true) ∧
      item.allowedForPlayer w lv.viewer = true ∧
      ∃ t, lv.sharedType i item = some t ∧ lv.record i (.item i) item t = r := by
  unfold sharedRecord
  cases lv.loot.items[i]? with
  | none => simp
  | some item =>
    simp only [Bool.and_eq_true, Bool.not_eq_true', Option.ite_none_right_eq_some,
      Option.map_eq_some_iff, Option.some.injEq, exists_eq_left', LootItem.kind, Prod.mk.injEq,
      and_assoc]

end LootView

/-! ### What a slot gives -/

/-- The entry of an item in the list that a player has for items of its kind. -/
def Loot.entryFor (l : Loot) (player : UInt32) (i : ℕ) (item : LootItem) : Option QuestItem :=
  (position (if item.freeforall then l.playerFFAItems
    else l.playerNonQuestNonFFAConditionalItems) player i).map Prod.snd

/-- The flag that `LootItemInSlot` asks: the one in the list of the player, if the item is not a
shared one and he has an entry for it, and otherwise the one of the item. -/
def Loot.lootedFor (l : Loot) (player : UInt32) (i : ℕ) (item : LootItem) : Bool :=
  if item.kind = (false, true) then item.isLooted
  else
    match l.entryFor player i item with
    | none => item.isLooted
    | some q => q.isLooted

theorem lootItemInSlot_item {i : ℕ} {item : LootItem} (hi : l.items[i]? = some item) (p : UInt32) :
    ∃ x : Option Listed, (∀ pos, x ≠ some (.qitem pos)) ∧
      lootItemInSlot l i p =
        if l.lootedFor p i item then none else some ⟨.item i, item, x⟩ := by
  have hlt := (List.getElem?_eq_some_iff.1 hi).1
  unfold lootItemInSlot Loot.lootedFor Loot.entryFor
  rw [if_neg (Nat.not_le.2 hlt)]
  simp only [hi, LootItem.kind]
  by_cases hffa : item.freeforall = true
  · simp only [hffa, if_true]
    cases position l.playerFFAItems p i with
    | none => exact ⟨none, nofun, by simp⟩
    | some x => exact ⟨some (.ffaitem x.1), nofun, by simp⟩
  · simp only [hffa, Bool.false_eq_true, if_false]
    by_cases hc : item.conditions.isEmpty = true
    · exact ⟨none, nofun, by simp [hc]⟩
    · simp only [hc, Bool.not_false, if_true]
      cases position l.playerNonQuestNonFFAConditionalItems p i with
      | none => exact ⟨none, nofun, by simp⟩
      | some x => exact ⟨some (.conditem x.1), nofun, by simp⟩

theorem lootItemInSlot_quest {slot : ℕ} (hslot : l.items.length ≤ slot) {p : UInt32} {f : Found} :
    lootItemInSlot l slot p = some f ↔ ∃ ql q item,
      l.playerQuestItems.find p = some (p, ql) ∧ ql[slot - l.items.length]? = some q ∧
        l.questItems[q.index]? = some item ∧ q.isLooted = false ∧
        f = ⟨.quest q.index, item, some (.qitem (slot - l.items.length))⟩ := by
  unfold lootItemInSlot
  rw [if_pos hslot]
  dsimp only
  cases hfind : l.playerQuestItems.find p with
  | none => simp
  | some r =>
    obtain ⟨g, ql⟩ := r
    obtain rfl : g = p := (Table.of_find hfind).2
    dsimp only
    constructor
    · intro h
      cases hq : ql[slot - l.items.length]? with
      | none => simp [hq] at h
      | some q =>
        simp only [hq] at h
        cases hitem : l.questItems[q.index]? with
        | none => simp [hitem] at h
        | some item =>
          simp only [hitem, Option.ite_none_left_eq_some, Bool.not_eq_true] at h
          exact ⟨ql, q, item, rfl, hq, hitem, h.1, (Option.some.inj h.2).symm⟩
    · rintro ⟨ql', q, item, heq, hq, hitem, hnew, rfl⟩
      obtain ⟨-, rfl⟩ := Prod.mk.inj (Option.some.inj heq)
      simp [hq, hitem, hnew]

namespace LootView

/-- What `StoreLootItem` checks. -/
theorem gives_iff {slot : UInt8} :
    lv.Gives slot ↔ ∃ f, lootItemInSlot lv.loot slot.toNat lv.viewer = some f ∧
      (f.isQuest = true ∨ f.item.isBlocked = false) := by
  constructor
  · rintro ⟨log, canStore, hne⟩
    rcases storeLootItem_cases ⟨lv.loot, log⟩ lv.viewer slot.toNat canStore with
      ⟨heq, -⟩ | ⟨f, hf, hfree, -, -⟩
    · exact absurd heq hne
    · exact ⟨f, hf, hfree⟩
  · rintro ⟨f, hf, hfree⟩
    refine ⟨[], true, ?_⟩
    rcases storeLootItem_cases ⟨lv.loot, []⟩ lv.viewer slot.toNat true with
      ⟨-, hstuck⟩ | ⟨f', -, -, -, heq⟩
    · exact absurd (hstuck f hf hfree) (by decide)
    · -- what is taken is counted down
      rw [heq]
      intro hsame
      have hcount : (lv.loot.take lv.viewer f').unlootedCount = lv.loot.unlootedCount :=
        congrArg (fun s : State => s.loot.unlootedCount) hsame
      rw [unlootedCount_take, ← UInt8.toNat_inj, UInt8.toNat_sub] at hcount
      have hlt := lv.loot.unlootedCount.toNat_lt
      have hone : (1 : UInt8).toNat = 1 := rfl
      omega

theorem gives_item_iff {slot : UInt8} {item : LootItem}
    (hi : lv.loot.items[slot.toNat]? = some item) :
    lv.Gives slot ↔
      lv.loot.lootedFor lv.viewer slot.toNat item = false ∧ item.isBlocked = false := by
  obtain ⟨x, hx, hfound⟩ := lootItemInSlot_item hi lv.viewer
  rw [gives_iff, hfound]
  simp only [Option.ite_none_left_eq_some, Option.some.injEq, Bool.not_eq_true]
  constructor
  · rintro ⟨f, ⟨hnew, rfl⟩, hquest | hfree⟩
    · rcases x with _ | _ | _ | _
      · cases hquest
      · exact absurd rfl (hx _)
      · cases hquest
      · cases hquest
    · exact ⟨hnew, hfree⟩
  · rintro ⟨hnew, hfree⟩
    exact ⟨_, ⟨hnew, rfl⟩, .inr hfree⟩

theorem gives_quest_iff {slot : UInt8} (hslot : lv.loot.items.length ≤ slot.toNat) :
    lv.Gives slot ↔ ∃ ql q item,
      lv.loot.playerQuestItems.find lv.viewer = some (lv.viewer, ql) ∧
        ql[slot.toNat - lv.loot.items.length]? = some q ∧
        lv.loot.questItems[q.index]? = some item ∧ q.isLooted = false := by
  rw [gives_iff]
  constructor
  · rintro ⟨f, hf, -⟩
    obtain ⟨ql, q, item, hfind, hq, hitem, hnew, -⟩ := (lootItemInSlot_quest hslot).1 hf
    exact ⟨ql, q, item, hfind, hq, hitem, hnew⟩
  · rintro ⟨ql, q, item, hfind, hq, hitem, hnew⟩
    exact ⟨_, (lootItemInSlot_quest hslot).2 ⟨ql, q, item, hfind, hq, hitem, hnew, rfl⟩, .inl rfl⟩

/-! ### Window and taking -/

theorem mem_records (hperm : lv.permission ≠ .none) {r : SlotRecord} :
    r ∈ (lv.window w).records ↔
      (∃ i, lv.sharedRecord w i = some r) ∨
      (∃ ql pos q, lv.loot.playerQuestItems.find lv.viewer = some (lv.viewer, ql) ∧
        ql[pos]? = some q ∧ lv.questRecord pos q = some r) ∨
      (∃ ql pos q, lv.loot.playerFFAItems.find lv.viewer = some (lv.viewer, ql) ∧
        ql[pos]? = some q ∧ lv.ffaRecord pos q = some r) ∨
      ∃ ql pos q,
        lv.loot.playerNonQuestNonFFAConditionalItems.find lv.viewer = some (lv.viewer, ql) ∧
          ql[pos]? = some q ∧ lv.condRecord pos q = some r := by
  have hshared : r ∈ lv.sharedRecords w ↔ ∃ i, lv.sharedRecord w i = some r := by
    rw [sharedRecords, List.mem_filterMap]
    refine exists_congr fun i => and_iff_right_of_imp fun h => ?_
    obtain ⟨item, hitem, -⟩ := sharedRecord_eq_some.1 h
    exact List.mem_range.2 (List.getElem?_eq_some_iff.1 hitem).1
  rw [window_eq hperm]
  show r ∈ lv.allRecords w ↔ _
  rw [allRecords, List.mem_append, List.mem_append, List.mem_append, hshared, mem_listRecords,
    mem_listRecords, mem_listRecords, or_assoc, or_assoc]

theorem itemsShown_eq (hl : Formed lv.loot) (hperm : lv.permission ≠ .none) :
    (lv.window w).itemsShown.toNat = (lv.window w).records.length := by
  have hkind : ∀ (i : ℕ) (k : Bool × Bool), lv.loot.kinds[i]? = some k →
      i < lv.loot.items.length := by
    intro i k hk
    obtain ⟨item, hitem, -⟩ := getElem?_kinds.1 hk
    exact (List.getElem?_eq_some_iff.1 hitem).1
  have hshared : (lv.sharedRecords w).length ≤ lv.loot.items.length :=
    (List.length_filterMap_le _ _).trans_eq List.length_range
  have hquest := lv.length_listRecords_le hl.quest (fun _ => id) lv.questRecord
  have hffa := lv.length_listRecords_le hl.ffa (fun i ⟨_, hc⟩ => hkind i _ hc) lv.ffaRecord
  have hcond := lv.length_listRecords_le hl.cond (fun i hk => hkind i _ hk) lv.condRecord
  have hitems : lv.loot.items.length ≤ 16 := hl.items_le
  have hquests : lv.loot.questItems.length ≤ 32 := hl.questItems_le
  rw [window_eq hperm]
  apply UInt8.toNat_ofNat_of_lt'
  show (lv.allRecords w).length < 256
  simp only [allRecords, List.length_append]
  omega

/-- Whether an item that is not looted is listed: a shared item if it is allowed for the viewer and
displayed under the permission, another one if the viewer has an entry for it that is not looted. -/
def Shows (w : World) (lv : LootView) (i : ℕ) (item : LootItem) : Prop :=
  if item.kind = (false, true) then
    item.allowedForPlayer w lv.viewer = true ∧ (lv.sharedType i item).isSome = true
  else ∃ q, lv.loot.entryFor lv.viewer i item = some q ∧ q.isLooted = false

/-- The records: of the items that are listed, and of the viewer's quest items. -/
inductive Writes (w : World) (lv : LootView) : SlotRecord → Prop
  | item {i : ℕ} {item : LootItem} (t : LootSlotType) (hitem : lv.loot.items[i]? = some item)
      (hnew : item.isLooted = false) (hshows : lv.Shows w i item) :
      Writes w lv (lv.record i (.item i) item t)
  | quest {ql : List QuestItem} {pos : ℕ} {q : QuestItem} {item : LootItem} (t : LootSlotType)
      (hfind : lv.loot.playerQuestItems.find lv.viewer = some (lv.viewer, ql))
      (hq : ql[pos]? = some q) (hitem : lv.loot.questItems[q.index]? = some item)
      (hlisted : q.isLooted = false) (hnew : item.isLooted = false) :
      Writes w lv (lv.record (lv.loot.items.length + pos) (.quest q.index) item t)

theorem writes_of_mem (hl : Formed lv.loot) (hperm : lv.permission ≠ .none) {r : SlotRecord}
    (hr : r ∈ (lv.window w).records) : lv.Writes w r := by
  rcases (mem_records hperm).1 hr with ⟨i, h⟩ | ⟨ql, pos, q, hfind, hq, h⟩ |
    ⟨ql, pos, q, hfind, hq, h⟩ | ⟨ql, pos, q, hfind, hq, h⟩
  · obtain ⟨item, hitem, hnew, hkind, hallowed, t, ht, rfl⟩ := sharedRecord_eq_some.1 h
    refine .item t hitem hnew ?_
    unfold Shows
    rw [if_pos hkind, ht]
    exact ⟨hallowed, rfl⟩
  · obtain ⟨item, hitem, hlisted, hnew, rfl⟩ := listedRecord_eq_some.1 h
    exact .quest _ hfind hq hitem hlisted hnew
  · obtain ⟨item, hitem, hlisted, hnew, rfl⟩ := listedRecord_eq_some.1 h
    refine .item _ hitem hnew ?_
    obtain ⟨c, hc⟩ := hl.ffa.of_find hfind hq
    obtain ⟨item', hitem', hkind⟩ := getElem?_kinds.1 hc
    obtain rfl := Option.some.inj (hitem.symm.trans hitem')
    have hffa : item.freeforall = true := congrArg Prod.fst hkind
    unfold Shows
    rw [if_neg (by simp [hkind]), Loot.entryFor, if_pos hffa,
      position_of_getElem? hl.ffa.distinct hfind hq]
    exact ⟨q, rfl, hlisted⟩
  · obtain ⟨item, hitem, hlisted, hnew, rfl⟩ := listedRecord_eq_some.1 h
    refine .item _ hitem hnew ?_
    obtain ⟨item', hitem', hkind⟩ := getElem?_kinds.1 (hl.cond.of_find hfind hq)
    obtain rfl := Option.some.inj (hitem.symm.trans hitem')
    have hffa : item.freeforall = false := congrArg Prod.fst hkind
    unfold Shows
    rw [if_neg (by simp [hkind]), Loot.entryFor, if_neg (by simp [hffa]),
      position_of_getElem? hl.cond.distinct hfind hq]
    exact ⟨q, rfl, hlisted⟩

theorem exists_mem_of_shows (hperm : lv.permission ≠ .none) {i : ℕ} {item : LootItem}
    (hitem : lv.loot.items[i]? = some item) (hnew : item.isLooted = false)
    (hshows : lv.Shows w i item) : ∃ t, lv.record i (.item i) item t ∈ (lv.window w).records := by
  unfold Shows at hshows
  split_ifs at hshows with hkind
  · obtain ⟨t, ht⟩ := Option.isSome_iff_exists.1 hshows.2
    exact ⟨t, (mem_records hperm).2 (.inl
      ⟨i, sharedRecord_eq_some.2 ⟨item, hitem, hnew, hkind, hshows.1, t, ht, rfl⟩⟩)⟩
  · obtain ⟨q, hq, hlisted⟩ := hshows
    unfold Loot.entryFor at hq
    obtain ⟨⟨pos, q'⟩, hpos, rfl⟩ := Option.map_eq_some_iff.1 hq
    split_ifs at hpos with hffa
    · obtain ⟨ql, hfind, -, hget, rfl⟩ := position_eq_some hpos
      exact ⟨_, (mem_records hperm).2 (.inr (.inr (.inl ⟨ql, pos, q', hfind, hget,
        listedRecord_eq_some.2 ⟨item, hitem, hlisted, hnew, rfl⟩⟩)))⟩
    · obtain ⟨ql, hfind, -, hget, rfl⟩ := position_eq_some hpos
      exact ⟨_, (mem_records hperm).2 (.inr (.inr (.inr ⟨ql, pos, q', hfind, hget,
        listedRecord_eq_some.2 ⟨item, hitem, hlisted, hnew, rfl⟩⟩)))⟩

theorem slot_of_item (hl : Formed lv.loot) {i : ℕ} {item : LootItem}
    (hitem : lv.loot.items[i]? = some item) (e : Entry) (t : LootSlotType) :
    (lv.record i e item t).slot.toNat = i := by
  have hi := (List.getElem?_eq_some_iff.1 hitem).1
  have hlen : lv.loot.items.length ≤ 16 := hl.items_le
  apply UInt8.toNat_ofNat_of_lt'
  show i < 256
  omega

/-- The slot byte holds the slots of the viewer's quest items, which come after the items. -/
theorem slot_of_quest (hl : Formed lv.loot) {ql : List QuestItem} {pos : ℕ} {q : QuestItem}
    (hfind : lv.loot.playerQuestItems.find lv.viewer = some (lv.viewer, ql))
    (hq : ql[pos]? = some q) (e : Entry) (item : LootItem) (t : LootSlotType) :
    (lv.record (lv.loot.items.length + pos) e item t).slot.toNat =
      lv.loot.items.length + pos := by
  have hpos := (List.getElem?_eq_some_iff.1 hq).1
  have hql := length_le_of_find hl.quest (fun _ => id) hfind
  have hlen : lv.loot.items.length ≤ 16 := hl.items_le
  have hquests : lv.loot.questItems.length ≤ 32 := hl.questItems_le
  apply UInt8.toNat_ofNat_of_lt'
  show lv.loot.items.length + pos < 256
  omega

theorem lists_item_iff (hl : Formed lv.loot) (hperm : lv.permission ≠ .none) {slot : UInt8}
    {item : LootItem} (hitem : lv.loot.items[slot.toNat]? = some item) :
    lv.Lists w slot ↔ item.isLooted = false ∧ lv.Shows w slot.toNat item := by
  have hlt := (List.getElem?_eq_some_iff.1 hitem).1
  constructor
  · rintro ⟨r, hr, rfl⟩
    cases writes_of_mem hl hperm hr with
    | item t hitem' hnew hshows =>
      rw [slot_of_item hl hitem'] at hitem ⊢
      obtain rfl := Option.some.inj (hitem.symm.trans hitem')
      exact ⟨hnew, hshows⟩
    | quest t hfind hq hitem' hlisted hnew =>
      rw [slot_of_quest hl hfind hq] at hlt
      omega
  · rintro ⟨hnew, hshows⟩
    obtain ⟨t, ht⟩ := exists_mem_of_shows hperm hitem hnew hshows
    exact ⟨_, ht, UInt8.ofNat_toNat⟩

theorem lists_quest_iff (hl : Formed lv.loot) (hperm : lv.permission ≠ .none) {slot : UInt8}
    (hslot : lv.loot.items.length ≤ slot.toNat) :
    lv.Lists w slot ↔ ∃ ql q item,
      lv.loot.playerQuestItems.find lv.viewer = some (lv.viewer, ql) ∧
        ql[slot.toNat - lv.loot.items.length]? = some q ∧
        lv.loot.questItems[q.index]? = some item ∧ q.isLooted = false ∧ item.isLooted = false := by
  constructor
  · rintro ⟨r, hr, rfl⟩
    cases writes_of_mem hl hperm hr with
    | item t hitem hnew hshows =>
      rw [slot_of_item hl hitem] at hslot
      exact absurd (List.getElem?_eq_some_iff.1 hitem).1 (Nat.not_lt.2 hslot)
    | @quest ql pos q item t hfind hq hitem hlisted hnew =>
      rw [slot_of_quest hl hfind hq, Nat.add_sub_cancel_left]
      exact ⟨ql, q, item, hfind, hq, hitem, hlisted, hnew⟩
  · rintro ⟨ql, q, item, hfind, hq, hitem, hlisted, hnew⟩
    refine ⟨_, (mem_records hperm).2 (.inr (.inl ⟨ql, _, q, hfind, hq,
      listedRecord_eq_some.2 ⟨item, hitem, hlisted, hnew, rfl⟩⟩)), ?_⟩
    show UInt8.ofNat (lv.loot.items.length + (slot.toNat - lv.loot.items.length)) = slot
    rw [Nat.add_sub_cancel' hslot, UInt8.ofNat_toNat]

/-- A record is found under its slot. -/
theorem window_slots (hl : Formed lv.loot) (hperm : lv.permission ≠ .none) : lv.Resolves w := by
  intro r hr
  cases writes_of_mem hl hperm hr with
  | @item i item t hitem hnew hshows =>
    obtain ⟨x, -, hfound⟩ := lootItemInSlot_item hitem lv.viewer
    have hopen : lv.loot.lootedFor lv.viewer i item = false := by
      unfold Loot.lootedFor
      unfold Shows at hshows
      split_ifs at hshows ⊢ with hkind
      · exact hnew
      · obtain ⟨q, hq, hlisted⟩ := hshows
        rw [hq]
        exact hlisted
    rw [slot_of_item hl hitem, hfound, hopen]
    exact ⟨_, rfl, rfl, rfl⟩
  | @quest ql pos q item t hfind hq hitem hlisted hnew =>
    rw [slot_of_quest hl hfind hq]
    refine ⟨_, (lootItemInSlot_quest (Nat.le_add_right _ _)).2
      ⟨ql, q, item, hfind, ?_, hitem, hlisted, rfl⟩, rfl, rfl⟩
    rw [Nat.add_sub_cancel_left]
    exact hq

/-- Whether an item belongs to another player by round robin under the permission. -/
def Reserved (lv : LootView) (i : ℕ) : Prop :=
  lv.roundRobinPlayer ≠ 0 ∧ lv.viewer ≠ lv.roundRobinPlayer ∧
    (lv.permission = .roundRobin ∨
      lv.permission = .group ∧ (lv.extra (.item i)).isUnderthreshold = true)

/-- What the window leaves out is taken already, blocked, or not there for the viewer: the shared
items that are not looted or blocked are allowed for him and not another player's; the others say
they are looted where he has no entry for them, and do not say so where he has one that is not
looted; and so for his quest items, blocked or not. -/
structure Covers (w : World) (lv : LootView) : Prop where
  shared : ∀ i item, lv.loot.items[i]? = some item → item.kind = (false, true) →
    item.isLooted = false → item.isBlocked = false →
      item.allowedForPlayer w lv.viewer = true ∧ ¬ lv.Reserved i
  unlisted : ∀ i item, lv.loot.items[i]? = some item → item.kind ≠ (false, true) →
    lv.loot.entryFor lv.viewer i item = none → item.isLooted = false → item.isBlocked = true
  listed : ∀ i item q, lv.loot.items[i]? = some item → item.kind ≠ (false, true) →
    lv.loot.entryFor lv.viewer i item = some q → q.isLooted = false → item.isBlocked = false →
      item.isLooted = false
  quest : ∀ ql, lv.loot.playerQuestItems.find lv.viewer = some (lv.viewer, ql) → ∀ q ∈ ql,
    q.isLooted = false → ∀ item, lv.loot.questItems[q.index]? = some item → item.isLooted = false

theorem isSome_sharedType (hperm : lv.permission ≠ .none) {i : ℕ} {item : LootItem}
    (hfree : item.isBlocked = false) : (lv.sharedType i item).isSome = true ↔ ¬ lv.Reserved i := by
  unfold sharedType Reserved
  cases hp : lv.permission with
  | none => exact absurd hp hperm
  | all => simp
  | master => simp
  | owner => simp
  | group =>
    simp only [hfree, Bool.false_eq_true, if_false, Option.isSome_ite, Bool.or_eq_true,
      decide_eq_true_eq, Bool.not_eq_true']
    grind
  | roundRobin => simp

/-- Only listed items are given exactly if `Covers` holds. -/
theorem gives_lists_iff (hl : Formed lv.loot) (hperm : lv.permission ≠ .none) :
    (∀ slot, lv.Gives slot → lv.Lists w slot) ↔ lv.Covers w := by
  constructor
  · intro h
    -- an item that the server would give is listed, and so is shown
    have hitem : ∀ i item, lv.loot.items[i]? = some item → item.isBlocked = false →
        lv.loot.lootedFor lv.viewer i item = false →
        item.isLooted = false ∧ lv.Shows w i item := by
      intro i item hi hfree hopen
      have hslot := slot_of_item hl hi (.item i) .allowLoot
      have hi' : lv.loot.items[(lv.record i (.item i) item .allowLoot).slot.toNat]? = some item := by
        rw [hslot]
        exact hi
      have hlists := h _ ((gives_item_iff hi').2 ⟨by rwa [hslot], hfree⟩)
      rw [lists_item_iff hl hperm hi', hslot] at hlists
      exact hlists
    constructor
    · intro i item hi hkind hnew hfree
      have hshows := (hitem i item hi hfree (by rwa [Loot.lootedFor, if_pos hkind])).2
      rw [Shows, if_pos hkind, isSome_sharedType hperm hfree] at hshows
      exact hshows
    · intro i item hi hkind hnone hnew
      by_contra hfree
      have hshows := (hitem i item hi (by simpa using hfree)
        (by rwa [Loot.lootedFor, if_neg hkind, hnone])).2
      rw [Shows, if_neg hkind, hnone] at hshows
      obtain ⟨q, hq, -⟩ := hshows
      cases hq
    · intro i item q hi hkind hq hlisted hfree
      exact (hitem i item hi hfree (by rwa [Loot.lootedFor, if_neg hkind, hq])).1
    · intro ql hfind q hq hlisted item hqi
      obtain ⟨pos, hpos⟩ := List.mem_iff_getElem?.1 hq
      have hslot := slot_of_quest hl hfind hpos (.quest q.index) item .allowLoot
      have hle := hslot.ge.trans' (Nat.le_add_right _ pos)
      have hlists := h _ ((gives_quest_iff hle).2 ⟨ql, q, item, hfind, by
        rw [hslot, Nat.add_sub_cancel_left]; exact hpos, hqi, hlisted⟩)
      rw [lists_quest_iff hl hperm hle, hslot, Nat.add_sub_cancel_left] at hlists
      obtain ⟨ql', q', item', hfind', hpos', hqi', -, hnew⟩ := hlists
      obtain ⟨-, rfl⟩ := Prod.mk.inj (Option.some.inj (hfind.symm.trans hfind'))
      obtain rfl := Option.some.inj (hpos.symm.trans hpos')
      obtain rfl := Option.some.inj (hqi.symm.trans hqi')
      exact hnew
  · intro h slot hgives
    by_cases hslot : lv.loot.items.length ≤ slot.toNat
    · obtain ⟨ql, q, item, hfind, hq, hitem, hlisted⟩ := (gives_quest_iff hslot).1 hgives
      exact (lists_quest_iff hl hperm hslot).2 ⟨ql, q, item, hfind, hq, hitem, hlisted,
        h.quest ql hfind q (List.mem_of_getElem? hq) hlisted item hitem⟩
    · obtain ⟨item, hitem⟩ : ∃ item, lv.loot.items[slot.toNat]? = some item :=
        ⟨_, List.getElem?_eq_getElem (Nat.not_le.1 hslot)⟩
      obtain ⟨hopen, hfree⟩ := (gives_item_iff hitem).1 hgives
      rw [lists_item_iff hl hperm hitem, Shows]
      unfold Loot.lootedFor at hopen
      split_ifs at hopen ⊢ with hkind
      · rw [isSome_sharedType hperm hfree]
        exact ⟨hopen, h.shared _ _ hitem hkind hopen hfree⟩
      · cases hq : lv.loot.entryFor lv.viewer slot.toNat item with
        | none =>
          rw [hq] at hopen
          exact absurd ((h.unlisted _ _ hitem hkind hq hopen).symm.trans hfree) (by decide)
        | some q =>
          rw [hq] at hopen
          exact ⟨h.listed _ _ q hitem hkind hq hopen hfree, q, rfl, hopen⟩

end LootView

/-- **Main result.** For every loot that comes about, viewer and permission, the records of the window
are found under their slots and are as many as the item count byte says, and nothing but what the
window lists can be taken, if and only if `Covers` holds. -/
theorem loot_view_agrees_iff (w : World) (lv : LootView) (hloot : Reached w lv.loot)
    (hperm : lv.permission ≠ .none) : lv.Agrees w ↔ lv.Covers w := by
  have hl := reached_formed hloot
  constructor
  · rintro ⟨-, -, h⟩
    exact (LootView.gives_lists_iff hl hperm).1 h
  · intro h
    exact ⟨LootView.window_slots hl hperm, LootView.itemsShown_eq hl hperm,
      (LootView.gives_lists_iff hl hperm).2 h⟩

/-- A loot of one item for a group of two players under round robin. -/
def roundRobinFill : Fill where
  gold := 0
  drops := [(⟨7, false, []⟩, 1)]
  members := [1, 2].map fun g => ⟨⟨g, some (.roundRobin, 1)⟩, true, fun _ => true⟩

/-- The first player owns the loot, and the second looks at it. -/
def reservedView : LootView where
  loot := (fillLoot oneItemWorld roundRobinFill).loot
  roundRobinPlayer := 1
  extra := fun _ => ⟨false, 0, 0⟩
  displayInfoID := fun _ => 0
  viewer := 2
  permission := .roundRobin

theorem reached_reservedView : Reached oneItemWorld reservedView.loot := by
  refine ⟨0, (fillEvents oneItemWorld roundRobinFill).map .event, ?_⟩
  rw [List.foldl_map]
  exact congrArg State.loot (fillLoot_eq_foldl oneItemWorld roundRobinFill).symm

theorem loot_view_agrees_iff_reserved :
    reservedView.Agrees oneItemWorld ↔ reservedView.Covers oneItemWorld :=
  loot_view_agrees_iff oneItemWorld reservedView reached_reservedView (by decide)

/-- The second player sees nothing, and can take the item from its slot. -/
theorem reserved_not_agrees :
    (reservedView.window oneItemWorld).records = [] ∧ reservedView.Gives 0 ∧
      ¬ reservedView.Agrees oneItemWorld := by
  have hempty : (reservedView.window oneItemWorld).records = [] := by decide +kernel
  have hgives : reservedView.Gives 0 :=
    LootView.gives_iff.2 ⟨⟨.item 0, ⟨7, [], false, false, false, 1, false, false, false⟩, none⟩,
      rfl, .inr rfl⟩
  refine ⟨hempty, hgives, fun h => ?_⟩
  obtain ⟨r, hr, -⟩ := h.2.2 0 hgives
  rw [hempty] at hr
  cases hr

end FaceCore.LootMgr
