import FaceCore.Lib.Counting
import FaceCore.Loot.Lists

/-!
# The number of unlooted entries

`unlootedCount` against the number of deliveries that are still possible: one for each entry that is
not free for all, not looted, and unconditional or listed for some player, and one for each
free-for-all entry and player for whom it is listed and who has not looted it.

The counter is a byte. `FillQuestLoot` counts a quest entry again for every further player unless it
is blocked, and under group loot and round robin nothing blocks it. The requests count down whatever
they take, also what was never counted or is counted down already.

* `Loot.remaining`: the number of deliveries that are still possible;
* `CountsDown`, `CountsUp`: what a request and a listing have to do for the counter to stay right;
* `loot_unlooted_count_iff`: the counter is right along the filling for a group and along the requests
  that follow, exactly when each of them does so.
-/

namespace FaceCore.LootMgr

open Counting

/-- Whether an entry is listed for some player. -/
def QuestItemMap.lists (m : QuestItemMap) (i : ℕ) : Bool :=
  m.toList.any fun r => r.2.any fun q => q.index = i

/-- How many entries with a property are listed and not looted by the player, over all players. -/
def QuestItemMap.unlooted (m : QuestItemMap) (P : ℕ → Bool) : ℕ :=
  (m.toList.map fun r => r.2.countP fun q => !q.isLooted && P q.index).sum

/-- An item that is not free for all can still be delivered: it is not looted, and it is
unconditional or listed for some player. -/
def Loot.opensItem (l : Loot) (i : ℕ) (item : LootItem) : Bool :=
  !item.freeforall && !item.isLooted &&
    (item.conditions.isEmpty || l.playerNonQuestNonFFAConditionalItems.lists i)

/-- A quest item that is not free for all can still be delivered: it is not looted and listed for
some player. -/
def Loot.opensQuest (l : Loot) (i : ℕ) (item : LootItem) : Bool :=
  !item.freeforall && !item.isLooted && l.playerQuestItems.lists i

/-- Whether the quest entry at a place is free for all. -/
def Loot.questFFA (l : Loot) (i : ℕ) : Bool := (l.questItems[i]?).any LootItem.freeforall

/-- The number of deliveries that are still possible. -/
def Loot.remaining (l : Loot) : ℕ :=
  countIdx l.opensItem l.items + countIdx l.opensQuest l.questItems +
    l.playerFFAItems.unlooted (fun _ => true) + l.playerQuestItems.unlooted l.questFFA

/-- The counter is right: it is the number of deliveries that are still possible, and the loot is
looted exactly when there is no gold and no delivery left. -/
def Counted (s : State) : Prop :=
  s.loot.unlootedCount.toNat = s.loot.remaining ∧
    (s.loot.isLooted = true ↔ s.loot.gold = 0 ∧ s.loot.remaining = 0)

/-- Whether an entry that is not free for all can still be delivered. -/
def Loot.opens (l : Loot) : Entry → Bool
  | .item i => (l.items[i]?).any (l.opensItem i)
  | .quest i => (l.questItems[i]?).any (l.opensQuest i)

/-- A call of `StoreLootItem` that takes something takes an entry that is listed for the player if it
is free for all, and can still be delivered if it is not. -/
def StoreCounts (s : State) (player : UInt32) (lootSlot : ℕ) (canStore : Bool) : Prop :=
  ∀ f, lootItemInSlot s.loot lootSlot player = some f →
    f.isQuest = true ∨ f.item.isBlocked = false → canStore = true →
      if f.item.freeforall then f.listed.isSome = true else s.loot.opens f.entry = true

/-- A gift of the master looter is an entry that is not free for all and can still be delivered. -/
def GiveCounts (w : World) (s : State) (valid : Bool) (slotid : ℕ) (target : UInt32)
    (canStore : Bool) : Prop :=
  ∀ item, s.loot.itemAt (s.loot.entryOfSlot slotid) = some item → valid = true →
    canStore = true → (item.followLootRules = true → item.allowedForPlayer w target = true) →
      s.loot.opens (s.loot.entryOfSlot slotid) = true

/-- The condition on a request. -/
def CountsDown (w : World) (s : State) : Request → Prop
  | .storeLootItem player lootSlot canStore => StoreCounts s player lootSlot canStore
  | .lootMasterGive valid slotid target canStore => GiveCounts w s valid slotid target canStore

/-- The number of deliveries that the listing for a player adds. -/
def Loot.offers (w : World) (l : Loot) (p : Looter) : ℕ :=
  ((l.questListed w p).countP fun i => l.questFFA i || !l.playerQuestItems.lists i) +
    (l.ffaListed w p).length +
    (l.condListed w p).countP fun i => !l.playerNonQuestNonFFAConditionalItems.lists i

/-- The condition on the listing for a player: each quest entry that is not free for all and that
another player's list holds already is blocked, and there are not more deliveries than a byte can
count. -/
def CountsUp (w : World) (l : Loot) (p : Looter) : Prop :=
  (∀ i ∈ l.questListed w p, l.playerQuestItems.lists i = true → ∀ item,
      l.questItems[i]? = some item → item.freeforall = false → item.isBlocked = true) ∧
    l.remaining + l.offers w p < 256

/-- The condition on an event of the filling after the template is processed, or on a request. -/
def EventCounts (w : World) (s : State) : Event → Prop
  | .fillLists p => CountsUp w s.loot p
  | .currency p i canStore => s.loot.picksUp w p i → StoreCounts s p.guid i canStore
  | .request r => CountsDown w s r
  | .addItem _ _ => True

variable {w : World} {l : Loot} {s : State}

/-! ### Lists -/

theorem lists_eq_true {m : QuestItemMap} {i : ℕ} :
    m.lists i = true ↔ ∃ r ∈ m, i ∈ r.2.map QuestItem.index := by
  simp [QuestItemMap.lists, Table.mem_def]

theorem lists_markLooted (m : QuestItemMap) (p : UInt32) (pos i : ℕ) :
    (markLooted m p pos).lists i = m.lists i := by
  rw [Bool.eq_iff_iff, lists_eq_true, lists_eq_true, markLooted, Table.exists_mem_modify]
  refine exists_congr fun r => and_congr_right fun _ => ?_
  split_ifs
  · rw [map_index_modify]
  · rfl

theorem lists_list {m : QuestItemMap} {p : UInt32} {is : List ℕ}
    (hnone : is ≠ [] → m.find p = none) (i : ℕ) :
    (m.list p is).lists i = (m.lists i || decide (i ∈ is)) := by
  unfold QuestItemMap.list
  split_ifs with hempty
  · obtain rfl : is = [] := by simpa using hempty
    simp
  · have hfree := hnone (by simpa using hempty)
    have hany : ((listed is).any fun q => q.index = i) = decide (i ∈ is) := by
      rw [Bool.eq_iff_iff]
      simp [listed]
    unfold QuestItemMap.lists
    rw [Table.toList_insert hfree, List.any_cons, Bool.or_comm, hany]

theorem unlooted_markLooted {m : QuestItemMap} {p : UInt32} {pos : ℕ} {ql : List QuestItem}
    {q : QuestItem} (hfind : m.find p = some (p, ql)) (hq : ql[pos]? = some q)
    (hnew : q.isLooted = false) (P : ℕ → Bool) :
    (markLooted m p pos).unlooted P + (P q.index).toNat = m.unlooted P := by
  have hrow := countP_modify (p := fun q => !q.isLooted && P q.index)
    (f := fun q => { q with isLooted := true }) hq
  have hsum := Table.sum_modify (f := fun r => (r.1, r.2.modify pos fun q =>
    { q with isLooted := true })) (fun _ => rfl) hfind
    fun r => r.2.countP fun q => !q.isLooted && P q.index
  simp only [hnew, Bool.not_false, Bool.true_and, Bool.not_true, Bool.false_and, Bool.toNat_false]
    at hrow
  dsimp only at hsum
  simp only [QuestItemMap.unlooted, markLooted]
  omega

theorem unlooted_list {m : QuestItemMap} {p : UInt32} {is : List ℕ}
    (hnone : is ≠ [] → m.find p = none) (P : ℕ → Bool) :
    (m.list p is).unlooted P = m.unlooted P + is.countP P := by
  unfold QuestItemMap.list
  split_ifs with hempty
  · obtain rfl : is = [] := by simpa using hempty
    simp
  · have hfree := hnone (by simpa using hempty)
    unfold QuestItemMap.unlooted
    rw [Table.toList_insert hfree, List.map_cons, List.sum_cons, Nat.add_comm]
    congr 1
    simp [listed, List.countP_map, Function.comp_def]

/-! ### What a request counts down -/

theorem opensItem_mark (p : UInt32) (x : Option Listed) :
    (l.mark p x).opensItem = l.opensItem := by
  funext i item
  rcases x with _ | pos | pos | pos <;> simp only [Loot.opensItem, Loot.mark, lists_markLooted]

theorem opensQuest_mark (p : UInt32) (x : Option Listed) :
    (l.mark p x).opensQuest = l.opensQuest := by
  funext i item
  rcases x with _ | pos | pos | pos <;> simp only [Loot.opensQuest, Loot.mark, lists_markLooted]

theorem opens_mark (p : UInt32) (x : Option Listed) (e : Entry) :
    (l.mark p x).opens e = l.opens e := by
  cases e with
  | item i =>
    rw [Loot.opens, opensItem_mark]
    rcases x with _ | _ | _ | _ <;> rfl
  | quest i =>
    rw [Loot.opens, opensQuest_mark]
    rcases x with _ | _ | _ | _ <;> rfl

/-- Marking what was found for a player takes one delivery away if it is free for all and listed. -/
theorem remaining_mark {slot : ℕ} {p : UInt32} {f : Found} (h : Finds l slot p f) :
    (l.mark p f.listed).remaining + (f.item.freeforall && f.listed.isSome).toNat = l.remaining := by
  cases h with
  | @quest ql pos q item hfind hq hitem hnew =>
    have hffa : l.questFFA q.index = item.freeforall := by simp [Loot.questFFA, hitem]
    have hdown := unlooted_markLooted hfind hq hnew l.questFFA
    rw [hffa] at hdown
    simp only [Loot.remaining, opensQuest_mark]
    simp only [Loot.mark, Option.isSome_some, Bool.and_true]
    change countIdx l.opensItem l.items + _ + _ + (markLooted l.playerQuestItems p pos).unlooted
      l.questFFA + _ = _
    omega
  | @ffa pos q item hitem hffa hpos hnew =>
    obtain ⟨ql, hfind, -, hq, -⟩ := position_eq_some hpos
    have hdown := unlooted_markLooted hfind hq hnew fun _ => true
    simp only [hffa, Option.isSome_some, Bool.and_self, Bool.toNat_true] at hdown ⊢
    simp only [Loot.remaining, Loot.mark]
    change countIdx l.opensItem l.items + countIdx l.opensQuest l.questItems +
      (markLooted l.playerFFAItems p pos).unlooted (fun _ => true) +
      l.playerQuestItems.unlooted l.questFFA + 1 = _
    omega
  | @cond pos q item hitem hffa hpos =>
    simp only [Loot.remaining, opensItem_mark, hffa, Bool.false_and, Bool.toNat_false]
    rfl
  | unlisted hitem hnew hffa =>
    simp only [Option.isSome_none, Bool.and_false, Bool.toNat_false]
    rfl

/-- An entry that becomes looted is one delivery less if it was open. -/
theorem remaining_setItem {e : Entry} {item : LootItem} (item' : LootItem)
    (he : l.itemAt e = some item)
    (hffa : item'.freeforall = item.freeforall) (hlooted : item'.isLooted = true) :
    (l.setItem e item').remaining + (l.opens e).toNat = l.remaining := by
  cases e with
  | item i =>
    have hlt := (List.getElem?_eq_some_iff.1 he).1
    have hdown := countIdx_update (P := l.opensItem) (Q := l.opensItem)
      (l.items.set i item') (by simp) hlt fun j hj => by
        rw [List.getElem?_set_ne (Ne.symm hj)]
    have hclosed : ((l.items.set i item')[i]?).any (l.opensItem i) = false := by
      simp [hlt, Loot.opensItem, hlooted]
    rw [hclosed, Bool.toNat_false] at hdown
    simp only [Loot.remaining, Loot.setItem, Loot.opens]
    change countIdx l.opensItem _ + countIdx l.opensQuest l.questItems + _ +
      l.playerQuestItems.unlooted l.questFFA + _ = _
    omega
  | quest i =>
    have hlt := (List.getElem?_eq_some_iff.1 he).1
    have hdown := countIdx_update (P := l.opensQuest) (Q := l.opensQuest)
      (l.questItems.set i item') (by simp) hlt fun j hj => by
        rw [List.getElem?_set_ne (Ne.symm hj)]
    have hclosed : ((l.questItems.set i item')[i]?).any (l.opensQuest i) = false := by
      simp [hlt, Loot.opensQuest, hlooted]
    have hsame : (l.setItem (.quest i) item').questFFA = l.questFFA := by
      funext j
      have hi : l.questItems[i]? = some item := he
      simp only [Loot.questFFA, Loot.setItem, List.getElem?_set]
      by_cases hij : i = j
      · subst hij
        rw [hi, if_pos rfl, if_pos hlt, Option.any_some, Option.any_some, hffa]
      · simp [hij]
    rw [hclosed, Bool.toNat_false] at hdown
    simp only [Loot.remaining, hsame]
    simp only [Loot.setItem, Loot.opens]
    change countIdx l.opensItem l.items + countIdx l.opensQuest _ + _ + _ + _ = _
    omega

/-- What is looted is one delivery less if it was still to be delivered. -/
theorem remaining_take {slot : ℕ} {p : UInt32} {f : Found} (h : Finds l slot p f) :
    (l.take p f).remaining +
      (if f.item.freeforall then f.listed.isSome else l.opens f.entry).toNat = l.remaining := by
  have hmark := remaining_mark h
  have htake : (l.take p f).remaining =
      (if f.item.freeforall then l.mark p f.listed
        else (l.mark p f.listed).setItem f.entry { f.item with isLooted := true }).remaining := rfl
  rw [htake]
  split_ifs with hffa
  · rw [hffa, Bool.true_and] at hmark
    exact hmark
  · have hset := remaining_setItem (l := l.mark p f.listed) (e := f.entry)
      { f.item with isLooted := true } ((itemAt_mark p f.listed f.entry).trans h.itemAt)
      rfl rfl
    rw [opens_mark] at hset
    rw [Bool.not_eq_true] at hffa
    rw [hffa, Bool.false_and, Bool.toNat_false] at hmark
    omega

theorem remaining_give {e : Entry} {item : LootItem} (he : l.itemAt e = some item) :
    (l.give e item).remaining + (l.opens e).toNat = l.remaining := by
  exact remaining_setItem { item with count := 0, isLooted := true } he rfl rfl

theorem counted_iff : Counted s ↔ s.loot.unlootedCount.toNat = s.loot.remaining := by
  refine ⟨And.left, fun h => ⟨h, ?_⟩⟩
  unfold Loot.isLooted
  rw [← h, Bool.and_eq_true, decide_eq_true_eq, decide_eq_true_eq, ← UInt8.toNat_inj]
  rfl

/-- Counting down keeps the counter right exactly when there is one delivery less. -/
theorem toNat_sub_one_iff {n : UInt8} {a b : ℕ} {c : Bool} (h : n.toNat = a)
    (hdown : b + c.toNat = a) : (n - 1).toNat = b ↔ c = true := by
  have hlt := n.toNat_lt
  rw [UInt8.toNat_sub]
  cases c with
  | false =>
    simp only [Bool.toNat_false] at hdown
    simp only [UInt8.reduceToNat, Bool.false_eq_true, iff_false]
    omega
  | true =>
    simp only [Bool.toNat_true] at hdown
    simp only [UInt8.reduceToNat, iff_true]
    omega

/-! ### What a listing counts up -/

/-- The bookkeeping of the filling: conditional entries are counted exactly if some player's list
holds them, and only listed quest entries are blocked. -/
structure Tracked (l : Loot) : Prop where
  counted : ∀ i item, l.items[i]? = some item →
    item.isCounted = l.playerNonQuestNonFFAConditionalItems.lists i
  blocked : ∀ i item, l.questItems[i]? = some item → item.isBlocked = true →
    l.playerQuestItems.lists i = true
  questItems_le : l.questItems.length ≤ maxNrQuestItems

theorem freeforall_block (p : Looter) (item : LootItem) :
    (p.block item).freeforall = item.freeforall := by
  unfold Looter.block
  split_ifs <;> rfl

theorem isLooted_block (p : Looter) (item : LootItem) :
    (p.block item).isLooted = item.isLooted := by
  unfold Looter.block
  split_ifs <;> rfl

theorem questFFA_fillLists (p : Looter) : (fillLists w l p).questFFA = l.questFFA := by
  funext i
  rw [fillLists_eq]
  simp only [Loot.questFFA, getElem?_updateAt]
  cases l.questItems[i]? with
  | none => rfl
  | some item =>
    simp only [Option.map_some, Option.any_some]
    split_ifs
    · exact freeforall_block p item
    · rfl

theorem countIdx_opensItem_fillLists (p : Looter) :
    countIdx (fillLists w l p).opensItem (fillLists w l p).items =
      countIdx l.opensItem l.items +
        (l.condListed w p).countP fun i => !l.playerNonQuestNonFFAConditionalItems.lists i := by
  have hopens : ∀ i item, (fillLists w l p).opensItem i item =
      (!item.freeforall && !item.isLooted && (item.conditions.isEmpty ||
        (l.playerNonQuestNonFFAConditionalItems.lists i || decide (i ∈ l.condListed w p)))) := by
    intro i item
    rw [fillLists_eq]
    simp only [Loot.opensItem, lists_list find_of_condListed]
  have hitems : (fillLists w l p).items =
      updateAt l.items (l.condListed w p) LootItem.counted := by rw [fillLists_eq]
  have htest : ∀ i ∈ l.condListed w p, ∀ item, l.items[i]? = some item →
      item.isLooted = false ∧ item.freeforall = false ∧ item.conditions.isEmpty = false := by
    intro i hi item hitem
    obtain ⟨item', hitem', h⟩ := mem_indices.1 ((condListed_sublist l p).mem hi)
    obtain rfl := Option.some.inj (hitem.symm.trans hitem')
    simp only [LootItem.condTest, Bool.and_eq_true, Bool.not_eq_true'] at h
    exact ⟨h.1.1.1, h.1.1.2, h.2⟩
  rw [hitems]
  refine countIdx_grow (by simp [updateAt])
    ((condListed_sublist l p).trans (indices_sublist _ _)) _ (fun i hi => ?_) fun i hi hr => ?_
  · obtain ⟨item, hitem⟩ : ∃ item, l.items[i]? = some item := ⟨_, List.getElem?_eq_getElem hi⟩
    rw [getElem?_updateAt, hitem, Option.map_some, Option.any_some, Option.any_some, hopens]
    by_cases hmem : i ∈ l.condListed w p
    · obtain ⟨hl, hf, hc⟩ := htest i hmem item hitem
      simp [hmem, LootItem.counted, Loot.opensItem, hl, hf, hc]
    · simp [hmem, Loot.opensItem]
  · obtain ⟨item, hitem, -⟩ := mem_indices.1 ((condListed_sublist l p).mem hi)
    obtain ⟨-, -, hc⟩ := htest i hi item hitem
    rw [Bool.not_eq_true'] at hr
    simp [hitem, Loot.opensItem, hc, hr]

theorem countIdx_opensQuest_fillLists (p : Looter) :
    countIdx (fillLists w l p).opensQuest (fillLists w l p).questItems =
      countIdx l.opensQuest l.questItems +
        (l.questListed w p).countP fun i => !l.questFFA i && !l.playerQuestItems.lists i := by
  have hopens : ∀ i item, (fillLists w l p).opensQuest i item =
      (!item.freeforall && !item.isLooted &&
        (l.playerQuestItems.lists i || decide (i ∈ l.questListed w p))) := by
    intro i item
    rw [fillLists_eq]
    simp only [Loot.opensQuest, lists_list find_of_questListed]
  have hitems : (fillLists w l p).questItems =
      updateAt l.questItems (l.questListed w p) p.block := by rw [fillLists_eq]
  rw [hitems]
  refine countIdx_grow (by simp [updateAt])
    ((questListed_sublist l p).trans (indices_sublist _ _)) _ (fun i hi => ?_) fun i hi hr => ?_
  · obtain ⟨item, hitem⟩ : ∃ item, l.questItems[i]? = some item := ⟨_, List.getElem?_eq_getElem hi⟩
    have hffa : l.questFFA i = item.freeforall := by simp [Loot.questFFA, hitem]
    rw [getElem?_updateAt, hitem, Option.map_some, Option.any_some, Option.any_some, hopens, hffa]
    by_cases hmem : i ∈ l.questListed w p
    · obtain ⟨item', hitem', htest⟩ := mem_indices.1 ((questListed_sublist l p).mem hmem)
      obtain rfl := Option.some.inj (hitem.symm.trans hitem')
      simp only [LootItem.questTest, Bool.and_eq_true, Bool.not_eq_true'] at htest
      simp only [hmem, if_true, freeforall_block, isLooted_block, Loot.opensQuest, htest.1]
      cases item.freeforall <;> cases l.playerQuestItems.lists i <;> rfl
    · simp [hmem, Loot.opensQuest]
  · simp only [Bool.and_eq_true, Bool.not_eq_true'] at hr
    obtain ⟨item, hitem, -⟩ := mem_indices.1 ((questListed_sublist l p).mem hi)
    simp [hitem, Loot.opensQuest, hr.2]

/-- The listing for a player adds its offers. -/
theorem remaining_fillLists (p : Looter) :
    (fillLists w l p).remaining = l.remaining + l.offers w p := by
  have hffa : (fillLists w l p).playerFFAItems.unlooted (fun _ => true) =
      l.playerFFAItems.unlooted (fun _ => true) + (l.ffaListed w p).length := by
    rw [fillLists_eq]
    simp [unlooted_list find_of_ffaListed]
  have hquest : (fillLists w l p).playerQuestItems.unlooted l.questFFA =
      l.playerQuestItems.unlooted l.questFFA + (l.questListed w p).countP l.questFFA := by
    rw [fillLists_eq]
    exact unlooted_list find_of_questListed _
  have hsplit : ∀ is : List ℕ, (is.countP fun i => l.questFFA i || !l.playerQuestItems.lists i) =
      (is.countP fun i => !l.questFFA i && !l.playerQuestItems.lists i) + is.countP l.questFFA := by
    intro is
    induction is with
    | nil => rfl
    | cons i is ih =>
      rw [List.countP_cons, List.countP_cons, List.countP_cons, ih]
      cases l.questFFA i <;> cases l.playerQuestItems.lists i <;> simp <;> omega
  simp only [Loot.remaining, Loot.offers, countIdx_opensItem_fillLists,
    countIdx_opensQuest_fillLists, questFFA_fillLists, hffa, hquest, hsplit]
  omega

/-- What the filling counts for a player and what it offers to him: the same exactly if every quest
entry that is not free for all and that another player's list holds is blocked. -/
theorem newlyCounted_iff (p : Looter) (h : Tracked l) :
    (l.offers w p ≤ l.newlyCounted w p ∧ l.newlyCounted w p ≤ l.offers w p + maxNrQuestItems) ∧
      (l.newlyCounted w p = l.offers w p ↔
        ∀ i ∈ l.questListed w p, l.playerQuestItems.lists i = true → ∀ item,
          l.questItems[i]? = some item → item.freeforall = false → item.isBlocked = true) := by
  have hcond : countAt l.items (l.condListed w p) (!·.isCounted) =
      (l.condListed w p).countP fun i => !l.playerNonQuestNonFFAConditionalItems.lists i := by
    refine List.countP_congr fun i hi => ?_
    obtain ⟨item, hitem, -⟩ := mem_indices.1 ((condListed_sublist l p).mem hi)
    rw [hitem, Option.any_some, h.counted i item hitem]
  -- only listed entries are blocked, so what is offered is counted
  have hsub : ∀ i ∈ l.questListed w p, (l.questFFA i || !l.playerQuestItems.lists i) = true →
      (l.questItems[i]?).any LootItem.questCounts = true := by
    intro i hi hoffer
    obtain ⟨item, hitem, -⟩ := mem_indices.1 ((questListed_sublist l p).mem hi)
    simp only [Loot.questFFA, hitem, Option.any_some, Bool.or_eq_true, Bool.not_eq_true'] at hoffer
    rw [hitem, Option.any_some, LootItem.questCounts, Bool.or_eq_true, Bool.not_eq_true']
    refine hoffer.imp id fun hlists => ?_
    by_contra hb
    rw [h.blocked i item hitem (by simpa using hb)] at hlists
    cases hlists
  have hle : ((l.questListed w p).countP fun i => l.questFFA i || !l.playerQuestItems.lists i) ≤
      countAt l.questItems (l.questListed w p) LootItem.questCounts := List.countP_mono_left hsub
  have hlen : countAt l.questItems (l.questListed w p) LootItem.questCounts ≤ maxNrQuestItems :=
    calc
      _ ≤ (l.questListed w p).length := List.countP_le_length
      _ ≤ (List.range l.questItems.length).length :=
        ((questListed_sublist l p).trans (indices_sublist _ _)).length_le
      _ = l.questItems.length := List.length_range
      _ ≤ maxNrQuestItems := h.questItems_le
  have heq := countP_eq_iff hsub
  refine ⟨?_, ?_⟩
  · simp only [Loot.newlyCounted, Loot.offers, hcond]
    omega
  · have hsame : l.newlyCounted w p = l.offers w p ↔
        countAt l.questItems (l.questListed w p) LootItem.questCounts =
          (l.questListed w p).countP fun i => l.questFFA i || !l.playerQuestItems.lists i := by
      simp only [Loot.newlyCounted, Loot.offers, hcond]
      omega
    rw [hsame]
    refine heq.trans (forall₂_congr fun i hi => ?_)
    obtain ⟨item, hitem, -⟩ := mem_indices.1 ((questListed_sublist l p).mem hi)
    simp only [Loot.questFFA, hitem, Option.any_some, LootItem.questCounts, Option.some.injEq,
      forall_eq']
    cases item.freeforall <;> cases item.isBlocked <;> cases l.playerQuestItems.lists i <;> simp

/-- The listing for a player keeps the counter right exactly when it counts what it offers. -/
theorem counted_fillLists_iff (p : Looter) (h : Tracked s.loot) (hc : Counted s) :
    Counted { s with loot := fillLists w s.loot p } ↔ CountsUp w s.loot p := by
  obtain ⟨⟨hle, hle'⟩, hiff⟩ := newlyCounted_iff (w := w) p h
  have hcount : (fillLists w s.loot p).unlootedCount =
      s.loot.unlootedCount + UInt8.ofNat (s.loot.newlyCounted w p) := by rw [fillLists_eq]
  have hlt := s.loot.unlootedCount.toNat_lt
  rw [counted_iff] at hc ⊢
  rw [CountsUp, ← hiff]
  simp only [remaining_fillLists, hcount, UInt8.toNat_add, UInt8.toNat_ofNat']
  simp only [maxNrQuestItems] at hle'
  omega

theorem tracked_fillLists (p : Looter) (h : Tracked l) : Tracked (fillLists w l p) := by
  rw [fillLists_eq]
  refine ⟨fun i item hitem => ?_, fun i item hitem hb => ?_, ?_⟩
  · simp only [getElem?_updateAt, Option.map_eq_some_iff] at hitem
    obtain ⟨item', hitem', rfl⟩ := hitem
    simp only [lists_list find_of_condListed]
    split_ifs with hi
    · simp [hi, LootItem.counted]
    · simp [hi, h.counted i item' hitem']
  · simp only [getElem?_updateAt, Option.map_eq_some_iff] at hitem
    obtain ⟨item', hitem', rfl⟩ := hitem
    simp only [lists_list find_of_questListed]
    by_cases hi : i ∈ l.questListed w p
    · simp [hi]
    · rw [if_neg hi] at hb
      simp [hi, h.blocked i item' hitem' hb]
  · simpa [updateAt] using h.questItems_le

/-! ### One event -/

theorem tracked_mark (p : UInt32) (x : Option Listed) (h : Tracked l) : Tracked (l.mark p x) := by
  rcases x with _ | pos | pos | pos
  · exact h
  · refine ⟨h.counted, fun i item hitem hb => ?_, h.questItems_le⟩
    exact (lists_markLooted l.playerQuestItems p pos i).trans (h.blocked i item hitem hb)
  · exact ⟨h.counted, h.blocked, h.questItems_le⟩
  · refine ⟨fun i item hitem => ?_, h.blocked, h.questItems_le⟩
    exact (h.counted i item hitem).trans
      (lists_markLooted l.playerNonQuestNonFFAConditionalItems p pos i).symm

theorem tracked_setItem {e : Entry} {item : LootItem} (item' : LootItem)
    (he : l.itemAt e = some item)
    (hcounted : item'.isCounted = item.isCounted) (hblocked : item'.isBlocked = item.isBlocked)
    (h : Tracked l) : Tracked (l.setItem e item') := by
  cases e with
  | item i =>
    refine ⟨fun j item₂ hj => ?_, h.blocked, h.questItems_le⟩
    simp only [Loot.setItem, List.getElem?_set] at hj ⊢
    split_ifs at hj with hij hlt
    · obtain rfl := Option.some.inj hj
      rw [hcounted, ← hij]
      exact h.counted i item he
    · exact h.counted j item₂ hj
  | quest i =>
    refine ⟨h.counted, fun j item₂ hj hb => ?_, by simpa [Loot.setItem] using h.questItems_le⟩
    simp only [Loot.setItem, List.getElem?_set] at hj ⊢
    split_ifs at hj with hij hlt
    · obtain rfl := Option.some.inj hj
      rw [← hij]
      exact h.blocked i item he (hblocked ▸ hb)
    · exact h.blocked j item₂ hj hb

theorem tracked_take {p : UInt32} {f : Found} (he : l.itemAt f.entry = some f.item)
    (h : Tracked l) : Tracked (l.take p f) := by
  have hmark := tracked_mark p f.listed h
  have htaken : Tracked (if f.item.freeforall then l.mark p f.listed
      else (l.mark p f.listed).setItem f.entry { f.item with isLooted := true }) := by
    split_ifs
    · exact hmark
    · exact tracked_setItem _ ((itemAt_mark p f.listed f.entry).trans he) rfl rfl hmark
  exact ⟨htaken.counted, htaken.blocked, htaken.questItems_le⟩

theorem tracked_give {e : Entry} {item : LootItem} (he : l.itemAt e = some item) (h : Tracked l) :
    Tracked (l.give e item) := by
  have hset := tracked_setItem { item with count := 0, isLooted := true } he rfl rfl h
  exact ⟨hset.counted, hset.blocked, hset.questItems_le⟩

theorem tracked_storeLootItem {p : UInt32} {slot : ℕ} {canStore : Bool} (h : Tracked s.loot) :
    Tracked (storeLootItem s p slot canStore).loot := by
  rcases storeLootItem_cases s p slot canStore with ⟨heq, -⟩ | ⟨f, hf, -, -, heq⟩ <;> rw [heq]
  · exact h
  · exact tracked_take (finds_of_lootItemInSlot hf).itemAt h

theorem counted_storeLootItem_iff {p : UInt32} {slot : ℕ} {canStore : Bool} (hc : Counted s) :
    Counted (storeLootItem s p slot canStore) ↔ StoreCounts s p slot canStore := by
  rcases storeLootItem_cases s p slot canStore with ⟨heq, hno⟩ | ⟨f, hf, hb, hcan, heq⟩ <;> rw [heq]
  · refine iff_of_true hc fun f hf hb hcan => ?_
    rw [hno f hf hb] at hcan
    cases hcan
  · have hdown := remaining_take (finds_of_lootItemInSlot hf)
    have hspec : StoreCounts s p slot canStore ↔
        (if f.item.freeforall then f.listed.isSome else s.loot.opens f.entry) = true := by
      constructor
      · intro h
        have := h f hf hb hcan
        split_ifs at this ⊢
        · exact this
        · exact this
      · intro h f' hf' _ _
        obtain rfl := Option.some.inj (hf.symm.trans hf')
        split_ifs at h ⊢
        · exact h
        · exact h
    rw [hspec, counted_iff]
    simp only [unlootedCount_take]
    exact toNat_sub_one_iff (counted_iff.1 hc) hdown

theorem tracked_lootMasterGive {valid : Bool} {slotid : ℕ} {target : UInt32} {canStore : Bool}
    (h : Tracked s.loot) : Tracked (lootMasterGive w s valid slotid target canStore).loot := by
  rcases lootMasterGive_cases w s valid slotid target canStore with
    ⟨heq, -⟩ | ⟨item, he, -, -, -, heq⟩ <;> rw [heq]
  · exact h
  · exact tracked_give he h

theorem counted_lootMasterGive_iff {valid : Bool} {slotid : ℕ} {target : UInt32} {canStore : Bool}
    (hc : Counted s) :
    Counted (lootMasterGive w s valid slotid target canStore) ↔
      GiveCounts w s valid slotid target canStore := by
  rcases lootMasterGive_cases w s valid slotid target canStore with
    ⟨heq, hno⟩ | ⟨item, he, hv, hcan, hr, heq⟩ <;> rw [heq]
  · exact iff_of_true hc fun item he hv hcan hr => absurd hr (hno item he hv hcan)
  · have hdown := remaining_give he
    have hspec : GiveCounts w s valid slotid target canStore ↔
        s.loot.opens (s.loot.entryOfSlot slotid) = true :=
      ⟨fun h => h item he hv hcan hr, fun h _ _ _ _ _ => h⟩
    rw [hspec, counted_iff]
    simp only [unlootedCount_give]
    exact toNat_sub_one_iff (counted_iff.1 hc) hdown

/-- An event of the filling after the template is processed, or a request. -/
def Event.isLate : Event → Prop
  | .addItem _ _ => False
  | _ => True

theorem step_tracked {e : Event} (he : e.isLate) (h : Tracked s.loot) :
    Tracked (step w s e).loot := by
  cases e with
  | addItem item count => exact he.elim
  | fillLists p => exact tracked_fillLists p h
  | currency p i canStore =>
    rcases currencyTurn_cases w p canStore s i with ⟨heq, -⟩ | ⟨-, heq⟩ <;> rw [step, heq]
    · exact h
    · exact tracked_storeLootItem h
  | request r =>
    cases r with
    | storeLootItem player slot canStore => exact tracked_storeLootItem h
    | lootMasterGive valid slotid target canStore => exact tracked_lootMasterGive h

/-- An event keeps the counter right exactly when it meets its condition. -/
theorem step_counted_iff {e : Event} (he : e.isLate) (h : Tracked s.loot) (hc : Counted s) :
    Counted (step w s e) ↔ EventCounts w s e := by
  cases e with
  | addItem item count => exact he.elim
  | fillLists p => exact counted_fillLists_iff p h hc
  | currency p i canStore =>
    rcases currencyTurn_cases w p canStore s i with ⟨heq, hno⟩ | ⟨hyes, heq⟩ <;> rw [step, heq]
    · exact iff_of_true hc fun hyes => absurd hyes hno
    · rw [counted_storeLootItem_iff hc]
      exact ⟨fun hf _ => hf, fun hf => hf hyes⟩
  | request r =>
    cases r with
    | storeLootItem player slot canStore => exact counted_storeLootItem_iff hc
    | lootMasterGive valid slotid target canStore => exact counted_lootMasterGive_iff hc

/-! ### Processing the template -/

/-- A loot while its template is processed: nothing is listed, counted or blocked, and the counter
counts the items that are open. -/
structure Unlisted (l : Loot) : Prop where
  quest : l.playerQuestItems = Table.empty _
  ffa : l.playerFFAItems = Table.empty _
  cond : l.playerNonQuestNonFFAConditionalItems = Table.empty _
  items_le : l.items.length ≤ maxNrLootItems
  questItems_le : l.questItems.length ≤ maxNrQuestItems
  notCounted : ∀ item ∈ l.items, item.isCounted = false
  notBlocked : ∀ item ∈ l.questItems, item.isBlocked = false
  count : l.unlootedCount = UInt8.ofNat (countIdx l.opensItem l.items)

theorem unlisted_new (gold : UInt32) : Unlisted (Loot.new gold) :=
  ⟨rfl, rfl, rfl, by simp [Loot.new], by simp [Loot.new], nofun, nofun, rfl⟩

theorem lists_empty (i : ℕ) : QuestItemMap.lists (Table.empty _) i = false := rfl

theorem unlisted_push (item : LootItem) (h : Unlisted l) (hroom : l.items.length < maxNrLootItems)
    (hitem : item.isCounted = false) (hlooted : item.isLooted = false) :
    Unlisted { l with
      items := l.items ++ [item]
      unlootedCount :=
        if item.conditions.isEmpty && !item.freeforall then l.unlootedCount + 1
        else l.unlootedCount } := by
  refine ⟨h.quest, h.ffa, h.cond, ?_, h.questItems_le, fun item' hmem => ?_, h.notBlocked, ?_⟩
  · rw [List.length_append, List.length_singleton]
    exact hroom
  · rcases List.mem_append.1 hmem with hmem | hmem
    · exact h.notCounted item' hmem
    · rw [List.mem_singleton.1 hmem]
      exact hitem
  · have hopens : l.opensItem l.items.length item =
        (item.conditions.isEmpty && !item.freeforall) := by
      rw [Loot.opensItem, h.cond, lists_empty, hlooted]
      cases item.conditions.isEmpty <;> cases item.freeforall <;> rfl
    have hcount : countIdx l.opensItem (l.items ++ [item]) =
        countIdx l.opensItem l.items + (item.conditions.isEmpty && !item.freeforall).toNat := by
      rw [countIdx_concat, hopens]
    change _ = UInt8.ofNat (countIdx l.opensItem (l.items ++ [item]))
    rw [hcount, UInt8.ofNat_add, h.count]
    split_ifs with hc
    · rw [hc]
      rfl
    · rw [Bool.not_eq_true] at hc
      rw [hc]
      simp

theorem unlisted_addItem (item : LootStoreItem) (count : ℕ) (h : Unlisted l) :
    Unlisted (addItem w l item count) := by
  refine addItem_induction (fun l count _ hroom hl => ?_) (fun l count _ hroom hl => ?_) count h
  · refine ⟨hl.quest, hl.ffa, hl.cond, hl.items_le, ?_, hl.notCounted, fun item' hmem => ?_,
      hl.count⟩
    · rw [List.length_append, List.length_singleton]
      exact hroom
    · rcases List.mem_append.1 hmem with hmem | hmem
      · exact hl.notBlocked item' hmem
      · rw [List.mem_singleton.1 hmem]
        rfl
  · exact unlisted_push (LootItem.new w item (count % 256)) hl hroom rfl rfl

theorem unlisted_processed (w : World) (fill : Fill) : Unlisted (processed w fill).loot := by
  have hadd : ∀ (ds : List (LootStoreItem × ℕ)) (l : Loot), Unlisted l →
      Unlisted (ds.foldl (fun l d => addItem w l d.1 d.2) l) := by
    intro ds
    induction ds with
    | nil => exact fun _ h => h
    | cons d ds ih => exact fun l h => ih _ (unlisted_addItem d.1 d.2 h)
  exact hadd fill.drops _ (unlisted_new fill.gold)

theorem Unlisted.tracked (h : Unlisted l) : Tracked l := by
  refine ⟨fun i item hitem => ?_, fun i item hitem hb => ?_, h.questItems_le⟩
  · rw [h.cond, lists_empty]
    exact h.notCounted item (List.mem_of_getElem? hitem)
  · rw [h.notBlocked item (List.mem_of_getElem? hitem)] at hb
    cases hb

/-- The counter is right when the template is processed. -/
theorem Unlisted.counted (h : Unlisted s.loot) : Counted s := by
  have hquest : countIdx s.loot.opensQuest s.loot.questItems = 0 := by
    refine List.countP_eq_zero.2 fun i _ => ?_
    cases s.loot.questItems[i]? with
    | none => simp
    | some item => simp [Loot.opensQuest, h.quest, lists_empty]
  have hle := countIdx_le_length s.loot.opensItem s.loot.items
  have hmax := h.items_le
  rw [counted_iff, h.count, Loot.remaining, hquest, h.ffa, h.quest, UInt8.toNat_ofNat']
  simp only [QuestItemMap.unlooted, Table.empty, List.map_nil, List.sum_nil]
  unfold maxNrLootItems at hmax
  omega

/-! ### Whole runs -/

theorem isLate_membersEvents (w : World) (s : State) (ms : List Member) :
    ∀ e ∈ membersEvents w s ms, e.isLate := by
  induction ms generalizing s with
  | nil => nofun
  | cons m ms ih =>
    intro e he
    rcases List.mem_append.1 he with he | he
    · unfold memberEvents at he
      rcases List.mem_cons.1 he with rfl | he
      · trivial
      · split_ifs at he
        · cases he
        · obtain ⟨i, -, rfl⟩ := List.mem_map.1 he
          trivial
    · exact ih _ e he

/-- **Main result.** Over the filling of a loot for any group, from the processed template on, and
over any requests that follow, the counter is the number of deliveries that are still possible
exactly when each listing counts what it offers and each pickup and request takes what is
counted. -/
theorem loot_unlooted_count_iff (w : World) (fill : Fill) (reqs : List Request) :
    (Runs.Along (step w) Counted (processed w fill)
          (membersEvents w (processed w fill) fill.members) ∧
        Runs.Along (serve w) Counted (fillLoot w fill) reqs) ↔
      Runs.EachStep (step w) (EventCounts w) (processed w fill)
          (membersEvents w (processed w fill) fill.members) ∧
        Runs.EachStep (serve w) (CountsDown w) (fillLoot w fill) reqs := by
  have hlate : ∀ e ∈ membersEvents w (processed w fill) fill.members ++ reqs.map Event.request,
      e.isLate := by
    intro e he
    rcases List.mem_append.1 he with he | he
    · exact isLate_membersEvents w _ _ e he
    · obtain ⟨r, -, rfl⟩ := List.mem_map.1 he
      trivial
  have hrun := Runs.along_iff_eachStep_of_mem (I := fun s => Tracked s.loot) hlate
    (unlisted_processed w fill).tracked (unlisted_processed w fill).counted
    (fun s e he h _ _ => step_tracked (w := w) he h) fun s e he h hc => step_counted_iff he h hc
  rw [Runs.along_append, Runs.eachStep_append, Runs.along_map, Runs.eachStep_map,
    ← foldl_membersEvents] at hrun
  exact hrun

/-- One quest item for two players of a group with group loot. -/
def groupLootFill : Fill where
  gold := 0
  drops := [(⟨1, true, []⟩, 1)]
  members :=
    [⟨⟨10, some (.groupLoot, 10)⟩, true, fun _ => true⟩,
      ⟨⟨20, some (.groupLoot, 10)⟩, true, fun _ => true⟩]

/-- Under group loot a quest item for one looter is counted once for each of two players. -/
theorem loot_quest_counted_twice :
    ¬ Runs.Along (serve oneItemWorld) Counted (fillLoot oneItemWorld groupLootFill) [] := by
  intro h
  have hcount := (h [] (List.prefix_refl _)).1
  revert hcount
  decide

end FaceCore.LootMgr
