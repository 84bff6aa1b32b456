import FaceCore.Lib.Counting
import FaceCore.Loot.Loot

/-!
# The lists of a loot

What the functions of the loot do, said once: which entries a filling lists for a player, where an
entry stands in the list of a player, and what the requests take.

* `fillLists_eq`: the loot after a player gets access to it;
* `Finds`: what `LootItemInSlot` can find;
* `storeLootItem_cases`, `lootMasterGive_cases`, `currencyTurn_cases`: a request does nothing, or
  takes what it found;
* `all_processed`, `all_fillLists`, `byteCounts_fillLoot`: what all entries have.
-/

namespace FaceCore.LootMgr

variable {w : World} {l : Loot} {s : State}

/-! ### What a template adds -/

/-- What each item keeps that is added to the loot, quest item or not, `AddItem` keeps. -/
theorem addItem_induction {Q : Loot → Prop} {item : LootStoreItem}
    (hquest : ∀ l count, item.needsQuest = true → l.questItems.length < maxNrQuestItems → Q l →
      Q { l with questItems := l.questItems ++ [LootItem.new w item (count % 256)] })
    (hitem : ∀ l count, item.needsQuest = false → l.items.length < maxNrLootItems → Q l →
      Q { l with
        items := l.items ++ [LootItem.new w item (count % 256)]
        unlootedCount :=
          if item.conditions.isEmpty && !(LootItem.new w item (count % 256)).freeforall then
            l.unlootedCount + 1
          else l.unlootedCount })
    (count : ℕ) (h : Q l) : Q (addItem w l item count) := by
  unfold addItem
  cases hproto : w.template item.itemid with
  | none => exact h
  | some proto =>
    have hffa : ∀ count, (LootItem.new w item count).freeforall = proto.partyLoot := by
      intro count
      simp [LootItem.new, hproto]
    simp only [hffa] at hitem
    dsimp only
    generalize count / proto.maxStackSize +
      (if count % proto.maxStackSize ≠ 0 then 1 else 0) = stackCount
    induction stackCount generalizing count l with
    | zero => exact h
    | succ stackCount ih =>
      rw [addStacks]
      by_cases hq : item.needsQuest = true
      · rw [if_pos hq]
        by_cases hroom : l.questItems.length < maxNrQuestItems
        · rw [if_pos hroom]
          exact ih _ (hquest l _ hq hroom h)
        · rw [if_neg hroom]
          exact h
      · rw [if_neg hq]
        by_cases hroom : l.items.length < maxNrLootItems
        · rw [if_pos hroom]
          exact ih _ (hitem l _ (Bool.not_eq_true _ ▸ hq) hroom h)
        · rw [if_neg hroom]
          exact h

/-! ### What a filling lists -/

/-- The list that a filling makes of the indices it keeps. -/
def listed (is : List ℕ) : List QuestItem := is.map fun i => ⟨i, false⟩

theorem map_index_listed (is : List ℕ) : (listed is).map QuestItem.index = is := by
  simp [listed, Function.comp_def]

theorem isEmpty_listed (is : List ℕ) : (listed is).isEmpty = is.isEmpty := by
  simp [listed]

/-- The lists after a filling: a player for whom nothing is kept gets none. -/
def QuestItemMap.list (m : QuestItemMap) (player : UInt32) (is : List ℕ) : QuestItemMap :=
  if is.isEmpty then m else m.insert (player, listed is)

/-- Whether `FillFFALoot` keeps an item. -/
def LootItem.ffaTest (w : World) (p : Looter) (item : LootItem) : Bool :=
  !item.isLooted && item.freeforall && item.allowedForPlayer w p.guid

/-- Whether `FillQuestLoot` keeps an item. -/
def LootItem.questTest (w : World) (p : Looter) (item : LootItem) : Bool :=
  !item.isLooted && item.availableTo w p

/-- Whether `FillNonQuestNonFFAConditionalLoot` keeps an item. -/
def LootItem.condTest (w : World) (p : Looter) (item : LootItem) : Bool :=
  !item.isLooted && !item.freeforall && item.availableTo w p && !item.conditions.isEmpty

/-- The indices of a list of items that pass a test. -/
def indices (items : List LootItem) (test : LootItem → Bool) : List ℕ :=
  (List.range items.length).filter fun i => (items[i]?).any test

/-- How many entries `FillQuestLoot` can keep before it breaks off. -/
def Loot.questRoom (l : Loot) : ℕ :=
  if l.items.length ≤ maxNrLootItems then maxNrLootItems - l.items.length else l.questItems.length

/-- The quest entries that are listed for a player when he gets access. -/
def Loot.questListed (w : World) (l : Loot) (p : Looter) : List ℕ :=
  if (l.playerQuestItems.find p.guid).isNone then
    (indices l.questItems (LootItem.questTest w p)).take l.questRoom
  else []

/-- The free-for-all entries that are listed for a player when he gets access. -/
def Loot.ffaListed (w : World) (l : Loot) (p : Looter) : List ℕ :=
  if (l.playerFFAItems.find p.guid).isNone then indices l.items (LootItem.ffaTest w p) else []

/-- The conditional entries that are listed for a player when he gets access. -/
def Loot.condListed (w : World) (l : Loot) (p : Looter) : List ℕ :=
  if (l.playerNonQuestNonFFAConditionalItems.find p.guid).isNone then
    indices l.items (LootItem.condTest w p)
  else []

/-- How many of the kept entries have a property. -/
def countAt (items : List LootItem) (is : List ℕ) (test : LootItem → Bool) : ℕ :=
  is.countP fun i => (items[i]?).any test

/-- Update the items at some places. -/
def updateAt (items : List LootItem) (is : List ℕ) (f : LootItem → LootItem) : List LootItem :=
  items.mapIdx fun i item => if i ∈ is then f item else item

theorem getElem?_updateAt (items : List LootItem) (is : List ℕ) (f : LootItem → LootItem) (i : ℕ) :
    (updateAt items is f)[i]? = (items[i]?).map fun item => if i ∈ is then f item else item := by
  simp [updateAt]

theorem updateAt_nil (items : List LootItem) (f : LootItem → LootItem) :
    updateAt items [] f = items := by
  apply List.ext_getElem?
  intro i
  simp [getElem?_updateAt]

theorem updateAt_set {items : List LootItem} (is : List ℕ) (f : LootItem → LootItem) {i : ℕ}
    {item : LootItem} (hi : items[i]? = some item) (hnew : i ∉ is) :
    updateAt (items.set i (f item)) is f = updateAt items (i :: is) f := by
  obtain ⟨hlt, rfl⟩ := List.getElem?_eq_some_iff.1 hi
  apply List.ext_getElem?
  intro j
  rw [getElem?_updateAt, getElem?_updateAt, List.getElem?_set]
  by_cases hij : i = j
  · subst hij
    simp [hnew, hlt]
  · simp [hij, Ne.symm hij]

theorem countAt_set {items : List LootItem} {is : List ℕ} {test : LootItem → Bool} {i : ℕ}
    {item : LootItem} (hnew : i ∉ is) :
    countAt (items.set i item) is test = countAt items is test := by
  refine List.countP_congr fun j hj => ?_
  rw [List.getElem?_set_ne]
  rintro rfl
  exact hnew hj

theorem filter_any_set {items : List LootItem} (test : LootItem → Bool) {i : ℕ}
    {item item' : LootItem} (hi : items[i]? = some item) (h : test item' = test item)
    (is : List ℕ) :
    (is.filter fun j => ((items.set i item')[j]?).any test) =
      is.filter fun j => (items[j]?).any test := by
  obtain ⟨hlt, rfl⟩ := List.getElem?_eq_some_iff.1 hi
  refine List.filter_congr fun j _ => ?_
  rw [List.getElem?_set]
  by_cases hij : i = j
  · subst hij
    simp [hlt, h]
  · simp [hij]

theorem ffa_foldl (p : Looter) (is : List ℕ) (l : Loot) (ql : List QuestItem) :
    is.foldl (ffaTurn w p) (l, ql) =
      ({ l with
        unlootedCount := l.unlootedCount +
          UInt8.ofNat (is.filter fun i => (l.items[i]?).any (LootItem.ffaTest w p)).length },
        ql ++ listed (is.filter fun i => (l.items[i]?).any (LootItem.ffaTest w p))) := by
  induction is generalizing l ql with
  | nil => simp [listed]
  | cons i is ih =>
    rw [List.foldl_cons]
    have hturn : ffaTurn w p (l, ql) i =
        if (l.items[i]?).any (LootItem.ffaTest w p) then
          ({ l with unlootedCount := l.unlootedCount + 1 }, ql ++ [⟨i, false⟩])
        else (l, ql) := by
      unfold ffaTurn
      cases l.items[i]? with
      | none => rfl
      | some item => rfl
    rw [hturn, List.filter_cons]
    split_ifs with h
    · rw [ih]
      simp only [List.length_cons, listed, List.map_cons, List.append_assoc, List.singleton_append,
        UInt8.ofNat_add, UInt8.add_assoc, Prod.mk.injEq, Loot.mk.injEq, true_and, and_true]
      rw [UInt8.add_comm 1]
      rfl
    · exact ih l ql

/-- A quest item is counted unless it is blocked already. -/
def LootItem.questCounts (item : LootItem) : Bool := item.freeforall || !item.isBlocked

/-- What the listing for a player does with a quest item. -/
def Looter.block (p : Looter) (item : LootItem) : LootItem :=
  if p.blocks then { item with isBlocked := true } else item

theorem listQuest_eq {p : Looter} {i : ℕ} {item : LootItem} (hi : l.questItems[i]? = some item) :
    l.listQuest p i item =
      { l with
        unlootedCount := l.unlootedCount + UInt8.ofNat (countAt l.questItems [i] LootItem.questCounts)
        questItems := l.questItems.set i (p.block item) } := by
  unfold Loot.listQuest Looter.block
  have hcount : countAt l.questItems [i] LootItem.questCounts = item.questCounts.toNat := by
    simp [countAt, hi, List.countP_cons, Counting.ite_eq_toNat]
  have hsame : l.questItems.set i item = l.questItems := by
    obtain ⟨hlt, rfl⟩ := List.getElem?_eq_some_iff.1 hi
    exact List.set_getElem_self hlt
  rw [hcount, LootItem.questCounts]
  congr 1
  · split_ifs
    · rfl
    · exact hsame.symm
  · split_ifs with h
    · rw [h]
      rfl
    · rw [Bool.not_eq_true] at h
      rw [h]
      simp

theorem questTest_block (p p' : Looter) (item : LootItem) :
    (p'.block item).questTest w p = item.questTest w p := by
  unfold Looter.block
  split_ifs <;> rfl

/-- The loop of `FillQuestLoot`, which breaks off when the loot is full. -/
theorem questLoop_eq (p : Looter) (is : List ℕ) (l : Loot) (ql : List QuestItem) (room : ℕ)
    (hnodup : is.Nodup) (hrange : ∀ i ∈ is, i < l.questItems.length)
    (hroom : l.items.length + ql.length + room = maxNrLootItems ∧ 0 < room ∨
      maxNrLootItems < l.items.length + ql.length ∧ is.length ≤ room) :
    questLoop w p is (l, ql) =
      let kept := (is.filter fun i => (l.questItems[i]?).any (LootItem.questTest w p)).take room
      ({ l with
        unlootedCount := l.unlootedCount +
          UInt8.ofNat (countAt l.questItems kept LootItem.questCounts)
        questItems := updateAt l.questItems kept p.block },
        ql ++ listed kept) := by
  induction is generalizing l ql room with
  | nil => simp [questLoop, listed, countAt, updateAt_nil]
  | cons i is ih =>
    rw [List.nodup_cons] at hnodup
    have hi : i < l.questItems.length := hrange i List.mem_cons_self
    obtain ⟨item, hitem⟩ : ∃ item, l.questItems[i]? = some item := ⟨_, List.getElem?_eq_getElem hi⟩
    rw [questLoop]
    simp only [hitem, List.filter_cons, Option.any_some]
    by_cases htest : item.questTest w p = true
    swap
    · have htest' : (!item.isLooted && item.availableTo w p) = false :=
        Bool.not_eq_true _ ▸ htest
      rw [if_neg (by simp [htest']), if_neg htest]
      refine ih l ql room hnodup.2 (fun j hj => hrange j (List.mem_cons_of_mem i hj)) ?_
      rcases hroom with h | ⟨h, hle⟩
      · exact .inl h
      · rw [List.length_cons] at hle
        exact .inr ⟨h, by omega⟩
    obtain ⟨room, rfl⟩ : ∃ n, room = n + 1 := ⟨room - 1, by
      rcases hroom with h | ⟨-, hle⟩
      · omega
      · rw [List.length_cons] at hle
        omega⟩
    have htest' : (!item.isLooted && item.availableTo w p) = true := htest
    have hlist := listQuest_eq (p := p) hitem
    rw [if_pos htest', if_pos htest, List.take_succ_cons]
    by_cases hfull : (l.listQuest p i item).items.length +
        (ql ++ [(⟨i, false⟩ : QuestItem)]).length = maxNrLootItems
    · have hzero : room = 0 := by
        rw [hlist] at hfull
        simp only [List.length_append, List.length_singleton] at hfull
        omega
      subst hzero
      rw [if_pos hfull, hlist]
      have hset := updateAt_set [] p.block hitem List.not_mem_nil
      rw [updateAt_nil] at hset
      rw [List.take_zero, hset]
      rfl
    · rw [if_neg hfull, hlist]
      -- the items that follow are not touched by listing this one
      have hkept : i ∉ (is.filter fun j =>
          (l.questItems[j]?).any (LootItem.questTest w p)).take room :=
        fun hmem => hnodup.1 (List.mem_of_mem_filter (List.mem_of_mem_take hmem))
      have hsame := filter_any_set (LootItem.questTest w p) hitem
        (questTest_block p p item) is
      rw [ih _ _ room hnodup.2]
      · simp only [hsame]
        rw [countAt_set hkept, updateAt_set _ _ hitem hkept]
        simp only [listed, List.map_cons, List.append_assoc, List.singleton_append, Prod.mk.injEq,
          Loot.mk.injEq, true_and, and_true]
        rw [UInt8.add_assoc, ← UInt8.ofNat_add]
        congr 2
        simp [countAt, List.countP_cons, Nat.add_comm]
      · intro j hj
        simpa using hrange j (List.mem_cons_of_mem i hj)
      · rw [hlist] at hfull
        simp only [List.length_append, List.length_cons, List.length_nil] at hfull hroom ⊢
        omega

/-- What the listing for a player does with a conditional item. -/
def LootItem.counted (item : LootItem) : LootItem := { item with isCounted := true }

theorem listCond_eq {i : ℕ} {item : LootItem} (hi : l.items[i]? = some item) :
    l.listCond i item =
      { l with
        unlootedCount := l.unlootedCount + UInt8.ofNat (countAt l.items [i] (!·.isCounted))
        items := l.items.set i item.counted } := by
  unfold Loot.listCond
  have hcount : countAt l.items [i] (!·.isCounted) = (!item.isCounted).toNat := by
    simp only [countAt, List.countP_cons, List.countP_nil, hi, Option.any_some,
      Counting.ite_eq_toNat, Nat.zero_add]
  rw [hcount]
  split_ifs with h
  · have hsame : item.counted = item := by
      obtain ⟨_, _, _, _, _, _, _, _, c⟩ := item
      exact congrArg (LootItem.mk _ _ _ _ _ _ _ _) h.symm
    obtain ⟨hlt, rfl⟩ := List.getElem?_eq_some_iff.1 hi
    rw [hsame, List.set_getElem_self hlt, h]
    simp
  · rw [Bool.not_eq_true] at h
    rw [h]
    rfl

theorem cond_foldl (p : Looter) (is : List ℕ) (l : Loot) (ql : List QuestItem)
    (hnodup : is.Nodup) :
    is.foldl (condTurn w p) (l, ql) =
      let kept := is.filter fun i => (l.items[i]?).any (LootItem.condTest w p)
      ({ l with
        unlootedCount := l.unlootedCount + UInt8.ofNat (countAt l.items kept (!·.isCounted))
        items := updateAt l.items kept LootItem.counted },
        ql ++ listed kept) := by
  induction is generalizing l ql with
  | nil => simp [listed, countAt, updateAt_nil]
  | cons i is ih =>
    rw [List.nodup_cons] at hnodup
    rw [List.foldl_cons, List.filter_cons]
    cases hitem : l.items[i]? with
    | none =>
      have hturn : condTurn w p (l, ql) i = (l, ql) := by simp [condTurn, hitem]
      rw [hturn, ih l ql hnodup.2]
      simp
    | some item =>
      have hturn : condTurn w p (l, ql) i =
          if item.condTest w p then (l.listCond i item, ql ++ [⟨i, false⟩]) else (l, ql) := by
        simp only [condTurn, hitem]
        rfl
      rw [hturn, Option.any_some]
      split_ifs with htest
      swap
      · exact ih l ql hnodup.2
      rw [listCond_eq hitem, ih _ _ hnodup.2]
      have hsame := filter_any_set (LootItem.condTest w p) hitem
        (show item.counted.condTest w p = item.condTest w p from rfl) is
      have hkept : i ∉ is.filter fun j => (l.items[j]?).any (LootItem.condTest w p) :=
        fun hmem => hnodup.1 (List.mem_of_mem_filter hmem)
      simp only [hsame]
      rw [countAt_set hkept, updateAt_set _ _ hitem hkept]
      simp only [listed, List.map_cons, List.append_assoc, List.singleton_append, Prod.mk.injEq,
        Loot.mk.injEq, true_and, and_true]
      rw [UInt8.add_assoc, ← UInt8.ofNat_add]
      congr 2
      simp [countAt, List.countP_cons, Nat.add_comm]

theorem list_nil (m : QuestItemMap) (player : UInt32) : m.list player [] = m := rfl

theorem fillQuestLoot_eq (l : Loot) (p : Looter) :
    (if (l.playerQuestItems.find p.guid).isNone then fillQuestLoot w l p else l) =
      { l with
        unlootedCount := l.unlootedCount +
          UInt8.ofNat (countAt l.questItems (l.questListed w p) LootItem.questCounts)
        questItems := updateAt l.questItems (l.questListed w p) p.block
        playerQuestItems := l.playerQuestItems.list p.guid (l.questListed w p) } := by
  unfold Loot.questListed
  split_ifs with hnone
  swap
  · simp [countAt, updateAt_nil, list_nil]
  unfold fillQuestLoot
  split_ifs with hfull
  · have hroom : l.questRoom = 0 := by simp [Loot.questRoom, hfull]
    simp [hroom, countAt, updateAt_nil, list_nil]
  · rw [questLoop_eq p (List.range l.questItems.length) l [] l.questRoom List.nodup_range
      fun i hi => List.mem_range.1 hi]
    · simp only [List.nil_append, isEmpty_listed, QuestItemMap.list, indices]
      split_ifs with h <;> simp only [h, if_true, Bool.false_eq_true, if_false]
    · unfold Loot.questRoom
      rw [List.length_range, List.length_nil]
      split_ifs
      · exact .inl (by omega)
      · exact .inr (by omega)

theorem fillFFALoot_eq (l : Loot) (p : Looter) :
    (if (l.playerFFAItems.find p.guid).isNone then fillFFALoot w l p else l) =
      { l with
        unlootedCount := l.unlootedCount + UInt8.ofNat (l.ffaListed w p).length
        playerFFAItems := l.playerFFAItems.list p.guid (l.ffaListed w p) } := by
  unfold Loot.ffaListed
  split_ifs with hnone
  swap
  · simp [list_nil]
  unfold fillFFALoot
  rw [ffa_foldl]
  simp only [List.nil_append, isEmpty_listed, QuestItemMap.list, indices]
  split_ifs with h <;> simp only [h, if_true, Bool.false_eq_true, if_false]

theorem fillNonQuestNonFFAConditionalLoot_eq (l : Loot) (p : Looter) :
    (if (l.playerNonQuestNonFFAConditionalItems.find p.guid).isNone then
        fillNonQuestNonFFAConditionalLoot w l p else l) =
      { l with
        unlootedCount := l.unlootedCount +
          UInt8.ofNat (countAt l.items (l.condListed w p) (!·.isCounted))
        items := updateAt l.items (l.condListed w p) LootItem.counted
        playerNonQuestNonFFAConditionalItems :=
          l.playerNonQuestNonFFAConditionalItems.list p.guid (l.condListed w p) } := by
  unfold Loot.condListed
  split_ifs with hnone
  swap
  · simp [countAt, updateAt_nil, list_nil]
  unfold fillNonQuestNonFFAConditionalLoot
  rw [cond_foldl p _ l [] List.nodup_range]
  simp only [List.nil_append, isEmpty_listed, QuestItemMap.list, indices]
  split_ifs with h <;> simp only [h, if_true, Bool.false_eq_true, if_false]

/-- By how much the listing for a player counts up. -/
def Loot.newlyCounted (w : World) (l : Loot) (p : Looter) : ℕ :=
  countAt l.questItems (l.questListed w p) LootItem.questCounts + (l.ffaListed w p).length +
    countAt l.items (l.condListed w p) (!·.isCounted)

/-- What a player who gets access to the loot changes in it. -/
theorem fillLists_eq (w : World) (l : Loot) (p : Looter) :
    fillLists w l p =
      { l with
        items := updateAt l.items (l.condListed w p) LootItem.counted
        questItems := updateAt l.questItems (l.questListed w p) p.block
        unlootedCount := l.unlootedCount + UInt8.ofNat (l.newlyCounted w p)
        playerQuestItems := l.playerQuestItems.list p.guid (l.questListed w p)
        playerFFAItems := l.playerFFAItems.list p.guid (l.ffaListed w p)
        playerNonQuestNonFFAConditionalItems :=
          l.playerNonQuestNonFFAConditionalItems.list p.guid (l.condListed w p) } := by
  unfold fillLists
  dsimp only
  rw [fillQuestLoot_eq, fillFFALoot_eq, fillNonQuestNonFFAConditionalLoot_eq]
  simp only [Loot.newlyCounted, UInt8.ofNat_add, UInt8.add_assoc]
  rfl

/-! ### Lists of players -/

/-- The lists hold every entry once. -/
def Distinct (m : QuestItemMap) : Prop := ∀ r ∈ m, (r.2.map QuestItem.index).Nodup

theorem map_index_modify (ql : List QuestItem) (pos : ℕ) :
    (ql.modify pos fun q => { q with isLooted := true }).map QuestItem.index =
      ql.map QuestItem.index := by
  apply List.ext_getElem?
  intro k
  simp only [List.getElem?_map, List.getElem?_modify, Option.map_eq_map, Option.map_map]
  congr 1
  funext q
  simp only [Function.comp_apply]
  split_ifs <;> rfl

theorem position_eq_some {m : QuestItemMap} {p : UInt32} {i pos : ℕ} {q : QuestItem}
    (h : position m p i = some (pos, q)) :
    ∃ ql, m.find p = some (p, ql) ∧ ql.findIdx? (fun q => q.index = i) = some pos ∧
      ql[pos]? = some q ∧ q.index = i := by
  unfold position at h
  cases hfind : m.find p with
  | none => simp [hfind] at h
  | some r =>
    obtain ⟨g, ql⟩ := r
    obtain rfl : g = p := (Table.of_find hfind).2
    rw [hfind] at h
    dsimp only at h
    cases hidx : ql.findIdx? fun q => q.index = i with
    | none => simp [hidx] at h
    | some k =>
      rw [hidx, Option.map_eq_some_iff] at h
      obtain ⟨q', hq, heq⟩ := h
      obtain ⟨rfl, rfl⟩ := Prod.mk.inj heq
      refine ⟨ql, rfl, hidx, hq, ?_⟩
      obtain ⟨hk, hp, -⟩ := List.findIdx?_eq_some_iff_getElem.1 hidx
      rw [List.getElem?_eq_getElem hk] at hq
      rw [← Option.some.inj hq]
      simpa using hp

theorem position_of_getElem? {m : QuestItemMap} {p : UInt32} {ql : List QuestItem} {pos : ℕ}
    {q : QuestItem} (hm : Distinct m) (hfind : m.find p = some (p, ql)) (hq : ql[pos]? = some q) :
    position m p q.index = some (pos, q) := by
  have hnodup := hm _ (Table.of_find hfind).1
  obtain ⟨hpos, hget⟩ := List.getElem?_eq_some_iff.1 hq
  have hidx : ql.findIdx? (fun q' => q'.index = q.index) = some pos := by
    rw [List.findIdx?_eq_some_iff_getElem]
    refine ⟨hpos, by simp [hget], fun j hj hindex => ?_⟩
    have hjlt : j < ql.length := by omega
    have heq : (ql.map QuestItem.index)[j]? = (ql.map QuestItem.index)[pos]? := by
      rw [List.getElem?_map, List.getElem?_map, hq, List.getElem?_eq_getElem hjlt]
      simpa using hindex
    have hjpos : j = pos := (List.getElem?_inj (by simpa using hjlt) hnodup).1 heq
    omega
  unfold position
  simp [hfind, hidx, hq]

/-- Marking the entry that stands at a place changes its listing and no other. -/
theorem position_markLooted {m : QuestItemMap} {p : UInt32} {i pos : ℕ} {q : QuestItem}
    (h : position m p i = some (pos, q)) (p' : UInt32) (i' : ℕ) :
    position (markLooted m p pos) p' i' =
      if p' = p ∧ i' = i then some (pos, { q with isLooted := true })
      else position m p' i' := by
  obtain ⟨ql, hfind, hidx, hq, hqi⟩ := position_eq_some h
  by_cases hp : p' = p
  swap
  · unfold position
    rw [markLooted, Table.find_modify, if_neg hp, if_neg fun hc => hp hc.1]
  subst hp
  have hmarked : (markLooted m p' pos).find p' =
      some (p', ql.modify pos fun q => { q with isLooted := true }) := by
    rw [markLooted, Table.find_modify, if_pos rfl, hfind]
    rfl
  -- marking keeps the indices, so an entry is found at the same place as before
  have hsame : (ql.modify pos fun q => { q with isLooted := true }).findIdx?
      (fun q => q.index = i') = ql.findIdx? fun q => q.index = i' := by
    have hmap : ∀ ql : List QuestItem, ql.findIdx? (fun q => q.index = i') =
        (ql.map QuestItem.index).findIdx? (fun j => j = i') := by
      intro ql
      rw [List.findIdx?_map]
      rfl
    rw [hmap, map_index_modify, ← hmap]
  by_cases hi : i' = i
  · subst hi
    simp [position, hmarked, hsame, hidx, hq]
  · rw [if_neg fun hc => hi hc.2]
    unfold position
    rw [hmarked, hfind]
    dsimp only
    rw [hsame]
    cases hk : ql.findIdx? fun q => q.index = i' with
    | none => rfl
    | some k =>
      have hne : pos ≠ k := by
        rintro rfl
        obtain ⟨hlt, hp, -⟩ := List.findIdx?_eq_some_iff_getElem.1 hk
        rw [List.getElem?_eq_getElem hlt] at hq
        rw [Option.some.inj hq] at hp
        exact hi ((of_decide_eq_true hp).symm.trans hqi)
      dsimp only
      rw [List.getElem?_modify_ne _ _ hne]

theorem position_eq_none {m : QuestItemMap} {p : UInt32} {i : ℕ} :
    position m p i = none ↔ ∀ r, m.find p = some r → i ∉ r.2.map QuestItem.index := by
  unfold position
  cases m.find p with
  | none => simp
  | some r =>
    dsimp only
    cases hidx : r.2.findIdx? fun q => q.index = i with
    | none =>
      simp only [List.findIdx?_eq_none_iff] at hidx
      simpa using hidx
    | some k =>
      obtain ⟨hk, hp, -⟩ := List.findIdx?_eq_some_iff_getElem.1 hidx
      simp only [List.getElem?_eq_getElem hk, Option.map_some, reduceCtorEq, false_iff]
      intro h
      exact h r rfl (List.mem_map.2 ⟨_, List.getElem_mem hk, by simpa using hp⟩)

theorem position_markLooted_eq_none {m : QuestItemMap} {p p' : UInt32} {i pos : ℕ} :
    position (markLooted m p pos) p' i = none ↔ position m p' i = none := by
  rw [position_eq_none, position_eq_none, markLooted, Table.find_modify]
  split_ifs with hp
  · subst hp
    cases m.find p' with
    | none => simp
    | some r => simp only [Option.map_some, Option.some.injEq, forall_eq', map_index_modify]
  · rfl

theorem distinct_markLooted {m : QuestItemMap} (hm : Distinct m) (p : UInt32) (pos : ℕ) :
    Distinct (markLooted m p pos) := by
  refine (Table.forall_mem_modify _).2 fun r hr => ?_
  split_ifs
  · rw [map_index_modify]
    exact hm r hr
  · exact hm r hr

/-- The listings of a player who gets a list. -/
theorem position_list {m : QuestItemMap} {p : UInt32} {is : List ℕ}
    (hnone : is ≠ [] → m.find p = none) (p' : UInt32) (i : ℕ) :
    position (m.list p is) p' i = position m p' i ∨
      position m p' i = none ∧ i ∈ is ∧
        ∃ pos q, position (m.list p is) p' i = some (pos, q) ∧ q.isLooted = false := by
  unfold QuestItemMap.list
  split_ifs with hempty
  · exact .inl rfl
  have hfree := hnone (by simpa using hempty)
  by_cases hp : p' = p
  swap
  · refine .inl ?_
    unfold position
    rw [Table.find_insert, if_neg hp]
  subst hp
  have hfind : (m.insert (p', listed is)).find p' = some (p', listed is) := by
    rw [Table.find_insert, if_pos rfl]
  have hold : position m p' i = none := by
    unfold position
    rw [hfree]
  rw [hold]
  cases hpos : position (m.insert (p', listed is)) p' i with
  | none => exact .inl rfl
  | some x =>
    obtain ⟨pos, q⟩ := x
    obtain ⟨ql, hql, -, hq, rfl⟩ := position_eq_some hpos
    obtain ⟨-, rfl⟩ := Prod.mk.inj (Option.some.inj (hfind.symm.trans hql))
    obtain ⟨j, hj, rfl⟩ := List.mem_map.1 (List.mem_of_getElem? hq)
    exact .inr ⟨rfl, hj, pos, _, rfl, rfl⟩

theorem distinct_list {m : QuestItemMap} {p : UInt32} {is : List ℕ} (hm : Distinct m)
    (his : is.Nodup) : Distinct (m.list p is) := by
  unfold QuestItemMap.list
  split_ifs
  · exact hm
  · intro r hr
    rcases Table.mem_insert.1 hr with rfl | ⟨hr, -⟩
    · rw [map_index_listed]
      exact his
    · exact hm r hr

theorem questListed_sublist (l : Loot) (p : Looter) :
    (l.questListed w p).Sublist (indices l.questItems (LootItem.questTest w p)) := by
  unfold Loot.questListed
  split_ifs
  · exact List.take_sublist _ _
  · exact List.nil_sublist _

theorem ffaListed_sublist (l : Loot) (p : Looter) :
    (l.ffaListed w p).Sublist (indices l.items (LootItem.ffaTest w p)) := by
  unfold Loot.ffaListed
  split_ifs
  · exact List.Sublist.refl _
  · exact List.nil_sublist _

theorem condListed_sublist (l : Loot) (p : Looter) :
    (l.condListed w p).Sublist (indices l.items (LootItem.condTest w p)) := by
  unfold Loot.condListed
  split_ifs
  · exact List.Sublist.refl _
  · exact List.nil_sublist _

theorem indices_sublist (items : List LootItem) (test : LootItem → Bool) :
    (indices items test).Sublist (List.range items.length) :=
  List.filter_sublist

theorem nodup_questListed (l : Loot) (p : Looter) : (l.questListed w p).Nodup :=
  List.nodup_range.sublist ((questListed_sublist l p).trans (indices_sublist _ _))

theorem mem_indices {items : List LootItem} {test : LootItem → Bool} {i : ℕ} :
    i ∈ indices items test ↔ ∃ item, items[i]? = some item ∧ test item = true := by
  unfold indices
  rw [List.mem_filter, List.mem_range, Option.any_eq_true_iff_get]
  constructor
  · rintro ⟨-, hsome, htest⟩
    exact ⟨_, (Option.some_get hsome).symm, htest⟩
  · rintro ⟨item, hitem, htest⟩
    exact ⟨(List.getElem?_eq_some_iff.1 hitem).1, by simp [hitem], by simpa [hitem] using htest⟩

theorem find_of_questListed {p : Looter} (h : l.questListed w p ≠ []) :
    l.playerQuestItems.find p.guid = none := by
  unfold Loot.questListed at h
  split_ifs at h with hnone
  · simpa using hnone
  · exact absurd rfl h

theorem find_of_ffaListed {p : Looter} (h : l.ffaListed w p ≠ []) :
    l.playerFFAItems.find p.guid = none := by
  unfold Loot.ffaListed at h
  split_ifs at h with hnone
  · simpa using hnone
  · exact absurd rfl h

theorem find_of_condListed {p : Looter} (h : l.condListed w p ≠ []) :
    l.playerNonQuestNonFFAConditionalItems.find p.guid = none := by
  unfold Loot.condListed at h
  split_ifs at h with hnone
  · simpa using hnone
  · exact absurd rfl h

/-! ### What a request takes -/

/-- What `LootItemInSlot` can find for a player: a quest entry of his list, a free-for-all entry of
his list, a conditional entry of his list, or an item that is not listed for him. -/
inductive Finds (l : Loot) (slot : ℕ) (p : UInt32) : Found → Prop
  | quest {ql : List QuestItem} {pos : ℕ} {q : QuestItem} {item : LootItem}
      (hfind : l.playerQuestItems.find p = some (p, ql)) (hq : ql[pos]? = some q)
      (hitem : l.questItems[q.index]? = some item) (hnew : q.isLooted = false) :
      Finds l slot p ⟨.quest q.index, item, some (.qitem pos)⟩
  | ffa {pos : ℕ} {q : QuestItem} {item : LootItem} (hitem : l.items[slot]? = some item)
      (hffa : item.freeforall = true) (hpos : position l.playerFFAItems p slot = some (pos, q))
      (hnew : q.isLooted = false) : Finds l slot p ⟨.item slot, item, some (.ffaitem pos)⟩
  | cond {pos : ℕ} {q : QuestItem} {item : LootItem} (hitem : l.items[slot]? = some item)
      (hffa : item.freeforall = false)
      (hpos : position l.playerNonQuestNonFFAConditionalItems p slot = some (pos, q)) :
      Finds l slot p ⟨.item slot, item, some (.conditem pos)⟩
  | unlisted {item : LootItem} (hitem : l.items[slot]? = some item) (hnew : item.isLooted = false)
      (hffa : item.freeforall = true → position l.playerFFAItems p slot = none) :
      Finds l slot p ⟨.item slot, item, none⟩

theorem finds_of_lootItemInSlot {slot : ℕ} {p : UInt32} {f : Found}
    (h : lootItemInSlot l slot p = some f) : Finds l slot p f := by
  unfold lootItemInSlot at h
  split_ifs at h with hslot
  · cases hfind : l.playerQuestItems.find p with
    | none => simp [hfind] at h
    | some r =>
      obtain ⟨g, ql⟩ := r
      obtain rfl : g = p := (Table.of_find hfind).2
      simp only [hfind] at h
      cases hq : ql[slot - l.items.length]? with
      | none => simp [hq] at h
      | some q =>
        simp only [hq] at h
        cases hitem : l.questItems[q.index]? with
        | none => simp [hitem] at h
        | some item =>
          simp only [hitem] at h
          split_ifs at h with hlooted
          obtain rfl := Option.some.inj h
          exact .quest hfind hq hitem (by simpa using hlooted)
  · cases hitem : l.items[slot]? with
    | none => simp [hitem] at h
    | some item =>
      simp only [hitem] at h
      by_cases hffa : item.freeforall = true
      · simp only [hffa, if_true] at h
        cases hpos : position l.playerFFAItems p slot with
        | none =>
          simp only [hpos, Option.map_none] at h
          split_ifs at h with hlooted
          obtain rfl := Option.some.inj h
          exact .unlisted hitem (by simpa using hlooted) fun _ => hpos
        | some x =>
          simp only [hpos, Option.map_some] at h
          split_ifs at h with hlooted
          obtain rfl := Option.some.inj h
          exact .ffa hitem hffa hpos (by simpa using hlooted)
      · simp only [hffa, Bool.false_eq_true, if_false] at h
        cases hc : item.conditions.isEmpty with
        | true =>
          simp only [hc, Bool.not_true, Bool.false_eq_true, if_false] at h
          split_ifs at h with hlooted
          obtain rfl := Option.some.inj h
          exact .unlisted hitem (by simpa using hlooted) fun hf => absurd hf hffa
        | false =>
          simp only [hc, Bool.not_false, if_true] at h
          cases hpos : position l.playerNonQuestNonFFAConditionalItems p slot with
          | none =>
            simp only [hpos, Option.map_none] at h
            split_ifs at h with hlooted
            obtain rfl := Option.some.inj h
            exact .unlisted hitem (by simpa using hlooted) fun hf => absurd hf hffa
          | some x =>
            simp only [hpos, Option.map_some] at h
            split_ifs at h
            obtain rfl := Option.some.inj h
            exact .cond hitem (by simpa using hffa) hpos

theorem Finds.itemAt {slot : ℕ} {p : UInt32} {f : Found} (h : Finds l slot p f) :
    l.itemAt f.entry = some f.item := by
  cases h with
  | quest hfind hq hitem hnew => exact hitem
  | ffa hitem hffa hpos hnew => exact hitem
  | cond hitem hffa hpos => exact hitem
  | unlisted hitem hnew hffa => exact hitem

theorem itemAt_mark (p : UInt32) (x : Option Listed) (e : Entry) :
    (l.mark p x).itemAt e = l.itemAt e := by
  rcases x with _ | _ | _ | _ <;> rfl

theorem itemAt_setItem {e : Entry} (he : (l.itemAt e).isSome) (item : LootItem) (e' : Entry) :
    (l.setItem e item).itemAt e' = if e' = e then some item else l.itemAt e' := by
  cases e with
  | item i =>
    have hi : i < l.items.length := by simpa [Loot.itemAt] using he
    cases e' with
    | item j => simp [Loot.setItem, Loot.itemAt, List.getElem?_set, hi, eq_comm]
    | quest j => simp [Loot.setItem, Loot.itemAt]
  | quest i =>
    have hi : i < l.questItems.length := by simpa [Loot.itemAt] using he
    cases e' with
    | item j => simp [Loot.setItem, Loot.itemAt]
    | quest j => simp [Loot.setItem, Loot.itemAt, List.getElem?_set, hi, eq_comm]

theorem itemAt_take {p : UInt32} {f : Found} (he : l.itemAt f.entry = some f.item) (e' : Entry) :
    (l.take p f).itemAt e' =
      if e' = f.entry then
        some (if f.item.freeforall then f.item else { f.item with isLooted := true })
      else l.itemAt e' := by
  have hmark := @itemAt_mark l p f.listed
  have hcount : (l.take p f).itemAt e' =
      (if f.item.freeforall then l.mark p f.listed
        else (l.mark p f.listed).setItem f.entry { f.item with isLooted := true }).itemAt e' := by
    cases e' <;> rfl
  rw [hcount]
  split_ifs with hf heq heq
  · rw [hmark, heq, he]
  · rw [hmark]
  · rw [itemAt_setItem (by rw [hmark, he]; rfl), if_pos heq]
  · rw [itemAt_setItem (by rw [hmark, he]; rfl), if_neg heq, hmark]

theorem itemAt_give {e : Entry} {item : LootItem} (he : l.itemAt e = some item) (e' : Entry) :
    (l.give e item).itemAt e' =
      if e' = e then some { item with count := 0, isLooted := true } else l.itemAt e' := by
  have hcount : (l.give e item).itemAt e' =
      (l.setItem e { item with count := 0, isLooted := true }).itemAt e' := by
    cases e' <;> rfl
  rw [hcount, itemAt_setItem (by rw [he]; rfl)]

theorem unlootedCount_mark (p : UInt32) (x : Option Listed) :
    (l.mark p x).unlootedCount = l.unlootedCount := by
  rcases x with _ | _ | _ | _ <;> rfl

theorem unlootedCount_setItem (e : Entry) (item : LootItem) :
    (l.setItem e item).unlootedCount = l.unlootedCount := by
  cases e <;> rfl

theorem unlootedCount_take (p : UInt32) (f : Found) :
    (l.take p f).unlootedCount = l.unlootedCount - 1 := by
  unfold Loot.take
  dsimp only
  split_ifs
  · rw [unlootedCount_mark]
  · rw [unlootedCount_setItem, unlootedCount_mark]

theorem unlootedCount_give (e : Entry) (item : LootItem) :
    (l.give e item).unlootedCount = l.unlootedCount - 1 := by
  unfold Loot.give
  dsimp only
  rw [unlootedCount_setItem]

theorem storeLootItem_cases (s : State) (p : UInt32) (slot : ℕ) (canStore : Bool) :
    (storeLootItem s p slot canStore = s ∧ ∀ f, lootItemInSlot s.loot slot p = some f →
        f.isQuest = true ∨ f.item.isBlocked = false → canStore = false) ∨
      ∃ f, lootItemInSlot s.loot slot p = some f ∧
        (f.isQuest = true ∨ f.item.isBlocked = false) ∧ canStore = true ∧
        storeLootItem s p slot canStore =
          { s.deliver f.entry p f.item.count with loot := s.loot.take p f } := by
  unfold storeLootItem
  cases hf : lootItemInSlot s.loot slot p with
  | none => simp
  | some f =>
    by_cases hb : f.isQuest = true ∨ f.item.isBlocked = false
    · have hb' : (!f.isQuest && f.item.isBlocked) = false := by
        rcases hb with hb | hb <;> simp [hb]
      cases canStore with
      | false => exact .inl ⟨by simp [hb'], by simp⟩
      | true => exact .inr ⟨f, rfl, hb, rfl, by simp [hb']⟩
    · have hb' : (!f.isQuest && f.item.isBlocked) = true := by
        rw [not_or] at hb
        simpa using hb
      refine .inl ⟨by simp [hb'], fun f' hf' hb'' => ?_⟩
      obtain rfl := Option.some.inj hf'
      exact absurd hb'' hb

theorem lootMasterGive_cases (w : World) (s : State) (valid : Bool) (slotid : ℕ)
    (target : UInt32) (canStore : Bool) :
    (lootMasterGive w s valid slotid target canStore = s ∧
        ∀ item, s.loot.itemAt (s.loot.entryOfSlot slotid) = some item → valid = true →
          canStore = true →
          ¬ (item.followLootRules = true → item.allowedForPlayer w target = true)) ∨
      ∃ item, s.loot.itemAt (s.loot.entryOfSlot slotid) = some item ∧ valid = true ∧
        canStore = true ∧
        (item.followLootRules = true → item.allowedForPlayer w target = true) ∧
        lootMasterGive w s valid slotid target canStore =
          { s.deliver (s.loot.entryOfSlot slotid) target item.count with
            loot := s.loot.give (s.loot.entryOfSlot slotid) item } := by
  unfold lootMasterGive
  cases valid with
  | false => simp
  | true =>
    cases hitem : s.loot.itemAt (s.loot.entryOfSlot slotid) with
    | none => simp
    | some item =>
      cases canStore with
      | false => simp
      | true =>
        cases hrules : item.followLootRules with
        | false => exact .inr ⟨item, rfl, rfl, rfl, by simp [hrules], by simp [hrules]⟩
        | true =>
          cases hallowed : item.allowedForPlayer w target with
          | false => simp [hrules, hallowed]
          | true => exact .inr ⟨item, rfl, rfl, rfl, by simp [hallowed], by simp [hallowed]⟩

/-- Whether the loop over the currency items asks for a slot. -/
def Loot.picksUp (w : World) (l : Loot) (p : Looter) (i : ℕ) : Prop :=
  ∃ item proto, l.itemAt (l.entryOfSlot i) = some item ∧ item.isLooted = false ∧
    item.freeforall = true ∧ item.allowedForPlayer w p.guid = true ∧
    w.template item.itemid = some proto ∧ proto.currencyToken = true

theorem currencyTurn_cases (w : World) (p : Looter) (canStore : Bool) (s : State) (i : ℕ) :
    (currencyTurn w p canStore s i = s ∧ ¬ s.loot.picksUp w p i) ∨
      s.loot.picksUp w p i ∧ currencyTurn w p canStore s i = storeLootItem s p.guid i canStore := by
  unfold currencyTurn Loot.picksUp
  cases hitem : s.loot.itemAt (s.loot.entryOfSlot i) with
  | none => simp
  | some item =>
    by_cases hok : (!item.isLooted && item.freeforall && item.allowedForPlayer w p.guid) = true
    · simp only [Bool.and_eq_true, Bool.not_eq_true'] at hok
      cases hproto : w.template item.itemid with
      | none => simp [hproto]
      | some proto =>
        cases hcur : proto.currencyToken with
        | false => simp [hproto, hcur]
        | true => exact .inr ⟨⟨item, proto, rfl, hok.1.1, hok.1.2, hok.2, hproto, hcur⟩, by
            simp [hok, hproto, hcur]⟩
    · refine .inl ⟨by simp [hok], ?_⟩
      rintro ⟨item', proto, heq, hl, hf, ha, -, -⟩
      obtain rfl := Option.some.inj heq
      simp [hl, hf, ha] at hok

/-! ### Counts -/

/-- All entries have a property. -/
def Loot.All (P : LootItem → Prop) (l : Loot) : Prop := ∀ e item, l.itemAt e = some item → P item

/-- The counts of the entries fit in their bit fields. -/
def ByteCounts (l : Loot) : Prop := l.All fun item => item.count < 256

variable {P : LootItem → Prop}

theorem all_iff : l.All P ↔ (∀ item ∈ l.items, P item) ∧ ∀ item ∈ l.questItems, P item := by
  constructor
  · intro h
    refine ⟨fun item hitem => ?_, fun item hitem => ?_⟩
    · obtain ⟨i, hi⟩ := List.mem_iff_getElem?.1 hitem
      exact h (.item i) item hi
    · obtain ⟨i, hi⟩ := List.mem_iff_getElem?.1 hitem
      exact h (.quest i) item hi
  · rintro ⟨hitems, hquest⟩ e item he
    cases e with
    | item i => exact hitems item (List.mem_of_getElem? he)
    | quest i => exact hquest item (List.mem_of_getElem? he)

theorem all_addItem {item : LootStoreItem} (hnew : ∀ count, P (LootItem.new w item (count % 256)))
    (count : ℕ) (h : l.All P) : (addItem w l item count).All P := by
  have hlast : ∀ count, ∀ x ∈ [LootItem.new w item (count % 256)], P x := by
    intro count x hx
    rw [List.mem_singleton.1 hx]
    exact hnew count
  refine addItem_induction (Q := Loot.All P) (fun l count _ _ hl => ?_) (fun l count _ _ hl => ?_)
    count h
  · obtain ⟨hitems, hquest⟩ := all_iff.1 hl
    exact all_iff.2 ⟨hitems, List.forall_mem_append.2 ⟨hquest, hlast count⟩⟩
  · obtain ⟨hitems, hquest⟩ := all_iff.1 hl
    exact all_iff.2 ⟨List.forall_mem_append.2 ⟨hitems, hlast count⟩, hquest⟩

theorem all_processed (hnew : ∀ item count, P (LootItem.new w item (count % 256))) (fill : Fill) :
    (processed w fill).loot.All P := by
  unfold processed
  exact List.foldlRecOn _ _ (motive := Loot.All P) (all_iff.2 ⟨nofun, nofun⟩)
    fun l h d _ => all_addItem (hnew d.1) d.2 h

theorem all_updateAt {items : List LootItem} (h : ∀ item ∈ items, P item) (is : List ℕ)
    {f : LootItem → LootItem} (hf : ∀ item, P item → P (f item)) :
    ∀ item ∈ updateAt items is f, P item := by
  intro x hx
  obtain ⟨i, hi⟩ := List.mem_iff_getElem?.1 hx
  rw [getElem?_updateAt, Option.map_eq_some_iff] at hi
  obtain ⟨item, hitem, rfl⟩ := hi
  have hitem' := h item (List.mem_of_getElem? hitem)
  split_ifs
  · exact hf item hitem'
  · exact hitem'

theorem all_fillLists (hcounted : ∀ item, P item → P item.counted)
    (hblock : ∀ (p : Looter) item, P item → P (p.block item)) (h : l.All P) (p : Looter) :
    (fillLists w l p).All P := by
  obtain ⟨hitems, hquest⟩ := all_iff.1 h
  rw [fillLists_eq, all_iff]
  exact ⟨all_updateAt hitems _ hcounted, all_updateAt hquest _ (hblock p)⟩

theorem count_block (p : Looter) (item : LootItem) : (p.block item).count = item.count := by
  unfold Looter.block
  split_ifs <;> rfl

theorem byteCounts_fillLists (h : ByteCounts l) (p : Looter) : ByteCounts (fillLists w l p) := by
  refine all_fillLists (fun _ hitem => hitem) (fun p item hitem => ?_) h p
  rwa [count_block]

theorem byteCounts_take {p : UInt32} {f : Found} (h : ByteCounts l)
    (he : l.itemAt f.entry = some f.item) : ByteCounts (l.take p f) := by
  intro e item hitem
  have hcount := h _ _ he
  rw [itemAt_take he] at hitem
  split_ifs at hitem
  · exact Option.some.inj hitem ▸ hcount
  · exact Option.some.inj hitem ▸ hcount
  · exact h e item hitem

theorem byteCounts_give {e : Entry} {item : LootItem} (h : ByteCounts l)
    (he : l.itemAt e = some item) : ByteCounts (l.give e item) := by
  intro e' item' hitem
  rw [itemAt_give he] at hitem
  split_ifs at hitem
  · exact Option.some.inj hitem ▸ Nat.succ_pos 255
  · exact h e' item' hitem

theorem byteCounts_storeLootItem (h : ByteCounts s.loot) (p : UInt32) (slot : ℕ) (canStore : Bool) :
    ByteCounts (storeLootItem s p slot canStore).loot := by
  rcases storeLootItem_cases s p slot canStore with ⟨heq, -⟩ | ⟨f, hf, -, -, heq⟩
  · rw [heq]
    exact h
  · rw [heq]
    exact byteCounts_take h (finds_of_lootItemInSlot hf).itemAt

theorem byteCounts_step (h : ByteCounts s.loot) (e : Event) : ByteCounts (step w s e).loot := by
  cases e with
  | addItem item count => exact all_addItem (fun _ => Nat.mod_lt _ (by decide)) count h
  | fillLists p => exact byteCounts_fillLists h p
  | currency p i canStore =>
    rcases currencyTurn_cases w p canStore s i with ⟨heq, -⟩ | ⟨-, heq⟩ <;> rw [step, heq]
    · exact h
    · exact byteCounts_storeLootItem h p.guid i canStore
  | request r =>
    cases r with
    | storeLootItem p slot canStore => exact byteCounts_storeLootItem h p slot canStore
    | lootMasterGive valid slotid target canStore =>
      rcases lootMasterGive_cases w s valid slotid target canStore with
        ⟨heq, -⟩ | ⟨item, hitem, -, -, -, heq⟩ <;> rw [step, serve, heq]
      · exact h
      · exact byteCounts_give h hitem

theorem byteCounts_fillLoot (w : World) (fill : Fill) : ByteCounts (fillLoot w fill).loot := by
  rw [fillLoot_eq_foldl]
  refine List.foldlRecOn _ _ (motive := fun s : State => ByteCounts s.loot) ?_
    fun s h e _ => byteCounts_step h e
  exact all_iff.2 ⟨nofun, nofun⟩

end FaceCore.LootMgr
