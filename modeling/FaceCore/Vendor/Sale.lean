import FaceCore.Player.Money
import FaceCore.Player.Placement

/-!
# Selling to a vendor and buying back

`WorldSession::HandleSellItemOpcode` and `WorldSession::HandleBuybackItem`, with
`Player::AddItemToBuyBackSlot` and `Player::RemoveItemFromBuyBackSlot`.

The item leaves the inventory before the money is credited, and nobody looks at what `ModifyMoney`
answers. The price is a product of 32 bits, computed once for the buyback slot and once for the
credit.

* `Customer`: the player; the items of the buyback slots are kept beside those of `Storage`, where no
  position leads to them;
* `Sold`: what is expected of a sale and of buying back after it;
* `vendor_sale_conserves_iff`: when a sale keeps it.

What the handlers ask of the item and of the creature besides is in `Creature`. Quests, achievements and
the update fields that only mirror a slot are left out.
-/

namespace FaceCore.Storage.Vendor

/-- The `SellResult`s that the handler sends. -/
inductive SellResult
  | cantFindItem
  | cantSellItem
  | cantFindVendor
  deriving DecidableEq

/-- The `BuyResult`s that the buying back sends, or the error of `CanStoreItem`. -/
inductive BuyError
  | cantFindVendor
  | cantFindItem
  | notEnoughMoney
  | equip (res : InventoryResult)
  deriving DecidableEq

/-- The vendor and the answers about an item by its guid: whether the player owns it, has it open for
looting, and can still get a refund for it. `sellPrice` is `SellPrice` of the template. -/
structure Creature where
  canInteract : Bool
  sellPrice : ℕ → UInt32
  owned : ℕ → Bool
  looting : ℕ → Bool
  refundable : ℕ → Bool

/-- A buyback slot: `m_items`, `PLAYER_FIELD_BUYBACK_PRICE_1` and `PLAYER_FIELD_BUYBACK_TIMESTAMP_1`. -/
structure BuybackSlot where
  item : Option (Item × ℕ)
  price : UInt32
  timestamp : UInt32

/-- An empty buyback slot. -/
def BuybackSlot.empty : BuybackSlot := ⟨none, 0, 0⟩

/-- The player. `next` is the next free item guid. -/
structure Customer where
  money : UInt32
  bags : Bags
  next : ℕ
  buyback : ℕ → BuybackSlot
  /-- `m_currentBuybackSlot`. -/
  currentBuybackSlot : ℕ

variable (W : World)

/-- The positions that `Player::GetItemByGuid` looks at, in its order. -/
def guidSlots (inv : Bags) : List Pos :=
  slots 0 inventorySlotItemEnd ++ slots keyringSlotStart currencyTokenSlotEnd ++
    slots bankSlotItemStart bankSlotBagEnd ++ allBagSlots W inv

/-- `Player::GetItemByGuid`: the position of the item and the stack there. -/
def getItemByGuid (inv : Bags) (guid : ℕ) : Option (Pos × Cell Loc Item) :=
  (guidSlots W inv).findSome? fun pos =>
    match getItemByPos W inv pos with
    | some c => if c.item.guid = guid then some (pos, c) else none
    | none => none

/-! ### Buyback slots -/

/-- The loop of `AddItemToBuyBackSlot` over the slots from `i` on: it breaks off at a free slot, and
the oldest slot so far is what counts afterwards. -/
def oldestFrom (buyback : ℕ → BuybackSlot) : List ℕ → UInt32 → ℕ → ℕ
  | [], _, oldestSlot => oldestSlot
  | i :: is, oldestTime, oldestSlot =>
    if (buyback i).item.isNone then oldestSlot
    else if oldestTime > (buyback i).timestamp then oldestFrom buyback is (buyback i).timestamp i
    else oldestFrom buyback is oldestTime oldestSlot

/-- `Player::RemoveItemFromBuyBackSlot`. -/
def Customer.removeItemFromBuyBackSlot (s : Customer) (slot : ℕ) : Customer :=
  if buybackSlotStart ≤ slot ∧ slot < buybackSlotEnd then
    let buyback := Function.update s.buyback slot .empty
    { s with
      buyback := buyback
      currentBuybackSlot :=
        if (buyback s.currentBuybackSlot).item.isSome then slot else s.currentBuybackSlot }
  else s

/-- The slot that `AddItemToBuyBackSlot` takes. -/
def Customer.slotForBuyBack (s : Customer) : ℕ :=
  if (s.buyback s.currentBuybackSlot).item.isSome then
    oldestFrom s.buyback
      (List.range' (buybackSlotStart + 1) (buybackSlotEnd - (buybackSlotStart + 1)))
      (s.buyback buybackSlotStart).timestamp buybackSlotStart
  else s.currentBuybackSlot

/-- `Player::AddItemToBuyBackSlot`, at the time `etime`. -/
def Customer.addItemToBuyBackSlot (v : Creature) (s : Customer) (item : Item) (count : ℕ)
    (etime : UInt32) : Customer :=
  let slot := s.slotForBuyBack
  let s := s.removeItemFromBuyBackSlot slot
  { s with
    buyback := Function.update s.buyback slot
      ⟨some (item, count), v.sellPrice item.entry * UInt32.ofNat count, etime⟩
    currentBuybackSlot :=
      if s.currentBuybackSlot < buybackSlotEnd - 1 then s.currentBuybackSlot + 1
      else s.currentBuybackSlot }

/-! ### The handlers -/

/-- The part of `HandleSellItemOpcode` after the checks: `n` units of the stack at `pos` are sold. -/
def sell (v : Creature) (s : Customer) (pos : Pos) (c : Cell Loc Item) (n : ℕ) (etime : UInt32) :
    Except (Option SellResult) Customer :=
  let credit (s : Customer) : Customer :=
    { s with
      money := (modifyMoney s.money (v.sellPrice c.item.entry * UInt32.ofNat n).toInt32).1 }
  if n < c.count then
    -- need split items
    match cloneItem W c.item n s.next with
    | none => .error (some .cantSellItem)
    | some (newItem, count) =>
      let s := { s with bags := s.bags.setCount c.loc (c.count - n), next := s.next + 1 }
      .ok (credit (s.addItemToBuyBackSlot v newItem count etime))
  else
    let s := { s with bags := removeItem W s.bags pos }
    .ok (credit (s.addItemToBuyBackSlot v c.item c.count etime))

/-- `WorldSession::HandleSellItemOpcode`; the error is the one that is sent, if any. -/
def handleSellItem (v : Creature) (s : Customer) (itemguid : ℕ) (count : UInt32) (etime : UInt32) :
    Except (Option SellResult) Customer :=
  if itemguid = 0 then .error none
  else if !v.canInteract then .error (some .cantFindVendor)
  else
    match getItemByGuid W s.bags itemguid with
    | none => .error (some .cantFindItem)
    | some (pos, c) =>
      if !v.owned itemguid then .error (some .cantSellItem)
      else if isNotEmptyBag W s.bags c.item then .error (some .cantSellItem)
      else if v.looting itemguid then .error (some .cantSellItem)
      else if v.refundable itemguid then .error none
      else if count ≠ 0 ∧ c.count < count.toNat then .error (some .cantSellItem)
      else if 0 < v.sellPrice c.item.entry then
        -- special case at auto sell (sell all)
        sell W v s pos c (if count = 0 then c.count else count.toNat) etime
      else .error (some .cantSellItem)

/-- `WorldSession::HandleBuybackItem`. -/
def handleBuybackItem (v : Creature) (s : Customer) (slot : ℕ) : Except BuyError Customer :=
  if !v.canInteract then .error .cantFindVendor
  else
    match (if buybackSlotStart ≤ slot ∧ slot < buybackSlotEnd then (s.buyback slot).item else none)
      with
    | none => .error .cantFindItem
    | some (item, count) =>
      let price := (s.buyback slot).price
      if !hasEnoughMoney s.money price then .error .notEnoughMoney
      else
        match canStoreItem W s.bags item (nullBag, nullSlot) count false with
        | .error res => .error (.equip res)
        | .ok dest =>
          let s := { s with money := (modifyMoney s.money (-price.toInt32)).1 }
          let s := s.removeItemFromBuyBackSlot slot
          let r := storeItem W item s.next s.bags dest
          .ok { s with next := r.1, bags := r.2 }

/-! ### What a sale should do -/

/-- What a player has always: item objects apart, stacks within their maximum, and a current buyback
slot. -/
structure Customer.Valid (s : Customer) : Prop where
  distinct : Distinct s.next s.bags
  stacked : Stacked W s.bags
  current : buybackSlotStart ≤ s.currentBuybackSlot ∧ s.currentBuybackSlot < buybackSlotEnd

/-- Buying back from a slot with enough space gives the items and the money of an earlier state. -/
def Restores (v : Creature) (s s' : Customer) (slot : ℕ) (item : Item) (n : ℕ) : Prop :=
  ∀ dest, canStoreItem W s'.bags item (nullBag, nullSlot) n false = .ok dest →
    ∃ s'', handleBuybackItem W v s' slot = .ok s'' ∧ s''.money = s.money ∧
      ∀ e, unitsOfEntry e s''.bags = unitsOfEntry e s.bags

/-- A sale of `n` units of a stack: they leave the stack and nothing else, the money grows by their
price, and a buyback slot holds them at that price, from which they can be bought back. -/
structure Sold (v : Creature) (s s' : Customer) (c : Cell Loc Item) (n : ℕ) : Prop where
  stack : ∀ l, s'.bags.find l =
    if l = c.loc then (if n < c.count then some (c.withCount (c.count - n)) else none)
    else s.bags.find l
  money : s'.money.toNat = s.money.toNat + (v.sellPrice c.item.entry).toNat * n
  buyback : ∃ slot item, buybackSlotStart ≤ slot ∧ slot < buybackSlotEnd ∧
    (s'.buyback slot).item = some (item, n) ∧ item.entry = c.item.entry ∧
    (s'.buyback slot).price.toNat = (v.sellPrice c.item.entry).toNat * n ∧
    Restores W v s s' slot item n

variable {W : World} {v : Creature} {s s' : Customer} {pos : Pos} {c : Cell Loc Item} {n : ℕ}
  {etime : UInt32}

/-! ### Finding the stack -/

theorem getItemByGuid_eq_some {inv : Bags} {guid : ℕ}
    (h : getItemByGuid W inv guid = some (pos, c)) : getItemByPos W inv pos = some c := by
  obtain ⟨pos', -, hpos⟩ := List.exists_of_findSome?_eq_some h
  cases hget : getItemByPos W inv pos' with
  | none => simp [hget] at hpos
  | some c' =>
    simp only [hget, Option.ite_none_right_eq_some, Option.some.injEq, Prod.mk.injEq] at hpos
    obtain ⟨-, rfl, rfl⟩ := hpos
    exact hget

theorem find_of_getItemByPos {inv : Bags} (h : getItemByPos W inv pos = some c) :
    inv.find c.loc = some c := by
  unfold getItemByPos at h
  obtain ⟨l, -, hl⟩ := Option.bind_eq_some_iff.1 h
  rw [(Table.of_find hl).2]
  exact hl

theorem handleSellItem_ok {itemguid : ℕ} {count : UInt32}
    (h : handleSellItem W v s itemguid count etime = .ok s') :
    ∃ pos c, getItemByGuid W s.bags itemguid = some (pos, c) ∧ v.canInteract = true ∧
      0 < v.sellPrice c.item.entry ∧ ¬ (count ≠ 0 ∧ c.count < count.toNat) ∧
      sell W v s pos c (if count = 0 then c.count else count.toNat) etime = .ok s' := by
  unfold handleSellItem at h
  by_cases hzero : itemguid = 0
  · rw [if_pos hzero] at h
    cases h
  by_cases hcan : (!v.canInteract) = true
  · rw [if_neg hzero, if_pos hcan] at h
    cases h
  rw [if_neg hzero, if_neg hcan] at h
  cases hget : getItemByGuid W s.bags itemguid with
  | none => simp [hget] at h
  | some x =>
    obtain ⟨pos, c⟩ := x
    simp only [hget] at h
    generalize hn : (if count = 0 then c.count else count.toNat) = n at h
    split_ifs at h with _ _ _ _ hcount hprice
    exact ⟨pos, c, rfl, by simpa using hcan, hprice, hcount, by rw [hn]; exact h⟩

/-! ### Buyback slots -/

theorem oldestFrom_mem (buyback : ℕ → BuybackSlot) {is : List ℕ} {oldestTime : UInt32}
    {oldestSlot : ℕ} :
    oldestFrom buyback is oldestTime oldestSlot = oldestSlot ∨
      oldestFrom buyback is oldestTime oldestSlot ∈ is := by
  induction is generalizing oldestTime oldestSlot with
  | nil => exact .inl rfl
  | cons i is ih =>
    unfold oldestFrom
    split_ifs
    · exact .inl rfl
    · rcases @ih (buyback i).timestamp i with h | h
      · rw [h]
        exact .inr List.mem_cons_self
      · exact .inr (List.mem_cons_of_mem _ h)
    · rcases @ih oldestTime oldestSlot with h | h
      · exact .inl h
      · exact .inr (List.mem_cons_of_mem _ h)

/-- The slot that is taken is a buyback slot. -/
theorem slotForBuyBack_range
    (h : buybackSlotStart ≤ s.currentBuybackSlot ∧ s.currentBuybackSlot < buybackSlotEnd) :
    buybackSlotStart ≤ s.slotForBuyBack ∧ s.slotForBuyBack < buybackSlotEnd := by
  unfold Customer.slotForBuyBack
  split_ifs
  · rcases oldestFrom_mem s.buyback with h | h
    · rw [h]
      decide
    · rw [List.mem_range'_1] at h
      revert h
      generalize oldestFrom _ _ _ _ = k
      intro h
      simp only [buybackSlotStart, buybackSlotEnd] at h ⊢
      omega
  · exact h

theorem removeItemFromBuyBackSlot_bags (s : Customer) (slot : ℕ) :
    (s.removeItemFromBuyBackSlot slot).bags = s.bags ∧
      (s.removeItemFromBuyBackSlot slot).next = s.next ∧
      (s.removeItemFromBuyBackSlot slot).money = s.money := by
  unfold Customer.removeItemFromBuyBackSlot
  split_ifs <;> exact ⟨rfl, rfl, rfl⟩

theorem addItemToBuyBackSlot_spec (v : Creature) (s : Customer) (item : Item) (count : ℕ)
    (etime : UInt32) :
    let s' := s.addItemToBuyBackSlot v item count etime
    s'.bags = s.bags ∧ s'.next = s.next ∧ s'.money = s.money ∧
      s'.buyback s.slotForBuyBack =
        ⟨some (item, count), v.sellPrice item.entry * UInt32.ofNat count, etime⟩ := by
  obtain ⟨hbags, hnext, hmoney⟩ := removeItemFromBuyBackSlot_bags s s.slotForBuyBack
  exact ⟨hbags, hnext, hmoney, Function.update_self ..⟩

/-! ### The sale -/

/-- What a sale of `n` units does before the money is looked at: the units leave their stack, and some
buyback slot holds an object with them that is not in the bags. -/
structure Moved (W : World) (v : Creature) (s s' : Customer) (c : Cell Loc Item) (n : ℕ) (slot : ℕ)
    (item : Item) : Prop where
  stack : ∀ l, s'.bags.find l =
    if l = c.loc then (if n < c.count then some (c.withCount (c.count - n)) else none)
    else s.bags.find l
  units : ∀ e, unitsOfEntry e s'.bags + (if c.item.entry = e then n else 0) =
    unitsOfEntry e s.bags
  money : s'.money = (modifyMoney s.money (v.sellPrice c.item.entry * UInt32.ofNat n).toInt32).1
  range : buybackSlotStart ≤ slot ∧ slot < buybackSlotEnd
  held : (s'.buyback slot).item = some (item, n)
  entry : item.entry = c.item.entry
  price : (s'.buyback slot).price = v.sellPrice c.item.entry * UInt32.ofNat n
  distinct : Distinct s'.next s'.bags
  stacked : Stacked W s'.bags
  guid_lt : item.guid < s'.next
  absent : ∀ c' ∈ s'.bags, c'.item.guid ≠ item.guid

/-- Putting the sold object into a buyback slot, after it left its stack. -/
theorem moved_of_bags {s₀ : Customer} {item : Item} (hs : s.Valid W)
    (hcurrent : s₀.currentBuybackSlot = s.currentBuybackSlot) (hmoney : s₀.money = s.money)
    (hstack : ∀ l, s₀.bags.find l =
      if l = c.loc then (if n < c.count then some (c.withCount (c.count - n)) else none)
      else s.bags.find l)
    (hunits : ∀ e, unitsOfEntry e s₀.bags + (if c.item.entry = e then n else 0) =
      unitsOfEntry e s.bags)
    (hentry : item.entry = c.item.entry) (hdistinct : Distinct s₀.next s₀.bags)
    (hstacked : Stacked W s₀.bags) (hlt : item.guid < s₀.next)
    (habsent : ∀ c' ∈ s₀.bags, c'.item.guid ≠ item.guid) :
    let s' := s₀.addItemToBuyBackSlot v item n etime
    Moved W v s { s' with
      money := (modifyMoney s'.money (v.sellPrice c.item.entry * UInt32.ofNat n).toInt32).1 }
      c n s₀.slotForBuyBack item := by
  obtain ⟨hbags, hnext, hmoney', hslot⟩ := addItemToBuyBackSlot_spec v s₀ item n etime
  have hrange := slotForBuyBack_range (s := s₀) (by rw [hcurrent]; exact hs.current)
  intro s'
  exact
    { stack := fun l => (congrArg (fun b : Bags => b.find l) hbags).trans (hstack l)
      units := fun e => by rw [← hunits e, ← hbags]
      money := by rw [← hmoney, ← hmoney']
      range := hrange
      held := congrArg BuybackSlot.item hslot
      entry := hentry
      price := (congrArg BuybackSlot.price hslot).trans (by rw [hentry])
      distinct := by
        show Distinct s'.next s'.bags
        rw [hbags, hnext]
        exact hdistinct
      stacked := by
        show Stacked W s'.bags
        rw [hbags]
        exact hstacked
      guid_lt := hlt.trans_eq hnext.symm
      absent := fun c' hc' => habsent c' (hbags ▸ hc') }

theorem sell_moved (hs : s.Valid W) (hpos : getItemByPos W s.bags pos = some c) (hn : 0 < n)
    (hle : n ≤ c.count) (h : sell W v s pos c n etime = .ok s') :
    ∃ slot item, Moved W v s s' c n slot item := by
  have hc := find_of_getItemByPos hpos
  have hmem := (Table.of_find hc).1
  unfold sell at h
  split_ifs at h with hlt
  · have hclone : cloneItem W c.item n s.next =
        some (⟨s.next, c.item.entry, false, []⟩, n) := by
      unfold cloneItem
      rw [if_neg (by omega), min_eq_left (hle.trans (hs.stacked c hmem).2)]
    simp only [hclone, Except.ok.injEq] at h
    subst h
    refine ⟨_, _, moved_of_bags hs rfl rfl (fun l => ?_) (fun e => ?_) rfl ?_ ?_
      (Nat.lt_succ_self s.next) ?_⟩
    · rw [Stock.find_setCount, hc, if_pos hlt]
      rfl
    · have hunits := Stock.units_take (p := fun i => decide (i.entry = e)) hc hle
      simpa [unitsOfEntry] using hunits
    · exact hs.distinct.setCount.mono (Nat.le_succ _)
    · refine hs.stacked.setCount fun c' hc' => ?_
      obtain rfl := Option.some.inj (hc.symm.trans hc')
      exact ⟨by omega, (Nat.sub_le _ _).trans (hs.stacked c hmem).2⟩
    · exact (Stock.forall_item_setCount (P := fun i : Item => i.guid ≠ s.next)).2 fun c' hc' =>
        (hs.distinct.lt c' hc').ne
  · obtain rfl : n = c.count := by omega
    have hremove : removeItem W s.bags pos = s.bags.erase c.loc := by
      unfold removeItem
      rw [hpos]
    simp only [hremove, Except.ok.injEq] at h
    subst h
    refine ⟨_, _, moved_of_bags hs rfl rfl (fun l => ?_) (fun e => ?_) rfl ?_ ?_
      (hs.distinct.lt c hmem) ?_⟩
    · rw [Table.find_erase, if_neg hlt]
    · have hunits := Stock.units_erase (p := fun i => decide (i.entry = e)) hc
      simpa [unitsOfEntry, Stock.unitsOf] using hunits
    · exact hs.distinct.erase _
    · exact hs.stacked.erase _
    · intro c' hc' hguid
      obtain ⟨hc', hne⟩ := Table.mem_erase.1 hc'
      exact hne (congrArg Cell.loc (hs.distinct.eq_of_id hc' hmem hguid))

/-! ### Buying back -/

theorem unitsOfEntry_storeItem {inv : Bags} {item : Item} {next : ℕ} {dest : List (Pos × ℕ)}
    (hn : 0 < n) (hd : Distinct next inv) (hs : Stacked W inv) (hlt : item.guid < next)
    (habsent : ∀ c' ∈ inv, c'.item.guid ≠ item.guid)
    (hdest : canStoreItem W inv item (nullBag, nullSlot) n false = .ok dest) (e : ℕ) :
    unitsOfEntry e (storeItem W item next inv dest).2 =
      unitsOfEntry e inv + if item.entry = e then n else 0 := by
  have hin : NotInside W inv item (nullBag, nullSlot) := by
    intro b hb
    have hnone : getBagByPos W inv nullBag = none := rfl
    rw [hnone] at hb
    cases hb
  have hplan := canStoreItem_ok hin hn hdest
  have hlift : Lifted item inv inv := Stock.without_of_forall_ne habsent
  exact (storeItem_spec hlift hd hd hs hlt hplan).units e

/-- What a buying back does that is not refused. -/
theorem handleBuybackItem_of_canStoreItem {slot : ℕ} {item : Item} {dest : List (Pos × ℕ)}
    (hcan : v.canInteract = true) (hrange : buybackSlotStart ≤ slot ∧ slot < buybackSlotEnd)
    (hheld : (s.buyback slot).item = some (item, n))
    (hmoney : (s.buyback slot).price.toNat ≤ s.money.toNat)
    (hdest : canStoreItem W s.bags item (nullBag, nullSlot) n false = .ok dest) :
    ∃ s', handleBuybackItem W v s slot = .ok s' ∧
      s'.money = (modifyMoney s.money (-(s.buyback slot).price.toInt32)).1 ∧
      s'.bags = (storeItem W item s.next s.bags dest).2 := by
  have hhas : hasEnoughMoney s.money (s.buyback slot).price = true := hasEnoughMoney_iff.2 hmoney
  obtain ⟨hbags, hnext, hmoney'⟩ := removeItemFromBuyBackSlot_bags
    { s with money := (modifyMoney s.money (-(s.buyback slot).price.toInt32)).1 } slot
  unfold handleBuybackItem
  rw [if_neg (by simp [hcan]), if_pos hrange]
  simp only [hheld, hhas, Bool.not_true, Bool.false_eq_true, if_false, hdest, Except.ok.injEq,
    exists_eq_left']
  refine ⟨hmoney', ?_⟩
  show (storeItem W item _ _ dest).2 = _
  rw [hbags, hnext]

/-- After an exact credit that a debit can take back, the sale is undone from the buyback slot. -/
theorem restores_of_moved {slot : ℕ} {item : Item} (h : Moved W v s s' c n slot item)
    (hn : 0 < n) (hcan : v.canInteract = true)
    (hmoney : s'.money.toNat = s.money.toNat + (s'.buyback slot).price.toNat)
    (hprice : (s'.buyback slot).price.toNat < 2 ^ 31) : Restores W v s s' slot item n := by
  intro dest hdest
  have hle : (s'.buyback slot).price.toNat ≤ s'.money.toNat := by omega
  obtain ⟨s'', hback, hmoney'', hbags⟩ :=
    handleBuybackItem_of_canStoreItem hcan h.range h.held hle hdest
  refine ⟨s'', hback, ?_, fun e => ?_⟩
  · have hdebit := (modifyMoney_debit hprice.le hle).1
    rw [← hmoney''] at hdebit
    apply UInt32.toNat_inj.1
    omega
  · rw [hbags, unitsOfEntry_storeItem hn h.distinct h.stacked h.guid_lt h.absent hdest, h.entry]
    exact h.units e

theorem toNat_price (p : UInt32) (n : ℕ) :
    (p * UInt32.ofNat n).toNat = p.toNat * n % 2 ^ 32 := by
  rw [UInt32.toNat_mul, UInt32.toNat_ofNat', Nat.mul_mod_mod]

/-- After the units moved, the sale is as it should be if and only if the credit is exact. -/
theorem sold_iff_of_moved {slot : ℕ} {item : Item} (h : Moved W v s s' c n slot item)
    (hn : 0 < n) (hcan : v.canInteract = true) (hprice : 0 < v.sellPrice c.item.entry) :
    Sold W v s s' c n ↔
      s.money.toNat + (v.sellPrice c.item.entry).toNat * n < 2147483646 ∨
        (v.sellPrice c.item.entry).toNat * n = 2 ^ 31 - 1 ∧
          s.money.toNat + (v.sellPrice c.item.entry).toNat * n < 2 ^ 32 := by
  have hp : 0 < (v.sellPrice c.item.entry).toNat := UInt32.lt_iff_toNat_lt.1 hprice
  have htotal : 0 < (v.sellPrice c.item.entry).toNat * n := Nat.mul_pos hp hn
  have hx := toNat_price (v.sellPrice c.item.entry) n
  have hcredit : ∀ hlt : (v.sellPrice c.item.entry).toNat * n < 2 ^ 32,
      (s'.money.toNat = s.money.toNat + (v.sellPrice c.item.entry).toNat * n ↔
        s.money.toNat + (v.sellPrice c.item.entry).toNat * n < 2147483646 ∨
        (v.sellPrice c.item.entry).toNat * n = 2 ^ 31 - 1 ∧
          s.money.toNat + (v.sellPrice c.item.entry).toNat * n < 2 ^ 32) := by
    intro hlt
    rw [Nat.mod_eq_of_lt hlt] at hx
    rw [h.money, ← hx]
    exact modifyMoney_gain_iff (by omega)
  constructor
  · intro hsold
    have hlt := s'.money.toNat_lt
    have hmoney := hsold.money
    exact (hcredit (by omega)).1 hmoney
  · intro hcond
    have hlt : (v.sellPrice c.item.entry).toNat * n < 2 ^ 31 := by omega
    have hmoney := (hcredit (by omega)).2 hcond
    rw [Nat.mod_eq_of_lt (by omega)] at hx
    have hheld : (s'.buyback slot).price.toNat = (v.sellPrice c.item.entry).toNat * n := by
      rw [h.price, hx]
    exact
      { stack := h.stack
        money := hmoney
        buyback := ⟨slot, item, h.range.1, h.range.2, h.held, h.entry, hheld,
          restores_of_moved h hn hcan (by omega) (by omega)⟩ }

/-- **Main result.** A sale keeps the value of what is sold, or leaves everything as it was, exactly
when the balance with the price stays below `MAX_MONEY_AMOUNT`, up to the one price for which the
comparison with it wraps. -/
theorem vendor_sale_conserves_iff (hs : s.Valid W) {itemguid : ℕ} {count : UInt32}
    (h : handleSellItem W v s itemguid count etime = .ok s') :
    ∃ pos c, getItemByGuid W s.bags itemguid = some (pos, c) ∧
      let n := if count = 0 then c.count else count.toNat
      let total := (v.sellPrice c.item.entry).toNat * n
      ((s' = s ∨ Sold W v s s' c n) ↔
        s.money.toNat + total < 2147483646 ∨
          total = 2 ^ 31 - 1 ∧ s.money.toNat + total < 2 ^ 32) := by
  obtain ⟨pos, c, hget, hcan, hprice, hcount, hsell⟩ := handleSellItem_ok h
  refine ⟨pos, c, hget, ?_⟩
  intro n total
  have hpos := getItemByGuid_eq_some hget
  have hc := find_of_getItemByPos hpos
  have hstack := (hs.stacked c (Table.of_find hc).1).1
  have hn : 0 < n ∧ n ≤ c.count := by
    show 0 < (if count = 0 then _ else _) ∧ (if count = 0 then _ else _) ≤ c.count
    split_ifs with hzero
    · exact ⟨hstack, le_rfl⟩
    · have : 0 < count.toNat := Nat.pos_of_ne_zero fun h0 => hzero (UInt32.toNat_inj.1 h0)
      exact ⟨this, not_lt.1 fun hlt => hcount ⟨hzero, hlt⟩⟩
  obtain ⟨slot, item, hmoved⟩ := sell_moved hs hpos hn.1 hn.2 hsell
  have hne : s' ≠ s := by
    rintro rfl
    have hfind := hmoved.stack c.loc
    rw [if_pos rfl, hc] at hfind
    split_ifs at hfind with hlt
    have hcounts := congrArg Cell.count (Option.some.inj hfind)
    simp only [Cell.withCount] at hcounts
    omega
  rw [or_iff_right hne]
  exact sold_iff_of_moved hmoved hn.1 hcan hprice

/-- Every entry is a trade good that stacks to 20. -/
def tradeGoods : World where
  template := fun _ =>
    { itemClass := .other 7, subClass := 0, inventoryType := .nonEquip, bagFamily := 0,
      stackable := 20, maxCount := 0, itemLimitCategory := 0, containerSlots := 0,
      containerSlots_le := noSlots_le, gemProperties := false, socketColor := false }
  limitCategory := fun _ => none
  isBindedNotWith := fun _ => false

/-- A vendor who pays ten for everything that is the player's own. -/
def payTen : Creature := ⟨true, fun _ => 10, fun _ => true, fun _ => false, fun _ => false⟩

/-- A player with this money and three units of one entry in the backpack. -/
def threeUnits (money : UInt32) : Customer where
  money := money
  bags := (Table.empty Cell.loc).insert ⟨.slot inventorySlotItemStart, ⟨1, 20, false, []⟩, 3⟩
  next := 2
  buyback := fun _ => .empty
  currentBuybackSlot := buybackSlotStart

theorem threeUnits_valid : (threeUnits 0).Valid tradeGoods where
  distinct := ⟨by decide, by decide⟩
  stacked := by
    unfold Stacked Stock.Bounded
    decide
  current := ⟨le_rfl, by decide⟩

/-- Two of the three units are sold for twenty. -/
theorem vendor_sale_conserves_two : ∃ s',
    handleSellItem tradeGoods payTen (threeUnits 0) 1 2 0 = .ok s' ∧
      ∃ pos c, getItemByGuid tradeGoods (threeUnits 0).bags 1 = some (pos, c) ∧
        (s' = threeUnits 0 ∨ Sold tradeGoods payTen (threeUnits 0) s' c 2) := by
  refine ⟨_, rfl, ?_⟩
  have hsell : handleSellItem tradeGoods payTen (threeUnits 0) 1 2 0 = .ok _ := rfl
  obtain ⟨pos, c, hget, hiff⟩ := vendor_sale_conserves_iff threeUnits_valid hsell
  exact ⟨pos, c, hget, hiff.2 (.inl (show 0 + 10 * 2 < 2147483646 by decide))⟩

/-- A rich player sells all three units and gets nothing. -/
theorem rich_sale_not_conserved : ∃ s' pos c,
    handleSellItem tradeGoods payTen (threeUnits 2147483640) 1 0 0 = .ok s' ∧
      getItemByGuid tradeGoods (threeUnits 2147483640).bags 1 = some (pos, c) ∧ c.count = 3 ∧
      ¬ (s' = threeUnits 2147483640 ∨ Sold tradeGoods payTen (threeUnits 2147483640) s' c 3) := by
  refine ⟨_, _, _, rfl, rfl, rfl, ?_⟩
  rintro (heq | hsold)
  · have hbags := congrArg (fun s : Customer => s.bags.toList.length) heq
    revert hbags
    decide
  · have hmoney := hsold.money
    revert hmoney
    decide

end FaceCore.Storage.Vendor
