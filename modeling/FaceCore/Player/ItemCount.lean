import FaceCore.Lib.Drain
import FaceCore.Player.Refund

/-!
# Counting and destroying units

`Player::HasItemCount` and `Player::DestroyItemCount`: both go over the slots and bags of a player,
each in an order of its own, and both pass over what is being traded.

* `hasItemCount`, `destroyItemCount`: the functions, with their sums of 32 bits;
* `DestroysRight`: what the second should do by the first;
* `NoWrap`: the sums stay below `2 ^ 32` as long as units are missing;
* `destroyItemCount_iff`: that is exactly when it does.

What is sent, and the check of quests that need the item, is left out.
-/

namespace FaceCore.Storage

/-- `EQUIPMENT_SLOT_START`. -/
def equipmentSlotStart : ℕ := 0

section

variable (W : World) (isInTrade : Item → Bool) (inv : Bags) (entry count : ℕ)

/-! ### HasItemCount -/

/-- The item is of the entry, and not in a trade. -/
def counts (i : Item) : Bool := i.entry = entry && !isInTrade i

/-- The slots of the bags at the bag positions from `a` on and before `b`. -/
def slotsOfBags (a b : ℕ) : List Pos := (List.range' a (b - a)).flatMap (bagSlots W inv)

/-- The positions that `HasItemCount` looks at outside the bank. -/
def inventorySlots : List Pos :=
  slots equipmentSlotStart inventorySlotItemEnd ++ slots keyringSlotStart currencyTokenSlotEnd ++
    slotsOfBags W inv inventorySlotBagStart inventorySlotBagEnd

/-- The positions that it looks at in the bank. -/
def bankSlots : List Pos :=
  slots bankSlotItemStart bankSlotItemEnd ++ slotsOfBags W inv bankSlotBagStart bankSlotBagEnd

/-- The loops of `HasItemCount` over their positions. -/
def hasItemCountAt : List Pos → ℕ → Bool
  | [], _ => false
  | pos :: ps, tempcount =>
    match getItemByPos W inv pos with
    | none => hasItemCountAt ps tempcount
    | some pItem =>
      if counts isInTrade entry pItem.item then
        let tempcount := (tempcount + pItem.count) % 2 ^ 32
        if count ≤ tempcount then true else hasItemCountAt ps tempcount
      else hasItemCountAt ps tempcount

/-- `Player::HasItemCount`. -/
def hasItemCount (inBankAlso : Bool) : Bool :=
  hasItemCountAt W isInTrade inv entry count
    (inventorySlots W inv ++ if inBankAlso then bankSlots W inv else []) 0

/-! ### DestroyItemCount -/

/-- The state of `DestroyItemCount`: the items, the units destroyed so far, and whether the function
returned. -/
structure Removal where
  inv : Bags
  remcount : ℕ
  finished : Bool

/-- The body of the loops of `DestroyItemCount` at a position. `canUnequip` is asked before a whole
stack is destroyed. -/
def destroyAt (depth : ℕ) (canUnequip : Bags → Pos → Bool) (s : Removal) (pos : Pos) : Removal :=
  if s.finished then s
  else
    match getItemByPos W s.inv pos with
    | none => s
    | some item =>
      if counts isInTrade entry item.item then
        if (item.count + s.remcount) % 2 ^ 32 ≤ count then
          if canUnequip s.inv pos then
            let remcount := (s.remcount + item.count) % 2 ^ 32
            ⟨Refund.destroyItem W (depth + 1) s.inv pos, remcount, count ≤ remcount⟩
          else s
        else
          ⟨s.inv.setCount item.loc ((item.count + 2 ^ 32 - count + s.remcount) % 2 ^ 32), s.remcount,
            true⟩
      else s

/-- A loop over slots. -/
def destroyInSlots (depth : ℕ) (a b : ℕ) (s : Removal) : Removal :=
  (slots a b).foldl (destroyAt W isInTrade entry count depth fun _ _ => true) s

/-- A loop over bags. -/
def destroyInBags (depth : ℕ) (a b : ℕ) (s : Removal) : Removal :=
  (List.range' a (b - a)).foldl (fun s bag =>
    (bagSlots W s.inv bag).foldl (destroyAt W isInTrade entry count depth fun _ _ => true) s) s

/-- `Player::DestroyItemCount`; `canUnequipItem` answers `CanUnequipItem(pos, false)`, and `depth`
bounds how deep bags are nested. -/
def destroyItemCount (depth : ℕ) (canUnequipItem : Bags → Pos → Bool) (unequipCheck : Bool) : Bags :=
  let destroyInSlots := destroyInSlots W isInTrade entry count depth
  let destroyInBags := destroyInBags W isInTrade entry count depth
  -- in inventory
  let s := destroyInSlots inventorySlotItemStart inventorySlotItemEnd ⟨inv, 0, false⟩
  let s := destroyInSlots keyringSlotStart currencyTokenSlotEnd s
  -- in inventory bags
  let s := destroyInBags inventorySlotBagStart inventorySlotBagEnd s
  -- in equipment and bag list
  let s := (slots equipmentSlotStart inventorySlotBagEnd).foldl
    (destroyAt W isInTrade entry count depth fun inv pos => !unequipCheck || canUnequipItem inv pos) s
  -- in bank
  let s := destroyInSlots bankSlotItemStart bankSlotItemEnd s
  -- in bank bags
  (destroyInBags bankSlotBagStart bankSlotBagEnd s).inv

/-! ### What it should do -/

/-- The stack at a position, if its units are counted. -/
def countedAt (pos : Pos) : Option (Cell Loc Item) :=
  (getItemByPos W inv pos).filter fun c => counts isInTrade entry c.item

/-- The sizes of the counted stacks at some positions. -/
def stackSizesAt (ps : List Pos) : List ℕ :=
  ps.filterMap fun pos => (countedAt W isInTrade inv entry pos).map Cell.count

/-- The number of units that `HasItemCount` counts. -/
def countedUnits (inBankAlso : Bool) : ℕ :=
  (stackSizesAt W isInTrade inv entry
    (inventorySlots W inv ++ if inBankAlso then bankSlots W inv else [])).sum

/-- The stacks at the positions of the bank are as before. -/
def BankUntouched (inv' : Bags) : Prop :=
  ∀ pos ∈ bankSlots W inv, ∀ c, getItemByPos W inv pos = some c → inv'.find c.loc = some c

/-- What `DestroyItemCount` makes of the items, by what `HasItemCount` counts. -/
structure DestroysRight (inv' : Bags) : Prop where
  /-- As many units disappear as are asked for and counted. -/
  units : unitsOfEntry entry inv' + min count (countedUnits W isInTrade inv entry true) =
    unitsOfEntry entry inv
  /-- Units are taken from the bank only when everything outside is used up. -/
  bank : BankUntouched W inv inv' ∨ ∀ pos ∈ inventorySlots W inv, ∀ c,
    countedAt W isInTrade inv entry pos = some c → inv'.find c.loc = none
  /-- Other items, and items in a trade, are left alone. -/
  others : ∀ c ∈ inv, counts isInTrade entry c.item = false → inv'.find c.loc = some c
  /-- Nothing is added. -/
  shrunk : ∀ c ∈ inv', ∃ c₀ ∈ inv, c = c₀.withCount c.count ∧ c.count ≤ c₀.count
  /-- What `HasItemCount` promises outside the bank is there. -/
  afterHas : hasItemCount W isInTrade inv entry count false →
    unitsOfEntry entry inv' + count = unitsOfEntry entry inv ∧ BankUntouched W inv inv'

/-- The positions outside the bank in the order of `DestroyItemCount`. -/
def unequipSlots : List Pos :=
  slots inventorySlotItemStart inventorySlotItemEnd ++ slots keyringSlotStart currencyTokenSlotEnd ++
    slotsOfBags W inv inventorySlotBagStart inventorySlotBagEnd ++
    slots equipmentSlotStart inventorySlotBagEnd

/-- All positions in the order of `DestroyItemCount`. -/
def destroySlots : List Pos := unequipSlots W inv ++ bankSlots W inv

end

/-- As long as fewer than `n` units are found, the next stack does not bring them to `2 ^ 32`. -/
def NoWrap (n : ℕ) : ℕ → List ℕ → Prop
  | _, [] => True
  | found, k :: ks => found + k < 2 ^ 32 ∧ (found + k < n → NoWrap n (found + k) ks)

/-- No stack of the entry is a bag with something in it. -/
def NoFullBag (W : World) (entry : ℕ) (inv : Bags) : Prop :=
  ∀ c ∈ inv, c.item.entry = entry → isNotEmptyBag W inv c.item = false

variable {W : World} {isInTrade : Item → Bool} {inv inv' : Bags} {entry n depth : ℕ} {s : Removal}
  {pos : Pos} {l l' : Loc} {c : Cell Loc Item} {ps : List Pos} {ls : List Loc}

theorem entry_of_counts {i : Item} (h : counts isInTrade entry i = true) : i.entry = entry := by
  unfold counts at h
  rw [Bool.and_eq_true, decide_eq_true_eq] at h
  exact h.1

/-! ### The loops along places -/

/-- The body of the loops at a place. -/
def takeAt (isInTrade : Item → Bool) (entry n : ℕ) (s : Removal) (l : Loc) : Removal :=
  if s.finished then s
  else
    match s.inv.stackAt (counts isInTrade entry) l with
    | none => s
    | some c =>
      if (c.count + s.remcount) % 2 ^ 32 ≤ n then
        ⟨s.inv.erase l, (s.remcount + c.count) % 2 ^ 32, n ≤ (s.remcount + c.count) % 2 ^ 32⟩
      else
        ⟨s.inv.setCount l ((c.count + 2 ^ 32 - n + s.remcount) % 2 ^ 32), s.remcount, true⟩

theorem find_takeAt (h : l' ≠ l) : (takeAt isInTrade entry n s l).inv.find l' = s.inv.find l' := by
  unfold takeAt
  split_ifs
  · rfl
  · cases s.inv.stackAt (counts isInTrade entry) l with
    | none => rfl
    | some c =>
      dsimp only
      split_ifs
      · rw [Table.find_erase, if_neg h]
      · rw [Stock.find_setCount, if_neg h]

/-- A bag with nothing in it stays so when the items get fewer. -/
theorem NoFullBag.mono (h : NoFullBag W entry inv)
    (hfind : ∀ l, (inv'.find l).isSome → (inv.find l).isSome)
    (hitem : ∀ c ∈ inv', ∃ c₀ ∈ inv, c₀.item = c.item) : NoFullBag W entry inv' := by
  intro c hc hentry
  obtain ⟨c₀, hc₀, heq⟩ := hitem c hc
  have hempty := h c₀ hc₀ (heq ▸ hentry)
  rw [heq] at hempty
  unfold isNotEmptyBag at hempty ⊢
  rw [Bool.and_eq_false_iff, List.any_eq_false] at hempty ⊢
  exact hempty.imp_right fun hnone j hj hsome => hnone j hj (hfind _ hsome)

theorem NoFullBag.takeAt (h : NoFullBag W entry s.inv) :
    NoFullBag W entry (takeAt isInTrade entry n s l).inv := by
  unfold Storage.takeAt
  split_ifs
  · exact h
  · cases s.inv.stackAt (counts isInTrade entry) l with
    | none => exact h
    | some c =>
      dsimp only
      split_ifs
      · refine h.mono (fun l' hl' => ?_) fun c hc => ⟨c, (Table.mem_erase.1 hc).1, rfl⟩
        rw [Table.find_erase] at hl'
        split_ifs at hl'
        · cases hl'
        · exact hl'
      · refine h.mono (fun l' hl' => ?_) ?_
        · rw [Stock.find_setCount] at hl'
          split_ifs at hl' with heq
          · rw [heq]
            simpa using hl'
          · exact hl'
        · exact Stock.forall_item_setCount (P := fun i => ∃ c₀ ∈ s.inv, c₀.item = i).2
            fun c hc => ⟨c, hc, rfl⟩

theorem destroyAt_of_locate (hl : locate W s.inv pos = some l) (hempty : NoFullBag W entry s.inv) :
    destroyAt W isInTrade entry n depth (fun _ _ => true) s pos = takeAt isInTrade entry n s l := by
  unfold destroyAt takeAt Stock.stackAt
  rw [getItemByPos_of_locate hl]
  by_cases hfin : s.finished = true
  · rw [if_pos hfin, if_pos hfin]
  · rw [if_neg hfin, if_neg hfin]
    cases hc : s.inv.find l with
    | none => rfl
    | some c =>
      obtain ⟨hmem, hloc⟩ := Table.of_find hc
      by_cases hcounts : counts isInTrade entry c.item = true
      · have hentry := entry_of_counts hcounts
        have hdestroy : Refund.destroyItem W (depth + 1) s.inv pos = s.inv.erase l := by
          unfold Refund.destroyItem
          rw [getItemByPos_of_locate hl, hc]
          simp only [hempty c hmem hentry, Bool.false_eq_true, if_false, hloc]
        simp [Option.filter_some, hcounts, hdestroy, hloc]
      · simp [Option.filter_some, hcounts]

theorem destroyAt_of_none (hl : locate W s.inv pos = none) :
    destroyAt W isInTrade entry n depth (fun _ _ => true) s pos = s := by
  unfold destroyAt getItemByPos
  rw [hl]
  split_ifs <;> rfl

/-- The loops go along the places of the positions, if these stay the same while they run. -/
theorem foldl_destroyAt (hempty : NoFullBag W entry s.inv)
    (hloc : ∀ t : Bags, (∀ l, l ∉ ps.filterMap (locate W inv) → t.find l = s.inv.find l) →
      ∀ pos ∈ ps, locate W t pos = locate W inv pos) :
    ps.foldl (destroyAt W isInTrade entry n depth fun _ _ => true) s =
      (ps.filterMap (locate W inv)).foldl (takeAt isInTrade entry n) s := by
  induction ps generalizing s with
  | nil => rfl
  | cons pos ps ih =>
    have hhead := hloc s.inv (fun l _ => rfl) pos List.mem_cons_self
    rw [List.foldl_cons]
    cases hl : locate W inv pos with
    | none =>
      rw [hl] at hhead
      rw [List.filterMap_cons_none hl, destroyAt_of_none hhead]
      refine ih hempty fun t ht pos' hpos' => hloc t ?_ pos' (List.mem_cons_of_mem pos hpos')
      rwa [List.filterMap_cons_none hl]
    | some l =>
      rw [hl] at hhead
      rw [List.filterMap_cons_some hl, List.foldl_cons, destroyAt_of_locate hhead hempty]
      refine ih hempty.takeAt fun t ht pos' hpos' => hloc t ?_ pos' (List.mem_cons_of_mem pos hpos')
      intro l' hl'
      rw [List.filterMap_cons_some hl, List.mem_cons, not_or] at hl'
      rw [ht l' hl'.2, find_takeAt hl'.1]

theorem find_foldl_takeAt (h : l ∉ ls) :
    (ls.foldl (takeAt isInTrade entry n) s).inv.find l = s.inv.find l := by
  induction ls generalizing s with
  | nil => rfl
  | cons l' ls ih =>
    rw [List.mem_cons, not_or] at h
    rw [List.foldl_cons, ih h.2, find_takeAt h.1]

theorem NoFullBag.foldl_takeAt (h : NoFullBag W entry s.inv) :
    NoFullBag W entry (ls.foldl (Storage.takeAt isInTrade entry n) s).inv := by
  induction ls generalizing s with
  | nil => exact h
  | cons l ls ih => exact ih h.takeAt

/-! ### The places do not move -/

theorem locate_slots {a b : ℕ} (h : pos ∈ slots a b) : locate W inv' pos = locate W inv pos := by
  unfold locate
  rw [(mem_slots h).1, getBagByPos_bag0, getBagByPos_bag0]

theorem getBagByPos_of_find {bag : ℕ} (h : inv'.find (.slot bag) = inv.find (.slot bag)) :
    getBagByPos W inv' bag = getBagByPos W inv bag := by
  unfold getBagByPos
  rw [h]

theorem bagSlots_of_find {bag : ℕ} (h : inv'.find (.slot bag) = inv.find (.slot bag)) :
    bagSlots W inv' bag = bagSlots W inv bag := by
  unfold bagSlots
  rw [getBagByPos_of_find h]

theorem mem_slotsOfBags {a b : ℕ} (h : pos ∈ slotsOfBags W inv a b) :
    a ≤ pos.1 ∧ pos.1 < b ∧ pos ∈ bagSlots W inv pos.1 := by
  obtain ⟨bag, hbag, hpos⟩ := List.mem_flatMap.1 h
  obtain ⟨rfl, -⟩ := mem_bagSlots_iff.1 hpos
  have hrange := List.mem_range'_1.1 hbag
  exact ⟨hrange.1, by omega, hpos⟩

theorem locate_bagSlots {bag j : ℕ} (h : pos ∈ bagSlots W inv bag) :
    locate W inv pos ≠ some (.slot j) := by
  obtain ⟨rfl, b, hb, hlt⟩ := mem_bagSlots_iff.1 h
  rw [locate_bag hb hlt]
  exact nofun

theorem slot_of_mem_slots {a b j : ℕ}
    (h : Loc.slot j ∈ (slots a b).filterMap (locate W inv)) : a ≤ j ∧ j < b := by
  obtain ⟨pos, hpos, hl⟩ := List.mem_filterMap.1 h
  obtain ⟨hbag, hle, hlt⟩ := mem_slots hpos
  rcases locate_eq_some.1 hl with ⟨-, -, heq⟩ | ⟨b, -, -, heq⟩
  · rw [Loc.slot.inj heq]
    exact ⟨hle, hlt⟩
  · cases heq

theorem slot_notMem_slotsOfBags {a b j : ℕ} :
    Loc.slot j ∉ (slotsOfBags W inv a b).filterMap (locate W inv) := by
  intro h
  obtain ⟨pos, hpos, hl⟩ := List.mem_filterMap.1 h
  exact locate_bagSlots (mem_slotsOfBags hpos).2.2 hl

/-! ### The function goes along the places -/

theorem destroyInSlots_eq (inv : Bags) {a b : ℕ} (hempty : NoFullBag W entry s.inv) :
    destroyInSlots W isInTrade entry n depth a b s =
      ((slots a b).filterMap (locate W inv)).foldl (takeAt isInTrade entry n) s :=
  foldl_destroyAt hempty fun _ _ _ hpos => locate_slots hpos

theorem destroyInBag_eq {bag : ℕ} (hempty : NoFullBag W entry s.inv)
    (hbag : s.inv.find (.slot bag) = inv.find (.slot bag)) :
    (bagSlots W s.inv bag).foldl (destroyAt W isInTrade entry n depth fun _ _ => true) s =
      ((bagSlots W inv bag).filterMap (locate W inv)).foldl (takeAt isInTrade entry n) s := by
  rw [bagSlots_of_find hbag]
  refine foldl_destroyAt hempty fun t ht pos hpos => ?_
  have hfind : t.find (.slot bag) = inv.find (.slot bag) := by
    rw [ht _ fun hmem => ?_, hbag]
    obtain ⟨pos', hpos', hl⟩ := List.mem_filterMap.1 hmem
    exact locate_bagSlots hpos' hl
  unfold locate
  rw [(mem_bagSlots_iff.1 hpos).1, getBagByPos_of_find hfind]

theorem destroyInBags_eq (inv : Bags) {a b : ℕ} (hempty : NoFullBag W entry s.inv)
    (hbags : ∀ bag, a ≤ bag → bag < b → s.inv.find (.slot bag) = inv.find (.slot bag)) :
    destroyInBags W isInTrade entry n depth a b s =
      ((slotsOfBags W inv a b).filterMap (locate W inv)).foldl (takeAt isInTrade entry n) s := by
  have hrange : ∀ bag ∈ List.range' a (b - a),
      s.inv.find (.slot bag) = inv.find (.slot bag) := by
    intro bag hbag
    have hbag := List.mem_range'_1.1 hbag
    exact hbags bag hbag.1 (by omega)
  clear hbags
  unfold destroyInBags slotsOfBags
  generalize List.range' a (b - a) = bags at hrange
  induction bags generalizing s with
  | nil => rfl
  | cons bag bags ih =>
    rw [List.foldl_cons, List.flatMap_cons, List.filterMap_append, List.foldl_append,
      destroyInBag_eq hempty (hrange bag List.mem_cons_self)]
    refine ih hempty.foldl_takeAt fun bag' hbag' => ?_
    rw [find_foldl_takeAt, hrange bag' (List.mem_cons_of_mem bag hbag')]
    intro hmem
    obtain ⟨pos, hpos, hl⟩ := List.mem_filterMap.1 hmem
    exact locate_bagSlots hpos hl

/-- Without the check of what may be unequipped, the function goes along the places of its
positions. -/
theorem destroyItemCount_eq (canUnequipItem : Bags → Pos → Bool) (hempty : NoFullBag W entry inv) :
    destroyItemCount W isInTrade inv entry n depth canUnequipItem false =
      (((destroySlots W inv).filterMap (locate W inv)).foldl (takeAt isInTrade entry n)
        ⟨inv, 0, false⟩).inv := by
  have hequip : ∀ s : Removal, NoFullBag W entry s.inv →
      (slots equipmentSlotStart inventorySlotBagEnd).foldl
        (destroyAt W isInTrade entry n depth fun inv pos => !false || canUnequipItem inv pos) s =
      ((slots equipmentSlotStart inventorySlotBagEnd).filterMap (locate W inv)).foldl
        (takeAt isInTrade entry n) s := fun s hs => destroyInSlots_eq inv hs
  -- the bags lie in slots that the loops before those over the bags do not look at
  have hfind : ∀ (bag : ℕ) (ls : List Loc), Loc.slot bag ∉ ls →
      (ls.foldl (takeAt isInTrade entry n) ⟨inv, 0, false⟩).inv.find (.slot bag) =
        inv.find (.slot bag) := fun bag ls h => find_foldl_takeAt h
  have hclean : ∀ ls : List Loc,
      NoFullBag W entry (ls.foldl (takeAt isInTrade entry n) ⟨inv, 0, false⟩).inv :=
    fun ls => NoFullBag.foldl_takeAt (s := ⟨inv, 0, false⟩) hempty
  unfold destroyItemCount
  dsimp only
  rw [destroyInSlots_eq inv (s := ⟨inv, 0, false⟩) hempty,
    destroyInSlots_eq inv (hclean _), ← List.foldl_append,
    destroyInBags_eq inv (hclean _) fun bag ha hb => hfind bag _ ?_,
    ← List.foldl_append, hequip _ (hclean _), ← List.foldl_append,
    destroyInSlots_eq inv (hclean _), ← List.foldl_append,
    destroyInBags_eq inv (hclean _) fun bag ha hb => hfind bag _ ?_, ← List.foldl_append]
  · simp only [destroySlots, unequipSlots, bankSlots, List.filterMap_append, List.append_assoc]
  · simp only [List.mem_append, not_or]
    have hout : ∀ a b, b ≤ bankSlotBagStart ∨ bankSlotBagEnd ≤ a →
        Loc.slot bag ∉ (slots a b).filterMap (locate W inv) := by
      intro a b hab hmem
      have hrange := slot_of_mem_slots hmem
      omega
    exact ⟨⟨⟨⟨hout _ _ (by decide), hout _ _ (by decide)⟩, slot_notMem_slotsOfBags⟩,
      hout _ _ (by decide)⟩, hout _ _ (by decide)⟩
  · rw [List.mem_append, not_or]
    have hout : ∀ a b, inventorySlotBagEnd ≤ a →
        Loc.slot bag ∉ (slots a b).filterMap (locate W inv) := by
      intro a b hab hmem
      have hrange := slot_of_mem_slots hmem
      omega
    exact ⟨hout _ _ (by decide), hout _ _ (by decide)⟩

/-! ### The places are distinct -/

theorem stackSizesAt_eq : stackSizesAt W isInTrade inv entry ps =
    Stock.stackSizes (counts isInTrade entry) inv (ps.filterMap (locate W inv)) := by
  unfold stackSizesAt Stock.stackSizes
  rw [List.filterMap_filterMap]
  refine List.filterMap_congr fun pos _ => ?_
  unfold countedAt getItemByPos Stock.stackAt
  cases locate W inv pos <;> rfl

theorem slots_append {a b m : ℕ} (ham : a ≤ m) (hmb : m ≤ b) : slots a b = slots a m ++ slots m b := by
  unfold slots
  rw [← List.map_append]
  congr 1
  have hsum : b - a = (m - a) + (b - m) := by omega
  have hstart : a + 1 * (m - a) = m := by omega
  rw [hsum, ← List.range'_append, hstart]

/-- Both functions look at the same positions. -/
theorem unequipSlots_perm : (unequipSlots W inv).Perm (inventorySlots W inv) := by
  have hsplit : slots equipmentSlotStart inventorySlotItemEnd =
      slots equipmentSlotStart inventorySlotBagEnd ++
        slots inventorySlotItemStart inventorySlotItemEnd := slots_append (by decide) (by decide)
  have hrest : inventorySlots W inv = slots equipmentSlotStart inventorySlotBagEnd ++
      (slots inventorySlotItemStart inventorySlotItemEnd ++
        slots keyringSlotStart currencyTokenSlotEnd ++
        slotsOfBags W inv inventorySlotBagStart inventorySlotBagEnd) := by
    simp only [inventorySlots, hsplit, List.append_assoc]
  rw [hrest]
  exact List.perm_append_comm

theorem nodup_slotsOfBags (a b : ℕ) : (slotsOfBags W inv a b).Nodup :=
  nodup_flatMap_bagSlots List.nodup_range' fun _ => List.Sublist.refl _

theorem disjoint_slots_slotsOfBags {a b a' b' : ℕ} :
    List.Disjoint (slots a b) (slotsOfBags W inv a' b') := by
  intro pos hslot hbag
  obtain ⟨-, c, hc, -⟩ := mem_bagSlots_iff.1 (mem_slotsOfBags hbag).2.2
  exact bag_ne_bag0 hc (mem_slots hslot).1

theorem nodup_destroySlots : (destroySlots W inv).Nodup := by
  have hslots : ∀ a b a' b', b ≤ a' ∨ b' ≤ a → List.Disjoint (slots a b) (slots a' b') := by
    rintro a b a' b' (h | h)
    · exact (disjoint_slots h).symm
    · exact disjoint_slots h
  have hbags : List.Disjoint (slotsOfBags W inv inventorySlotBagStart inventorySlotBagEnd)
      (slotsOfBags W inv bankSlotBagStart bankSlotBagEnd) := by
    intro pos h h'
    have hlt := (mem_slotsOfBags h).2.1
    have hle := (mem_slotsOfBags h').1
    unfold inventorySlotBagEnd at hlt
    unfold bankSlotBagStart at hle
    omega
  have hslotBags : ∀ a b a' b', List.Disjoint (slotsOfBags W inv a' b') (slots a b) :=
    fun a b a' b' => (disjoint_slots_slotsOfBags).symm
  unfold destroySlots unequipSlots bankSlots
  simp only [List.nodup_append', nodup_slots, nodup_slotsOfBags, List.disjoint_append_left,
    List.disjoint_append_right, disjoint_slots_slotsOfBags, hslotBags, hbags, true_and, and_true]
  exact ⟨⟨hslots _ _ _ _ (by decide), hslots _ _ _ _ (by decide), hslots _ _ _ _ (by decide)⟩,
    ⟨hslots _ _ _ _ (by decide), hslots _ _ _ _ (by decide)⟩, hslots _ _ _ _ (by decide)⟩

theorem nodup_locate {next : ℕ} (hd : Distinct next inv) (h : ps.Nodup) :
    (ps.filterMap (locate W inv)).Nodup :=
  h.filterMap fun _ _ _ hl hl' => locate_inj hd hl hl'

/-! ### The sums -/

theorem foldl_takeAt_finished (inv : Bags) (r : ℕ) :
    ls.foldl (takeAt isInTrade entry n) ⟨inv, r, true⟩ = ⟨inv, r, true⟩ := by
  induction ls with
  | nil => rfl
  | cons l ls ih => exact ih

theorem takeAt_of_none {r : ℕ} (h : inv.stackAt (counts isInTrade entry) l = none) :
    takeAt isInTrade entry n ⟨inv, r, false⟩ l = ⟨inv, r, false⟩ := by
  simp [takeAt, h]

/-- A whole stack is destroyed if the sum, of 32 bits, is not too large. -/
theorem takeAt_whole {r : ℕ} (h : inv.stackAt (counts isInTrade entry) l = some c)
    (hle : (r + c.count) % 2 ^ 32 ≤ n) :
    takeAt isInTrade entry n ⟨inv, r, false⟩ l =
      ⟨inv.erase l, (r + c.count) % 2 ^ 32, n ≤ (r + c.count) % 2 ^ 32⟩ := by
  unfold takeAt
  simp only [h, Bool.false_eq_true, if_false, Nat.add_comm c.count r]
  rw [if_pos hle]

theorem takeAt_part {r : ℕ} (h : inv.stackAt (counts isInTrade entry) l = some c) (hr : r < n)
    (hlt : r + c.count < 2 ^ 32) (hn : n < r + c.count) :
    takeAt isInTrade entry n ⟨inv, r, false⟩ l =
      ⟨inv.setCount l (c.count - (n - r)), r, true⟩ := by
  have hnot : ¬ (r + c.count) % 2 ^ 32 ≤ n := by
    rw [Nat.mod_eq_of_lt hlt]
    omega
  have hrest : (c.count + 2 ^ 32 - n + r) % 2 ^ 32 = c.count - (n - r) := by omega
  unfold takeAt
  simp only [h, Bool.false_eq_true, if_false, Nat.add_comm c.count r, hrest]
  rw [if_neg hnot]

theorem unitsOfEntry_drain (isInTrade : Item → Bool) (entry : ℕ) (inv : Bags) (hls : ls.Nodup)
    (k : ℕ) :
    unitsOfEntry entry (Stock.drain (counts isInTrade entry) ls k inv) +
      min k (Stock.held (counts isInTrade entry) inv ls) = unitsOfEntry entry inv :=
  Stock.units_drain hls fun _ hi => decide_eq_true (entry_of_counts hi)

/-- While the sums do not wrap, the loops take the units that are missing. -/
theorem foldl_takeAt_of_noWrap {r : ℕ} (hls : ls.Nodup) (hr : r < n)
    (h : NoWrap n r (Stock.stackSizes (counts isInTrade entry) inv ls)) :
    (ls.foldl (takeAt isInTrade entry n) ⟨inv, r, false⟩).inv =
      Stock.drain (counts isInTrade entry) ls (n - r) inv := by
  induction ls generalizing inv r with
  | nil => rfl
  | cons l ls ih =>
    obtain ⟨hl, hls⟩ := List.nodup_cons.1 hls
    have hmissing : n - r ≠ 0 := by omega
    rw [List.foldl_cons, Stock.drain, if_neg hmissing]
    cases hstack : inv.stackAt (counts isInTrade entry) l with
    | none =>
      rw [Stock.stackSizes_cons_of_none hstack] at h
      rw [takeAt_of_none hstack]
      exact ih hls hr h
    | some c =>
      rw [Stock.stackSizes_cons_of_some hstack] at h
      obtain ⟨hlt, hnext⟩ := h
      have hmod : (r + c.count) % 2 ^ 32 = r + c.count := Nat.mod_eq_of_lt hlt
      dsimp only
      rcases lt_trichotomy (r + c.count) n with hless | heq | hmore
      · -- the stack is destroyed, and more units are missing
        rw [takeAt_whole hstack (hmod.le.trans hless.le), hmod, decide_eq_false (not_le.2 hless),
          if_pos (by omega), Nat.sub_sub]
        refine ih hls hless ?_
        rw [Stock.stackSizes_erase hl]
        exact hnext hless
      · rw [takeAt_whole hstack (hmod.le.trans heq.le), hmod, decide_eq_true heq.ge,
          foldl_takeAt_finished, if_pos (by omega), Nat.sub_sub, heq, Nat.sub_self, Stock.drain_zero]
      · rw [takeAt_part hstack hr hlt hmore, foldl_takeAt_finished, if_neg (by omega)]

/-- A sum that wraps is the end of a stack after which the units that are missing are too many. -/
theorem foldl_takeAt_of_wrap {r : ℕ} (hls : ls.Nodup) (hr : r < n) (hn : n < 2 ^ 32)
    (hcount : ∀ k ∈ Stock.stackSizes (counts isInTrade entry) inv ls, k < 2 ^ 32)
    (h : ¬ NoWrap n r (Stock.stackSizes (counts isInTrade entry) inv ls)) :
    unitsOfEntry entry (ls.foldl (takeAt isInTrade entry n) ⟨inv, r, false⟩).inv + 2 ^ 32 ≤
      unitsOfEntry entry inv + r := by
  induction ls generalizing inv r with
  | nil => exact absurd trivial h
  | cons l ls ih =>
    obtain ⟨hl, hls⟩ := List.nodup_cons.1 hls
    rw [List.foldl_cons]
    cases hstack : inv.stackAt (counts isInTrade entry) l with
    | none =>
      rw [Stock.stackSizes_cons_of_none hstack] at h hcount
      rw [takeAt_of_none hstack]
      exact ih hls hr hcount h
    | some c =>
      rw [Stock.stackSizes_cons_of_some hstack] at h hcount
      have hhead := hcount c.count List.mem_cons_self
      have htail : ∀ k ∈ Stock.stackSizes (counts isInTrade entry) (inv.erase l) ls, k < 2 ^ 32 := by
        rw [Stock.stackSizes_erase hl]
        exact fun k hk => hcount k (List.mem_cons_of_mem _ hk)
      have herase : unitsOfEntry entry (inv.erase l) + c.count = unitsOfEntry entry inv := by
        obtain ⟨hfind, hcounts⟩ := Stock.stackAt_eq_some.1 hstack
        have hunits := Stock.units_erase (p := fun i => decide (i.entry = entry)) hfind
        unfold unitsOfEntry
        simpa [Stock.unitsOf, entry_of_counts hcounts] using hunits
      by_cases hlt : r + c.count < 2 ^ 32
      · have hmod : (r + c.count) % 2 ^ 32 = r + c.count := Nat.mod_eq_of_lt hlt
        have hless : r + c.count < n := by
          by_contra hnot
          exact h ⟨hlt, fun hless => absurd hless hnot⟩
        rw [takeAt_whole hstack (hmod.le.trans hless.le), hmod, decide_eq_false (not_le.2 hless)]
        have hrest := ih hls hless htail fun hno => h ⟨hlt, fun _ => by
          rwa [Stock.stackSizes_erase hl] at hno⟩
        omega
      · -- the sum wraps to less than before, and the search goes on
        have hless : (r + c.count) % 2 ^ 32 < n := by omega
        rw [takeAt_whole hstack hless.le, decide_eq_false (not_le.2 hless)]
        by_cases hno : NoWrap n ((r + c.count) % 2 ^ 32)
            (Stock.stackSizes (counts isInTrade entry) (inv.erase l) ls)
        · rw [foldl_takeAt_of_noWrap hls hless hno]
          have hdrain := unitsOfEntry_drain isInTrade entry (inv.erase l) hls
            (n - (r + c.count) % 2 ^ 32)
          omega
        · have hrest := ih hls hless htail hno
          omega

/-! ### What is destroyed -/

theorem stackSizesAt_cons_of_none (h : countedAt W isInTrade inv entry pos = none) :
    stackSizesAt W isInTrade inv entry (pos :: ps) = stackSizesAt W isInTrade inv entry ps := by
  simp [stackSizesAt, h]

theorem stackSizesAt_cons_of_some (h : countedAt W isInTrade inv entry pos = some c) :
    stackSizesAt W isInTrade inv entry (pos :: ps) =
      c.count :: stackSizesAt W isInTrade inv entry ps := by
  simp [stackSizesAt, h]

theorem hasItemCountAt_cons (tempcount : ℕ) :
    hasItemCountAt W isInTrade inv entry n (pos :: ps) tempcount =
      match countedAt W isInTrade inv entry pos with
      | none => hasItemCountAt W isInTrade inv entry n ps tempcount
      | some c =>
        n ≤ (tempcount + c.count) % 2 ^ 32 ||
          hasItemCountAt W isInTrade inv entry n ps ((tempcount + c.count) % 2 ^ 32) := by
  rw [hasItemCountAt]
  unfold countedAt
  cases getItemByPos W inv pos with
  | none => rfl
  | some c =>
    by_cases hcounts : counts isInTrade entry c.item = true
    · simp [Option.filter_some, hcounts]
    · simp [Option.filter_some, hcounts]

/-- When `HasItemCount` answers yes, the units are there. -/
theorem le_of_hasItemCountAt {tempcount : ℕ}
    (h : hasItemCountAt W isInTrade inv entry n ps tempcount = true) :
    n ≤ tempcount + (stackSizesAt W isInTrade inv entry ps).sum := by
  induction ps generalizing tempcount with
  | nil => cases h
  | cons pos ps ih =>
    rw [hasItemCountAt_cons] at h
    cases hcounted : countedAt W isInTrade inv entry pos with
    | none =>
      rw [hcounted] at h
      rw [stackSizesAt_cons_of_none hcounted]
      exact ih h
    | some c =>
      have hmod := Nat.mod_le (tempcount + c.count) (2 ^ 32)
      rw [stackSizesAt_cons_of_some hcounted, List.sum_cons]
      simp only [hcounted, Bool.or_eq_true, decide_eq_true_eq] at h
      rcases h with hle | h
      · omega
      · have hrest := ih h
        omega

/-- The sum over all counted stacks is that in the order of `DestroyItemCount`. -/
theorem held_unequipSlots : Stock.held (counts isInTrade entry) inv
    ((unequipSlots W inv).filterMap (locate W inv)) = countedUnits W isInTrade inv entry false := by
  unfold Stock.held countedUnits
  rw [← stackSizesAt_eq, if_neg Bool.false_ne_true, List.append_nil]
  exact (unequipSlots_perm.filterMap _).sum_eq

theorem held_destroySlots : Stock.held (counts isInTrade entry) inv
    ((destroySlots W inv).filterMap (locate W inv)) = countedUnits W isInTrade inv entry true := by
  unfold Stock.held countedUnits destroySlots
  rw [← stackSizesAt_eq, if_pos rfl]
  exact ((unequipSlots_perm.append_right _).filterMap _).sum_eq

/-- What `DestroyItemCount` should do is to take the units along its places. -/
theorem destroysRight_drain {next : ℕ} (hd : Distinct next inv) :
    DestroysRight W isInTrade inv entry n (Stock.drain (counts isInTrade entry)
      ((destroySlots W inv).filterMap (locate W inv)) n inv) := by
  have hslots : (destroySlots W inv).Nodup := nodup_destroySlots
  have hnodup := nodup_locate (W := W) hd hslots
  -- the bank comes last, and its stacks are apart from the others
  have hsplit : (destroySlots W inv).filterMap (locate W inv) =
      (unequipSlots W inv).filterMap (locate W inv) ++
        (bankSlots W inv).filterMap (locate W inv) := List.filterMap_append
  have hparts := hsplit ▸ hnodup
  obtain ⟨hfirst, -, hdisjoint⟩ := List.nodup_append'.1 hparts
  have hplace : ∀ pos c, getItemByPos W inv pos = some c →
      inv.find c.loc = some c ∧ locate W inv pos = some c.loc := by
    intro pos c hc
    obtain ⟨l, hl, hfind⟩ := Option.bind_eq_some_iff.1 hc
    rw [(Table.of_find hfind).2]
    exact ⟨hfind, hl⟩
  have hunits := unitsOfEntry_drain isInTrade entry inv hnodup n
  rw [held_destroySlots] at hunits
  have hbank : n ≤ countedUnits W isInTrade inv entry false →
      BankUntouched W inv (Stock.drain (counts isInTrade entry)
        ((destroySlots W inv).filterMap (locate W inv)) n inv) := by
    intro hle pos hpos c hc
    obtain ⟨hfind, hl⟩ := hplace pos c hc
    have hzero : n - countedUnits W isInTrade inv entry false = 0 := Nat.sub_eq_zero_of_le hle
    rw [hsplit, Stock.drain_append hfirst, held_unequipSlots, hzero, Stock.drain_zero,
      Stock.find_drain_of_notMem, hfind]
    exact fun hmem => hdisjoint hmem (List.mem_filterMap.2 ⟨pos, hpos, hl⟩)
  refine ⟨hunits, ?_, fun c hc hno => ?_, fun c hc => Stock.shrunk_drain hc, fun hhas => ?_⟩
  · rcases Nat.lt_or_ge (countedUnits W isInTrade inv entry false) n with hlt | hle
    · right
      intro pos hpos c hc
      obtain ⟨hget, hcounts⟩ := Option.filter_eq_some_iff.1 hc
      obtain ⟨hfind, hl⟩ := hplace pos c hget
      have hmem : c.loc ∈ (unequipSlots W inv).filterMap (locate W inv) :=
        List.mem_filterMap.2 ⟨pos, unequipSlots_perm.mem_iff.2 hpos, hl⟩
      rw [hsplit, Stock.drain_append hfirst,
        Stock.find_drain_of_notMem fun hmem' => hdisjoint hmem hmem']
      exact Stock.find_drain_of_lt hfirst (held_unequipSlots.trans_lt hlt) hmem
        (Stock.stackAt_eq_some.2 ⟨hfind, hcounts⟩)
    · exact .inl (hbank hle)
  · have hfind := Table.find_key hc
    rw [Stock.find_drain_of_none, hfind]
    simp [Stock.stackAt, hfind, hno]
  · have hle : n ≤ countedUnits W isInTrade inv entry false := by
      simpa [countedUnits] using le_of_hasItemCountAt hhas
    -- what is in the inventory is part of what is held
    have hall : countedUnits W isInTrade inv entry false ≤ countedUnits W isInTrade inv entry true := by
      rw [← held_unequipSlots, ← held_destroySlots, hsplit, Stock.held_append]
      exact Nat.le_add_right _ _
    rw [min_eq_left (hle.trans hall)] at hunits
    exact ⟨hunits, hbank hle⟩

/-- **Main result.** `DestroyItemCount` does what it should by `HasItemCount` exactly if its sums stay
below `2 ^ 32` as long as units are missing. -/
theorem destroyItemCount_iff {next : ℕ} (canUnequipItem : Bags → Pos → Bool)
    (hd : Distinct next inv) (hcount : ∀ c ∈ inv, c.count < 2 ^ 32) (hempty : NoFullBag W entry inv)
    (hn : 0 < n) (hlt : n < 2 ^ 32) :
    DestroysRight W isInTrade inv entry n
        (destroyItemCount W isInTrade inv entry n depth canUnequipItem false) ↔
      NoWrap n 0 (stackSizesAt W isInTrade inv entry (destroySlots W inv)) := by
  have hslots : (destroySlots W inv).Nodup := nodup_destroySlots
  have hnodup := nodup_locate (W := W) hd hslots
  rw [destroyItemCount_eq canUnequipItem hempty, stackSizesAt_eq]
  constructor
  · intro h
    by_contra hwrap
    have hsizes : ∀ k ∈ Stock.stackSizes (counts isInTrade entry) inv
        ((destroySlots W inv).filterMap (locate W inv)), k < 2 ^ 32 := by
      intro k hk
      obtain ⟨l, -, hl⟩ := List.mem_filterMap.1 hk
      obtain ⟨c, hc, rfl⟩ := Option.map_eq_some_iff.1 hl
      exact hcount c (Table.of_find (Stock.stackAt_eq_some.1 hc).1).1
    have hmany := foldl_takeAt_of_wrap hnodup hn hlt hsizes hwrap
    have hunits := h.units
    omega
  · intro h
    rw [foldl_takeAt_of_noWrap hnodup hn h]
    exact destroysRight_drain hd

/-- Goods in stacks of any size. -/
def heaps : World where
  template _ := ⟨.other 7, 0, .nonEquip, 0, 0, 0, 0, 0, noSlots_le, false, false⟩
  limitCategory _ := none
  isBindedNotWith _ := false

/-- Two stacks of entry 7 in the backpack and one in the bank, the first of which is in a trade. -/
def trader : Bags where
  toList := [⟨.slot 23, ⟨1, 7, false, []⟩, 4⟩, ⟨.slot 24, ⟨2, 7, false, []⟩, 3⟩,
    ⟨.slot 39, ⟨3, 7, false, []⟩, 5⟩]
  nodup := by decide

/-- Six units are the rest of the backpack and three from the bank. -/
theorem destroyItemCount_trader : DestroysRight heaps (fun i => i.guid = 1) trader 7 6
    (destroyItemCount heaps (fun i => i.guid = 1) trader 7 6 0 (fun _ _ => false) false) := by
  have hd : Distinct 4 trader := ⟨by decide, by decide⟩
  have hempty : NoFullBag heaps 7 trader := fun _ _ _ => rfl
  have hsizes : stackSizesAt heaps (fun i => i.guid = 1) trader 7 (destroySlots heaps trader) =
      [3, 5] := by decide +kernel
  refine (destroyItemCount_iff _ hd (by decide) hempty (by decide) (by decide)).2 ?_
  rw [hsizes]
  exact ⟨by decide, fun _ => ⟨by decide, fun h => absurd h (by decide)⟩⟩

/-- Three stacks of the greatest size in the backpack. -/
def hoarder : Bags where
  toList := [⟨.slot 23, ⟨1, 7, false, []⟩, 2147483646⟩, ⟨.slot 24, ⟨2, 7, false, []⟩, 2147483646⟩,
    ⟨.slot 25, ⟨3, 7, false, []⟩, 2147483646⟩]
  nodup := by decide

/-- The third stack makes the sum wrap, and is destroyed with the others. -/
theorem all_stacks_destroyed : Distinct 4 hoarder ∧ NoFullBag heaps 7 hoarder ∧
    Stock.AtMost Item.entry heaps.maxStack hoarder ∧
    ¬ DestroysRight heaps (fun _ => false) hoarder 7 4294967295
      (destroyItemCount heaps (fun _ => false) hoarder 7 4294967295 0 (fun _ _ => true) false) := by
  have hleft : unitsOfEntry 7 (destroyItemCount heaps (fun _ => false) hoarder 7 4294967295 0
      (fun _ _ => true) false) = 0 := by decide +kernel
  have hcounted : countedUnits heaps (fun _ => false) hoarder 7 true = 6442450938 := by
    decide +kernel
  have hunits : unitsOfEntry 7 hoarder = 6442450938 := by decide
  have hmost : ∀ c ∈ hoarder, c.count ≤ heaps.maxStack c.item.entry := by decide
  refine ⟨⟨by decide, by decide⟩, fun _ _ _ => rfl, hmost, fun h => ?_⟩
  have htotal := h.units
  rw [hleft, hcounted, hunits] at htotal
  exact absurd htotal (by decide)

end FaceCore.Storage
