import FaceCore.Player.Search

/-!
# What new items leave

The inventory as the search for new items sees it: how many units fit to the stacks of an entry,
which positions are free, and how many units of an entry and of a limit category the player holds.
Storing new items where the search puts them is an operation on these numbers.

* `Holdings`, `holdings`: the numbers, and those of an inventory;
* `Holdings.Takes`, `Holdings.give`: there is space for new items, and what they leave;
* `NewlyStored`: what storing them does to the positions;
* `holdings_store`: the numbers afterwards.
-/

namespace FaceCore.Storage

open Filling

/-- What is there for new items: the space, and the units that the player holds, by entry and by
limit category. -/
@[ext] structure Holdings where
  capacity : Capacity ℕ Pos
  held : ℕ → ℕ
  heldInCategory : ℕ → ℕ

section

variable (W : World) (inv : Bags)

/-- The units of some entries at some positions. -/
def unitsAt (p : ℕ → Bool) (ps : List Pos) : ℕ :=
  (ps.map fun pos =>
    match getItemByPos W inv pos with
    | some c => if p c.item.entry then c.count else 0
    | none => 0).sum

/-- The units of an entry that a stack at a position takes. -/
def stackRoom (entry : ℕ) (pos : Pos) : ℕ :=
  match getItemByPos W inv pos with
  | some c => if canBeMergedPartlyWith W c entry = .ok then W.maxStack entry - c.count else 0
  | none => 0

/-- The position holds no item. -/
def freeAt (pos : Pos) : Bool := (getItemByPos W inv pos).isNone

/-- The entry belongs to the limit category. -/
def inCategory (category entry : ℕ) : Bool := (W.template entry).itemLimitCategory = category

/-- What an inventory has for new items. -/
def holdings : Holdings where
  capacity :=
    { room := fun entry => ((mergeSlots W inv entry).map (stackRoom W inv entry)).sum
      free := freeAt W inv }
  held entry := unitsAt W inv (fun e => e = entry) (countedSlots W inv)
  heldInCategory category := unitsAt W inv (inCategory W category) (countedSlots W inv)

/-- The player may have `k` units more of an entry, and there is space for them in its stacks and in
the free places among those that are open to it. -/
structure Holdings.Takes (openTo : ℕ → List Pos) (h : Holdings) (entry k : ℕ) : Prop where
  allowed : (takeMore W entry k (h.held entry % 2 ^ 32)
    (h.heldInCategory (W.template entry).itemLimitCategory % 2 ^ 32)).1 = .ok
  fits : h.capacity.Fits W.maxStack openTo entry k

instance (openTo : ℕ → List Pos) (h : Holdings) (entry k : ℕ) :
    Decidable (h.Takes W openTo entry k) :=
  decidable_of_iff ((takeMore W entry k (h.held entry % 2 ^ 32)
      (h.heldInCategory (W.template entry).itemLimitCategory % 2 ^ 32)).1 = .ok ∧
    h.capacity.Fits W.maxStack openTo entry k)
    ⟨fun ht => ⟨ht.1, ht.2⟩, fun ht => ⟨ht.allowed, ht.fits⟩⟩

/-- What `k` new units of an entry leave. -/
def Holdings.give (openTo : ℕ → List Pos) (h : Holdings) (entry k : ℕ) : Holdings where
  capacity := h.capacity.take W.maxStack openTo entry k
  held := Function.update h.held entry (h.held entry + k)
  heldInCategory :=
    Function.update h.heldInCategory (W.template entry).itemLimitCategory
      (h.heldInCategory (W.template entry).itemLimitCategory + k)

end

variable {W : World} {inv inv' : Bags} {src : Item} {merge : Bool} {ps : List Pos} {pos : Pos}
  {dest : List (Pos × ℕ)} {q : Pos × ℕ} {k n entry next : ℕ}

theorem canBeMergedPartlyWith_eq_ok {c : Cell Loc Item} :
    canBeMergedPartlyWith W c entry = .ok ↔
      c.item.lootGenerated = false ∧ c.item.entry = entry ∧ c.count < W.maxStack entry := by
  unfold canBeMergedPartlyWith
  split_ifs with hloot he hfull
  · simp [hloot]
  · simp [he]
  · simpa using fun _ _ => hfull
  · simp_all

section

variable (openTo : ℕ → List Pos) (h : Holdings) (e : ℕ)

theorem room_holdings : (holdings W inv).capacity.room e =
    ((mergeSlots W inv e).map (stackRoom W inv e)).sum := rfl

theorem held_holdings : (holdings W inv).held e =
    unitsAt W inv (fun e' => e' = e) (countedSlots W inv) := rfl

theorem heldInCategory_holdings (category : ℕ) : (holdings W inv).heldInCategory category =
    unitsAt W inv (inCategory W category) (countedSlots W inv) := rfl

theorem room_give : (h.give W openTo entry k).capacity.room =
    Function.update h.capacity.room entry (h.capacity.room entry +
      W.maxStack entry * (h.capacity.used W.maxStack openTo entry k).length - k) := rfl

theorem free_give (pos : Pos) : (h.give W openTo entry k).capacity.free pos =
    (h.capacity.free pos && pos ∉ h.capacity.used W.maxStack openTo entry k) := by
  simp [Holdings.give, Capacity.take]

theorem held_give : (h.give W openTo entry k).held =
    Function.update h.held entry (h.held entry + k) := rfl

theorem heldInCategory_give : (h.give W openTo entry k).heldInCategory =
    Function.update h.heldInCategory (W.template entry).itemLimitCategory
      (h.heldInCategory (W.template entry).itemLimitCategory + k) := rfl

end

/-! ### An object that is not in the inventory -/

/-- The object is not in the inventory. -/
def Absent (inv : Bags) (src : Item) : Prop := ∀ c ∈ inv, c.item.guid ≠ src.guid

theorem absent_null (entry : ℕ) : Absent inv ((Wanted.entry entry).src inv) :=
  fun _ hc => Nat.ne_of_lt (guid_lt_unusedGuid hc).1

theorem otherItemByPos_absent (h : Absent inv src) (pos : Pos) :
    otherItemByPos W inv src pos = getItemByPos W inv pos := by
  unfold otherItemByPos
  cases hget : getItemByPos W inv pos with
  | none => rfl
  | some c =>
    obtain ⟨l, -, hfind⟩ := Option.bind_eq_some_iff.1 hget
    exact Option.filter_some_pos (decide_eq_true (h c (Table.of_find hfind).1))

theorem needSpace_merge (h : Absent inv src) (pos : Pos) :
    (needSpace W inv src true pos).getD 0 = stackRoom W inv src.entry pos := by
  unfold needSpace stackRoom
  rw [otherItemByPos_absent h]
  cases getItemByPos W inv pos with
  | none => rfl
  | some c => by_cases hm : canBeMergedPartlyWith W c src.entry = .ok <;> simp [hm]

theorem needSpace_free (h : Absent inv src) (pos : Pos) :
    needSpace W inv src false pos =
      if freeAt W inv pos then some (W.maxStack src.entry) else none := by
  unfold needSpace freeAt
  rw [otherItemByPos_absent h]
  cases getItemByPos W inv pos <;> simp

/-- The room at a place is that for any other object of the entry that is not in the inventory. -/
theorem needSpace_congr {src' : Item} (h : Absent inv src) (h' : Absent inv src')
    (he : src.entry = src'.entry) (merge : Bool) :
    needSpace W inv src merge = needSpace W inv src' merge := by
  funext pos
  unfold needSpace
  rw [otherItemByPos_absent h, otherItemByPos_absent h', he]

theorem spaces_congr {src' : Item} (h : Absent inv src) (h' : Absent inv src')
    (he : src.entry = src'.entry) : spaces W inv src = spaces W inv src' := by
  unfold spaces visible
  rw [needSpace_congr h h' he, needSpace_congr h h' he, he]

theorem notInside_absent (h : Absent inv src) (pos : Pos) : NotInside W inv src pos :=
  fun b hb => h b (Table.of_find (getBagByPos_eq_some.1 hb).2.1).1

theorem space_visible_merge (h : Absent inv src) (ps : List Pos) :
    space (visible W inv src true ps) = (ps.map (stackRoom W inv src.entry)).sum := by
  induction ps with
  | nil => rfl
  | cons pos ps ih =>
    rw [List.map_cons, List.sum_cons, ← ih, ← needSpace_merge h]
    cases hn : needSpace W inv src true pos <;> simp [visible, hn]

theorem visible_free (h : Absent inv src) (ps : List Pos) :
    visible W inv src false ps =
      (ps.filter (freeAt W inv)).map fun pos => (pos, W.maxStack src.entry) := by
  induction ps with
  | nil => rfl
  | cons pos ps ih =>
    unfold visible at ih ⊢
    rw [List.filterMap_cons, needSpace_free h]
    by_cases hf : freeAt W inv pos = true <;> simp [hf, ih]

theorem space_spaces (h : Absent inv src) :
    k ≤ space (spaces W inv src) ↔
      (holdings W inv).capacity.Fits W.maxStack (freeSlots W inv) src.entry k := by
  have hconst : ∀ (ps : List Pos) (s : ℕ), space (ps.map fun pos => (pos, s)) = s * ps.length := by
    intro ps s
    induction ps with
    | nil => rfl
    | cons pos ps ih => simp [ih, Nat.mul_succ, Nat.add_comm]
  unfold spaces Capacity.Fits Capacity.places
  rw [space_append, space_visible_merge h, visible_free h, hconst]
  rfl

/-! ### The units that are held -/

theorem sumAt_absent (h : Absent inv src) (p : ℕ → Bool) (ps : List Pos) :
    sumAt W inv src (fun c => if p c.item.entry then c.count else 0) ps = unitsAt W inv p ps := by
  unfold sumAt unitsAt
  congr 1
  refine List.map_congr_left fun pos _ => ?_
  cases hget : getItemByPos W inv pos with
  | none => rfl
  | some c =>
    obtain ⟨l, -, hfind⟩ := Option.bind_eq_some_iff.1 hget
    simp [h c (Table.of_find hfind).1]

theorem heldOf_entry (entry : ℕ) :
    heldOf W inv (.entry entry) = (holdings W inv).held entry % 2 ^ 32 := by
  have habs : Absent inv ((Wanted.entry entry).src inv) := absent_null entry
  have hsum := sumAt_absent (W := W) habs (fun e => e = entry) (countedSlots W inv)
  simp only [decide_eq_true_eq] at hsum
  exact congrArg (· % 2 ^ 32) hsum

theorem heldInCategoryOf_entry (entry : ℕ) :
    heldInCategoryOf W inv (.entry entry) =
      (holdings W inv).heldInCategory (W.template entry).itemLimitCategory % 2 ^ 32 := by
  have habs : Absent inv ((Wanted.entry entry).src inv) := absent_null entry
  have hsum := sumAt_absent (W := W) habs (inCategory W (W.template entry).itemLimitCategory)
    (countedSlots W inv)
  simp only [inCategory, decide_eq_true_eq] at hsum
  exact congrArg (· % 2 ^ 32) hsum

/-- `CanStoreItem` accepts new items exactly if the numbers do. -/
theorem canStore_iff_takes (hk : 0 < k) :
    (canStore W inv true (.entry entry) (nullBag, nullSlot) k).res = .ok () ↔
      (holdings W inv).Takes W (freeSlots W inv) entry k := by
  rw [(canStore_anywhere hk).1, space_spaces (absent_null entry), heldOf_entry,
    heldInCategoryOf_entry]
  exact ⟨fun h => ⟨h.1, h.2⟩, fun h => ⟨h.allowed, h.fits⟩⟩

/-! ### The positions -/

theorem mem_allBagSlots (h : pos ∈ allBagSlots W inv) : pos ∈ bagSlots W inv pos.1 := by
  obtain ⟨bag, -, hpos⟩ := List.mem_flatMap.1 h
  rwa [(mem_bagSlots_iff.1 hpos).1]

theorem nodup_allBagSlots : (allBagSlots W inv).Nodup :=
  nodup_flatMap_bagSlots (by decide) fun _ => List.Sublist.refl _

theorem nodup_countedSlots : (countedSlots W inv).Nodup := by
  have hbags : ∀ a b, List.Disjoint (slots a b) (allBagSlots W inv) := by
    intro a b pos hslot hbag
    obtain ⟨-, c, hc, -⟩ := mem_bagSlots_iff.1 (mem_allBagSlots hbag)
    exact bag_ne_bag0 hc (mem_slots hslot).1
  have hkeys : List.Disjoint (slots 0 inventorySlotItemEnd)
      (slots keyringSlotStart currencyTokenSlotEnd) :=
    fun _ h h' => disjoint_slots (by decide) h' h
  have hbank : List.Disjoint (slots 0 inventorySlotItemEnd) (slots bankSlotItemStart bankSlotBagEnd) :=
    fun _ h h' => disjoint_slots (by decide) h' h
  have hbank' : List.Disjoint (slots keyringSlotStart currencyTokenSlotEnd)
      (slots bankSlotItemStart bankSlotBagEnd) := disjoint_slots (by decide)
  unfold countedSlots
  simp [List.nodup_append', nodup_slots, nodup_allBagSlots, hbags, hkeys, hbank, hbank']

/-- A position of a bag. -/
def IsBagSlot (bag : ℕ) : Prop :=
  (inventorySlotBagStart ≤ bag ∧ bag < inventorySlotBagEnd) ∨
    (bankSlotBagStart ≤ bag ∧ bag < bankSlotBagEnd)

/-- A position of the search: a place that is counted, and not that of a bag. -/
structure Searched (W : World) (inv : Bags) (pos : Pos) : Prop where
  located : ∃ l, locate W inv pos = some l ∧ ∀ bag, IsBagSlot bag → l ≠ .slot bag
  counted : pos ∈ countedSlots W inv

theorem mem_slots_iff {a b : ℕ} :
    pos ∈ slots a b ↔ pos.1 = inventorySlotBag0 ∧ a ≤ pos.2 ∧ pos.2 < b := by
  refine ⟨mem_slots, fun ⟨hbag, hle, hlt⟩ => ?_⟩
  obtain ⟨bag, slot⟩ := pos
  obtain rfl : bag = inventorySlotBag0 := hbag
  exact List.mem_map.2 ⟨slot, List.mem_range'_1.2 (by dsimp only at hle hlt; omega), rfl⟩

theorem searched_slot {a b : ℕ} (h : pos ∈ slots a b)
    (hab : inventorySlotItemStart ≤ a ∧ b ≤ inventorySlotItemEnd ∨
      keyringSlotStart ≤ a ∧ b ≤ currencyTokenSlotEnd) : Searched W inv pos := by
  obtain ⟨hbag, hle, hlt⟩ := mem_slots h
  obtain ⟨bag, slot⟩ := pos
  obtain rfl : bag = inventorySlotBag0 := hbag
  dsimp only at hle hlt
  refine ⟨⟨.slot slot, locate_slot (isItemSlot_range ?_ slot hle hlt), fun bag hb heq => ?_⟩, ?_⟩
  · rcases hab with hab | hab
    · exact .inl (hab.2.trans (by decide))
    · exact .inr hab
  · obtain rfl := Loc.slot.inj heq
    unfold inventorySlotItemStart inventorySlotItemEnd keyringSlotStart currencyTokenSlotEnd at hab
    unfold IsBagSlot inventorySlotBagStart inventorySlotBagEnd bankSlotBagStart bankSlotBagEnd at hb
    omega
  · refine List.mem_append_left _ (List.mem_append_left _ (List.mem_append.2 ?_))
    rcases hab with hab | hab
    · exact .inl (mem_slots_iff.2 ⟨rfl, Nat.zero_le _, hlt.trans_le hab.2⟩)
    · exact .inr (mem_slots_iff.2 ⟨rfl, hab.1.trans hle, hlt.trans_le hab.2⟩)

theorem searched_bag {plain : Bool} (h : pos ∈ bagsFor W inv entry plain) :
    Searched W inv pos := by
  obtain ⟨hle, hlt, hslots, b, hb, -⟩ := mem_bagsFor h
  refine ⟨⟨_, locate_bag hb (mem_bagSlots hb hslots).2, nofun⟩, ?_⟩
  unfold countedSlots allBagSlots
  refine List.mem_append_right _ (List.mem_flatMap.2 ⟨pos.1, ?_, hslots⟩)
  refine List.mem_append_left _ (List.mem_range'_1.2 ?_)
  unfold inventorySlotBagStart inventorySlotBagEnd at *
  omega

theorem searched_mergeSlots (h : pos ∈ mergeSlots W inv entry) : Searched W inv pos := by
  unfold mergeSlots at h
  split_ifs at h <;> simp only [List.mem_append, List.not_mem_nil, or_false] at h
  · rcases h with ((h | h) | h) | h
    · exact searched_slot h (.inr ⟨le_rfl, le_rfl⟩)
    · exact searched_slot h (.inl ⟨le_rfl, le_rfl⟩)
    · exact searched_bag h
    · exact searched_bag h
  · rcases h with (h | h) | h
    · exact searched_slot h (.inr ⟨le_rfl, le_rfl⟩)
    · exact searched_slot h (.inl ⟨le_rfl, le_rfl⟩)
    · exact searched_bag h

theorem searched_freeSlots (h : pos ∈ freeSlots W inv entry) : Searched W inv pos := by
  have hkey : ∀ pos ∈ keySlots W entry, Searched W inv pos := by
    intro pos h
    exact searched_slot (mem_slots_iff.2 (mem_keySlots h)) (.inr ⟨le_rfl, le_rfl⟩)
  unfold freeSlots at h
  split_ifs at h <;> simp only [List.mem_append, List.not_mem_nil, false_or] at h
  · rcases h with ((h | h) | h) | h
    · exact hkey pos h
    · exact searched_bag h
    · exact searched_slot h (.inl ⟨le_rfl, le_rfl⟩)
    · exact searched_bag h
  · rcases h with h | h
    · exact searched_slot h (.inl ⟨le_rfl, le_rfl⟩)
    · exact searched_bag h

/-- An entry that stacks can be merged wherever it can be put. -/
theorem freeSlots_subset (hstack : (W.template entry).stackable ≠ 1)
    (h : pos ∈ freeSlots W inv entry) : pos ∈ mergeSlots W inv entry := by
  have hkey : ∀ pos ∈ keySlots W entry, pos ∈ slots keyringSlotStart currencyTokenSlotEnd :=
    fun pos h => mem_slots_iff.2 (mem_keySlots h)
  unfold freeSlots at h
  unfold mergeSlots
  rw [if_pos hstack]
  split_ifs at h ⊢ <;> simp only [List.mem_append, List.not_mem_nil, false_or, or_false] at h ⊢
  · rcases h with ((h | h) | h) | h
    · exact .inl (.inl (.inl (hkey pos h)))
    · exact .inl (.inr h)
    · exact .inl (.inl (.inr h))
    · exact .inr h
  · rcases h with h | h
    · exact .inl (.inr h)
    · exact .inr h

/-! ### Storing new items -/

theorem mem_spaces (h : q ∈ spaces W inv src) :
    Searched W inv q.1 ∧ ∃ merge, needSpace W inv src merge q.1 = some q.2 := by
  rcases List.mem_append.1 h with h | h
  · obtain ⟨hps, hneed⟩ := mem_visible.1 h
    exact ⟨searched_mergeSlots hps, true, hneed⟩
  · obtain ⟨hps, hneed⟩ := mem_visible.1 h
    exact ⟨searched_freeSlots hps, false, hneed⟩

theorem mem_fill_spaces (h : q ∈ fill (spaces W inv src) k) :
    0 < q.2 ∧ Searched W inv q.1 ∧
      ∃ merge need, needSpace W inv src merge q.1 = some need ∧ q.2 ≤ need := by
  have hpos : ∀ r ∈ spaces W inv src, 0 < r.2 := by
    intro r hr
    obtain ⟨-, merge, hneed⟩ := mem_spaces hr
    exact needSpace_pos hneed
  obtain ⟨hlt, n, hn, hle⟩ := mem_fill hpos h
  obtain ⟨hsearched, merge, hneed⟩ := mem_spaces hn
  exact ⟨hlt, hsearched, merge, n, hneed, hle⟩

theorem nodup_fill_spaces : ((fill (spaces W inv src) k).map Prod.fst).Nodup :=
  nodup_spaces.sublist (map_fst_fill_first _ k).sublist

/-- What the search reserves for an object that is not in the inventory. -/
theorem within_spaces (h : Absent inv src) (hk : k ≤ space (spaces W inv src)) :
    Plan.Within (Reserved W inv src) k ⟨fill (spaces W inv src) k, 0⟩ where
  nodup := nodup_fill_spaces
  room q hq := by
    obtain ⟨hlt, hsearched, merge, need, hneed, hle⟩ := mem_fill_spaces hq
    obtain ⟨l, hl, -⟩ := hsearched.located
    exact supplies_reserved (by rw [hl]; rfl) (notInside_absent h q.1) merge need hneed q.2 hlt hle
  total := by
    have hfill := space_fill (spaces W inv src) k
    rw [min_eq_right hk] at hfill
    exact hfill

/-- New items of an entry were stored along a plan; nothing else changed. -/
structure NewlyStored (W : World) (inv inv' : Bags) (entry : ℕ) (dest : List (Pos × ℕ)) : Prop where
  bags : ∀ bag, getBagByPos W inv' bag = getBagByPos W inv bag
  same : ∀ pos, pos ∉ dest.map Prod.fst → getItemByPos W inv' pos = getItemByPos W inv pos
  fresh : ∀ q ∈ dest, getItemByPos W inv q.1 = none → ∃ c, getItemByPos W inv' q.1 = some c ∧
    c.item.entry = entry ∧ c.item.lootGenerated = false ∧ c.count = q.2
  merged : ∀ q ∈ dest, ∀ c, getItemByPos W inv q.1 = some c →
    getItemByPos W inv' q.1 = some (c.withCount (c.count + q.2))

theorem locate_congr (h : ∀ bag, getBagByPos W inv' bag = getBagByPos W inv bag) (pos : Pos) :
    locate W inv' pos = locate W inv pos := by
  unfold locate
  rw [h]

/-- A new object of an entry. -/
def newItem (guid entry : ℕ) : Item := ⟨guid, entry, false, []⟩

theorem absent_newItem (hd : Distinct next inv) : Absent inv (newItem next entry) :=
  fun c hc => Nat.ne_of_lt (hd.lt c hc)

theorem newlyStored (hd : Distinct next inv)
    (hk : k ≤ space (spaces W inv (newItem next entry))) :
    NewlyStored W inv
      (storeItem W (newItem next entry) (next + 1) inv (fill (spaces W inv (newItem next entry)) k)).2
      entry (fill (spaces W inv (newItem next entry)) k) := by
  have habs : Absent inv (newItem next entry) := absent_newItem hd
  have hwithin := within_spaces habs hk
  obtain ⟨hfits, hplace⟩ := fits_of_within (Stock.without_of_forall_ne habs) hd hwithin
  have hsearched : ∀ q ∈ fill (spaces W inv (newItem next entry)) k, Searched W inv q.1 :=
    fun q hq => (mem_fill_spaces hq).2.1
  have hlt : ∀ c ∈ inv, c.item.guid < next + 1 := fun c hc => Nat.lt_succ_of_lt (hd.lt c hc)
  rw [storeItem_eq hplace hlt (Nat.lt_succ_self next)]
  generalize fill (spaces W inv (newItem next entry)) k = dest at hfits hplace hsearched
  -- no bag is among the destinations, so that every position means the same after it
  have hbags : ∀ bag, getBagByPos W (Stock.store (copyOf (newItem next entry)) (newItem next entry)
      (next + 1) inv (places W inv dest)).2 bag = getBagByPos W inv bag := by
    intro bag
    unfold getBagByPos
    split_ifs with hbag
    · rw [Stock.find_store]
      intro hmem
      obtain ⟨r, hr, heq⟩ := List.mem_map.1 hmem
      obtain ⟨q, hq, rfl⟩ := List.mem_map.1 hr
      obtain ⟨l, hl, hne⟩ := (hsearched q hq).located
      exact hne bag hbag ((storeLoc_of_locate hl).symm.trans heq)
    · rfl
  have hat : ∀ q ∈ dest, ∃ l, locate W inv q.1 = some l ∧ (l, q.2) ∈ places W inv dest := by
    intro q hq
    obtain ⟨l, hl, -⟩ := (hsearched q hq).located
    refine ⟨l, hl, List.mem_map.2 ⟨q, hq, ?_⟩⟩
    rw [storeLoc_of_locate hl]
  refine ⟨hbags, fun pos hpos => ?_, fun q hq hget => ?_, fun q hq c hget => ?_⟩
  · unfold getItemByPos
    rw [locate_congr hbags]
    cases hl : locate W inv pos with
    | none => rfl
    | some l =>
      refine Stock.find_store fun hmem => hpos ?_
      obtain ⟨r, hr, rfl⟩ := List.mem_map.1 hmem
      obtain ⟨q, hq, rfl⟩ := List.mem_map.1 hr
      obtain ⟨l', hl', -⟩ := hat q hq
      rw [storeLoc_of_locate hl'] at hl
      rw [locate_inj hd hl hl']
      exact List.mem_map_of_mem hq
  · obtain ⟨l, hl, hmem⟩ := hat q hq
    obtain ⟨j, hj, hfind⟩ := Stock.find_store_of_mem (copyOf (newItem next entry))
      (newItem next entry) (next + 1) inv hfits.nodup hmem
    rw [getItemByPos_of_locate hl] at hget
    rw [hget] at hfind
    rw [getItemByPos_of_locate ((locate_congr hbags _).trans hl)]
    refine ⟨_, hfind, ?_, ?_, rfl⟩
    · rcases hj with rfl | ⟨g, rfl⟩ <;> rfl
    · rcases hj with rfl | ⟨g, rfl⟩ <;> rfl
  · obtain ⟨l, hl, hmem⟩ := hat q hq
    obtain ⟨j, -, hfind⟩ := Stock.find_store_of_mem (copyOf (newItem next entry))
      (newItem next entry) (next + 1) inv hfits.nodup hmem
    rw [getItemByPos_of_locate hl] at hget
    rw [hget] at hfind
    rw [getItemByPos_of_locate ((locate_congr hbags _).trans hl)]
    exact hfind

/-! ### The numbers afterwards -/

section

variable (h : NewlyStored W inv inv' entry dest)
include h

theorem bagSlots_congr (bag : ℕ) : bagSlots W inv' bag = bagSlots W inv bag := by
  unfold bagSlots
  rw [h.bags]

theorem bagsFor_congr (e : ℕ) (plain : Bool) : bagsFor W inv' e plain = bagsFor W inv e plain := by
  unfold bagsFor bagFor
  simp only [h.bags, bagSlots_congr h]

theorem mergeSlots_congr (e : ℕ) : mergeSlots W inv' e = mergeSlots W inv e := by
  unfold mergeSlots
  simp only [bagsFor_congr h]

theorem freeSlots_congr : freeSlots W inv' = freeSlots W inv := by
  funext e
  unfold freeSlots
  simp only [bagsFor_congr h]

theorem countedSlots_congr : countedSlots W inv' = countedSlots W inv := by
  unfold countedSlots allBagSlots
  rw [funext (bagSlots_congr h)]

/-- The units of some entries at some positions, among which are those of the plan. -/
theorem unitsAt_store (p : ℕ → Bool) (hnodup : (dest.map Prod.fst).Nodup)
    (hentry : ∀ q ∈ dest, ∀ c, getItemByPos W inv q.1 = some c → c.item.entry = entry)
    (hps : ps.Nodup) (hsub : ∀ q ∈ dest, q.1 ∈ ps) :
    unitsAt W inv' p ps = unitsAt W inv p ps + if p entry then space dest else 0 := by
  have hat : ∀ pos, (match getItemByPos W inv' pos with
      | some c => if p c.item.entry then c.count else 0
      | none => 0) = (match getItemByPos W inv pos with
      | some c => if p c.item.entry then c.count else 0
      | none => 0) + if p entry then amount dest pos else 0 := by
    intro pos
    by_cases hpos : pos ∈ dest.map Prod.fst
    · obtain ⟨q, hq, rfl⟩ := List.mem_map.1 hpos
      rw [amount_of_mem hnodup hq]
      cases hget : getItemByPos W inv q.1 with
      | none =>
        obtain ⟨c, hc, he, -, hn⟩ := h.fresh q hq hget
        simp [hc, he, hn]
      | some c =>
        rw [h.merged q hq c hget]
        simp only [Cell.withCount, hentry q hq c hget]
        split_ifs <;> rfl
    · rw [h.same pos hpos, amount_of_notMem hpos]
      simp
  unfold unitsAt
  rw [funext hat, List.sum_map_add]
  by_cases hp : p entry = true
  · simp only [hp, if_true]
    rw [sum_amount hps hsub]
  · simp [hp]

/-- The stacks of other entries take what they took. -/
theorem stackRoom_of_ne {e : ℕ} (he : e ≠ entry)
    (hentry : ∀ q ∈ dest, ∀ c, getItemByPos W inv q.1 = some c → c.item.entry = entry) (pos : Pos) :
    stackRoom W inv' e pos = stackRoom W inv e pos := by
  have hzero : ∀ (i : Bags) c, getItemByPos W i pos = some c → c.item.entry = entry →
      stackRoom W i e pos = 0 := by
    intro i c hget hc
    unfold stackRoom
    simp only [hget]
    exact if_neg fun hok => he ((canBeMergedPartlyWith_eq_ok.1 hok).2.1.symm.trans hc)
  by_cases hpos : pos ∈ dest.map Prod.fst
  · obtain ⟨q, hq, rfl⟩ := List.mem_map.1 hpos
    cases hget : getItemByPos W inv q.1 with
    | none =>
      obtain ⟨c, hc, hce, -⟩ := h.fresh q hq hget
      rw [hzero inv' c hc hce]
      unfold stackRoom
      rw [hget]
    | some c =>
      rw [hzero inv c hget (hentry q hq c hget),
        hzero inv' _ (h.merged q hq c hget) (hentry q hq c hget)]
  · unfold stackRoom
    rw [h.same pos hpos]

end

theorem stackRoom_of_stack {c : Cell Loc Item} (hget : getItemByPos W inv pos = some c)
    (hloot : c.item.lootGenerated = false) (he : c.item.entry = entry) :
    stackRoom W inv entry pos = W.maxStack entry - c.count := by
  unfold stackRoom
  simp only [hget]
  by_cases hfull : c.count < W.maxStack entry
  · rw [if_pos (canBeMergedPartlyWith_eq_ok.2 ⟨hloot, he, hfull⟩)]
  · rw [if_neg fun hok => hfull (canBeMergedPartlyWith_eq_ok.1 hok).2.2]
    omega

/-- What is left of empty places of the size `s` in which units were put. -/
def leftOver (s : ℕ) (dest : List (Pos × ℕ)) : List (Pos × ℕ) := dest.map fun q => (q.1, s - q.2)

theorem map_fst_leftOver (s : ℕ) (dest : List (Pos × ℕ)) :
    (leftOver s dest).map Prod.fst = dest.map Prod.fst := by
  unfold leftOver
  rw [List.map_map]
  rfl

theorem space_leftOver {s : ℕ} (h : ∀ q ∈ dest, q.2 ≤ s) :
    space (leftOver s dest) + space dest = s * dest.length := by
  induction dest with
  | nil => rfl
  | cons q dest ih =>
    have hq := h q List.mem_cons_self
    have hrest := ih fun r hr => h r (List.mem_cons_of_mem q hr)
    simp only [leftOver, List.map_cons, space_cons, List.length_cons, Nat.mul_succ] at hrest ⊢
    omega

/-- The stacks of the entry itself: merged units are taken from their room, and new stacks have what
is left of their places. -/
theorem stackRoom_store {merged fresh : List (Pos × ℕ)}
    (h : NewlyStored W inv inv' entry (merged ++ fresh))
    (hnodup : ((merged ++ fresh).map Prod.fst).Nodup)
    (hmerged : ∀ q ∈ merged, ∃ c, getItemByPos W inv q.1 = some c ∧
      canBeMergedPartlyWith W c entry = .ok ∧ c.count + q.2 ≤ W.maxStack entry)
    (hfresh : ∀ q ∈ fresh, getItemByPos W inv q.1 = none) (pos : Pos) :
    stackRoom W inv' entry pos + amount merged pos =
      stackRoom W inv entry pos + amount (leftOver (W.maxStack entry) fresh) pos := by
  rw [List.map_append, List.nodup_append'] at hnodup
  obtain ⟨hm, hf, hdis⟩ := hnodup
  by_cases hposm : pos ∈ merged.map Prod.fst
  · -- a stack that is topped up
    obtain ⟨q, hq, rfl⟩ := List.mem_map.1 hposm
    obtain ⟨c, hget, hok, hle⟩ := hmerged q hq
    rw [amount_of_mem hm hq, amount_of_notMem (by rw [map_fst_leftOver]; exact hdis hposm)]
    obtain ⟨hloot, he, -⟩ := canBeMergedPartlyWith_eq_ok.1 hok
    rw [stackRoom_of_stack hget hloot he,
      stackRoom_of_stack (h.merged q (List.mem_append_left _ hq) c hget) hloot he]
    simp only [Cell.withCount]
    omega
  · rw [amount_of_notMem hposm]
    by_cases hposf : pos ∈ fresh.map Prod.fst
    · -- a new stack
      obtain ⟨q, hq, rfl⟩ := List.mem_map.1 hposf
      obtain ⟨c, hc, he, hloot, hn⟩ := h.fresh q (List.mem_append_right _ hq) (hfresh q hq)
      have hq' : (q.1, W.maxStack entry - q.2) ∈ leftOver (W.maxStack entry) fresh :=
        List.mem_map.2 ⟨q, hq, rfl⟩
      rw [amount_of_mem (by rw [map_fst_leftOver]; exact hf) hq']
      rw [stackRoom_of_stack hc hloot he, hn]
      unfold stackRoom
      rw [hfresh q hq]
      simp
    · rw [amount_of_notMem (by rw [map_fst_leftOver]; exact hposf)]
      have hout : pos ∉ (merged ++ fresh).map Prod.fst := by
        rw [List.map_append, List.mem_append, not_or]
        exact ⟨hposm, hposf⟩
      unfold stackRoom
      rw [h.same pos hout]

/-- The units that are merged with stacks. -/
def mergedUnits (W : World) (inv : Bags) (src : Item) (k : ℕ) : List (Pos × ℕ) :=
  fill (visible W inv src true (mergeSlots W inv src.entry)) k

/-- The units that lie in free slots. -/
def freshUnits (W : World) (inv : Bags) (src : Item) (k : ℕ) : List (Pos × ℕ) :=
  fill (visible W inv src false (freeSlots W inv src.entry))
    (k - (holdings W inv).capacity.room src.entry)

theorem fill_spaces (h : Absent inv src) (k : ℕ) :
    fill (spaces W inv src) k = mergedUnits W inv src k ++ freshUnits W inv src k := by
  rw [spaces, fill_append, space_visible_merge h]
  rfl

theorem mem_mergedUnits (h : Absent inv src) (hq : q ∈ mergedUnits W inv src k) :
    q.1 ∈ mergeSlots W inv src.entry ∧ ∃ c, getItemByPos W inv q.1 = some c ∧
      canBeMergedPartlyWith W c src.entry = .ok ∧ c.count + q.2 ≤ W.maxStack src.entry := by
  obtain ⟨-, n, hn, hle⟩ := mem_fill (fun r hr => visible_pos hr) hq
  obtain ⟨hps, hneed⟩ := mem_visible.1 hn
  refine ⟨hps, ?_⟩
  unfold needSpace at hneed
  rw [otherItemByPos_absent h] at hneed
  cases hget : getItemByPos W inv q.1 with
  | none => simp [hget] at hneed
  | some c =>
    simp only [hget, true_and] at hneed
    split_ifs at hneed with hok
    obtain rfl := Option.some.inj hneed
    have hlt := (canBeMergedPartlyWith_eq_ok.1 hok).2.2
    exact ⟨c, rfl, hok, by omega⟩

theorem mem_freshUnits (h : Absent inv src) (hq : q ∈ freshUnits W inv src k) :
    q.1 ∈ freeSlots W inv src.entry ∧ getItemByPos W inv q.1 = none ∧
      q.2 ≤ W.maxStack src.entry := by
  obtain ⟨-, n, hn, hle⟩ := mem_fill (fun r hr => visible_pos hr) hq
  obtain ⟨hps, hneed⟩ := mem_visible.1 hn
  rw [needSpace_free h] at hneed
  split_ifs at hneed with hfree
  obtain rfl := Option.some.inj hneed
  exact ⟨hps, Option.isNone_iff_eq_none.1 hfree, hle⟩

theorem map_fst_freshUnits (h : Absent inv src) (k : ℕ) :
    (freshUnits W inv src k).map Prod.fst =
      (holdings W inv).capacity.used W.maxStack (freeSlots W inv) src.entry k := by
  rw [freshUnits, visible_free h, map_fst_fill_const (maxStack_pos W _)]
  rfl

/-- The room for the entry afterwards. -/
theorem room_store (habs : Absent inv src) (hk : k ≤ space (spaces W inv src))
    (h : NewlyStored W inv inv' src.entry (fill (spaces W inv src) k)) :
    ((mergeSlots W inv src.entry).map (stackRoom W inv' src.entry)).sum + k =
      (holdings W inv).capacity.room src.entry + W.maxStack src.entry *
        ((holdings W inv).capacity.used W.maxStack (freeSlots W inv) src.entry k).length := by
  by_cases hstack : (W.template src.entry).stackable = 1
  · -- every unit needs a place of its own
    have hmerge : mergeSlots W inv src.entry = [] := if_neg (not_not.2 hstack)
    have hsize : W.maxStack src.entry = 1 := by
      simp [World.maxStack, ItemTemplate.getMaxStackSize, hstack]
    have hroom : (holdings W inv).capacity.room src.entry = 0 := by
      show ((mergeSlots W inv src.entry).map _).sum = 0
      rw [hmerge]
      rfl
    rw [Capacity.length_used _ _ _ _ (maxStack_pos W _) ((space_spaces habs).1 hk), hmerge, hroom,
      hsize]
    simp [needed]
  · have hnodup : ((fill (spaces W inv src) k).map Prod.fst).Nodup := nodup_fill_spaces
    rw [fill_spaces habs] at h hnodup
    -- the merged units take room away, and the new stacks bring some
    have hsum : ((mergeSlots W inv src.entry).map (stackRoom W inv' src.entry)).sum +
        space (mergedUnits W inv src k) = (holdings W inv).capacity.room src.entry +
          space (leftOver (W.maxStack src.entry) (freshUnits W inv src k)) := by
      have hat := stackRoom_store h hnodup (fun q hq => (mem_mergedUnits habs hq).2)
        fun q hq => (mem_freshUnits habs hq).2.1
      have hfresh : ∀ q ∈ leftOver (W.maxStack src.entry) (freshUnits W inv src k),
          q.1 ∈ mergeSlots W inv src.entry := by
        intro q hq
        obtain ⟨r, hr, rfl⟩ := List.mem_map.1 hq
        exact freeSlots_subset hstack (mem_freshUnits habs hr).1
      rw [← sum_amount nodup_mergeSlots fun q hq => (mem_mergedUnits habs hq).1,
        ← sum_amount nodup_mergeSlots hfresh, ← List.sum_map_add, funext hat, List.sum_map_add]
      rfl
    have hmerged := space_fill (visible W inv src true (mergeSlots W inv src.entry)) k
    rw [space_visible_merge habs] at hmerged
    have hsize : ∀ q ∈ freshUnits W inv src k, q.2 ≤ W.maxStack src.entry :=
      fun q hq => (mem_freshUnits habs hq).2.2
    have hleft := space_leftOver hsize
    have hall := space_fill (spaces W inv src) k
    rw [fill_spaces habs, space_append, min_eq_right hk] at hall
    rw [← map_fst_freshUnits habs, List.length_map]
    unfold mergedUnits at hsum hall
    omega

theorem free_store (habs : Absent inv src)
    (h : NewlyStored W inv inv' src.entry (fill (spaces W inv src) k)) (pos : Pos) :
    freeAt W inv' pos = (freeAt W inv pos && decide (pos ∉
      (holdings W inv).capacity.used W.maxStack (freeSlots W inv) src.entry k)) := by
  rw [← map_fst_freshUnits habs]
  rw [fill_spaces habs] at h
  by_cases hfresh : pos ∈ (freshUnits W inv src k).map Prod.fst
  · obtain ⟨q, hq, rfl⟩ := List.mem_map.1 hfresh
    obtain ⟨c, hc, -⟩ := h.fresh q (List.mem_append_right _ hq) (mem_freshUnits habs hq).2.1
    simp [freeAt, hc, hfresh]
  · simp only [hfresh, not_false_eq_true, decide_true, Bool.and_true]
    by_cases hmerged : pos ∈ (mergedUnits W inv src k).map Prod.fst
    · obtain ⟨q, hq, rfl⟩ := List.mem_map.1 hmerged
      obtain ⟨-, c, hc, -⟩ := mem_mergedUnits habs hq
      simp [freeAt, hc, h.merged q (List.mem_append_left _ hq) c hc]
    · unfold freeAt
      rw [h.same pos (by rw [List.map_append, List.mem_append, not_or]; exact ⟨hmerged, hfresh⟩)]

/-- Storing new items where the search puts them is what `give` does to the numbers. -/
theorem holdings_store (hd : Distinct next inv)
    (hk : k ≤ space (spaces W inv (newItem next entry))) :
    holdings W (storeItem W (newItem next entry) (next + 1) inv
      (fill (spaces W inv (newItem next entry)) k)).2 =
        (holdings W inv).give W (freeSlots W inv) entry k := by
  have habs : Absent inv (newItem next entry) := absent_newItem hd
  have h := newlyStored hd hk
  generalize (storeItem W (newItem next entry) (next + 1) inv
    (fill (spaces W inv (newItem next entry)) k)).2 = inv' at h ⊢
  -- a stack that is topped up has the same entry
  have hentry : ∀ q ∈ fill (spaces W inv (newItem next entry)) k, ∀ c,
      getItemByPos W inv q.1 = some c → c.item.entry = entry := by
    intro q hq c hget
    rw [fill_spaces habs] at hq
    rcases List.mem_append.1 hq with hq | hq
    · obtain ⟨-, c', hget', hok, -⟩ := mem_mergedUnits habs hq
      obtain rfl := Option.some.inj (hget.symm.trans hget')
      exact (canBeMergedPartlyWith_eq_ok.1 hok).2.1
    · simp [(mem_freshUnits habs hq).2.1] at hget
  have htotal := space_fill (spaces W inv (newItem next entry)) k
  rw [min_eq_right hk] at htotal
  have hunits : ∀ p, unitsAt W inv' p (countedSlots W inv') =
      unitsAt W inv p (countedSlots W inv) + if p entry then k else 0 := by
    intro p
    rw [countedSlots_congr h, unitsAt_store h p nodup_fill_spaces hentry nodup_countedSlots
      fun q hq => (mem_fill_spaces hq).2.1.counted, htotal]
  have hroom := room_store habs hk h
  have hfree := free_store habs h
  -- room, free places, units of an entry and units of a category
  refine Holdings.ext (Capacity.ext (funext fun e => ?_) (funext fun pos => ?_))
    (funext fun e => ?_) (funext fun category => ?_)
  · rw [room_give, room_holdings, mergeSlots_congr h]
    by_cases he : e = entry
    · subst he
      rw [Function.update_self]
      exact Nat.eq_sub_of_add_eq hroom
    · rw [Function.update_of_ne he, funext (stackRoom_of_ne h he hentry), room_holdings]
  · rw [free_give]
    exact hfree pos
  · rw [held_give, held_holdings, hunits]
    by_cases he : e = entry
    · subst he
      simp [held_holdings]
    · simp [Function.update_of_ne he, Ne.symm he, held_holdings]
  · rw [heldInCategory_give, heldInCategory_holdings, hunits]
    by_cases hc : category = (W.template entry).itemLimitCategory
    · subst hc
      simp [inCategory, heldInCategory_holdings]
    · simp [inCategory, Function.update_of_ne hc, Ne.symm hc, heldInCategory_holdings]

end FaceCore.Storage
