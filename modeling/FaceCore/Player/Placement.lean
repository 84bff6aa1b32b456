import FaceCore.Player.Storage

/-!
# Items are stored with all their units

What the search of `CanStoreItem` finds, and what `StoreItem` does with it.

* `Reserved`, `Finds`: a block of the search reserves only what there is room for;
* `canStoreItem_ok`, `canStoreItem_swap`: the plan of `CanStoreItem`;
* `Lifted`: the inventory once the object that is moved left its place, which is what the search
  pretends;
* `storeItem_spec`: the object is stored with all its units and no stack outgrows its size.
-/

namespace FaceCore.Storage

/-! ### What the search finds -/

section

variable {W : World} {inv inv₀ : Bags} {src : Item} {pos pos' : Pos} {l : Loc} {b c : Cell Loc Item}
  {n k next : ℕ} {merge : Bool} {plan plan' : Plan Pos} {dest : List (Pos × ℕ)}

/-- The position is not a slot of the bag `src`. -/
def NotInside (W : World) (inv : Bags) (src : Item) (pos : Pos) : Prop :=
  ∀ b, getBagByPos W inv pos.1 = some b → b.item.guid ≠ src.guid

/-- At a position there is room for `k` units of `src` once `src` left its own place. -/
structure Reserved (W : World) (inv : Bags) (src : Item) (pos : Pos) (k : ℕ) : Prop where
  count_pos : 0 < k
  le : k ≤ W.maxStack src.entry
  located : (locate W inv pos).isSome
  notInside : NotInside W inv src pos
  other : ∀ c, otherItemByPos W inv src pos = some c →
    c.item.entry = src.entry ∧ c.count + k ≤ W.maxStack src.entry

theorem maxStack_pos (W : World) (entry : ℕ) : 0 < W.maxStack entry := by
  unfold World.maxStack ItemTemplate.getMaxStackSize
  split_ifs with h
  · decide
  · rw [not_or] at h
    omega

theorem canBeMergedPartlyWith_ok (h : canBeMergedPartlyWith W c src.entry = .ok) :
    c.item.entry = src.entry ∧ c.count < W.maxStack src.entry := by
  unfold canBeMergedPartlyWith at h
  split_ifs at h with h1 h2 h3
  exact ⟨not_not.1 h2, not_le.1 h3⟩

/-- A place that the search considers has room for every part of its free space. -/
theorem reserved_of_needSpace {need : ℕ} (hloc : (locate W inv pos).isSome)
    (hin : NotInside W inv src pos) (h : needSpace W inv src merge pos = some need) :
    0 < need ∧ ∀ k, 0 < k → k ≤ need → Reserved W inv src pos k := by
  unfold needSpace at h
  cases ho : otherItemByPos W inv src pos with
  | none =>
    rw [ho] at h
    cases merge with
    | true => cases h
    | false =>
      obtain rfl : W.maxStack src.entry = need := Option.some.inj h
      refine ⟨maxStack_pos W _, fun k hk hle => ⟨hk, hle, hloc, hin, fun c hc => ?_⟩⟩
      rw [ho] at hc
      cases hc
  | some c =>
    simp only [ho] at h
    split_ifs at h with hm
    obtain ⟨hentry, hlt⟩ := canBeMergedPartlyWith_ok hm.2
    obtain rfl := Option.some.inj h
    refine ⟨Nat.sub_pos_of_lt hlt, fun k hk hle => ?_⟩
    refine ⟨hk, Nat.le_trans hle (Nat.sub_le _ _), hloc, hin, fun c' hc' => ?_⟩
    obtain rfl : c = c' := Option.some.inj (ho.symm.trans hc')
    exact ⟨hentry, by omega⟩

theorem needSpace_pos {need : ℕ} (h : needSpace W inv src merge pos = some need) : 0 < need := by
  unfold needSpace at h
  cases ho : otherItemByPos W inv src pos with
  | none =>
    simp only [ho] at h
    split_ifs at h
    exact Option.some.inj h ▸ maxStack_pos W _
  | some c =>
    simp only [ho] at h
    split_ifs at h with hm
    exact Option.some.inj h ▸ Nat.sub_pos_of_lt (canBeMergedPartlyWith_ok hm.2).2

/-- Every part of the space that the search sees at a place is room. -/
def Supplies (W : World) (inv : Bags) (src : Item) (room : Pos → ℕ → Prop) (pos : Pos) : Prop :=
  ∀ merge need, needSpace W inv src merge pos = some need → ∀ k, 0 < k → k ≤ need → room pos k

theorem supplies_reserved (hloc : (locate W inv pos).isSome) (hin : NotInside W inv src pos) :
    Supplies W inv src (Reserved W inv src) pos :=
  fun _ _ hneed => (reserved_of_needSpace hloc hin hneed).2

/-- The loop over positions reserves room only. -/
theorem reserveIn_within {room : Pos → ℕ → Prop} {ps : List Pos} (h : plan.Within room n)
    (hpos : 0 < plan.count) (hps : ∀ pos ∈ ps, Supplies W inv src room pos) :
    (reserveIn W inv src merge ps plan).Within room n := by
  induction ps generalizing plan with
  | nil => exact h
  | cons pos ps ih =>
    have hrest := fun p hp => hps p (List.mem_cons_of_mem pos hp)
    unfold reserveIn
    cases hneed : needSpace W inv src merge pos with
    | none => exact ih h hpos hrest
    | some need =>
      have hlt := needSpace_pos hneed
      have hroom := hps pos List.mem_cons_self merge need hneed
      simp only
      split_ifs with hmem hzero
      · exact ih h hpos hrest
      · exact h.push hmem (hroom _ (lt_min hlt hpos) (min_le_left _ _))
      · exact ih (h.push hmem (hroom _ (lt_min hlt hpos) (min_le_left _ _)))
          (Nat.pos_of_ne_zero hzero) hrest

theorem locate_slot {slot : ℕ} (h : isItemSlot slot = true) :
    locate W inv (inventorySlotBag0, slot) = some (.slot slot) := by
  unfold locate
  rw [if_pos ⟨rfl, h⟩]

theorem getBagByPos_bag0 : getBagByPos W inv inventorySlotBag0 = none := rfl

theorem notInside_slot {slot : ℕ} : NotInside W inv src (inventorySlotBag0, slot) := by
  intro b hb
  rw [getBagByPos_bag0] at hb
  cases hb

theorem mem_slots {a e : ℕ} (h : pos ∈ slots a e) :
    pos.1 = inventorySlotBag0 ∧ a ≤ pos.2 ∧ pos.2 < e := by
  unfold slots at h
  obtain ⟨j, hj, rfl⟩ := List.mem_map.1 h
  rw [List.mem_range'_1] at hj
  refine ⟨rfl, hj.1, ?_⟩
  show j < e
  omega

theorem mem_bagSlots {bag : ℕ} (hb : getBagByPos W inv bag = some b) (h : pos ∈ bagSlots W inv bag) :
    pos.1 = bag ∧ pos.2 < W.getBagSize b.item := by
  unfold bagSlots at h
  rw [hb] at h
  obtain ⟨j, hj, rfl⟩ := List.mem_map.1 h
  exact ⟨rfl, List.mem_range.1 hj⟩

theorem mem_bagSlots_iff {bag : ℕ} : pos ∈ bagSlots W inv bag ↔
    pos.1 = bag ∧ ∃ b, getBagByPos W inv bag = some b ∧ pos.2 < W.getBagSize b.item := by
  constructor
  · intro h
    cases hb : getBagByPos W inv bag with
    | none => simp [bagSlots, hb] at h
    | some b => exact ⟨(mem_bagSlots hb h).1, b, rfl, (mem_bagSlots hb h).2⟩
  · rintro ⟨rfl, b, hb, hlt⟩
    unfold bagSlots
    rw [hb]
    exact List.mem_map.2 ⟨pos.2, List.mem_range.2 hlt, rfl⟩

theorem nodup_bagSlots (bag : ℕ) : (bagSlots W inv bag).Nodup := by
  unfold bagSlots
  cases getBagByPos W inv bag with
  | none => exact List.nodup_nil
  | some b => exact List.nodup_range.map fun _ _ h => (Prod.mk.inj h).2

theorem nodup_flatMap_bagSlots {bags : List ℕ} {f : ℕ → List Pos} (hbags : bags.Nodup)
    (hf : ∀ bag, (f bag).Sublist (bagSlots W inv bag)) : (bags.flatMap f).Nodup := by
  refine List.nodup_flatMap.2 ⟨fun bag _ => (nodup_bagSlots bag).sublist (hf bag), ?_⟩
  refine List.Pairwise.imp (R := (· ≠ ·)) (fun hab pos ha hb => hab ?_) hbags
  rw [← (mem_bagSlots_iff.1 ((hf _).subset ha)).1, ← (mem_bagSlots_iff.1 ((hf _).subset hb)).1]

theorem bag_ne_bag0 {bag : ℕ} (hb : getBagByPos W inv bag = some b) : bag ≠ inventorySlotBag0 := by
  rintro rfl
  rw [getBagByPos_bag0] at hb
  cases hb

theorem locate_bag (hb : getBagByPos W inv pos.1 = some b) (hlt : pos.2 < W.getBagSize b.item) :
    locate W inv pos = some (.inBag b.item.guid pos.2) := by
  unfold locate
  rw [if_neg fun h => bag_ne_bag0 hb h.1, hb]
  exact if_pos hlt

/-! ### The blocks keep a plan within the room -/

/-- A search for places finds places with room. -/
def Finds (room : Pos → ℕ → Prop) (n : ℕ)
    (find : Plan Pos → Except InventoryResult (Plan Pos)) : Prop :=
  ∀ plan plan', 0 < plan.count → plan.Within room n → find plan = .ok plan' → plan'.Within room n

/-- The searches of a block find places with room. -/
def Stage.Finds (room : Pos → ℕ → Prop) (n : ℕ) : Stage → Prop
  | .search _ find => Storage.Finds room n find
  | .refuse _ => True

/-- There is room at every place outside of `src`. -/
def SuppliesOutside (W : World) (inv : Bags) (src : Item) (room : Pos → ℕ → Prop) : Prop :=
  ∀ pos, (locate W inv pos).isSome → NotInside W inv src pos → Supplies W inv src room pos

variable {room : Pos → ℕ → Prop}

theorem finds_slots {a e : ℕ} {skip : Pos} (hroom : SuppliesOutside W inv src room)
    (hslots : ∀ j, a ≤ j → j < e → isItemSlot j = true) :
    Finds room n (canStoreItemInInventorySlots W inv a e merge src skip) := by
  intro plan plan' hpos h hfind
  unfold canStoreItemInInventorySlots at hfind
  split_ifs at hfind
  obtain rfl := Except.ok.inj hfind
  refine reserveIn_within h hpos fun pos hp => ?_
  obtain ⟨hbag, ha, he⟩ := mem_slots (List.mem_of_mem_filter hp)
  obtain ⟨bag, slot⟩ := pos
  obtain rfl : bag = inventorySlotBag0 := hbag
  refine hroom _ ?_ notInside_slot
  rw [locate_slot (hslots slot ha he)]
  rfl

theorem finds_bag {bag : ℕ} {nonSpecialized : Bool} {skip : Pos}
    (hroom : SuppliesOutside W inv src room) :
    Finds room n (canStoreItemInBag W inv bag merge nonSpecialized src skip) := by
  intro plan plan' hpos h hfind
  unfold canStoreItemInBag at hfind
  by_cases hskip : bag = skip.1
  · rw [if_pos hskip] at hfind
    cases hfind
  rw [if_neg hskip] at hfind
  cases hb : getBagByPos W inv bag with
  | none =>
    rw [hb] at hfind
    cases hfind
  | some b =>
    simp only [hb] at hfind
    split_ifs at hfind with hself
    obtain rfl := Except.ok.inj hfind
    refine reserveIn_within h hpos fun pos hp => ?_
    obtain ⟨rfl, hlt⟩ := mem_bagSlots hb (List.mem_of_mem_filter hp)
    refine hroom _ ?_ fun b' hb' => ?_
    · rw [locate_bag hb hlt]
      rfl
    · obtain rfl : b = b' := Option.some.inj (hb.symm.trans hb')
      exact hself

/-- A position whose slot fits an item is a place. -/
theorem locate_of_fitsToSlot (h : fitsToSlot W inv src pos = true) :
    (locate W inv pos).isSome := by
  unfold fitsToSlot at h
  split_ifs at h with hbag
  · obtain ⟨bag, slot⟩ := pos
    obtain rfl : bag = inventorySlotBag0 := hbag
    have hslot : isItemSlot slot = true := by
      rw [Bool.and_eq_true, Bool.not_eq_true', Bool.or_eq_false_iff, Bool.and_eq_false_iff] at h
      obtain ⟨-, hbuyback, hend⟩ := h
      rw [decide_eq_false_iff_not, decide_eq_false_iff_not] at hbuyback
      rw [decide_eq_false_iff_not] at hend
      unfold buybackSlotStart buybackSlotEnd at hbuyback
      unfold playerSlotEnd at hend
      simp only [isItemSlot, Bool.or_eq_true, Bool.and_eq_true, decide_eq_true_eq]
      unfold bankSlotBagEnd keyringSlotStart currencyTokenSlotEnd
      omega
    rw [locate_slot hslot]
    rfl
  · cases hb : getBagByPos W inv pos.1 with
    | none =>
      rw [hb] at h
      cases h
    | some b =>
      simp only [hb, Bool.and_eq_true, decide_eq_true_eq] at h
      rw [locate_bag hb h.1]
      rfl

theorem otherItemByPos_isSome (h : otherItemByPos W inv src pos = some c) :
    (locate W inv pos).isSome := by
  unfold otherItemByPos getItemByPos at h
  cases hl : locate W inv pos with
  | none =>
    rw [hl] at h
    cases h
  | some l => rfl

theorem finds_specific (hspecific : (locate W inv pos).isSome → Supplies W inv src room pos) :
    Finds room n (canStoreItemInSpecificSlot W inv pos false src) := by
  intro plan plan' hpos h hfind
  unfold canStoreItemInSpecificSlot at hfind
  by_cases hempty : (isNotEmptyBag W inv src && !isBagPos pos) = true
  · rw [if_pos hempty] at hfind
    cases hfind
  rw [if_neg hempty] at hfind
  have hroom : ∀ need, needSpace W inv src (otherItemByPos W inv src pos).isSome pos = some need →
      (locate W inv pos).isSome → (plan.reserve pos need).Within room n := by
    intro need hneed hloc
    have hres := hspecific hloc _ need hneed
    exact h.reserve (hres _ (lt_min (needSpace_pos hneed) hpos) (min_le_left _ _))
  cases ho : otherItemByPos W inv src pos with
  | none =>
    simp only [ho] at hfind
    by_cases hfit : fitsToSlot W inv src pos = true
    · rw [if_pos hfit] at hfind
      obtain rfl := Except.ok.inj hfind
      exact hroom _ (by simp [needSpace, ho]) (locate_of_fitsToSlot hfit)
    · rw [if_neg hfit] at hfind
      cases hfind
  | some c =>
    simp only [ho] at hfind
    cases hm : canBeMergedPartlyWith W c src.entry with
    | ok =>
      simp only [hm, Except.ok.injEq] at hfind
      obtain rfl := hfind
      exact hroom _ (by simp [needSpace, ho, hm]) (otherItemByPos_isSome ho)
    | _ =>
      simp only [hm] at hfind
      cases hfind

theorem isItemSlot_range {a e : ℕ} (h : e ≤ bankSlotBagEnd ∨
    keyringSlotStart ≤ a ∧ e ≤ currencyTokenSlotEnd) (j : ℕ) (ha : a ≤ j) (he : j < e) :
    isItemSlot j = true := by
  simp only [isItemSlot, Bool.or_eq_true, Bool.and_eq_true, decide_eq_true_eq]
  omega

theorem finds_inSlots {a e : ℕ} {skip : Pos} (hroom : SuppliesOutside W inv src room)
    (h : e ≤ bankSlotBagEnd ∨ keyringSlotStart ≤ a ∧ e ≤ currencyTokenSlotEnd) :
    (inSlots W inv src skip merge a e).Finds room n :=
  finds_slots hroom (isItemSlot_range h)

theorem finds_inBag (hroom : SuppliesOutside W inv src room) :
    (inBag W inv src pos merge).Finds room n := by
  intro plan plan' hpos h hfind
  simp only at hfind
  cases hs : canStoreItemInBag W inv pos.1 merge false src (nullBag, pos.2) plan with
  | ok plan'' =>
    rw [hs] at hfind
    obtain rfl := Except.ok.inj hfind
    exact finds_bag hroom plan plan'' hpos h hs
  | error res =>
    rw [hs] at hfind
    exact finds_bag hroom plan plan' hpos h hfind

theorem finds_inBags {nonSpecialized : Bool} {a e : ℕ} {skip : Pos} {st : Stage}
    (hroom : SuppliesOutside W inv src room)
    (h : st ∈ inBags W inv src skip merge nonSpecialized a e) : st.Finds room n := by
  unfold inBags at h
  obtain ⟨bag, _, rfl⟩ := List.mem_map.1 h
  exact finds_bag hroom

theorem finds_inKeysOrTokens {skip : Pos} {specificBag : Bool} {st : Stage}
    (hroom : SuppliesOutside W inv src room)
    (h : st ∈ inKeysOrTokens W inv src skip specificBag) : st.Finds room n := by
  unfold inKeysOrTokens at h
  have hkeys : (inSlots W inv src skip false keyringSlotStart
      (keyringSlotStart + getMaxKeyringSize)).Finds room n :=
    finds_inSlots hroom (Or.inr ⟨le_rfl, by decide⟩)
  have htokens : (inSlots W inv src skip false currencyTokenSlotStart
      currencyTokenSlotEnd).Finds room n :=
    finds_inSlots hroom (Or.inr ⟨by decide, le_rfl⟩)
  split_ifs at h
  · rcases List.mem_cons.1 h with rfl | h
    · exact hkeys
    · rw [List.mem_singleton.1 h]
      exact htokens
  · rw [List.mem_singleton.1 h]
    exact hkeys
  · rw [List.mem_singleton.1 h]
    exact htokens
  · cases h

/-- Every block of `CanStoreItem` without swap finds places with room. -/
theorem finds_canStoreItemStages {st : Stage} (hroom : SuppliesOutside W inv src room)
    (hspecific : (locate W inv pos).isSome → Supplies W inv src room pos)
    (h : st ∈ canStoreItemStages W inv src pos false) : st.Finds room n := by
  have hkeys : (inSlots W inv src pos true keyringSlotStart currencyTokenSlotEnd).Finds room n :=
    finds_inSlots hroom (Or.inr ⟨le_rfl, le_rfl⟩)
  have hitems : ∀ m, (inSlots W inv src pos m inventorySlotItemStart inventorySlotItemEnd).Finds
      room n := fun m => finds_inSlots hroom (Or.inl (by decide))
  unfold canStoreItemStages at h
  simp only [List.mem_append] at h
  rcases h with (((((h | h) | h) | h) | h) | h) | h
  · split_ifs at h
    · rw [List.mem_singleton.1 h]
      exact finds_specific hspecific
    · cases h
  · split_ifs at h <;> simp only [List.mem_append, List.mem_cons, List.not_mem_nil, or_false,
      false_or] at h
    · rcases h with (rfl | rfl) | h | rfl
      · exact hkeys
      · exact hitems true
      · exact finds_inKeysOrTokens hroom h
      · exact hitems false
    · rcases h with rfl | rfl
      · exact finds_inBag hroom
      · exact finds_inBag hroom
    · rcases h with h | rfl
      · exact finds_inKeysOrTokens hroom h
      · exact hitems false
    · rw [h]
      exact finds_inBag hroom
  · split_ifs at h <;> simp only [List.mem_append, List.mem_cons, List.not_mem_nil, or_false] at h
    · rcases h with ((rfl | rfl) | h) | h
      · exact hkeys
      · exact hitems true
      · exact finds_inBags hroom h
      · exact finds_inBags hroom h
    · rcases h with (rfl | rfl) | h
      · exact hkeys
      · exact hitems true
      · exact finds_inBags hroom h
  · split_ifs at h
    · rcases List.mem_append.1 h with h | h
      · exact finds_inKeysOrTokens hroom h
      · exact finds_inBags hroom h
    · cases h
  · rw [List.mem_singleton.1 h]
    trivial
  · rw [List.mem_singleton.1 h]
    exact hitems false
  · exact finds_inBags hroom h

/-- A search through blocks that find places with room: in the end every unit has a place. -/
theorem runStages_within {full : InventoryResult} {noSimilarCount : ℕ} {stages : List Stage}
    (hst : ∀ st ∈ stages, st.Finds room n) (hpos : 0 < plan.count) (h : plan.Within room n)
    (hrun : runStages full noSimilarCount stages plan = .ok dest) :
    Plan.Within room n ⟨dest, 0⟩ ∧ noSimilarCount = 0 := by
  induction stages generalizing plan with
  | nil => cases hrun
  | cons st stages ih =>
    have hrest := fun s hs => hst s (List.mem_cons_of_mem st hs)
    have hhead := hst st List.mem_cons_self
    cases st with
    | refuse res =>
      cases res with
      | none => exact ih hrest hpos h hrun
      | some res => cases hrun
    | search fatal find =>
      unfold runStages at hrun
      cases hfind : find plan with
      | error res =>
        simp only [hfind] at hrun
        split_ifs at hrun
        exact ih hrest hpos h hrun
      | ok plan' =>
        simp only [hfind] at hrun
        have hw : plan'.Within room n := hhead plan plan' hpos h hfind
        split_ifs at hrun with hzero hno
        · obtain rfl := Except.ok.inj hrun
          refine ⟨⟨hw.nodup, hw.room, ?_⟩, hno⟩
          rw [← hw.total, hzero]
        · exact ih hrest (Nat.pos_of_ne_zero hzero) hw hrun

theorem noSimilarCount_of_runStages {full : InventoryResult} {noSimilarCount : ℕ}
    {stages : List Stage} (hrun : runStages full noSimilarCount stages plan = .ok dest) :
    noSimilarCount = 0 := by
  induction stages generalizing plan with
  | nil => cases hrun
  | cons st stages ih =>
    cases st with
    | refuse res =>
      cases res with
      | none => exact ih hrun
      | some res => cases hrun
    | search fatal find =>
      unfold runStages at hrun
      cases hfind : find plan with
      | error res =>
        simp only [hfind] at hrun
        split_ifs at hrun
        exact ih hrun
      | ok plan' =>
        simp only [hfind] at hrun
        split_ifs at hrun with hzero hno
        · exact hno
        · exact ih hrun

/-- When `CanStoreItem` answers a plan, the search started with all units. -/
theorem runStages_of_canStoreItem {swap : Bool} (h : canStoreItem W inv src pos k swap = .ok dest) :
    runStages .inventoryFull 0 (canStoreItemStages W inv src pos swap) ⟨[], k⟩ = .ok dest := by
  unfold canStoreItem at h
  split_ifs at h
  simp only at h
  split_ifs at h with hres
  all_goals
    have hno := noSimilarCount_of_runStages h
    rw [hno] at h
    exact h

theorem canStoreItem_ok (hin : NotInside W inv src pos) (hk : 0 < k)
    (h : canStoreItem W inv src pos k false = .ok dest) :
    Plan.Within (Reserved W inv src) k ⟨dest, 0⟩ :=
  (runStages_within (fun _ hst => finds_canStoreItemStages (fun _ => supplies_reserved)
    (fun hloc => supplies_reserved hloc hin) hst) hk Plan.within_start
    (runStages_of_canStoreItem h)).1

/-- A search with swap at a slot ends there, with all units, if the item fits to it. -/
theorem runStages_swap {full : InventoryResult} {noSimilarCount : ℕ} {stages : List Stage}
    (hle : k ≤ W.maxStack src.entry)
    (h : runStages full noSimilarCount
      (.search true (canStoreItemInSpecificSlot W inv pos true src) :: stages) ⟨[], k⟩ = .ok dest) :
    dest = [(pos, k)] ∧ fitsToSlot W inv src pos = true := by
  have hfind : canStoreItemInSpecificSlot W inv pos true src ⟨[], k⟩ =
      if (isNotEmptyBag W inv src && !isBagPos pos) = true then .error .canOnlyDoWithEmptyBags
      else if fitsToSlot W inv src pos then .ok ⟨[(pos, k)], 0⟩
      else .error .itemDoesntGoIntoBag := by
    unfold canStoreItemInSpecificSlot
    simp only [Plan.reserve_start, min_eq_right hle, Nat.sub_self]
    cases otherItemByPos W inv src pos <;> rfl
  unfold runStages at h
  rw [hfind] at h
  by_cases hempty : (isNotEmptyBag W inv src && !isBagPos pos) = true
  · rw [if_pos hempty] at h
    cases h
  rw [if_neg hempty] at h
  by_cases hfit : fitsToSlot W inv src pos = true
  · rw [if_pos hfit] at h
    simp only [if_true] at h
    split_ifs at h
    exact ⟨(Except.ok.inj h).symm, hfit⟩
  · rw [if_neg hfit] at h
    cases h

/-- What it answers with swap at a slot: that slot, for all units. -/
theorem canStoreItem_swap (hbag : pos.1 ≠ nullBag) (hslot : pos.2 ≠ nullSlot)
    (hle : k ≤ W.maxStack src.entry) (h : canStoreItem W inv src pos k true = .ok dest) :
    dest = [(pos, k)] ∧ fitsToSlot W inv src pos = true := by
  have hrun := runStages_of_canStoreItem h
  unfold canStoreItemStages at hrun
  rw [if_pos ⟨hbag, hslot⟩] at hrun
  exact runStages_swap hle hrun

/-! ### Executing the plan -/

/-- `inv₀` holds the items of `inv` without the object `src`. -/
abbrev Lifted (src : Item) (inv inv₀ : Bags) : Prop := Stock.Without Item.guid src.guid inv inv₀

/-- The items are told apart by their guids. -/
abbrev Distinct (next : ℕ) (inv : Bags) : Prop := Stock.Fresh Item.guid next inv

theorem getBagByPos_eq_some {bag : ℕ} : getBagByPos W inv bag = some b ↔
    ((inventorySlotBagStart ≤ bag ∧ bag < inventorySlotBagEnd) ∨
      (bankSlotBagStart ≤ bag ∧ bag < bankSlotBagEnd)) ∧
      inv.find (.slot bag) = some b ∧ W.isBag b.item = true := by
  unfold getBagByPos
  split_ifs with h
  · rw [Option.filter_eq_some_iff]
    exact ⟨fun hb => ⟨h, hb⟩, fun hb => hb.2⟩
  · exact ⟨False.elim, fun hb => absurd hb.1 h⟩

/-- A place is a slot of `m_items` or a slot of the bag at a bag position. -/
theorem locate_eq_some : locate W inv pos = some l ↔
    (pos.1 = inventorySlotBag0 ∧ isItemSlot pos.2 = true ∧ l = .slot pos.2) ∨
      ∃ b, getBagByPos W inv pos.1 = some b ∧ pos.2 < W.getBagSize b.item ∧
        l = .inBag b.item.guid pos.2 := by
  constructor
  · intro h
    unfold locate at h
    split_ifs at h with hslot
    · exact Or.inl ⟨hslot.1, hslot.2, (Option.some.inj h).symm⟩
    · cases hb : getBagByPos W inv pos.1 with
      | none =>
        rw [hb] at h
        cases h
      | some b =>
        simp only [hb] at h
        split_ifs at h with hlt
        exact Or.inr ⟨b, rfl, hlt, (Option.some.inj h).symm⟩
  · rintro (⟨hbag, hslot, rfl⟩ | ⟨b, hb, hlt, rfl⟩)
    · unfold locate
      rw [if_pos ⟨hbag, hslot⟩]
    · exact locate_bag hb hlt

theorem otherItemByPos_eq (h : Lifted src inv inv₀) (hl : locate W inv pos = some l) :
    otherItemByPos W inv src pos = inv₀.find l := by
  unfold otherItemByPos getItemByPos
  rw [hl, h l]
  rfl

theorem locate_lifted (h : Lifted src inv inv₀) (hl : locate W inv pos = some l)
    (hin : NotInside W inv src pos) : locate W inv₀ pos = some l := by
  rw [locate_eq_some] at hl ⊢
  rcases hl with hl | ⟨b, hb, hlt, rfl⟩
  · exact Or.inl hl
  · have hguid := hin b hb
    rw [getBagByPos_eq_some] at hb
    refine Or.inr ⟨b, getBagByPos_eq_some.2 ⟨hb.1, ?_, hb.2.2⟩, hlt, rfl⟩
    rw [h, hb.2.1, Option.filter_some, if_pos (decide_eq_true hguid)]

theorem slot_of_locate (hl : locate W inv pos = some l) : pos.1 ≠ nullBag ∧ pos.2 ≠ nullSlot := by
  rcases locate_eq_some.1 hl with ⟨hbag, hslot, _⟩ | ⟨b, hb, hlt, _⟩
  · rw [hbag]
    refine ⟨by decide, fun h => ?_⟩
    rw [h] at hslot
    exact absurd hslot (by decide)
  · have hrange := (getBagByPos_eq_some.1 hb).1
    have hsize := (W.proto b.item).containerSlots_le
    unfold World.getBagSize at hlt
    unfold inventorySlotBagStart inventorySlotBagEnd bankSlotBagStart bankSlotBagEnd at hrange
    unfold nullBag nullSlot
    omega

theorem storeLoc_of_locate (hl : locate W inv pos = some l) : storeLoc W inv pos = l := by
  unfold storeLoc
  rcases locate_eq_some.1 hl with ⟨hbag, _, rfl⟩ | ⟨b, hb, _, rfl⟩
  · rw [if_pos hbag]
  · rw [if_neg (bag_ne_bag0 hb), hb]

theorem getItemByPos_of_locate (hl : locate W inv pos = some l) :
    getItemByPos W inv pos = inv.find l := by
  unfold getItemByPos
  rw [hl]
  rfl

theorem locate_inj (hd : Distinct next inv) (hl : locate W inv pos = some l)
    (hl' : locate W inv pos' = some l) : pos = pos' := by
  rcases locate_eq_some.1 hl with ⟨h1, _, rfl⟩ | ⟨b, hb, _, rfl⟩
  · rcases locate_eq_some.1 hl' with ⟨h2, _, heq⟩ | ⟨b', _, _, heq⟩
    · exact Prod.ext (h1.trans h2.symm) (Loc.slot.inj heq)
    · cases heq
  · rcases locate_eq_some.1 hl' with ⟨_, _, heq⟩ | ⟨b', hb', _, heq⟩
    · cases heq
    · obtain ⟨hguid, hslot⟩ := Loc.inBag.inj heq
      have hm := Table.of_find (getBagByPos_eq_some.1 hb).2.1
      have hm' := Table.of_find (getBagByPos_eq_some.1 hb').2.1
      have hbb : b = b' := hd.eq_of_id hm.1 hm'.1 hguid
      refine Prod.ext (Loc.slot.inj ?_) hslot
      rw [← hm.2, ← hm'.2, hbb]

/-- Units put somewhere leave the bags where they are. -/
theorem getBagByPos_put {bag : ℕ} (k : ℕ) (l' : Loc) (i : Item)
    (hb : getBagByPos W inv bag = some b) :
    ∃ m, getBagByPos W (inv.put l' i k) bag = some (b.withCount m) := by
  rw [getBagByPos_eq_some] at hb
  obtain ⟨hpos, hfind, hbag⟩ := hb
  by_cases hl' : Loc.slot bag = l'
  · refine ⟨b.count + k, getBagByPos_eq_some.2 ⟨hpos, ?_, hbag⟩⟩
    rw [Stock.find_put, if_pos hl', ← hl', hfind]
  · refine ⟨b.count, getBagByPos_eq_some.2 ⟨hpos, ?_, hbag⟩⟩
    rw [Stock.find_put_of_ne hl', hfind]
    rfl

theorem locate_put {l' : Loc} {i : Item} (hl : locate W inv pos = some l) :
    locate W (inv.put l' i k) pos = some l := by
  rw [locate_eq_some] at hl ⊢
  rcases hl with hl | ⟨b, hb, hlt, rfl⟩
  · exact Or.inl hl
  · obtain ⟨m, hb'⟩ := getBagByPos_put k l' i hb
    exact Or.inr ⟨_, hb', hlt, rfl⟩

/-- The places of the positions of a plan. -/
def places (W : World) (inv : Bags) (dest : List (Pos × ℕ)) : List (Loc × ℕ) :=
  dest.map fun q => (storeLoc W inv q.1, q.2)

/-- A copy of an item object with the given guid. -/
def copyOf (item : Item) (guid : ℕ) : Item := ⟨guid, item.entry, false, []⟩

/-- The positions of a plan are places, and none is a slot of `src` itself. -/
def Placeable (W : World) (inv : Bags) (src : Item) (dest : List (Pos × ℕ)) : Prop :=
  ∀ q ∈ dest, (locate W inv q.1).isSome ∧ NotInside W inv src q.1 ∧ 0 < q.2 ∧
    q.2 ≤ W.maxStack src.entry

theorem place_eq {item : Item} (hl : locate W inv pos = some l) (hfree : inv.find l = none)
    (hin : ∀ b, getBagByPos W inv pos.1 = some b → b.item.guid ≠ item.guid) :
    place W inv pos item k = inv.put l item k := by
  unfold place
  rw [storeLoc_of_locate hl, Stock.put, hfree]
  rcases locate_eq_some.1 hl with ⟨_, _, rfl⟩ | ⟨b, hb, _, rfl⟩
  · rfl
  · simp only [Ne.symm (hin b hb), ne_eq, not_false_eq_true, if_true]

/-- `_StoreItem` at a place. -/
theorem storeItemAt_eq {clone : Bool} (hl : locate W inv pos = some l)
    (hin : NotInside W inv src pos) (hk : 0 < k) (hle : k ≤ W.maxStack src.entry)
    (hlt : ∀ c ∈ inv, c.item.guid < next) :
    storeItemAt W next inv pos src k clone =
      if clone = true ∧ inv.find l = none then (next + 1, inv.put l (copyOf src next) k)
      else (next, inv.put l src k) := by
  unfold storeItemAt
  rw [getItemByPos_of_locate hl]
  cases hf : inv.find l with
  | some c =>
    simp only [Stock.put, hf, (Table.of_find hf).2, reduceCtorEq, and_false, if_false]
  | none =>
    cases clone with
    | false => simp [place_eq hl hf hin]
    | true =>
      have hnew : ∀ b, getBagByPos W inv pos.1 = some b → b.item.guid ≠ (copyOf src next).guid :=
        fun b hb => Nat.ne_of_lt (hlt b (Table.of_find (getBagByPos_eq_some.1 hb).2.1).1)
      have hcopy : cloneItem W src k next = some (copyOf src next, k) := by
        unfold cloneItem copyOf
        rw [if_neg (by omega), min_eq_left hle]
      simp [hcopy, place_eq hl hf hnew]

theorem guid_lt_put {i : Item} {m : ℕ} (hlt : ∀ c ∈ inv, c.item.guid < m) (hi : i.guid < m) :
    ∀ c ∈ inv.put l i k, c.item.guid < m := by
  unfold Stock.put
  cases inv.find l with
  | none =>
    intro c hc
    rcases Table.mem_insert.1 hc with rfl | ⟨hc, _⟩
    · exact hi
    · exact hlt c hc
  | some c => exact (Stock.forall_item_setCount (P := fun j : Item => j.guid < m)).2 hlt

theorem Placeable.put {l' : Loc} {i : Item} (h : Placeable W inv src dest) :
    Placeable W (inv.put l' i k) src dest := by
  intro q hq
  obtain ⟨hl, hin, hrest⟩ := h q hq
  obtain ⟨l, hl⟩ := Option.isSome_iff_exists.1 hl
  rw [locate_put hl]
  refine ⟨rfl, fun b hb => ?_, hrest⟩
  rcases locate_eq_some.1 hl with ⟨hbag, _, _⟩ | ⟨b₀, hb₀, _, _⟩
  · rw [hbag, getBagByPos_bag0] at hb
    cases hb
  · obtain ⟨m, hb'⟩ := getBagByPos_put k l' i hb₀
    obtain rfl := Option.some.inj (hb'.symm.trans hb)
    exact hin b₀ hb₀

theorem places_put {l' : Loc} {i : Item} (h : Placeable W inv src dest) :
    places W (inv.put l' i k) dest = places W inv dest := by
  refine List.map_congr_left fun q hq => ?_
  obtain ⟨l, hl⟩ := Option.isSome_iff_exists.1 (h q hq).1
  rw [storeLoc_of_locate hl, storeLoc_of_locate (locate_put hl)]

/-- `StoreItem` executes a plan as the stock does. -/
theorem storeItem_eq (h : Placeable W inv src dest) (hlt : ∀ c ∈ inv, c.item.guid < next)
    (hsrc : src.guid < next) :
    storeItem W src next inv dest =
      Stock.store (copyOf src) src next inv (places W inv dest) := by
  induction dest generalizing next inv with
  | nil => rfl
  | cons q dest ih =>
    obtain ⟨hl, hin, hk, hle⟩ := h q List.mem_cons_self
    obtain ⟨l, hl⟩ := Option.isSome_iff_exists.1 hl
    have hrest : Placeable W inv src dest := fun r hr => h r (List.mem_cons_of_mem q hr)
    have hplaces : places W inv (q :: dest) = (l, q.2) :: places W inv dest := by
      unfold places
      rw [List.map_cons, storeLoc_of_locate hl]
    have hempty : (places W inv dest).isEmpty = dest.isEmpty := List.isEmpty_map
    rw [hplaces]
    unfold storeItem Stock.store
    simp only [hempty, storeItemAt_eq hl hin hk hle hlt, Bool.false_eq_true, false_and, if_false,
      true_and]
    by_cases hd : dest.isEmpty = true
    · simp only [hd, if_true]
    · simp only [hd, Bool.false_eq_true, if_false]
      cases hf : inv.find l with
      | none =>
        simp only [if_true]
        rw [ih hrest.put (guid_lt_put (fun c hc => Nat.lt_succ_of_lt (hlt c hc))
          (Nat.lt_succ_self next)) (Nat.lt_succ_of_lt hsrc), places_put hrest]
      | some c =>
        simp only [reduceCtorEq, if_false]
        rw [ih hrest.put (guid_lt_put hlt hsrc) hsrc, places_put hrest]

/-- What the search reserved fits once the object left its place. -/
theorem fits_of_within (hlift : Lifted src inv inv₀) (hd : Distinct next inv)
    (h : Plan.Within (Reserved W inv src) k ⟨dest, 0⟩) :
    Stock.Fits Item.entry W.maxStack inv₀ src (places W inv₀ dest) ∧
      Placeable W inv₀ src dest := by
  have hloc : ∀ q ∈ dest, ∃ l, locate W inv q.1 = some l ∧ locate W inv₀ q.1 = some l := by
    intro q hq
    have hr := h.room q hq
    obtain ⟨l, hl⟩ := Option.isSome_iff_exists.1 hr.located
    exact ⟨l, hl, locate_lifted hlift hl hr.notInside⟩
  constructor
  · constructor
    · have hmap : (places W inv₀ dest).map Prod.fst = (dest.map Prod.fst).map (storeLoc W inv₀) := by
        unfold places
        rw [List.map_map, List.map_map]
        rfl
      rw [hmap]
      refine List.Nodup.map_on (fun p hp p' hp' heq => ?_) h.nodup
      obtain ⟨q, hq, rfl⟩ := List.mem_map.1 hp
      obtain ⟨q', hq', rfl⟩ := List.mem_map.1 hp'
      obtain ⟨l, hl, hl₀⟩ := hloc q hq
      obtain ⟨l', hl', hl₀'⟩ := hloc q' hq'
      rw [storeLoc_of_locate hl₀, storeLoc_of_locate hl₀'] at heq
      subst heq
      exact locate_inj hd hl hl'
    · intro r hr
      obtain ⟨q, hq, rfl⟩ := List.mem_map.1 hr
      obtain ⟨l, hl, hl₀⟩ := hloc q hq
      have hres := h.room q hq
      refine ⟨hres.count_pos, hres.le, fun c hc => ?_⟩
      rw [storeLoc_of_locate hl₀] at hc
      exact hres.other c ((otherItemByPos_eq hlift hl).trans hc)
  · intro q hq
    obtain ⟨l, hl, hl₀⟩ := hloc q hq
    have hres := h.room q hq
    rw [hl₀]
    exact ⟨rfl, fun b hb => hlift.ne (Table.of_find (getBagByPos_eq_some.1 hb).2.1).1,
      hres.count_pos, hres.le⟩

/-- The units of an entry. -/
def unitsOfEntry (e : ℕ) (inv : Bags) : ℕ := Stock.units (fun i => i.entry = e) inv

/-- Every stack has a unit and is within the maximum of its template. -/
abbrev Stacked (W : World) (inv : Bags) : Prop := Stock.Bounded Item.entry W.maxStack inv

/-- What storing an item object along a plan does to a stock `s` from which it is absent: `k` units
of its entry are added, no stack outgrows its size, and the objects stay distinct. -/
structure Stored {L : Type*} (W : World) (src : Item) (k next : ℕ) (s : Stock L Item)
    (r : ℕ × Stock L Item) : Prop where
  units : ∀ e, Stock.units (fun i => i.entry = e) r.2 =
    Stock.units (fun i => i.entry = e) s + if src.entry = e then k else 0
  stacked : Stock.Bounded Item.entry W.maxStack r.2
  fresh : Stock.Fresh Item.guid r.1 r.2
  next_le : next ≤ r.1
  guid : ∀ c ∈ r.2, (∃ c' ∈ s, c'.item.guid = c.item.guid) ∨ c.item.guid = src.guid ∨
    next ≤ c.item.guid

/-- **Main result.** An item object is stored along a plan that fits with all its units. -/
theorem stored_of_fits {L : Type*} [DecidableEq L] {s : Stock L Item} {dest : List (L × ℕ)}
    (hfits : Stock.Fits Item.entry W.maxStack s src dest)
    (hs : Stock.Bounded Item.entry W.maxStack s) (hd : Stock.Fresh Item.guid next s)
    (hne : ∀ c ∈ s, c.item.guid ≠ src.guid) (hsrc : src.guid < next) :
    Stored W src (dest.map Prod.snd).sum next s (Stock.store (copyOf src) src next s dest) := by
  have hfresh := hd.store (copyOf src) dest hne hsrc fun g => rfl
  refine ⟨fun e => ?_, ?_, hfresh.1, hfresh.2, fun c hc => Stock.id_store (fun g => rfl) hc⟩
  · have hunits := (Stock.store_fits (copyOf src) next
      (p := fun i => decide (i.entry = e)) hfits hs (fun g => rfl) (fun j hj => by rw [hj])).1
    rw [hunits]
    simp
  · exact (Stock.store_fits (copyOf src) next
      (p := fun _ => true) hfits hs (fun g => rfl) (fun j hj => rfl)).2

theorem sum_places : ((places W inv dest).map Prod.snd).sum = (dest.map Prod.snd).sum := by
  unfold places
  rw [List.map_map]
  rfl

/-- **Main result.** An item object for which `CanStoreItem` finds places is stored with all its
units. -/
theorem storeItem_spec (hlift : Lifted src inv inv₀) (hd : Distinct next inv)
    (hd₀ : Distinct next inv₀) (hs : Stacked W inv₀) (hsrc : src.guid < next)
    (h : Plan.Within (Reserved W inv src) k ⟨dest, 0⟩) :
    Stored W src k next inv₀ (storeItem W src next inv₀ dest) := by
  obtain ⟨hfits, hplace⟩ := fits_of_within hlift hd h
  have hstored := stored_of_fits hfits hs hd₀ (fun c hc => hlift.ne hc) hsrc
  have htotal : (dest.map Prod.snd).sum = k := h.total
  rw [sum_places, htotal] at hstored
  rw [storeItem_eq hplace hd₀.lt hsrc]
  exact hstored

end

end FaceCore.Storage
