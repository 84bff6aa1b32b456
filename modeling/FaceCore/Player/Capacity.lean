import FaceCore.Player.Holdings
import Mathlib.Data.List.Perm.Basic

/-!
# The space that is searched

When `CanStoreNewItem` finds no space for units of an entry that a player may have any number of, how
much space is there? The search goes through slots of several kinds one after another; here the space
is counted without the search.

* `capacity`: the space in the stacks at some positions and in the free slots among others;
* `carriedSlots`, `bagsThatAdmit`: positions outside the bank, and those in bags for the entry;
* `zero_stored`: nothing is always stored;
* `capacity_lt_of_error`: if there is an error, there is less space than was asked for.
-/

namespace FaceCore.Storage

open Filling

section

variable (W : World) (inv : Bags)

/-- The units of an entry that a stack at a position takes, where there is a stack. -/
def stackSpace (entry : ℕ) (pos : Pos) : ℕ :=
  match getItemByPos W inv pos with
  | some c =>
    if 0 < c.count ∧ canBeMergedPartlyWith W c entry = .ok then W.maxStack entry - c.count else 0
  | none => 0

/-- The room in the stacks at some positions, and a full stack for each empty slot at others. -/
def capacity (entry : ℕ) (stackSlots emptySlots : List Pos) : ℕ :=
  (stackSlots.map (stackSpace W inv entry)).sum +
    W.maxStack entry * (emptySlots.filter (freeAt W inv)).length

/-- The slots of the equipped bags that admit the entry. -/
def bagsThatAdmit (entry : ℕ) : List Pos :=
  (List.range' inventorySlotBagStart (inventorySlotBagEnd - inventorySlotBagStart)).flatMap fun bag =>
    match getBagByPos W inv bag with
    | some b =>
      if itemCanGoIntoBag (W.template entry) (W.proto b.item) then bagSlots W inv bag else []
    | none => []

/-- All slots outside the bank: the equipment, the backpack, the keyring, the tokens, the bags. -/
def carriedSlots : List Pos :=
  slots 0 inventorySlotItemEnd ++ slots keyringSlotStart currencyTokenSlotEnd ++
    (List.range' inventorySlotBagStart (inventorySlotBagEnd - inventorySlotBagStart)).flatMap
      (bagSlots W inv)

/-- The slots that admit the entry when they are empty. -/
def admittingSlots (entry : ℕ) : List Pos :=
  (if (W.template entry).hasFamily bagFamilyMaskKeys then slots keyringSlotStart keyringSlotEnd
    else []) ++
  (if (W.template entry).isCurrencyToken then slots currencyTokenSlotStart currencyTokenSlotEnd
    else []) ++
  bagsThatAdmit W inv entry ++ slots inventorySlotItemStart inventorySlotItemEnd

/-- The slots in which stacks are merged: not the equipment, and not the bags for other entries. -/
def mergingSlots (entry : ℕ) : List Pos :=
  slots inventorySlotItemStart inventorySlotItemEnd ++
    slots keyringSlotStart currencyTokenSlotEnd ++ bagsThatAdmit W inv entry

/-- The slots in which new stacks are put: a key goes into the keyring only, also if it is a
token. -/
def openSlots (entry : ℕ) : List Pos :=
  (if (W.template entry).hasFamily bagFamilyMaskKeys then slots keyringSlotStart keyringSlotEnd
    else if (W.template entry).isCurrencyToken then
      slots currencyTokenSlotStart currencyTokenSlotEnd
    else []) ++
  bagsThatAdmit W inv entry ++ slots inventorySlotItemStart inventorySlotItemEnd

/-- The player may have any number of units: no carry limit and no limit category. -/
structure Unlimited (entry : ℕ) : Prop where
  maxCount : (W.template entry).maxCount ≤ 0 ∨ (W.template entry).maxCount = 2147483647
  itemLimitCategory : (W.template entry).itemLimitCategory = 0

end

variable {W : World} {inv : Bags} {src : Item} {merge : Bool} {ps : List Pos} {pos skip : Pos}
  {plan : Plan Pos} {n entry : ℕ}

/-! ### Nothing is always stored -/

theorem count_reserveIn_le : (reserveIn W inv src merge ps plan).count ≤ plan.count := by
  induction ps generalizing plan with
  | nil => exact le_rfl
  | cons pos ps ih =>
    unfold reserveIn
    cases needSpace W inv src merge pos with
    | none => exact ih
    | some need =>
      have hpush : (plan.push pos need).count ≤ plan.count := Nat.sub_le _ _
      dsimp only
      split_ifs
      · exact ih
      · exact hpush
      · exact ih.trans hpush

/-- When nothing is looked for, a block does not end the search with an error. -/
def Stage.Passes : Stage → Prop
  | .refuse res => res = none
  | .search fatal find => ∀ plan : Plan Pos, plan.count = 0 →
    (∃ plan', find plan = .ok plan' ∧ plan'.count = 0) ∨
      fatal = false ∧ ∃ res, find plan = .error res

theorem searchStages_zero (full : InventoryResult) {stages : List Stage}
    (hpass : ∀ st ∈ stages, st.Passes) (hfatal : ∃ find, .search true find ∈ stages)
    (hzero : plan.count = 0) : (searchStages full 0 stages plan).res = .ok () := by
  induction stages with
  | nil =>
    obtain ⟨find, hfind⟩ := hfatal
    cases hfind
  | cons st stages ih =>
    obtain ⟨hst, hrest⟩ := List.forall_mem_cons.1 hpass
    cases st with
    | refuse res =>
      obtain rfl : res = none := hst
      obtain ⟨find, hfind⟩ := hfatal
      exact ih hrest ⟨find, (List.mem_cons.1 hfind).resolve_left nofun⟩
    | search fatal find =>
      unfold searchStages
      obtain ⟨plan', hok, hzero'⟩ | ⟨rfl, res, hres⟩ := hst plan hzero
      · rw [hok]
        dsimp only
        rw [if_pos hzero', if_pos rfl]
      · rw [hres]
        obtain ⟨find', hfind⟩ := hfatal
        refine ih hrest ⟨find', (List.mem_cons.1 hfind).resolve_left fun h => ?_⟩
        cases h

theorem passes_inSlots (h : isNotEmptyBag W inv src = false) (a b : ℕ) :
    (inSlots W inv src skip merge a b).Passes := by
  intro plan hzero
  refine .inl ⟨_, (if_neg (by rw [h]; exact Bool.false_ne_true) :
    canStoreItemInInventorySlots W inv a b merge src skip plan = _), ?_⟩
  have hle : (reserveIn W inv src merge ((slots a b).filter fun pos => pos ≠ skip) plan).count ≤
    plan.count := count_reserveIn_le
  omega

theorem passes_inBags {plain : Bool} {a b : ℕ} {st : Stage}
    (h : st ∈ inBags W inv src skip merge plain a b) : st.Passes := by
  obtain ⟨bag, -, rfl⟩ := List.mem_map.1 h
  intro plan hzero
  cases hres : canStoreItemInBag W inv bag merge plain src skip plan with
  | error res => exact .inr ⟨rfl, res, rfl⟩
  | ok plan' =>
    refine .inl ⟨plan', rfl, ?_⟩
    have hle : (reserveIn W inv src merge
        ((bagSlots W inv bag).filter fun pos => pos.2 ≠ skip.2) plan).count ≤ plan.count :=
      count_reserveIn_le
    unfold canStoreItemInBag at hres
    cases hb : getBagByPos W inv bag with
    | none =>
      rw [hb] at hres
      split_ifs at hres
    | some b =>
      rw [hb] at hres
      dsimp only at hres
      split_ifs at hres
      obtain rfl := Except.ok.inj hres
      omega

theorem passes_inKeysOrTokens {st : Stage} (h : isNotEmptyBag W inv src = false)
    (hst : st ∈ inKeysOrTokens W inv src skip false) : st.Passes := by
  unfold inKeysOrTokens at hst
  split_ifs at hst with hkey hspecific htoken
  · cases hspecific
  · rw [List.mem_singleton.1 hst]
    exact passes_inSlots h _ _
  · rw [List.mem_singleton.1 hst]
    exact passes_inSlots h _ _
  · cases hst

theorem passes_canStoreItemStages (h : isNotEmptyBag W inv src = false) {st : Stage}
    (hst : st ∈ canStoreItemStages W inv src (nullBag, nullSlot) false) : st.Passes := by
  have hnull : ¬ (nullBag, nullSlot).1 ≠ nullBag := fun hne => hne rfl
  unfold canStoreItemStages at hst
  dsimp only at hst
  rw [if_neg fun hne => hnull hne.1, if_neg hnull] at hst
  simp only [List.nil_append, List.mem_append] at hst
  rcases hst with (((hst | hst) | hst) | hst) | hst
  · split_ifs at hst <;>
      simp only [List.mem_append, List.mem_cons, List.not_mem_nil, or_false] at hst
    · rcases hst with ((rfl | rfl) | hst) | hst
      · exact passes_inSlots h _ _
      · exact passes_inSlots h _ _
      · exact passes_inBags hst
      · exact passes_inBags hst
    · rcases hst with (rfl | rfl) | hst
      · exact passes_inSlots h _ _
      · exact passes_inSlots h _ _
      · exact passes_inBags hst
  · split_ifs at hst
    · rcases List.mem_append.1 hst with hst | hst
      · exact passes_inKeysOrTokens h hst
      · exact passes_inBags hst
    · cases hst
  · rw [List.mem_singleton.1 hst, h]
    rfl
  · rw [List.mem_singleton.1 hst]
    exact passes_inSlots h _ _
  · exact passes_inBags hst

theorem takeMore_unlimited (h : Unlimited W entry) (held heldInCategory : ℕ) :
    takeMore W entry n held heldInCategory = (.ok, 0) := by
  unfold takeMore
  dsimp only
  exact if_pos (h.maxCount.imp_left fun hle => ⟨hle, h.itemLimitCategory⟩)

theorem zero_stored (h : Unlimited W entry) :
    (canStore W inv true (.entry entry) (nullBag, nullSlot) 0).res = .ok () := by
  have hempty : isNotEmptyBag W inv ((Wanted.entry entry).src inv) = false :=
    isNotEmptyBag_null entry
  have hcan : canStore W inv true (.entry entry) (nullBag, nullSlot) 0 =
      searchFor (takeMore W entry 0 (heldOf W inv (.entry entry))
        (heldInCategoryOf W inv (.entry entry)))
        (canStoreItemStages W inv ((Wanted.entry entry).src inv) (nullBag, nullSlot) false) 0 := rfl
  rw [hcan, takeMore_unlimited h, searchFor, if_neg fun hno => hno.1 rfl, if_pos rfl]
  refine searchStages_zero _ (fun st hst => passes_canStoreItemStages hempty hst) ?_ rfl
  refine ⟨canStoreItemInInventorySlots W inv inventorySlotItemStart inventorySlotItemEnd false
    ((Wanted.entry entry).src inv) (nullBag, nullSlot), ?_⟩
  unfold canStoreItemStages
  dsimp only
  exact List.mem_append_left _ (List.mem_append_right _ (List.mem_singleton.2 rfl))

/-! ### The space is searched -/

/-- A bag that is no plain container admits entries of a bag family only. -/
theorem bagFamily_of_admits {proto bagProto : ItemTemplate}
    (h : itemCanGoIntoBag proto bagProto = true) (hplain : bagProto.isPlainContainer = false) :
    proto.bagFamily ≠ 0 := by
  intro hzero
  have hfamily : ∀ mask, proto.hasFamily mask = false := by
    intro mask
    simp [ItemTemplate.hasFamily, hzero]
  unfold itemCanGoIntoBag at h
  split at h
  · next hclass hsub =>
    simp [ItemTemplate.isPlainContainer, hclass, hsub] at hplain
  all_goals simp [hfamily] at h

/-- The bags that admit the entry are those of its family and the plain containers. -/
theorem bagsThatAdmit_perm :
    (bagsThatAdmit W inv entry).Perm
      ((if (W.template entry).bagFamily ≠ 0 then bagsFor W inv entry false else []) ++
        bagsFor W inv entry true) := by
  have hbag : ∀ bag, (match getBagByPos W inv bag with
      | some b =>
        if itemCanGoIntoBag (W.template entry) (W.proto b.item) then bagSlots W inv bag else []
      | none => []) = (if (W.template entry).bagFamily ≠ 0 then bagFor W inv entry false bag
        else []) ++ bagFor W inv entry true bag := by
    intro bag
    unfold bagFor
    cases getBagByPos W inv bag with
    | none => simp
    | some b =>
      cases hgo : itemCanGoIntoBag (W.template entry) (W.proto b.item) with
      | false => simp [hgo]
      | true =>
        cases hplain : (W.proto b.item).isPlainContainer with
        | true => simp [hgo, hplain]
        | false => simp [hgo, hplain, bagFamily_of_admits hgo hplain]
  unfold bagsThatAdmit bagsFor
  simp only [hbag]
  refine (List.flatMap_append_perm _ _ _).symm.trans (List.Perm.append_right _ ?_)
  split_ifs with hfamily
  · exact .refl _
  · simp

theorem keySlots_eq : keySlots W entry =
    if (W.template entry).hasFamily bagFamilyMaskKeys then slots keyringSlotStart keyringSlotEnd
    else if (W.template entry).isCurrencyToken then
      slots currencyTokenSlotStart currencyTokenSlotEnd
    else [] := rfl

theorem openSlots_perm : (openSlots W inv entry).Perm (freeSlots W inv entry) := by
  have hkeys : (W.template entry).bagFamily = 0 → keySlots W entry = [] := by
    intro hzero
    simp [keySlots, ItemTemplate.isCurrencyToken, ItemTemplate.hasFamily, hzero]
  unfold openSlots freeSlots
  rw [← keySlots_eq]
  refine ((List.Perm.append_left _ bagsThatAdmit_perm).append_right _).trans ?_
  by_cases hfamily : (W.template entry).bagFamily = 0
  · rw [hkeys hfamily, if_neg (not_not.2 hfamily), if_neg (not_not.2 hfamily)]
    simpa using List.perm_append_comm
  · rw [if_pos hfamily, if_pos hfamily, List.append_assoc, List.append_assoc, List.append_assoc,
      List.append_assoc]
    exact List.Perm.append_left _ (List.Perm.append_left _ List.perm_append_comm)

theorem stackSpace_le : stackSpace W inv entry pos ≤ stackRoom W inv entry pos := by
  unfold stackSpace stackRoom
  cases getItemByPos W inv pos with
  | none => exact le_rfl
  | some c =>
    dsimp only
    split_ifs with hstack hmerge
    · exact le_rfl
    · exact absurd hstack.2 hmerge
    · exact Nat.zero_le _
    · exact le_rfl

theorem stackSpace_eq_zero (h : (W.template entry).stackable = 1) :
    stackSpace W inv entry pos = 0 := by
  have hmax : W.maxStack entry = 1 := by
    unfold World.maxStack ItemTemplate.getMaxStackSize
    rw [h]
    rfl
  unfold stackSpace
  cases getItemByPos W inv pos with
  | none => rfl
  | some c =>
    refine if_neg fun hstack => ?_
    have hlt := (canBeMergedPartlyWith_eq_ok.1 hstack.2).2.2
    omega

/-- The room in the stacks is searched. -/
theorem sum_stackSpace_le (W : World) (inv : Bags) (entry : ℕ) :
    ((mergingSlots W inv entry).map (stackSpace W inv entry)).sum ≤
      ((mergeSlots W inv entry).map (stackRoom W inv entry)).sum := by
  by_cases hone : (W.template entry).stackable = 1
  · have hzero : stackSpace W inv entry = fun _ => 0 := by
      funext pos
      exact stackSpace_eq_zero hone
    simp [hzero]
  have hperm : (mergingSlots W inv entry).Perm (mergeSlots W inv entry) := by
    unfold mergingSlots mergeSlots
    rw [if_pos hone, List.append_assoc _ _ (bagsFor W inv entry true)]
    exact (List.perm_append_comm).append bagsThatAdmit_perm
  calc ((mergingSlots W inv entry).map (stackSpace W inv entry)).sum
      = ((mergeSlots W inv entry).map (stackSpace W inv entry)).sum := (hperm.map _).sum_eq
    _ ≤ ((mergeSlots W inv entry).map (stackRoom W inv entry)).sum :=
      List.sum_le_sum fun pos _ => stackSpace_le

/-- **Main result.** If `CanStoreNewItem` answers with an error for `n` units of an entry without
limits, the space outside the equipment and the bank is smaller than `n`. -/
theorem capacity_lt_of_error (hlimit : Unlimited W entry)
    (h : (canStore W inv true (.entry entry) (nullBag, nullSlot) n).res ≠ .ok ()) :
    capacity W inv entry (mergingSlots W inv entry) (openSlots W inv entry) < n := by
  rcases Nat.eq_zero_or_pos n with rfl | hn
  · exact absurd (zero_stored hlimit) h
  by_contra hle
  refine h ((canStore_iff_takes hn).2 ⟨?_, ?_⟩)
  · rw [takeMore_unlimited hlimit]
  · have hstacks := sum_stackSpace_le W inv entry
    have hfree : ((openSlots W inv entry).filter (freeAt W inv)).length =
        ((freeSlots W inv entry).filter (freeAt W inv)).length :=
      (openSlots_perm.filter _).length_eq
    unfold capacity at hle
    rw [hfree] at hle
    show n ≤ ((mergeSlots W inv entry).map (stackRoom W inv entry)).sum +
      W.maxStack entry * ((freeSlots W inv entry).filter (freeAt W inv)).length
    omega

/-- Knives in stacks of 200, as entry 1, and other things that do not stack. -/
def knives : World where
  template entry :=
    if entry = 1 then ⟨.weapon, 16, .thrown, 0, 200, 0, 0, 0, noSlots_le, false, false⟩
    else ⟨.other 7, 0, .nonEquip, 0, 1, 0, 0, 0, noSlots_le, false, false⟩
  limitCategory _ := none
  isBindedNotWith _ := false

/-- A full backpack, with 150 knives in its last slot, and 100 more in the hand. -/
def juggler : Bags :=
  ⟨⟨.slot 17, ⟨1, 1, false, []⟩, 100⟩ :: ⟨.slot 38, ⟨2, 1, false, []⟩, 150⟩ ::
    (List.range 15).map fun j => ⟨.slot (23 + j), ⟨3 + j, 2, false, []⟩, 1⟩, by decide⟩

/-- There is room for fifty more in the backpack. -/
theorem capacity_lt_knives :
    (canStore knives juggler true (.entry 1) (nullBag, nullSlot) 51).res ≠ .ok () ∧
      capacity knives juggler 1 (mergingSlots knives juggler 1) (openSlots knives juggler 1) < 51 := by
  have herror : (canStore knives juggler true (.entry 1) (nullBag, nullSlot) 51).res ≠ .ok () := by
    decide +kernel
  exact ⟨herror, capacity_lt_of_error ⟨.inl (by decide), by decide⟩ herror⟩

/-- The stack in the hand has room for a hundred more, but is not searched. -/
theorem equipped_stack_not_searched : Unlimited knives 1 ∧
    ¬ ((canStore knives juggler true (.entry 1) (nullBag, nullSlot) 51).res ≠ .ok () →
      capacity knives juggler 1 (carriedSlots knives juggler) (admittingSlots knives juggler 1) <
        51) := by
  refine ⟨⟨.inl (by decide), by decide⟩, fun h => ?_⟩
  have hlt := h (by decide +kernel)
  revert hlt
  decide +kernel

end FaceCore.Storage
