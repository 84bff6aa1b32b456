import FaceCore.Lib.Filling
import FaceCore.Player.CanStore

/-!
# Where new items go

What `CanStoreItem` answers for an entry that may go anywhere: the search goes once through the
stacks that the units can be merged with and once through the free slots, and fills what it finds.

* `mergeSlots`, `freeSlots`: the positions in the order of the search;
* `spaces`: the room at each of them;
* `canStore_anywhere`: the answer is positive exactly if there is room for all units, and the plan
  fills the spaces in their order.
-/

namespace FaceCore.Storage

open Filling

/-! ### The positions of the search -/

section

variable (W : World) (inv : Bags)

/-- The slots of the bag at a bag position, if the entry can go into it and it is a plain container,
or is none. -/
def bagFor (entry : ℕ) (plain : Bool) (bag : ℕ) : List Pos :=
  match getBagByPos W inv bag with
  | some b =>
    if plain = (W.proto b.item).isPlainContainer ∧
        itemCanGoIntoBag (W.template entry) (W.proto b.item) then bagSlots W inv bag
    else []
  | none => []

/-- The slots of all such bags that are equipped. -/
def bagsFor (entry : ℕ) (plain : Bool) : List Pos :=
  (List.range' inventorySlotBagStart (inventorySlotBagEnd - inventorySlotBagStart)).flatMap
    (bagFor W inv entry plain)

/-- The slots of the keyring for a key, else those of the currency tokens for a token. -/
def keySlots (entry : ℕ) : List Pos :=
  if (W.template entry).hasFamily bagFamilyMaskKeys then
    slots keyringSlotStart (keyringSlotStart + getMaxKeyringSize)
  else if (W.template entry).isCurrencyToken then slots currencyTokenSlotStart currencyTokenSlotEnd
  else []

/-- Where the search looks for stacks. -/
def mergeSlots (entry : ℕ) : List Pos :=
  if (W.template entry).stackable ≠ 1 then
    slots keyringSlotStart currencyTokenSlotEnd ++ slots inventorySlotItemStart inventorySlotItemEnd ++
      (if (W.template entry).bagFamily ≠ 0 then bagsFor W inv entry false else []) ++
      bagsFor W inv entry true
  else []

/-- Where the search looks for free slots. -/
def freeSlots (entry : ℕ) : List Pos :=
  (if (W.template entry).bagFamily ≠ 0 then keySlots W entry ++ bagsFor W inv entry false else []) ++
    slots inventorySlotItemStart inventorySlotItemEnd ++ bagsFor W inv entry true

/-- What the search finds at some positions. -/
def visible (src : Item) (merge : Bool) (ps : List Pos) : List (Pos × ℕ) :=
  ps.filterMap fun pos => (needSpace W inv src merge pos).map (Prod.mk pos)

/-- The room at the positions of the search. -/
def spaces (src : Item) : List (Pos × ℕ) :=
  visible W inv src true (mergeSlots W inv src.entry) ++
    visible W inv src false (freeSlots W inv src.entry)

/-- The object is no bag of the player, and no bag with something in it. -/
structure Outside (src : Item) : Prop where
  empty : isNotEmptyBag W inv src = false
  notBag : ∀ bag b, getBagByPos W inv bag = some b → b.item.guid ≠ src.guid

end

variable {W : World} {inv : Bags} {src : Item} {merge : Bool} {ps ps' : List Pos} {pos : Pos}
  {plan : Plan Pos} {k n entry : ℕ}

theorem outside_null (entry : ℕ) : Outside W inv ((Wanted.entry entry).src inv) where
  empty := isNotEmptyBag_null entry
  notBag _ _ hb :=
    Nat.ne_of_lt (guid_lt_unusedGuid (Table.of_find (getBagByPos_eq_some.1 hb).2.1).1).1

theorem mem_visible {q : Pos × ℕ} :
    q ∈ visible W inv src merge ps ↔ q.1 ∈ ps ∧ needSpace W inv src merge q.1 = some q.2 := by
  obtain ⟨pos, n⟩ := q
  simp only [visible, List.mem_filterMap, Option.map_eq_some_iff, Prod.mk.injEq]
  constructor
  · rintro ⟨pos', hps, need, hneed, rfl, rfl⟩
    exact ⟨hps, hneed⟩
  · rintro ⟨hps, hneed⟩
    exact ⟨pos, hps, n, hneed, rfl, rfl⟩

theorem visible_append : visible W inv src merge (ps ++ ps') =
    visible W inv src merge ps ++ visible W inv src merge ps' := List.filterMap_append

@[simp] theorem visible_nil : visible W inv src merge [] = [] := rfl

theorem map_fst_visible : (visible W inv src merge ps).map Prod.fst =
    ps.filter fun pos => (needSpace W inv src merge pos).isSome := by
  unfold visible
  induction ps with
  | nil => rfl
  | cons pos ps ih => cases h : needSpace W inv src merge pos <;> simp [h, ih]

theorem visible_pos {q : Pos × ℕ} (hq : q ∈ visible W inv src merge ps) : 0 < q.2 :=
  needSpace_pos (mem_visible.1 hq).2

/-! ### One block -/

/-- The plan after the spaces `sp` are filled. -/
def filled (plan : Plan Pos) (sp : List (Pos × ℕ)) : Plan Pos :=
  ⟨plan.dest ++ fill sp plan.count, plan.count - space sp⟩

/-- The spaces are at distinct positions that the plan does not use. -/
def Unused (plan : Plan Pos) (sp : List (Pos × ℕ)) : Prop :=
  (plan.dest.map Prod.fst ++ sp.map Prod.fst).Nodup

theorem filled_of_count (h : plan.count = 0) (sp : List (Pos × ℕ)) : filled plan sp = plan := by
  obtain ⟨dest, count⟩ := plan
  obtain rfl : count = 0 := h
  simp [filled]

/-- The loop over positions fills what it finds. -/
theorem reserveIn_eq (hcount : 0 < plan.count) (hun : Unused plan (visible W inv src merge ps)) :
    reserveIn W inv src merge ps plan = filled plan (visible W inv src merge ps) := by
  induction ps generalizing plan with
  | nil => simp [reserveIn, filled, fill]
  | cons pos ps ih =>
    unfold reserveIn
    cases hneed : needSpace W inv src merge pos with
    | none =>
      have hvis : visible W inv src merge (pos :: ps) = visible W inv src merge ps := by
        simp [visible, hneed]
      rw [hvis] at hun ⊢
      exact ih hcount hun
    | some need =>
      have hvis : visible W inv src merge (pos :: ps) = (pos, need) :: visible W inv src merge ps := by
        simp [visible, hneed]
      rw [hvis] at hun ⊢
      have hpos : pos ∉ plan.dest.map Prod.fst := fun hmem =>
        (List.nodup_append.1 hun).2.2 pos hmem pos (by simp) rfl
      simp only [if_neg hpos]
      have hpush : filled plan ((pos, need) :: visible W inv src merge ps) =
          filled (plan.push pos need) (visible W inv src merge ps) := by
        unfold filled Plan.push
        have hsub : plan.count - min need plan.count - space (visible W inv src merge ps) =
            plan.count - (need + space (visible W inv src merge ps)) := by omega
        simp [fill, Nat.pos_iff_ne_zero.1 hcount, hsub]
      split_ifs with hzero
      · rw [hpush]
        exact (filled_of_count hzero _).symm
      · rw [hpush]
        refine ih (Nat.pos_of_ne_zero hzero) ?_
        simpa [Unused, Plan.push] using hun

/-- A block of the search fills spaces, or is passed over. -/
def Stage.Fills : Stage → List (Pos × ℕ) → Prop
  | .refuse res, sp => res = none ∧ sp = []
  | .search fatal find, sp =>
    (∀ plan : Plan Pos, 0 < plan.count → Unused plan sp → find plan = .ok (filled plan sp)) ∨
      fatal = false ∧ sp = [] ∧ ∀ plan : Plan Pos, ∃ res, find plan = .error res

theorem Unused.left {sp sp' : List (Pos × ℕ)} (h : Unused plan (sp ++ sp')) : Unused plan sp := by
  unfold Unused at h ⊢
  rw [List.map_append, ← List.append_assoc] at h
  exact h.of_append_left

theorem Unused.right {sp sp' : List (Pos × ℕ)} (h : Unused plan (sp ++ sp')) :
    Unused (filled plan sp) sp' := by
  unfold Unused at h ⊢
  rw [List.map_append, ← List.append_assoc] at h
  refine h.sublist (List.Sublist.append_right ?_ _)
  unfold filled
  rw [List.map_append]
  exact List.Sublist.append_left (map_fst_fill_first sp plan.count).sublist _

/-- Blocks that fill spaces answer positively exactly if there is room for all units. -/
theorem searchStages_fills (full : InventoryResult) (noSimilarCount : ℕ) {stages : List Stage}
    {sps : List (List (Pos × ℕ))} (h : List.Forall₂ Stage.Fills stages sps) (plan : Plan Pos)
    (hcount : 0 < plan.count) (hun : Unused plan sps.flatten) :
    ((searchStages full noSimilarCount stages plan).res = .ok () ↔
        noSimilarCount = 0 ∧ plan.count ≤ space sps.flatten) ∧
      ((searchStages full noSimilarCount stages plan).res = .ok () →
        (searchStages full noSimilarCount stages plan).dest =
          plan.dest ++ fill sps.flatten plan.count) := by
  induction h generalizing plan with
  | nil =>
    refine ⟨⟨fun h => (by simp [searchStages] at h), fun h => ?_⟩, fun h => by simp [searchStages] at h⟩
    exact absurd h.2 (by simpa using Nat.ne_of_gt hcount)
  | @cons st sp stages sps hst _ ih =>
    rw [List.flatten_cons] at hun ⊢
    cases st with
    | refuse res =>
      obtain ⟨rfl, rfl⟩ := hst
      exact ih plan hcount hun
    | search fatal find =>
      rcases hst with hfind | ⟨rfl, rfl, herr⟩
      · rw [searchStages, hfind plan hcount hun.left]
        dsimp only
        by_cases hzero : (filled plan sp).count = 0
        · -- all units have a place
          have hle : plan.count ≤ space sp := Nat.sub_eq_zero_iff_le.1 hzero
          have hdest : fill (sp ++ sps.flatten) plan.count = fill sp plan.count := by
            rw [fill_append, Nat.sub_eq_zero_of_le hle, fill_zero, List.append_nil]
          rw [if_pos hzero, hdest, space_append]
          split_ifs with hno
          · exact ⟨iff_of_true rfl ⟨hno, by omega⟩, fun _ => rfl⟩
          · exact ⟨iff_of_false nofun fun h => hno h.1, nofun⟩
        · rw [if_neg hzero]
          -- the block takes what it can, and the next ones get the rest
          have hlt : space sp < plan.count := Nat.lt_of_sub_ne_zero hzero
          obtain ⟨hiff, hdest⟩ := ih (filled plan sp) (Nat.pos_of_ne_zero hzero) hun.right
          refine ⟨hiff.trans (and_congr_right fun _ => ?_), fun h => ?_⟩
          · rw [space_append]
            simp only [filled]
            omega
          · rw [hdest h, fill_append]
            simp [filled]
      · obtain ⟨res, hres⟩ := herr plan
        rw [searchStages, hres]
        exact ih plan hcount hun

/-! ### The blocks of the search -/

theorem fills_inSlots (h : isNotEmptyBag W inv src = false) (a b : ℕ) :
    (inSlots W inv src (nullBag, nullSlot) merge a b).Fills (visible W inv src merge (slots a b)) := by
  refine .inl fun plan hcount hun => ?_
  unfold canStoreItemInInventorySlots
  have hfilter : (slots a b).filter (fun pos => decide (pos ≠ (nullBag, nullSlot))) = slots a b := by
    refine List.filter_eq_self.2 fun pos hpos => decide_eq_true ?_
    rintro rfl
    exact absurd (mem_slots hpos).1 (by decide)
  rw [h, if_neg Bool.false_ne_true, hfilter, reserveIn_eq hcount hun]

theorem slot_lt_nullSlot {bag : ℕ} {b : Cell Loc Item} (hb : getBagByPos W inv bag = some b)
    (hpos : pos ∈ bagSlots W inv bag) : pos.2 ≠ nullSlot := by
  have hlt := (mem_bagSlots hb hpos).2
  have hsize := (W.proto b.item).containerSlots_le
  unfold World.getBagSize at hlt
  unfold nullSlot
  omega

theorem fills_inBag (h : Outside W inv src) (plain : Bool) {bag : ℕ} (hbag : bag ≠ nullBag) :
    Stage.Fills (.search false (canStoreItemInBag W inv bag merge plain src (nullBag, nullSlot)))
      (visible W inv src merge (bagFor W inv src.entry plain bag)) := by
  unfold bagFor
  cases hb : getBagByPos W inv bag with
  | none =>
    refine .inr ⟨rfl, rfl, fun plan => ⟨.itemDoesntGoIntoBag, ?_⟩⟩
    unfold canStoreItemInBag
    rw [if_neg hbag, hb]
  | some b =>
    have hself := h.notBag bag b hb
    by_cases hfit : plain = (W.proto b.item).isPlainContainer ∧
        itemCanGoIntoBag (W.template src.entry) (W.proto b.item) = true
    · have hfilter : (bagSlots W inv bag).filter (fun pos => decide (pos.2 ≠ nullSlot)) =
          bagSlots W inv bag :=
        List.filter_eq_self.2 fun pos hpos => decide_eq_true (slot_lt_nullSlot hb hpos)
      simp only [if_pos hfit]
      refine .inl fun plan hcount hun => ?_
      unfold canStoreItemInBag
      have hgo : itemCanGoIntoBag (W.proto src) (W.proto b.item) = true := hfit.2
      simp only [hbag, hb, hself, h.empty, hfit.1, hgo, hfilter, if_false, Bool.false_eq_true, ne_eq,
        not_true_eq_false, Bool.not_true, reserveIn_eq hcount hun]
    · simp only [if_neg hfit]
      refine .inr ⟨rfl, rfl, fun plan => ⟨.itemDoesntGoIntoBag, ?_⟩⟩
      unfold canStoreItemInBag
      simp only [hbag, hb, hself, h.empty, if_false, Bool.false_eq_true]
      split_ifs with hplain hgo
      · rfl
      · rfl
      · rw [Bool.not_eq_true', Bool.not_eq_false] at hgo
        exact absurd ⟨not_not.1 hplain, hgo⟩ hfit

theorem fills_inBags (h : Outside W inv src) (merge plain : Bool) :
    ∃ sps, List.Forall₂ Stage.Fills
        (inBags W inv src (nullBag, nullSlot) merge plain inventorySlotBagStart inventorySlotBagEnd)
        sps ∧
      sps.flatten = visible W inv src merge (bagsFor W inv src.entry plain) := by
  refine ⟨(List.range' inventorySlotBagStart (inventorySlotBagEnd - inventorySlotBagStart)).map
    fun bag => visible W inv src merge (bagFor W inv src.entry plain bag), ?_, ?_⟩
  · unfold inBags
    rw [List.forall₂_map_left_iff, List.forall₂_map_right_iff, List.forall₂_same]
    intro bag hbag
    refine fills_inBag h plain ?_
    have hle := (List.mem_range'_1.1 hbag).1
    unfold inventorySlotBagStart at hle
    unfold nullBag
    omega
  · unfold bagsFor visible
    rw [List.filterMap_flatMap, List.flatMap_def]

theorem fills_inKeysOrTokens (h : isNotEmptyBag W inv src = false) :
    ∃ sps, List.Forall₂ Stage.Fills (inKeysOrTokens W inv src (nullBag, nullSlot) false) sps ∧
      sps.flatten = visible W inv src false (keySlots W src.entry) := by
  unfold inKeysOrTokens keySlots World.proto
  simp only [Bool.false_eq_true, if_false]
  split_ifs
  · exact ⟨[_], .cons (fills_inSlots h _ _) .nil, by simp⟩
  · exact ⟨[_], .cons (fills_inSlots h _ _) .nil, by simp⟩
  · exact ⟨[], .nil, rfl⟩

theorem fills_append {stages stages' : List Stage} {sp sp' : List (Pos × ℕ)}
    (h : ∃ sps, List.Forall₂ Stage.Fills stages sps ∧ sps.flatten = sp)
    (h' : ∃ sps, List.Forall₂ Stage.Fills stages' sps ∧ sps.flatten = sp') :
    ∃ sps, List.Forall₂ Stage.Fills (stages ++ stages') sps ∧ sps.flatten = sp ++ sp' := by
  obtain ⟨sps, hf, rfl⟩ := h
  obtain ⟨sps', hf', rfl⟩ := h'
  exact ⟨sps ++ sps', List.rel_append hf hf', List.flatten_append⟩

theorem fills_ite {c : Prop} [Decidable c] {stages : List Stage} {ps : List Pos}
    (h : c → ∃ sps, List.Forall₂ Stage.Fills stages sps ∧
      sps.flatten = visible W inv src merge ps) :
    ∃ sps, List.Forall₂ Stage.Fills (if c then stages else []) sps ∧
      sps.flatten = visible W inv src merge (if c then ps else []) := by
  by_cases hc : c
  · simpa only [if_pos hc] using h hc
  · simp only [if_neg hc]
    exact ⟨[], .nil, rfl⟩

theorem fills_canStoreItemStages (h : Outside W inv src) :
    ∃ sps, List.Forall₂ Stage.Fills (canStoreItemStages W inv src (nullBag, nullSlot) false) sps ∧
      sps.flatten = spaces W inv src := by
  have hslots : ∀ m a b, ∃ sps, List.Forall₂ Stage.Fills
      [inSlots W inv src (nullBag, nullSlot) m a b] sps ∧
        sps.flatten = visible W inv src m (slots a b) :=
    fun m a b => ⟨[_], .cons (fills_inSlots h.empty a b) .nil, by simp⟩
  -- stacks are topped up first
  have hmerge : ∃ sps, List.Forall₂ Stage.Fills
      (if (W.proto src).stackable ≠ 1 then
        [inSlots W inv src (nullBag, nullSlot) true keyringSlotStart currencyTokenSlotEnd,
          inSlots W inv src (nullBag, nullSlot) true inventorySlotItemStart inventorySlotItemEnd] ++
        (if (W.proto src).bagFamily ≠ 0 then
          inBags W inv src (nullBag, nullSlot) true false inventorySlotBagStart inventorySlotBagEnd
        else []) ++
        inBags W inv src (nullBag, nullSlot) true true inventorySlotBagStart inventorySlotBagEnd
      else []) sps ∧ sps.flatten = visible W inv src true (mergeSlots W inv src.entry) := by
    refine fills_ite fun _ => ?_
    rw [visible_append, visible_append, visible_append]
    refine fills_append (fills_append ?_ (fills_ite fun _ => fills_inBags h true false))
      (fills_inBags h true true)
    exact fills_append (hslots true _ _) (hslots true _ _)
  -- then the keyring and the bags for this kind of item
  have hspecial : ∃ sps, List.Forall₂ Stage.Fills
      (if (W.proto src).bagFamily ≠ 0 then
        inKeysOrTokens W inv src (nullBag, nullSlot) false ++
          inBags W inv src (nullBag, nullSlot) false false inventorySlotBagStart inventorySlotBagEnd
      else []) sps ∧ sps.flatten = visible W inv src false
        (if (W.proto src).bagFamily ≠ 0 then
          keySlots W src.entry ++ bagsFor W inv src.entry false else []) := by
    refine fills_ite fun _ => ?_
    rw [visible_append]
    exact fills_append (fills_inKeysOrTokens h.empty) (fills_inBags h false false)
  -- a bag with content goes no further; what may be put down has none
  have hrefuse : ∃ sps, List.Forall₂ Stage.Fills
      [.refuse (if isNotEmptyBag W inv src then some .nonemptyBagOverOtherBag else none)] sps ∧
        sps.flatten = ([] : List (Pos × ℕ)) := by
    refine ⟨[[]], .cons ⟨?_, rfl⟩ .nil, rfl⟩
    rw [h.empty]
    rfl
  have hall := fills_append (fills_append (fills_append (fills_append hmerge hspecial) hrefuse)
    (hslots false inventorySlotItemStart inventorySlotItemEnd)) (fills_inBags h false true)
  obtain ⟨sps, hsps, hflat⟩ := hall
  refine ⟨sps, ?_, ?_⟩
  · have hnull : ¬ (nullBag, nullSlot).1 ≠ nullBag := fun hne => hne rfl
    unfold canStoreItemStages
    dsimp only
    rw [if_neg fun hne => hnull hne.1, if_neg hnull]
    exact hsps
  · rw [hflat, spaces, freeSlots, visible_append, visible_append, List.append_nil,
      List.append_assoc, List.append_assoc, List.append_assoc]
    rfl

/-! ### The positions are distinct -/

theorem nodup_slots (a b : ℕ) : (slots a b).Nodup :=
  List.Nodup.map (fun _ _ h => (Prod.mk.inj h).2) List.nodup_range'

theorem mem_bagFor {plain : Bool} {bag : ℕ} (h : pos ∈ bagFor W inv entry plain bag) :
    pos.1 = bag ∧ pos ∈ bagSlots W inv bag ∧
      ∃ b, getBagByPos W inv bag = some b ∧ plain = (W.proto b.item).isPlainContainer := by
  unfold bagFor at h
  cases hb : getBagByPos W inv bag with
  | none => simp [hb] at h
  | some b =>
    simp only [hb] at h
    split_ifs at h with hfit
    · exact ⟨(mem_bagSlots hb h).1, h, b, rfl, hfit.1⟩
    · simp at h

theorem mem_bagsFor {plain : Bool} (h : pos ∈ bagsFor W inv entry plain) :
    inventorySlotBagStart ≤ pos.1 ∧ pos.1 < inventorySlotBagEnd ∧ pos ∈ bagSlots W inv pos.1 ∧
      ∃ b, getBagByPos W inv pos.1 = some b ∧ plain = (W.proto b.item).isPlainContainer := by
  obtain ⟨bag, hbag, hpos⟩ := List.mem_flatMap.1 h
  obtain ⟨rfl, hslots, hb⟩ := mem_bagFor hpos
  have hrange := List.mem_range'_1.1 hbag
  unfold inventorySlotBagStart inventorySlotBagEnd at *
  exact ⟨hrange.1, by omega, hslots, hb⟩

theorem bagFor_sublist (plain : Bool) (bag : ℕ) :
    (bagFor W inv entry plain bag).Sublist (bagSlots W inv bag) := by
  unfold bagFor
  cases getBagByPos W inv bag with
  | none => exact List.nil_sublist _
  | some b =>
    dsimp only
    split_ifs
    · exact List.Sublist.refl _
    · exact List.nil_sublist _

theorem nodup_bagsFor (plain : Bool) : (bagsFor W inv entry plain).Nodup :=
  nodup_flatMap_bagSlots List.nodup_range' (bagFor_sublist plain)

theorem mem_keySlots (h : pos ∈ keySlots W entry) :
    pos.1 = inventorySlotBag0 ∧ keyringSlotStart ≤ pos.2 ∧ pos.2 < currencyTokenSlotEnd := by
  unfold keySlots at h
  split_ifs at h
  · obtain ⟨hbag, hle, hlt⟩ := mem_slots h
    exact ⟨hbag, hle, hlt.trans (by decide)⟩
  · obtain ⟨hbag, hle, hlt⟩ := mem_slots h
    exact ⟨hbag, le_trans (by decide) hle, hlt⟩
  · simp at h

theorem nodup_keySlots : (keySlots W entry).Nodup := by
  unfold keySlots
  split_ifs
  exacts [nodup_slots _ _, nodup_slots _ _, List.nodup_nil]

theorem disjoint_slots_bags {plain : Bool} {a b : ℕ} :
    List.Disjoint (slots a b) (bagsFor W inv entry plain) := by
  intro pos hslot hbag
  have hlt := (mem_bagsFor hbag).2.1
  rw [(mem_slots hslot).1] at hlt
  exact absurd hlt (by decide)

theorem disjoint_bagsFor :
    List.Disjoint (bagsFor W inv entry false) (bagsFor W inv entry true) := by
  intro pos hf ht
  obtain ⟨-, -, -, b, hb, hplain⟩ := mem_bagsFor hf
  obtain ⟨-, -, -, b', hb', hplain'⟩ := mem_bagsFor ht
  rw [hb] at hb'
  rw [← Option.some.inj hb', ← hplain] at hplain'
  simp at hplain'

theorem disjoint_slots {a b m n : ℕ} (h : n ≤ a) : List.Disjoint (slots a b) (slots m n) := by
  intro pos hpos hpos'
  exact absurd ((mem_slots hpos').2.2.trans_le h) (not_lt.2 (mem_slots hpos).2.1)

theorem nodup_mergeSlots : (mergeSlots W inv entry).Nodup := by
  have hslots : List.Disjoint (slots keyringSlotStart currencyTokenSlotEnd)
    (slots inventorySlotItemStart inventorySlotItemEnd) := disjoint_slots (by decide)
  unfold mergeSlots
  split_ifs
  all_goals simp [List.nodup_append', nodup_slots, nodup_bagsFor, disjoint_bagsFor,
    disjoint_slots_bags, hslots]

theorem nodup_freeSlots : (freeSlots W inv entry).Nodup := by
  have hkeys : ∀ plain, List.Disjoint (keySlots W entry) (bagsFor W inv entry plain) := by
    intro plain pos hkey hbag
    have hlt := (mem_bagsFor hbag).2.1
    rw [(mem_keySlots hkey).1] at hlt
    exact absurd hlt (by decide)
  have hitems : List.Disjoint (keySlots W entry)
      (slots inventorySlotItemStart inventorySlotItemEnd) := by
    intro pos hkey hslot
    have hlt := (mem_slots hslot).2.2.trans_le (by decide : inventorySlotItemEnd ≤ keyringSlotStart)
    exact absurd hlt (not_lt.2 (mem_keySlots hkey).2.1)
  have hbags : List.Disjoint (bagsFor W inv entry false)
      (slots inventorySlotItemStart inventorySlotItemEnd) :=
    fun _ hbag hslot => disjoint_slots_bags hslot hbag
  unfold freeSlots
  split_ifs
  all_goals simp [List.nodup_append', nodup_slots, nodup_bagsFor, nodup_keySlots, disjoint_bagsFor,
    disjoint_slots_bags, hkeys, hitems, hbags]

/-- A position that the search visits for stacks has one, and one it visits for free slots has none,
so no position is filled twice. -/
theorem nodup_spaces : ((spaces W inv src).map Prod.fst).Nodup := by
  unfold spaces
  rw [List.map_append, map_fst_visible, map_fst_visible, List.nodup_append']
  refine ⟨nodup_mergeSlots.filter _, nodup_freeSlots.filter _, fun pos hm hf => ?_⟩
  have hm := (List.mem_filter.1 hm).2
  have hf := (List.mem_filter.1 hf).2
  unfold needSpace at hm hf
  cases ho : otherItemByPos W inv src pos with
  | none => simp [ho] at hm
  | some c => simp [ho] at hf

/-! ### The answer -/

/-- Units that are too many are a number other than 0, of 32 bits unless they are all. -/
theorem takeMore_too_many {held heldInCategory : ℕ} (hk : 0 < k)
    (h : (takeMore W entry k held heldInCategory).1 ≠ .ok) :
    0 < (takeMore W entry k held heldInCategory).2 ∧
      ((takeMore W entry k held heldInCategory).2 = k ∨
        (takeMore W entry k held heldInCategory).2 < 2 ^ 32) := by
  have hsub : ∀ x m, m < x % 2 ^ 32 →
      0 < sub32 (x % 2 ^ 32) m ∧ (sub32 (x % 2 ^ 32) m = k ∨ sub32 (x % 2 ^ 32) m < 2 ^ 32) := by
    intro x m hm
    have hlt := Nat.mod_lt x (by decide : 0 < 2 ^ 32)
    unfold sub32
    rw [if_pos hm.le]
    omega
  unfold takeMore at h ⊢
  dsimp only at h ⊢
  split_ifs at h ⊢ with hnone hmax hcat
  · exact absurd rfl h
  · rw [Nat.add_comm k held]
    exact hsub _ _ hmax.2
  · cases hentry : W.limitCategory (W.template entry).itemLimitCategory with
    | none => exact ⟨hk, .inl rfl⟩
    | some limitEntry =>
      simp only [hentry] at h ⊢
      split_ifs at h ⊢ with hmode
      · rw [Nat.add_comm k heldInCategory]
        exact hsub _ _ hmode.2
      · exact absurd rfl h
  · exact absurd rfl h

/-- The search for `k` units of an entry anywhere succeeds exactly if the player may have them and
there is room for them, and then fills the spaces. -/
theorem canStore_anywhere (hk : 0 < k) :
    ((canStore W inv true (.entry entry) (nullBag, nullSlot) k).res = .ok () ↔
        (takeMore W entry k (heldOf W inv (.entry entry)) (heldInCategoryOf W inv (.entry entry))).1
            = .ok ∧
          k ≤ space (spaces W inv ((Wanted.entry entry).src inv))) ∧
      ((canStore W inv true (.entry entry) (nullBag, nullSlot) k).res = .ok () →
        (canStore W inv true (.entry entry) (nullBag, nullSlot) k).dest =
          fill (spaces W inv ((Wanted.entry entry).src inv)) k) := by
  have hout : Outside W inv ((Wanted.entry entry).src inv) := outside_null entry
  obtain ⟨sps, hsps, hflat⟩ := fills_canStoreItemStages hout
  have hcan : canStore W inv true (.entry entry) (nullBag, nullSlot) k =
      searchFor (takeMore W entry k (heldOf W inv (.entry entry))
        (heldInCategoryOf W inv (.entry entry)))
        (canStoreItemStages W inv ((Wanted.entry entry).src inv) (nullBag, nullSlot) false) k := rfl
  have hun : ∀ n, Unused ⟨[], n⟩ sps.flatten := by
    intro n
    unfold Unused
    rw [hflat]
    exact nodup_spaces
  rw [hcan]
  generalize hmore : takeMore W entry k (heldOf W inv (.entry entry))
    (heldInCategoryOf W inv (.entry entry)) = more
  by_cases hok : more.1 = .ok
  · have hzero : more.2 = 0 := by
      subst hmore
      exact takeMore_ok hok
    unfold searchFor
    rw [if_neg fun h => h.1 hok, if_pos hok, hzero]
    have hsearch := searchStages_fills .inventoryFull 0 hsps ⟨[], k⟩ hk (hun k)
    simpa [hok, hflat] using hsearch
  · -- the limit on the entry or its category: some units stay out, so the answer is an error
    have hmany : 0 < more.2 ∧ (more.2 = k ∨ more.2 < 2 ^ 32) := by
      subst hmore
      exact takeMore_too_many hk hok
    have hfail : (searchFor more
        (canStoreItemStages W inv ((Wanted.entry entry).src inv) (nullBag, nullSlot) false)
        k).res ≠ .ok () := by
      unfold searchFor
      split_ifs with hall
      · exact nofun
      · have hnot : k ≠ more.2 := fun heq => hall ⟨hok, heq⟩
        have hsub : 0 < sub32 k more.2 := by
          unfold sub32
          split_ifs <;> omega
        intro hres
        have hzero := ((searchStages_fills _ _ hsps ⟨[], _⟩ hsub (hun _)).1.1 hres).1
        omega
    exact ⟨iff_of_false hfail fun h => hok h.1, fun h => absurd h hfail⟩

end FaceCore.Storage
