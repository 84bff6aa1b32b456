import FaceCore.Lib.Refill
import FaceCore.Player.Holdings

/-!
# Searching again

`Player::CanStoreItem` with a vector `dest` that is not empty: the places in it are passed over by
`ItemPosCount::isContainedIn`, and what is found is added to it.

* `canStoreInto`: the function with the vector;
* `seen`: the places that it sees for a requested bag and slot, up to the first error that ends the
  search, with the room at each;
* `Ends`: what a list of blocks reserves, by the places that it sees;
* `canStoreInto_reports`: the search reserves units at the unused places that it sees, and succeeds
  exactly if all units have one.
-/

namespace FaceCore.Storage

open Plan

section

variable (W : World) (inv : Bags)

/-- `searchFor` with the places that are in `dest` before. -/
def searchInto (more : InventoryResult × ℕ) (stages : List Stage) (count : ℕ)
    (dest : List (Pos × ℕ)) : StoreAnswer :=
  if more.1 ≠ .ok ∧ count = more.2 then ⟨.error more.1, dest, some more.2⟩
  else
    searchStages .inventoryFull more.2 stages
      ⟨dest, if more.1 = .ok then count else sub32 count more.2⟩

/-- `Player::CanStoreItem` without swap, with the places that are in `dest` before. -/
def canStoreInto (known : Bool) (w : Wanted) (pos : Pos) (count : ℕ) (dest : List (Pos × ℕ)) :
    StoreAnswer :=
  let src := w.src inv
  if !known then ⟨.error .itemNotFound, dest, some count⟩
  else if src.lootGenerated then ⟨.error .alreadyLooted, dest, some count⟩
  else if boundToOther W w then ⟨.error .dontOwnThatItem, dest, some count⟩
  else
    searchInto (takeMore W w.getEntry count (heldOf W inv w) (heldInCategoryOf W inv w))
      (canStoreItemStages W inv src pos false) count dest

theorem canStoreInto_nil (known : Bool) (w : Wanted) (pos : Pos) (count : ℕ) :
    canStoreInto W inv known w pos count [] = canStore W inv known w pos count := rfl

/-! ### What the search sees -/

variable (src : Item)

/-- What the search sees in some slots. -/
def slotSpaces (skip : Pos) (merge : Bool) (a b : ℕ) : List (Pos × ℕ) :=
  visible W inv src merge ((slots a b).filter fun pos => pos ≠ skip)

/-- What it sees in a bag, unless it turns away from it. The slot `skip` is passed over in every
bag. -/
def bagSpaces (skip : Pos) (merge plain : Bool) (bag : ℕ) : Option (List (Pos × ℕ)) :=
  if bag = skip.1 then none
  else
    match getBagByPos W inv bag with
    | none => none
    | some b =>
      if plain = (W.proto b.item).isPlainContainer ∧
          itemCanGoIntoBag (W.proto src) (W.proto b.item) then
        some (visible W inv src merge ((bagSlots W inv bag).filter fun pos => pos.2 ≠ skip.2))
      else none

/-- What it sees in the equipped bags. -/
def bagsSpaces (skip : Pos) (merge plain : Bool) : List (Pos × ℕ) :=
  (List.range' inventorySlotBagStart (inventorySlotBagEnd - inventorySlotBagStart)).flatMap fun bag =>
    (bagSpaces W inv src skip merge plain bag).getD []

/-- What it sees in the keyring or among the currency tokens. -/
def keySpaces (skip : Pos) (specificBag : Bool) : List (Pos × ℕ) :=
  if (W.proto src).hasFamily bagFamilyMaskKeys then
    slotSpaces W inv src skip false keyringSlotStart (keyringSlotStart + getMaxKeyringSize) ++
      if specificBag then
        slotSpaces W inv src skip false currencyTokenSlotStart currencyTokenSlotEnd
      else []
  else if (W.proto src).isCurrencyToken then
    slotSpaces W inv src skip false currencyTokenSlotStart currencyTokenSlotEnd
  else []

/-- What it sees at the requested slot, unless the units may not go there. -/
def specificSlotSpaces (pos : Pos) : Option (List (Pos × ℕ)) :=
  match otherItemByPos W inv src pos with
  | some c =>
    if canBeMergedPartlyWith W c src.entry = .ok then some [(pos, W.maxStack src.entry - c.count)]
    else none
  | none => if fitsToSlot W inv src pos then some [(pos, W.maxStack src.entry)] else none

/-- What it sees in the requested bag, specialized or not. -/
def specificBagSpaces (pos : Pos) (merge : Bool) : Option (List (Pos × ℕ)) :=
  (bagSpaces W inv src (nullBag, pos.2) merge false pos.1).or
    (bagSpaces W inv src (nullBag, pos.2) merge true pos.1)

/-- What it sees outside the requested bag. -/
def otherSpaces (skip : Pos) : List (Pos × ℕ) :=
  (if (W.proto src).stackable ≠ 1 then
    slotSpaces W inv src skip true keyringSlotStart currencyTokenSlotEnd ++
      slotSpaces W inv src skip true inventorySlotItemStart inventorySlotItemEnd ++
      (if (W.proto src).bagFamily ≠ 0 then bagsSpaces W inv src skip true false else []) ++
      bagsSpaces W inv src skip true true
  else []) ++
  (if (W.proto src).bagFamily ≠ 0 then
    keySpaces W inv src skip false ++ bagsSpaces W inv src skip false false
  else []) ++
  slotSpaces W inv src skip false inventorySlotItemStart inventorySlotItemEnd ++
  bagsSpaces W inv src skip false true

/-- What is seen after a first look, which ends the search if there is nothing to look at. -/
def afterLook {P : Type*} : Option (List (P × ℕ)) → List (P × ℕ) → List (P × ℕ)
  | none, _ => []
  | some sp, sp' => sp ++ sp'

/-- The places that `CanStoreItem` sees, in its order. -/
def seen (pos : Pos) : List (Pos × ℕ) :=
  afterLook (if pos.1 ≠ nullBag ∧ pos.2 ≠ nullSlot then specificSlotSpaces W inv src pos else some [])
    (if pos.1 ≠ nullBag then
      if pos.1 = inventorySlotBag0 then
        (if (W.proto src).stackable ≠ 1 then
          slotSpaces W inv src pos true keyringSlotStart currencyTokenSlotEnd ++
            slotSpaces W inv src pos true inventorySlotItemStart inventorySlotItemEnd
        else []) ++
        keySpaces W inv src pos true ++
        slotSpaces W inv src pos false inventorySlotItemStart inventorySlotItemEnd ++
        otherSpaces W inv src pos
      else
        afterLook
          (if (W.proto src).stackable ≠ 1 then specificBagSpaces W inv src pos true else some [])
          (afterLook (specificBagSpaces W inv src pos false) (otherSpaces W inv src pos))
    else otherSpaces W inv src pos)

end

variable {W : World} {inv : Bags} {src : Item} {merge : Bool} {ps : List Pos} {pos skip : Pos}
  {plan plan' : Plan Pos} {k n entry : ℕ} {stages : List Stage} {sp sp' : List (Pos × ℕ)}

/-! ### The blocks -/

/-- The loop over positions reserves units at those that it sees. -/
theorem reserveIn_eq_refill (h : 0 < plan.count) :
    reserveIn W inv src merge ps plan = refill (visible W inv src merge ps) plan := by
  induction ps generalizing plan with
  | nil => rfl
  | cons pos ps ih =>
    unfold reserveIn
    cases hneed : needSpace W inv src merge pos with
    | none =>
      have hvis : visible W inv src merge (pos :: ps) = visible W inv src merge ps := by
        simp [visible, hneed]
      rw [hvis]
      exact ih h
    | some need =>
      have hvis : visible W inv src merge (pos :: ps) =
          (pos, need) :: visible W inv src merge ps := by
        simp [visible, hneed]
      rw [hvis, refill, if_neg (Nat.pos_iff_ne_zero.1 h)]
      dsimp only
      split_ifs with hmem hzero
      · rw [reserve_of_mem hmem]
        exact ih h
      · rw [reserve_of_notMem hmem, refill_of_count hzero]
      · rw [reserve_of_notMem hmem]
        exact ih (Nat.pos_of_ne_zero hzero)

/-- When no units are asked for, none are reserved. -/
theorem reserveIn_zero (h : plan.count = 0) :
    (reserveIn W inv src merge ps plan).count = 0 ∧
      ((reserveIn W inv src merge ps plan).dest.map Prod.snd).sum =
        (plan.dest.map Prod.snd).sum := by
  induction ps with
  | nil => exact ⟨h, rfl⟩
  | cons pos ps ih =>
    unfold reserveIn
    cases needSpace W inv src merge pos with
    | none => exact ih
    | some need =>
      have hpush : (plan.push pos need).count = 0 := by simp [Plan.push, h]
      dsimp only
      rw [if_pos hpush]
      split_ifs
      · exact ih
      · exact ⟨hpush, by simp [Plan.push, h]⟩

/-- A search reserves units at the places that it sees, or turns away if there is nothing to look
at. -/
structure Looks (find : Plan Pos → Except InventoryResult (Plan Pos))
    (o : Option (List (Pos × ℕ))) : Prop where
  found : ∀ sp, o = some sp → ∀ plan, 0 < plan.count → find plan = .ok (refill sp plan)
  turned : o = none → ∀ plan, ∃ res, find plan = .error res
  idle : ∀ plan plan', plan.count = 0 → find plan = .ok plan' →
    plan'.count = 0 ∧ (plan'.dest.map Prod.snd).sum = (plan.dest.map Prod.snd).sum

theorem looks_turned {find : Plan Pos → Except InventoryResult (Plan Pos)} (res : InventoryResult)
    (h : ∀ plan, find plan = .error res) : Looks find none where
  found := nofun
  turned _ plan := ⟨res, h plan⟩
  idle plan _ _ hplan := absurd ((h plan).symm.trans hplan) nofun

theorem looks_reserveIn {find : Plan Pos → Except InventoryResult (Plan Pos)}
    (h : ∀ plan, find plan = .ok (reserveIn W inv src merge ps plan)) :
    Looks find (some (visible W inv src merge ps)) where
  found := by
    rintro sp hsp plan hcount
    obtain rfl := Option.some.inj hsp
    rw [h, reserveIn_eq_refill hcount]
  turned := nofun
  idle := by
    intro plan plan' hcount hplan
    obtain rfl := Except.ok.inj ((h plan).symm.trans hplan)
    exact reserveIn_zero hcount

theorem looks_slots (h : isNotEmptyBag W inv src = false) (a b : ℕ) :
    Looks (canStoreItemInInventorySlots W inv a b merge src skip)
      (some (slotSpaces W inv src skip merge a b)) := by
  refine looks_reserveIn fun plan => ?_
  unfold canStoreItemInInventorySlots
  rw [h, if_neg Bool.false_ne_true]

theorem looks_bag (h : Outside W inv src) (plain : Bool) (bag : ℕ) :
    Looks (canStoreItemInBag W inv bag merge plain src skip)
      (bagSpaces W inv src skip merge plain bag) := by
  unfold bagSpaces
  by_cases hskip : bag = skip.1
  · rw [if_pos hskip]
    exact looks_turned .itemDoesntGoIntoBag fun plan => if_pos hskip
  rw [if_neg hskip]
  cases hb : getBagByPos W inv bag with
  | none =>
    refine looks_turned .itemDoesntGoIntoBag fun plan => ?_
    unfold canStoreItemInBag
    rw [if_neg hskip, hb]
  | some b =>
    have hself := h.notBag bag b hb
    dsimp only
    split_ifs with hfit
    · refine looks_reserveIn fun plan => ?_
      unfold canStoreItemInBag
      simp only [hskip, hb, hself, h.empty, hfit.1, hfit.2, if_false, Bool.false_eq_true, ne_eq,
        not_true_eq_false, Bool.not_true]
    · refine looks_turned .itemDoesntGoIntoBag fun plan => ?_
      unfold canStoreItemInBag
      simp only [hskip, hb, hself, h.empty, if_false, Bool.false_eq_true]
      split_ifs with hplain hgo
      · rfl
      · rfl
      · rw [Bool.not_eq_true', Bool.not_eq_false] at hgo
        exact absurd ⟨not_not.1 hplain, hgo⟩ hfit

/-- The first look that does not turn away. -/
theorem looks_specificBag (h : Outside W inv src) (pos : Pos) :
    Looks (fun plan =>
        match canStoreItemInBag W inv pos.1 merge false src (nullBag, pos.2) plan with
        | .ok plan' => .ok plan'
        | .error _ => canStoreItemInBag W inv pos.1 merge true src (nullBag, pos.2) plan)
      (specificBagSpaces W inv src pos merge) := by
  have hspecial : Looks (canStoreItemInBag W inv pos.1 merge false src (nullBag, pos.2))
    (bagSpaces W inv src (nullBag, pos.2) merge false pos.1) := looks_bag h false pos.1
  have hplain : Looks (canStoreItemInBag W inv pos.1 merge true src (nullBag, pos.2))
    (bagSpaces W inv src (nullBag, pos.2) merge true pos.1) := looks_bag h true pos.1
  unfold specificBagSpaces
  cases ho : bagSpaces W inv src (nullBag, pos.2) merge false pos.1 with
  | none =>
    rw [ho] at hspecial
    -- no bag of the special kind is there: only the second search counts
    have hfind : (fun plan =>
        match canStoreItemInBag W inv pos.1 merge false src (nullBag, pos.2) plan with
        | .ok plan' => .ok plan'
        | .error _ => canStoreItemInBag W inv pos.1 merge true src (nullBag, pos.2) plan) =
        canStoreItemInBag W inv pos.1 merge true src (nullBag, pos.2) := by
      funext plan
      obtain ⟨res, hres⟩ := hspecial.turned rfl plan
      rw [hres]
    rw [hfind, Option.none_or]
    exact hplain
  | some sp =>
    rw [ho] at hspecial
    rw [Option.some_or]
    refine ⟨fun sp' hsp' plan hcount => ?_, nofun, fun plan plan' hcount hplan => ?_⟩
    · rw [hspecial.found sp' hsp' plan hcount]
    · cases hfind : canStoreItemInBag W inv pos.1 merge false src (nullBag, pos.2) plan with
      | ok plan'' =>
        rw [hfind] at hplan
        obtain rfl := Except.ok.inj hplan
        exact hspecial.idle plan _ hcount hfind
      | error res =>
        rw [hfind] at hplan
        exact hplain.idle plan plan' hcount hplan

/-- The requested slot. -/
theorem looks_specificSlot (h : isNotEmptyBag W inv src = false) (pos : Pos) :
    Looks (canStoreItemInSpecificSlot W inv pos false src) (specificSlotSpaces W inv src pos) := by
  -- a slot that takes the item offers its room and nothing else
  have hreserve : ∀ {find : Plan Pos → Except InventoryResult (Plan Pos)} {need : ℕ},
      (∀ plan, find plan = .ok (plan.reserve pos need)) → Looks find (some [(pos, need)]) := by
    intro find need hfind
    refine ⟨fun sp hsp plan hcount => ?_, nofun, fun plan plan' hcount hplan => ?_⟩
    · obtain rfl := Option.some.inj hsp
      rw [hfind, refill, if_neg (Nat.pos_iff_ne_zero.1 hcount), refill]
    · obtain rfl := Except.ok.inj ((hfind plan).symm.trans hplan)
      by_cases hmem : pos ∈ plan.dest.map Prod.fst
      · rw [reserve_of_mem hmem]
        exact ⟨hcount, rfl⟩
      · rw [reserve_of_notMem hmem]
        exact ⟨by simp [Plan.push, hcount], by simp [Plan.push, hcount]⟩
  unfold specificSlotSpaces
  cases ho : otherItemByPos W inv src pos with
  | none =>
    dsimp only
    split_ifs with hfit
    · refine hreserve fun plan => ?_
      unfold canStoreItemInSpecificSlot
      simp [h, ho, hfit]
    · refine looks_turned .itemDoesntGoIntoBag fun plan => ?_
      unfold canStoreItemInSpecificSlot
      simp [h, ho, hfit]
  | some c =>
    dsimp only
    split_ifs with hm
    · refine hreserve fun plan => ?_
      unfold canStoreItemInSpecificSlot
      simp [h, ho, hm]
    · refine looks_turned (canBeMergedPartlyWith W c src.entry) fun plan => ?_
      unfold canStoreItemInSpecificSlot
      simp only [h, ho, Bool.false_and, Bool.false_eq_true, if_false]

/-! ### All blocks -/

/-- An answer with the plan that was found: it is positive if every unit has a place and none was
refused before. -/
structure Reports (a : StoreAnswer) (noSimilarCount : ℕ) (plan : Plan Pos) : Prop where
  dest : a.dest = plan.dest
  ok : a.res = .ok () ↔ plan.count = 0 ∧ noSimilarCount = 0

/-- The blocks reserve units at the places `sp`. -/
structure Ends (stages : List Stage) (sp : List (Pos × ℕ)) : Prop where
  reports : ∀ full noSimilarCount plan, 0 < plan.count →
    Reports (searchStages full noSimilarCount stages plan) noSimilarCount (refill sp plan)
  idle : ∀ full noSimilarCount plan, plan.count = 0 →
    ((searchStages full noSimilarCount stages plan).dest.map Prod.snd).sum =
      (plan.dest.map Prod.snd).sum

variable {find : Plan Pos → Except InventoryResult (Plan Pos)} {o : Option (List (Pos × ℕ))}

theorem ends_nil : Ends [] [] where
  reports _ _ _ hcount := ⟨rfl, iff_of_false nofun fun h => Nat.ne_of_gt hcount h.1⟩
  idle _ _ _ _ := rfl

/-- A search in front of other blocks. -/
theorem Ends.look {fatal : Bool} (hfind : Looks find (some sp)) (h : Ends stages sp') :
    Ends (.search fatal find :: stages) (sp ++ sp') := by
  refine ⟨fun full m plan hcount => ?_, fun full m plan hcount => ?_⟩
  · rw [searchStages, hfind.found sp rfl plan hcount, refill_append]
    dsimp only
    by_cases hzero : (refill sp plan).count = 0
    · -- all units have a place
      rw [if_pos hzero, refill_of_count hzero]
      split_ifs with hm
      · exact ⟨rfl, iff_of_true rfl ⟨hzero, hm⟩⟩
      · exact ⟨rfl, iff_of_false (fun h => by cases h) fun h => hm h.2⟩
    · rw [if_neg hzero]
      exact h.reports full m _ (Nat.pos_of_ne_zero hzero)
  · rw [searchStages]
    cases hplan : find plan with
    | error res =>
      cases fatal with
      | true => rfl
      | false => exact h.idle full m plan hcount
    | ok plan' =>
      obtain ⟨hzero, hsum⟩ := hfind.idle plan plan' hcount hplan
      dsimp only
      rw [if_pos hzero]
      split_ifs
      · exact hsum
      · exact hsum

/-- A search whose error ends the function. -/
theorem Ends.fatal (hfind : Looks find o) (h : Ends stages sp') :
    Ends (.search true find :: stages) (afterLook o sp') := by
  cases o with
  | some sp => exact h.look hfind
  | none =>
    have hend : ∀ full m plan, ∃ res, searchStages full m (.search true find :: stages) plan =
        ⟨.error res, plan.dest, some (spaceless m plan)⟩ := by
      intro full m plan
      obtain ⟨res, hres⟩ := hfind.turned rfl plan
      refine ⟨res, ?_⟩
      rw [searchStages, hres]
      rfl
    refine ⟨fun full m plan hcount => ?_, fun full m plan _ => ?_⟩
    · obtain ⟨res, heq⟩ := hend full m plan
      rw [heq]
      exact ⟨rfl, iff_of_false (fun h => by cases h) fun h => Nat.ne_of_gt hcount h.1⟩
    · obtain ⟨res, heq⟩ := hend full m plan
      rw [heq]

/-- A search whose error is passed over. -/
theorem Ends.passed (hfind : Looks find o) (h : Ends stages sp') :
    Ends (.search false find :: stages) (o.getD [] ++ sp') := by
  cases o with
  | some sp => exact h.look hfind
  | none =>
    have hskip : ∀ full m plan, searchStages full m (.search false find :: stages) plan =
        searchStages full m stages plan := by
      intro full m plan
      obtain ⟨res, hres⟩ := hfind.turned rfl plan
      rw [searchStages, hres]
      rfl
    exact ⟨fun full m plan hcount => by
        rw [hskip]
        exact h.reports full m plan hcount,
      fun full m plan hcount => by
        rw [hskip]
        exact h.idle full m plan hcount⟩

theorem Ends.refuse (h : Ends stages sp') : Ends (.refuse none :: stages) sp' :=
  ⟨h.reports, h.idle⟩

theorem Ends.slots (h : Ends stages sp') (hempty : isNotEmptyBag W inv src = false) (skip : Pos)
    (merge : Bool) (a b : ℕ) :
    Ends (inSlots W inv src skip merge a b :: stages) (slotSpaces W inv src skip merge a b ++ sp') :=
  h.look (looks_slots hempty a b)

theorem Ends.bags (h : Ends stages sp') (hout : Outside W inv src) (skip : Pos)
    (merge plain : Bool) :
    Ends (inBags W inv src skip merge plain inventorySlotBagStart inventorySlotBagEnd ++ stages)
      (bagsSpaces W inv src skip merge plain ++ sp') := by
  unfold inBags bagsSpaces
  generalize List.range' inventorySlotBagStart (inventorySlotBagEnd - inventorySlotBagStart) = bags
  induction bags with
  | nil => exact h
  | cons bag bags ih =>
    rw [List.map_cons, List.flatMap_cons, List.cons_append, List.append_assoc]
    exact ih.passed (looks_bag hout plain bag)

theorem Ends.keys (h : Ends stages sp') (hempty : isNotEmptyBag W inv src = false) (skip : Pos)
    (specificBag : Bool) :
    Ends (inKeysOrTokens W inv src skip specificBag ++ stages)
      (keySpaces W inv src skip specificBag ++ sp') := by
  unfold inKeysOrTokens keySpaces
  split_ifs
  · rw [List.append_assoc]
    exact (h.slots hempty skip false _ _).slots hempty skip false _ _
  · rw [List.append_nil]
    exact h.slots hempty skip false _ _
  · exact h.slots hempty skip false _ _
  · exact h

theorem Ends.ite (h : Ends stages sp') (c : Prop) [Decidable c] {first : List Stage}
    (hfirst : Ends (first ++ stages) (sp ++ sp')) :
    Ends ((if c then first else []) ++ stages) ((if c then sp else []) ++ sp') := by
  split_ifs
  · exact hfirst
  · exact h

theorem Ends.special (h : Ends stages sp') (hout : Outside W inv src) (skip : Pos) :
    Ends ((if (W.proto src).bagFamily ≠ 0 then
        inKeysOrTokens W inv src skip false ++
          inBags W inv src skip false false inventorySlotBagStart inventorySlotBagEnd
      else []) ++ stages)
      ((if (W.proto src).bagFamily ≠ 0 then
        keySpaces W inv src skip false ++ bagsSpaces W inv src skip false false
      else []) ++ sp') := by
  refine h.ite _ ?_
  rw [List.append_assoc, List.append_assoc]
  exact (h.bags hout skip false false).keys hout.empty skip false

/-- The stacks to merge with. -/
theorem Ends.merging (h : Ends stages sp') (hout : Outside W inv src) (skip : Pos) :
    Ends ((if (W.proto src).stackable ≠ 1 then
        [inSlots W inv src skip true keyringSlotStart currencyTokenSlotEnd,
          inSlots W inv src skip true inventorySlotItemStart inventorySlotItemEnd] ++
        (if (W.proto src).bagFamily ≠ 0 then
          inBags W inv src skip true false inventorySlotBagStart inventorySlotBagEnd else []) ++
        inBags W inv src skip true true inventorySlotBagStart inventorySlotBagEnd
      else []) ++ stages)
      ((if (W.proto src).stackable ≠ 1 then
        slotSpaces W inv src skip true keyringSlotStart currencyTokenSlotEnd ++
          slotSpaces W inv src skip true inventorySlotItemStart inventorySlotItemEnd ++
          (if (W.proto src).bagFamily ≠ 0 then bagsSpaces W inv src skip true false else []) ++
          bagsSpaces W inv src skip true true
      else []) ++ sp') := by
  have hbags := h.bags hout skip true true
  have hspecial := hbags.ite ((W.proto src).bagFamily ≠ 0) (hbags.bags hout skip true false)
  refine h.ite _ ?_
  simp only [List.append_assoc, List.cons_append, List.nil_append]
  exact (hspecial.slots hout.empty skip true _ _).slots hout.empty skip true _ _

/-- The backpack, the keyring and the tokens, as the requested bag. -/
theorem Ends.backpack (h : Ends stages sp') (hout : Outside W inv src) (skip : Pos) :
    Ends ((if (W.proto src).stackable ≠ 1 then
        [inSlots W inv src skip true keyringSlotStart currencyTokenSlotEnd,
          inSlots W inv src skip true inventorySlotItemStart inventorySlotItemEnd]
      else []) ++ (inKeysOrTokens W inv src skip true ++
        [inSlots W inv src skip false inventorySlotItemStart inventorySlotItemEnd] ++ stages))
      ((if (W.proto src).stackable ≠ 1 then
        slotSpaces W inv src skip true keyringSlotStart currencyTokenSlotEnd ++
          slotSpaces W inv src skip true inventorySlotItemStart inventorySlotItemEnd
      else []) ++ (keySpaces W inv src skip true ++
        slotSpaces W inv src skip false inventorySlotItemStart inventorySlotItemEnd ++ sp')) := by
  have hfree := h.slots hout.empty skip false inventorySlotItemStart inventorySlotItemEnd
  have hkeys := hfree.keys hout.empty skip true
  rw [List.append_assoc, List.append_assoc, List.singleton_append]
  refine hkeys.ite _ ?_
  rw [List.append_assoc]
  exact (hkeys.slots hout.empty skip true _ _).slots hout.empty skip true _ _

theorem Ends.bag (h : Ends stages sp') (hout : Outside W inv src) (pos : Pos) :
    Ends ((if (W.proto src).stackable ≠ 1 then [inBag W inv src pos true] else []) ++
        ([inBag W inv src pos false] ++ stages))
      (afterLook
        (if (W.proto src).stackable ≠ 1 then specificBagSpaces W inv src pos true else some [])
        (afterLook (specificBagSpaces W inv src pos false) sp')) := by
  have hfree : Ends ([inBag W inv src pos false] ++ stages)
      (afterLook (specificBagSpaces W inv src pos false) sp') :=
    h.fatal (looks_specificBag hout pos)
  by_cases hstack : (W.proto src).stackable ≠ 1
  · rw [if_pos hstack, if_pos hstack]
    exact hfree.fatal (looks_specificBag hout pos)
  · rw [if_neg hstack, if_neg hstack]
    exact hfree

theorem Ends.requestedSlot (h : Ends stages sp') (hout : Outside W inv src) (pos : Pos) :
    Ends ((if pos.1 ≠ nullBag ∧ pos.2 ≠ nullSlot then
        [.search true (canStoreItemInSpecificSlot W inv pos false src)] else []) ++ stages)
      (afterLook (if pos.1 ≠ nullBag ∧ pos.2 ≠ nullSlot then specificSlotSpaces W inv src pos
        else some []) sp') := by
  split_ifs
  · exact h.fatal (looks_specificSlot hout.empty pos)
  · exact h

/-- The blocks that look outside the requested bag. -/
theorem ends_other (h : Outside W inv src) (skip : Pos) :
    Ends ((if (W.proto src).stackable ≠ 1 then
        [inSlots W inv src skip true keyringSlotStart currencyTokenSlotEnd,
          inSlots W inv src skip true inventorySlotItemStart inventorySlotItemEnd] ++
        (if (W.proto src).bagFamily ≠ 0 then
          inBags W inv src skip true false inventorySlotBagStart inventorySlotBagEnd else []) ++
        inBags W inv src skip true true inventorySlotBagStart inventorySlotBagEnd
      else []) ++
      ((if (W.proto src).bagFamily ≠ 0 then
        inKeysOrTokens W inv src skip false ++
          inBags W inv src skip false false inventorySlotBagStart inventorySlotBagEnd
      else []) ++
      ([.refuse (if isNotEmptyBag W inv src then some .nonemptyBagOverOtherBag else none)] ++
      ([inSlots W inv src skip false inventorySlotItemStart inventorySlotItemEnd] ++
      inBags W inv src skip false true inventorySlotBagStart inventorySlotBagEnd))))
      (otherSpaces W inv src skip) := by
  have hplain := ends_nil.bags h skip false true
  rw [List.append_nil, List.append_nil] at hplain
  have hfree := hplain.slots h.empty skip false inventorySlotItemStart inventorySlotItemEnd
  unfold otherSpaces
  rw [h.empty, if_neg Bool.false_ne_true]
  simpa only [List.append_assoc, List.cons_append, List.nil_append] using
    (hfree.refuse.special h skip).merging h skip

/-- What all blocks of `CanStoreItem` reserve. -/
theorem ends_canStoreItemStages (h : Outside W inv src) (pos : Pos) :
    Ends (canStoreItemStages W inv src pos false) (seen W inv src pos) := by
  have hother := ends_other h pos
  have hbackpack := hother.backpack h pos
  have hbag := hother.bag h pos
  simp only [List.append_assoc, List.cons_append, List.nil_append] at hother hbackpack hbag
  unfold canStoreItemStages seen
  simp only [List.append_assoc]
  refine Ends.requestedSlot ?_ h pos
  by_cases hnull : pos.1 ≠ nullBag
  · rw [if_pos hnull, if_pos hnull]
    by_cases hbag0 : pos.1 = inventorySlotBag0
    · simp only [if_pos hbag0, List.append_assoc, List.cons_append, List.nil_append]
      exact hbackpack
    · simp only [if_neg hbag0, List.append_assoc, List.cons_append, List.nil_append]
      exact hbag
  · rw [if_neg hnull, if_neg hnull]
    exact hother

/-! ### The answer -/

/-- What the function answers for an entry with a template of which the player may have all units. -/
theorem canStoreInto_reports (hk : 0 < k) (dest : List (Pos × ℕ)) (pos : Pos)
    (hmore : (takeMore W entry k (heldOf W inv (.entry entry))
      (heldInCategoryOf W inv (.entry entry))).1 = .ok) :
    Reports (canStoreInto W inv true (.entry entry) pos k dest) 0
      (refill (seen W inv ((Wanted.entry entry).src inv) pos) ⟨dest, k⟩) := by
  have hout : Outside W inv ((Wanted.entry entry).src inv) := outside_null entry
  have hends := ends_canStoreItemStages hout pos
  have hcan : canStoreInto W inv true (.entry entry) pos k dest =
      searchInto (takeMore W entry k (heldOf W inv (.entry entry))
        (heldInCategoryOf W inv (.entry entry)))
        (canStoreItemStages W inv ((Wanted.entry entry).src inv) pos false) k dest := rfl
  rw [hcan, searchInto, if_neg fun h => h.1 hmore, if_pos hmore, takeMore_ok hmore]
  exact hends.reports .inventoryFull 0 ⟨dest, k⟩ hk

theorem noSimilarCount_of_searchStages {full : InventoryResult} {noSimilarCount : ℕ}
    (h : (searchStages full noSimilarCount stages plan).res = .ok ()) : noSimilarCount = 0 := by
  have hrun : runStages full noSimilarCount stages plan =
      .ok (searchStages full noSimilarCount stages plan).dest := by
    rw [runStages_eq, StoreAnswer.plan, h]
    rfl
  exact noSimilarCount_of_runStages hrun

variable {known : Bool} {dest : List (Pos × ℕ)}

/-- Without a template, and if the player may not have all units, the answer is negative. -/
theorem of_canStoreInto (h : (canStoreInto W inv known (.entry entry) pos k dest).res = .ok ()) :
    known = true ∧ (takeMore W entry k (heldOf W inv (.entry entry))
      (heldInCategoryOf W inv (.entry entry))).1 = .ok := by
  cases known with
  | false => cases h
  | true =>
    refine ⟨rfl, ?_⟩
    change (searchInto (takeMore W entry k (heldOf W inv (.entry entry))
      (heldInCategoryOf W inv (.entry entry)))
      (canStoreItemStages W inv ((Wanted.entry entry).src inv) pos false) k dest).res = .ok () at h
    by_contra hmore
    unfold searchInto at h
    by_cases hall : k = (takeMore W entry k (heldOf W inv (.entry entry))
        (heldInCategoryOf W inv (.entry entry))).2
    · rw [if_pos ⟨hmore, hall⟩] at h
      cases h
    · rw [if_neg fun h => hall h.2] at h
      have hzero := noSimilarCount_of_searchStages h
      rcases Nat.eq_zero_or_pos k with hk | hk
      · exact hall (hk.trans hzero.symm)
      · exact Nat.ne_of_gt (takeMore_too_many hk hmore).1 hzero

/-- When no units are asked for, none are reserved. -/
theorem canStoreInto_zero (dest : List (Pos × ℕ)) (pos : Pos)
    (hmore : (takeMore W entry 0 (heldOf W inv (.entry entry))
      (heldInCategoryOf W inv (.entry entry))).1 = .ok) :
    ((canStoreInto W inv true (.entry entry) pos 0 dest).dest.map Prod.snd).sum =
      (dest.map Prod.snd).sum := by
  have hout : Outside W inv ((Wanted.entry entry).src inv) := outside_null entry
  have hends := ends_canStoreItemStages hout pos
  have hcan : canStoreInto W inv true (.entry entry) pos 0 dest =
      searchInto (takeMore W entry 0 (heldOf W inv (.entry entry))
        (heldInCategoryOf W inv (.entry entry)))
        (canStoreItemStages W inv ((Wanted.entry entry).src inv) pos false) 0 dest := rfl
  rw [hcan, searchInto, if_neg fun h => h.1 hmore, if_pos hmore]
  exact hends.idle .inventoryFull _ ⟨dest, 0⟩ rfl

/-! ### The places that are seen -/

/-- A place that is seen, with its room. -/
def Sighted (W : World) (inv : Bags) (src : Item) (q : Pos × ℕ) : Prop :=
  (locate W inv q.1).isSome ∧ ∃ merge, needSpace W inv src merge q.1 = some q.2

variable {q : Pos × ℕ}

theorem sighted_slotSpaces {a b : ℕ} (hq : q ∈ slotSpaces W inv src skip merge a b)
    (hab : b ≤ bankSlotBagEnd ∨ keyringSlotStart ≤ a ∧ b ≤ currencyTokenSlotEnd) :
    Sighted W inv src q := by
  obtain ⟨hpos, hneed⟩ := mem_visible.1 hq
  obtain ⟨hbag, ha, hb⟩ := mem_slots (List.mem_of_mem_filter hpos)
  refine ⟨?_, merge, hneed⟩
  obtain ⟨⟨bag, slot⟩, need⟩ := q
  obtain rfl : bag = inventorySlotBag0 := hbag
  rw [locate_slot (isItemSlot_range hab slot ha hb)]
  rfl

theorem sighted_bagSpaces {plain : Bool} {bag : ℕ}
    (hsp : bagSpaces W inv src skip merge plain bag = some sp) (hq : q ∈ sp) :
    Sighted W inv src q := by
  unfold bagSpaces at hsp
  split_ifs at hsp
  cases hb : getBagByPos W inv bag with
  | none => simp [hb] at hsp
  | some b =>
    simp only [hb] at hsp
    split_ifs at hsp
    obtain rfl := Option.some.inj hsp
    obtain ⟨hpos, hneed⟩ := mem_visible.1 hq
    obtain ⟨rfl, hlt⟩ := mem_bagSlots hb (List.mem_of_mem_filter hpos)
    refine ⟨?_, merge, hneed⟩
    rw [locate_bag hb hlt]
    rfl

theorem sighted_bagsSpaces {plain : Bool} (hq : q ∈ bagsSpaces W inv src skip merge plain) :
    Sighted W inv src q := by
  obtain ⟨bag, -, hq⟩ := List.mem_flatMap.1 hq
  cases hsp : bagSpaces W inv src skip merge plain bag with
  | none => simp [hsp] at hq
  | some sp =>
    rw [hsp] at hq
    exact sighted_bagSpaces hsp hq

theorem sighted_keySpaces {specificBag : Bool} (hq : q ∈ keySpaces W inv src skip specificBag) :
    Sighted W inv src q := by
  have htokens : q ∈ slotSpaces W inv src skip false currencyTokenSlotStart currencyTokenSlotEnd →
      Sighted W inv src q := fun h => sighted_slotSpaces h (.inr ⟨by decide, le_rfl⟩)
  unfold keySpaces at hq
  split_ifs at hq
  · rcases List.mem_append.1 hq with hq | hq
    · exact sighted_slotSpaces hq (.inr ⟨le_rfl, by decide⟩)
    · exact htokens hq
  · rw [List.append_nil] at hq
    exact sighted_slotSpaces hq (.inr ⟨le_rfl, by decide⟩)
  · exact htokens hq
  · cases hq

theorem sighted_specificBagSpaces (hsp : specificBagSpaces W inv src pos merge = some sp)
    (hq : q ∈ sp) : Sighted W inv src q := by
  unfold specificBagSpaces at hsp
  rw [Option.or_eq_some_iff] at hsp
  rcases hsp with hsp | ⟨-, hsp⟩
  · exact sighted_bagSpaces hsp hq
  · exact sighted_bagSpaces hsp hq

theorem sighted_specificSlotSpaces (hsp : specificSlotSpaces W inv src pos = some sp)
    (hq : q ∈ sp) : Sighted W inv src q := by
  unfold specificSlotSpaces at hsp
  cases ho : otherItemByPos W inv src pos with
  | none =>
    simp only [ho] at hsp
    split_ifs at hsp with hfit
    obtain rfl := Option.some.inj hsp
    rw [List.mem_singleton.1 hq]
    exact ⟨locate_of_fitsToSlot hfit, false, by simp [needSpace, ho]⟩
  | some c =>
    simp only [ho] at hsp
    split_ifs at hsp with hm
    obtain rfl := Option.some.inj hsp
    rw [List.mem_singleton.1 hq]
    exact ⟨otherItemByPos_isSome ho, true, by simp [needSpace, ho, hm]⟩

theorem forall_mem_afterLook {P : Pos × ℕ → Prop} (ho : ∀ sp, o = some sp → ∀ q ∈ sp, P q)
    (h : ∀ q ∈ sp', P q) : ∀ q ∈ afterLook o sp', P q := by
  cases o with
  | none => exact fun _ hq => absurd hq List.not_mem_nil
  | some sp => exact List.forall_mem_append.2 ⟨ho sp rfl, h⟩

theorem sighted_otherSpaces (hq : q ∈ otherSpaces W inv src skip) : Sighted W inv src q := by
  have hitems : ∀ m, q ∈ slotSpaces W inv src skip m inventorySlotItemStart inventorySlotItemEnd →
      Sighted W inv src q := fun m h => sighted_slotSpaces h (.inl (by decide))
  unfold otherSpaces at hq
  simp only [List.mem_append] at hq
  rcases hq with ((hq | hq) | hq) | hq
  · -- stacks
    split_ifs at hq
    · simp only [List.mem_append] at hq
      rcases hq with ((hq | hq) | hq) | hq
      · exact sighted_slotSpaces hq (.inr ⟨le_rfl, le_rfl⟩)
      · exact hitems true hq
      · exact sighted_bagsSpaces hq
      · exact sighted_bagsSpaces hq
    · simp only [List.append_nil, List.mem_append] at hq
      rcases hq with (hq | hq) | hq
      · exact sighted_slotSpaces hq (.inr ⟨le_rfl, le_rfl⟩)
      · exact hitems true hq
      · exact sighted_bagsSpaces hq
    · cases hq
  · -- free slots in special bags
    split_ifs at hq
    · rcases List.mem_append.1 hq with hq | hq
      · exact sighted_keySpaces hq
      · exact sighted_bagsSpaces hq
    · cases hq
  · exact hitems false hq
  · exact sighted_bagsSpaces hq

/-- Every place that is seen is one, with the room that is there. -/
theorem sighted_seen (pos : Pos) : ∀ q ∈ seen W inv src pos, Sighted W inv src q := by
  have hother : ∀ q ∈ otherSpaces W inv src pos, Sighted W inv src q :=
    fun _ hq => sighted_otherSpaces hq
  unfold seen
  refine forall_mem_afterLook (fun sp hsp => ?_) ?_
  · split_ifs at hsp
    · exact fun q hq => sighted_specificSlotSpaces hsp hq
    · obtain rfl := Option.some.inj hsp
      nofun
  · split_ifs with hnull hbag0 hstack hstack
    · -- the backpack, the keyring and the tokens
      intro q hq
      simp only [List.mem_append] at hq
      rcases hq with (((hq | hq) | hq) | hq) | hq
      · exact sighted_slotSpaces hq (.inr ⟨le_rfl, le_rfl⟩)
      · exact sighted_slotSpaces hq (.inl (by decide))
      · exact sighted_keySpaces hq
      · exact sighted_slotSpaces hq (.inl (by decide))
      · exact hother q hq
    · intro q hq
      simp only [List.nil_append, List.mem_append] at hq
      rcases hq with (hq | hq) | hq
      · exact sighted_keySpaces hq
      · exact sighted_slotSpaces hq (.inl (by decide))
      · exact hother q hq
    · exact forall_mem_afterLook (fun sp hsp q hq => sighted_specificBagSpaces hsp hq) <|
        forall_mem_afterLook (fun sp hsp q hq => sighted_specificBagSpaces hsp hq) hother
    · refine forall_mem_afterLook (fun sp hsp => ?_) <|
        forall_mem_afterLook (fun sp hsp q hq => sighted_specificBagSpaces hsp hq) hother
      obtain rfl := Option.some.inj hsp
      nofun
    · exact hother

end FaceCore.Storage
