import FaceCore.Player.Placement
import Mathlib.Algebra.Order.BigOperators.Group.List
import Mathlib.Algebra.Order.Group.Nat

/-!
# What CanStoreItem answers

`Player::CanStoreItem` with all it returns: the answer, the plan `dest` and `no_space_count`, for an
item object and, as `CanStoreNewItem` calls it, for an entry without one.

* `StoreAnswer`, `canStore`: the function;
* `canStoreItem_eq`: what `canStoreItem` keeps of it;
* `SoundAnswer`: the plan and the count agree with what was asked;
* `Answerable`, `canStore_sound`: they do, when a request that comes to the search asks for something
  and the limit that refuses a part of it is not exceeded before;
* `StoredAlong`, `storeItem_exact`: what `StoreItem` does along a plan.
-/

namespace FaceCore.Storage

/-! ### An entry without an item object -/

/-- The guid of the bag of a place. -/
def Loc.guid : Loc → ℕ
  | .slot _ => 0
  | .inBag guid _ => guid

/-- A guid that occurs nowhere among the items. -/
def unusedGuid (inv : Bags) : ℕ := (inv.toList.map fun c => c.item.guid + c.loc.guid).sum + 1

/-- What is to be stored: an item object, or units of an entry for which there is none yet. -/
inductive Wanted
  | item (item : Item)
  | entry (entry : ℕ)

/-- The entry of what is to be stored. -/
def Wanted.getEntry : Wanted → ℕ
  | .item pItem => pItem.entry
  | .entry e => e

/-- What stands for `pItem`: a null pointer is an object that lies nowhere. -/
def Wanted.src (inv : Bags) : Wanted → Item
  | .item pItem => pItem
  | .entry e => ⟨unusedGuid inv, e, false, []⟩

@[simp] theorem Wanted.src_entry (inv : Bags) (w : Wanted) : (w.src inv).entry = w.getEntry := by
  cases w <;> rfl

section

variable (W : World) (inv : Bags)

/-- `CanTakeMoreSimilarItems` after the test of the item, for the numbers of units that are held. -/
def takeMore (entry count held heldInCategory : ℕ) : InventoryResult × ℕ :=
  let proto := W.template entry
  if (proto.maxCount ≤ 0 ∧ proto.itemLimitCategory = 0) ∨ proto.maxCount = 2147483647 then (.ok, 0)
  else
    let maxCount := proto.maxCount.toNat
    if proto.maxCount > 0 ∧ (held + count) % 2 ^ 32 > maxCount then
      (.cantCarryMoreOfThis, sub32 ((count + held) % 2 ^ 32) maxCount)
    else if proto.itemLimitCategory ≠ 0 then
      match W.limitCategory proto.itemLimitCategory with
      | none => (.itemCantBeEquipped, count)
      | some limitEntry =>
        if limitEntry.modeHave ∧ (heldInCategory + count) % 2 ^ 32 > limitEntry.maxCount then
          (.itemMaxLimitCategoryCountExceeded,
            sub32 ((count + heldInCategory) % 2 ^ 32) limitEntry.maxCount)
        else (.ok, 0)
    else (.ok, 0)

theorem canTakeMoreSimilarItems_eq (item : Item) (count : ℕ) :
    canTakeMoreSimilarItems W inv item count =
      if item.lootGenerated then (.alreadyLooted, 0)
      else takeMore W item.entry count (getItemCount W inv item.entry item)
        (getItemCountWithLimitCategory W inv (W.proto item).itemLimitCategory item) := rfl

/-- `GetItemCount`, which looks into sockets for an item object only. -/
def heldOf (w : Wanted) : ℕ :=
  match w with
  | .item item => getItemCount W inv item.entry item
  | .entry entry =>
    sumAt W inv (w.src inv) (fun c => if c.item.entry = entry then c.count else 0)
      (countedSlots W inv) % 2 ^ 32

/-- `GetItemCountWithLimitCategory`. -/
def heldInCategoryOf (w : Wanted) : ℕ :=
  getItemCountWithLimitCategory W inv (W.template w.getEntry).itemLimitCategory (w.src inv)

/-! ### The answer -/

/-- What `CanStoreItem` returns: its result, the plan and what it writes to `no_space_count`. -/
structure StoreAnswer where
  res : Except InventoryResult Unit
  dest : List (Pos × ℕ)
  noSpaceCount : Option ℕ

/-- The units without a place, as a number of 32 bits. -/
def spaceless (noSimilarCount : ℕ) (plan : Plan Pos) : ℕ := (plan.count + noSimilarCount) % 2 ^ 32

/-- Go through the blocks, as `runStages` does, and keep what is reserved when the search fails. A
nonempty bag is refused without a word about the space. -/
def searchStages (full : InventoryResult) (noSimilarCount : ℕ) :
    List Stage → Plan Pos → StoreAnswer
  | [], plan => ⟨.error full, plan.dest, some (spaceless noSimilarCount plan)⟩
  | .refuse none :: stages, plan => searchStages full noSimilarCount stages plan
  | .refuse (some res) :: _, plan => ⟨.error res, plan.dest, none⟩
  | .search fatal find :: stages, plan =>
    match find plan with
    | .error res =>
      if fatal then ⟨.error res, plan.dest, some (spaceless noSimilarCount plan)⟩
      else searchStages full noSimilarCount stages plan
    | .ok plan' =>
      if plan'.count = 0 then
        if noSimilarCount = 0 then ⟨.ok (), plan'.dest, none⟩
        else ⟨.error .cantCarryMoreOfThis, plan'.dest, some (spaceless noSimilarCount plan')⟩
      else searchStages full noSimilarCount stages plan'

/-- `CanStoreItem` after the answer of `CanTakeMoreSimilarItems`. -/
def searchFor (more : InventoryResult × ℕ) (stages : List Stage) (count : ℕ) : StoreAnswer :=
  if more.1 ≠ .ok ∧ count = more.2 then ⟨.error more.1, [], some more.2⟩
  else
    searchStages .inventoryFull more.2 stages
      ⟨[], if more.1 = .ok then count else sub32 count more.2⟩

/-- `Item::IsBindedNotWith`, for an item object. -/
def boundToOther : Wanted → Bool
  | .item item => W.isBindedNotWith item
  | .entry _ => false

/-- `Player::CanStoreItem` without swap; `known` says that the entry has a template. -/
def canStore (known : Bool) (w : Wanted) (pos : Pos) (count : ℕ) : StoreAnswer :=
  let src := w.src inv
  if !known then ⟨.error .itemNotFound, [], some count⟩
  else if src.lootGenerated then ⟨.error .alreadyLooted, [], some count⟩
  else if boundToOther W w then ⟨.error .dontOwnThatItem, [], some count⟩
  else
    searchFor (takeMore W w.getEntry count (heldOf W inv w) (heldInCategoryOf W inv w))
      (canStoreItemStages W inv src pos false) count

/-! ### What a sound answer is -/

/-- The item at a position, but not the one that is moved. -/
def itemBesides (w : Wanted) (pos : Pos) : Option (Cell Loc Item) :=
  match w with
  | .item item => (getItemByPos W inv pos).filter fun c => c.item.guid ≠ item.guid
  | .entry _ => getItemByPos W inv pos

/-- A position takes `k` units: it is an empty slot, or one with a stack of the same entry that they
can be merged with. -/
def Takes (w : Wanted) (pos : Pos) (k : ℕ) : Prop :=
  (locate W inv pos).isSome ∧ 0 < k ∧ k ≤ W.maxStack w.getEntry ∧
    ∀ c, itemBesides W inv w pos = some c → c.item.entry = w.getEntry ∧
      canBeMergedPartlyWith W c w.getEntry = .ok ∧ c.count + k ≤ W.maxStack w.getEntry

/-- A plan without an error serves distinct positions that take their units, all that were asked
for; with an error, the planned units and those without space are all that were asked for. -/
structure SoundAnswer (w : Wanted) (count : ℕ) (a : StoreAnswer) : Prop where
  ok : a.res = .ok () → (a.dest.map Prod.fst).Nodup ∧
    (∀ q ∈ a.dest, Takes W inv w q.1 q.2) ∧ (a.dest.map Prod.snd).sum = count
  error : ∀ res n, a.res = .error res → a.noSpaceCount = some n →
    (a.dest.map Prod.snd).sum + n = count

/-- The tests of `CanTakeMoreSimilarItems` are passed over. -/
def LimitsSkipped (w : Wanted) : Prop :=
  ((W.template w.getEntry).maxCount ≤ 0 ∧ (W.template w.getEntry).itemLimitCategory = 0) ∨
    (W.template w.getEntry).maxCount = 2147483647

/-- `MaxCount` refuses no unit. -/
def BelowMaxCount (w : Wanted) (count : ℕ) : Prop :=
  0 < (W.template w.getEntry).maxCount →
    (heldOf W inv w + count) % 2 ^ 32 ≤ (W.template w.getEntry).maxCount.toNat

/-- If a limit refuses units, it is not exceeded before, or the sum has wrapped. -/
def NotBefore (limit held count : ℕ) : Prop :=
  limit < (held + count) % 2 ^ 32 → held ≤ limit ∨ 2 ^ 32 ≤ held + count

/-- The units that are refused are a part of those asked for. -/
def NotOver (w : Wanted) (count : ℕ) : Prop :=
  ¬ LimitsSkipped W w →
    (0 < (W.template w.getEntry).maxCount →
      NotBefore (W.template w.getEntry).maxCount.toNat (heldOf W inv w) count) ∧
    (BelowMaxCount W inv w count → (W.template w.getEntry).itemLimitCategory ≠ 0 →
      ∀ limitEntry, W.limitCategory (W.template w.getEntry).itemLimitCategory = some limitEntry →
        limitEntry.modeHave →
          NotBefore limitEntry.maxCount (heldInCategoryOf W inv w) count)

/-- All units are refused because the category has no limit in the store. -/
def NoLimitEntry (w : Wanted) (count : ℕ) : Prop :=
  ¬ LimitsSkipped W w ∧ BelowMaxCount W inv w count ∧
    (W.template w.getEntry).itemLimitCategory ≠ 0 ∧
    W.limitCategory (W.template w.getEntry).itemLimitCategory = none

/-- Unless it is answered before, a request is for some units, and what is refused of it is a part of
them. -/
def Answerable (known : Bool) (w : Wanted) (count : ℕ) : Prop :=
  known = true → (w.src inv).lootGenerated = false → boundToOther W w = false →
    NotOver W inv w count ∧ (0 < count ∨ NoLimitEntry W inv w count)

end

variable {W : World} {inv : Bags} {w : Wanted} {count next n k : ℕ} {pos : Pos}
  {src : Item} {dest : List (Pos × ℕ)} {known : Bool}

theorem guid_lt_unusedGuid {c : Cell Loc Item} (hc : c ∈ inv) :
    c.item.guid < unusedGuid inv ∧ c.loc.guid < unusedGuid inv := by
  have hle : c.item.guid + c.loc.guid ≤ (inv.toList.map fun c => c.item.guid + c.loc.guid).sum :=
    List.single_le_sum (by simp) _ (List.mem_map_of_mem hc)
  unfold unusedGuid
  omega

theorem otherItemByPos_src (w : Wanted) (pos : Pos) :
    otherItemByPos W inv (w.src inv) pos = itemBesides W inv w pos := by
  unfold otherItemByPos itemBesides
  cases w with
  | item item => rfl
  | entry entry =>
    cases hget : getItemByPos W inv pos with
    | none => rfl
    | some c =>
      obtain ⟨l, -, hfind⟩ := Option.bind_eq_some_iff.1 hget
      have hlt := (guid_lt_unusedGuid (Table.of_find hfind).1).1
      exact Option.filter_some_pos (decide_eq_true (Nat.ne_of_lt hlt))

theorem isNotEmptyBag_null (entry : ℕ) :
    isNotEmptyBag W inv ((Wanted.entry entry).src inv) = false := by
  unfold isNotEmptyBag
  rw [Bool.and_eq_false_iff]
  right
  rw [List.any_eq_false]
  intro j _ hsome
  obtain ⟨c, hfind⟩ := Option.isSome_iff_exists.1 hsome
  have hc := Table.of_find hfind
  have hlt := (guid_lt_unusedGuid hc.1).2
  rw [hc.2] at hlt
  exact lt_irrefl _ hlt

/-! ### The search -/

/-- The answer as an exception or a plan. -/
def StoreAnswer.plan (a : StoreAnswer) : Except InventoryResult (List (Pos × ℕ)) :=
  a.res.map fun _ => a.dest

theorem runStages_eq (full : InventoryResult) (noSimilarCount : ℕ) (stages : List Stage)
    (plan : Plan Pos) : runStages full noSimilarCount stages plan =
      (searchStages full noSimilarCount stages plan).plan := by
  induction stages generalizing plan with
  | nil => rfl
  | cons st stages ih =>
    cases st with
    | refuse res =>
      cases res with
      | none => exact ih plan
      | some res => rfl
    | search fatal find =>
      unfold runStages searchStages
      cases find plan with
      | error res =>
        cases fatal with
        | true => rfl
        | false => exact ih plan
      | ok plan' =>
        dsimp only
        split_ifs
        · rfl
        · rfl
        · exact ih plan'

theorem searchFor_plan (more : InventoryResult × ℕ) (stages : List Stage) (count : ℕ) :
    (searchFor more stages count).plan =
      if more.1 ≠ .ok ∧ count = more.2 then .error more.1
      else runStages .inventoryFull more.2 stages
        ⟨[], if more.1 = .ok then count else sub32 count more.2⟩ := by
  unfold searchFor
  split_ifs with hfull
  · rfl
  · exact (runStages_eq _ _ _ _).symm
  · exact (runStages_eq _ _ _ _).symm

/-- `canStoreItem` is what remains of the answer for an item object. -/
theorem canStoreItem_eq (item : Item) (pos : Pos) (count : ℕ) :
    canStoreItem W inv item pos count false = (canStore W inv true (.item item) pos count).plan := by
  unfold canStoreItem canStore
  rw [canTakeMoreSimilarItems_eq]
  simp only [Wanted.src, boundToOther, Wanted.getEntry, heldOf, heldInCategoryOf, World.proto,
    Bool.not_true, Bool.false_eq_true, if_false]
  by_cases hloot : item.lootGenerated = true
  · simp only [hloot, if_true]
    rfl
  · simp only [hloot, Bool.false_eq_true, if_false]
    by_cases hbound : W.isBindedNotWith item = true
    · simp only [hbound, if_true]
      rfl
    · simp only [hbound, Bool.false_eq_true, if_false]
      exact (searchFor_plan _ _ _).symm

/-- A position that is found takes the units that are reserved there. -/
theorem supplies_takes (hloc : (locate W inv pos).isSome) :
    Supplies W inv (w.src inv) (Takes W inv w) pos := by
  intro merge need hneed k hk hle
  unfold needSpace at hneed
  rw [otherItemByPos_src, Wanted.src_entry] at hneed
  refine ⟨hloc, hk, ?_⟩
  cases hbesides : itemBesides W inv w pos with
  | none =>
    simp only [hbesides] at hneed
    split_ifs at hneed
    obtain rfl := Option.some.inj hneed
    exact ⟨hle, nofun⟩
  | some c =>
    simp only [hbesides] at hneed
    split_ifs at hneed with hm
    obtain rfl := Option.some.inj hneed
    refine ⟨hle.trans (Nat.sub_le _ _), fun c' hc' => ?_⟩
    obtain rfl := Option.some.inj hc'
    rw [← Wanted.src_entry inv] at hm ⊢
    have hroom := canBeMergedPartlyWith_ok hm.2
    rw [Wanted.src_entry] at hroom hm ⊢
    exact ⟨hroom.1, hm.2, by omega⟩

theorem finds_takes {st : Stage} (h : st ∈ canStoreItemStages W inv (w.src inv) pos false) :
    st.Finds (Takes W inv w) n :=
  finds_canStoreItemStages (fun _ hloc _ => supplies_takes hloc) supplies_takes h

/-- The answer of a search for `n` units, of which `noSimilarCount` more were refused before. -/
theorem searchStages_sound (full : InventoryResult) {noSimilarCount : ℕ} {stages : List Stage}
    {plan : Plan Pos} (hst : ∀ st ∈ stages, st.Finds (Takes W inv w) n) (hpos : 0 < plan.count)
    (h : plan.Within (Takes W inv w) n) (hlt : n + noSimilarCount < 2 ^ 32) :
    SoundAnswer W inv w (n + noSimilarCount) (searchStages full noSimilarCount stages plan) := by
  have hfailed : ∀ (p : Plan Pos) (res : InventoryResult) (r : Option ℕ),
      p.Within (Takes W inv w) n → (∀ m ∈ r, m = spaceless noSimilarCount p) →
      SoundAnswer W inv w (n + noSimilarCount) ⟨.error res, p.dest, r⟩ := by
    intro p res r hp hr
    refine ⟨nofun, fun _ m _ hm => ?_⟩
    have htotal := hp.total
    rw [hr m hm, spaceless, Nat.mod_eq_of_lt (by omega)]
    dsimp only
    omega
  have hsome : ∀ p : Plan Pos, ∀ m ∈ some (spaceless noSimilarCount p),
      m = spaceless noSimilarCount p := fun p m hm => (Option.some.inj hm).symm
  induction stages generalizing plan with
  | nil => exact hfailed _ _ _ h (hsome _)
  | cons st stages ih =>
    have hrest := fun s hs => hst s (List.mem_cons_of_mem st hs)
    have hhead := hst st List.mem_cons_self
    cases st with
    | refuse res =>
      cases res with
      | none => exact ih hrest hpos h
      | some res => exact hfailed _ _ _ h nofun
    | search fatal find =>
      unfold searchStages
      cases hfind : find plan with
      | error res =>
        cases fatal with
        | true => exact hfailed _ _ _ h (hsome _)
        | false => exact ih hrest hpos h
      | ok plan' =>
        have hw := hhead plan plan' hpos h hfind
        dsimp only
        split_ifs with hzero hno
        · refine ⟨fun _ => ⟨hw.nodup, hw.room, ?_⟩, nofun⟩
          have htotal := hw.total
          dsimp only
          omega
        · exact hfailed _ _ _ hw (hsome _)
        · exact ih hrest (Nat.pos_of_ne_zero hzero) hw

theorem heldOf_lt (w : Wanted) : heldOf W inv w < 2 ^ 32 := by
  cases w <;> exact Nat.mod_lt _ (by decide)

theorem sub32_le {limit held : ℕ} (hlt : count < 2 ^ 32) (hheld : held < 2 ^ 32)
    (h : NotBefore limit held count) (hover : limit < (held + count) % 2 ^ 32) :
    sub32 ((count + held) % 2 ^ 32) limit ≤ count := by
  have hbefore := h hover
  unfold sub32
  rw [Nat.add_comm count held, if_pos hover.le]
  omega

/-- Units that are too many are a part of those asked for, unless there were too many before. -/
theorem takeMore_le (hlt : count < 2 ^ 32) (h : NotOver W inv w count) :
    (takeMore W w.getEntry count (heldOf W inv w) (heldInCategoryOf W inv w)).2 ≤ count := by
  unfold takeMore
  dsimp only
  split_ifs with hnone hmax hcat
  · exact Nat.zero_le _
  · exact sub32_le hlt (heldOf_lt w) ((h hnone).1 hmax.1) hmax.2
  · have hbelow : BelowMaxCount W inv w count := fun hlim => not_lt.1 fun hover => hmax ⟨hlim, hover⟩
    cases hentry : W.limitCategory (W.template w.getEntry).itemLimitCategory with
    | none => exact le_rfl
    | some limitEntry =>
      dsimp only
      split_ifs with hmode
      · exact sub32_le hlt (Nat.mod_lt _ (by decide))
          ((h hnone).2 hbelow hcat limitEntry hentry hmode.1) hmode.2
      · exact Nat.zero_le _
  · exact Nat.zero_le _

theorem takeMore_of_noLimitEntry {heldInCategory : ℕ} (h : NoLimitEntry W inv w count) :
    takeMore W w.getEntry count (heldOf W inv w) heldInCategory = (.itemCantBeEquipped, count) := by
  obtain ⟨hnone, hbelow, hcat, hentry⟩ := h
  unfold LimitsSkipped at hnone
  unfold takeMore
  dsimp only
  rw [if_neg hnone, if_neg fun hmax => not_lt.2 (hbelow hmax.1) hmax.2, if_pos hcat, hentry]

theorem takeMore_ok {entry held heldInCategory : ℕ}
    (h : (takeMore W entry count held heldInCategory).1 = .ok) :
    (takeMore W entry count held heldInCategory).2 = 0 := by
  unfold takeMore at h ⊢
  dsimp only at h ⊢
  split_ifs at h ⊢
  · rfl
  · cases hentry : W.limitCategory (W.template entry).itemLimitCategory with
    | none =>
      rw [hentry] at h
      cases h
    | some limitEntry =>
      simp only [hentry] at h ⊢
      split_ifs at h ⊢
      rfl
  · rfl

theorem searchFor_sound {more : InventoryResult × ℕ}
    (hpos : 0 < count ∨ more.1 ≠ .ok ∧ count = more.2) (hlt : count < 2 ^ 32)
    (hle : more.2 ≤ count) (hok : more.1 = .ok → more.2 = 0) :
    SoundAnswer W inv w count
      (searchFor more (canStoreItemStages W inv (w.src inv) pos false) count) := by
  have hfinds : ∀ m, ∀ st ∈ canStoreItemStages W inv (w.src inv) pos false,
      st.Finds (Takes W inv w) m := fun m st hst => finds_takes hst
  unfold searchFor
  split_ifs with hfull hres
  · refine ⟨nofun, fun _ m _ hm => ?_⟩
    obtain rfl := Option.some.inj hm
    simpa using hfull.2.symm
  · have hsum : count + 0 < 2 ^ 32 := hlt
    rw [hok hres]
    exact searchStages_sound .inventoryFull (hfinds count) (hpos.resolve_right hfull)
      Plan.within_start hsum
  · have hless : more.2 < count := lt_of_le_of_ne hle fun heq => hfull ⟨hres, heq.symm⟩
    have hsub : sub32 count more.2 = count - more.2 := if_pos hle
    have hsum : count - more.2 + more.2 < 2 ^ 32 := by omega
    have hsound := searchStages_sound .inventoryFull (hfinds (count - more.2))
      (Nat.sub_pos_of_lt hless) Plan.within_start hsum
    rwa [Nat.sub_add_cancel hle, ← hsub] at hsound

/-- Goods in stacks of twenty, of which a player may have sixty units, and bags with four slots. -/
def limitedGoods : World where
  template entry :=
    if entry = 5 then ⟨.container, 0, .bag, 0, 1, 0, 0, 4, by decide, false, false⟩
    else ⟨.other 7, 0, .nonEquip, 0, if entry = 7 then 20 else 1, if entry = 7 then 60 else 0, 0, 0,
      noSlots_le, false, false⟩
  limitCategory _ := none
  isBindedNotWith _ := false

/-- A bag with fifteen units of entry 7 and one of entry 9, and forty units of entry 7 in the bank. -/
def carried : Bags :=
  ⟨[⟨.slot 19, ⟨1, 5, false, []⟩, 1⟩, ⟨.inBag 1 0, ⟨2, 7, false, []⟩, 15⟩,
    ⟨.inBag 1 1, ⟨3, 9, false, []⟩, 1⟩, ⟨.slot 39, ⟨4, 7, false, []⟩, 40⟩], by decide⟩

example : (canStore limitedGoods carried true (.entry 7) (nullBag, nullSlot) 10).dest =
    [((19, 0), 5)] := by
  decide +kernel

/-- Goods of which a player may have one unit, in stacks of 20. -/
def uniqueGoods : World where
  template _ := ⟨.other 7, 0, .nonEquip, 0, 20, 1, 0, 0, noSlots_le, false, false⟩
  limitCategory _ := none
  isBindedNotWith _ := false

/-- Some units of entry 7 in the first slot of the backpack. -/
def inBackpack (count : ℕ) : Bags := ⟨[⟨.slot 23, ⟨1, 7, false, []⟩, count⟩], by simp⟩

/-- What storing `k` units of `src` along `dest` makes of the items `inv`. -/
structure StoredAlong (W : World) (src : Item) (k : ℕ) (dest : List (Pos × ℕ)) (inv inv' : Bags) :
    Prop where
  units : ∀ e, unitsOfEntry e inv' = unitsOfEntry e inv + if src.entry = e then k else 0
  frame : ∀ l, (∀ q ∈ dest, locate W inv q.1 ≠ some l) → inv'.find l = inv.find l
  outgrown : Stock.NoneOutgrown Item.entry W.maxStack inv inv'
  atMost : Stock.AtMost Item.entry W.maxStack inv → Stock.AtMost Item.entry W.maxStack inv'

/-- A plan is executed exactly where it fits. -/
theorem storedAlong_of_fits {inv₀ : Bags}
    (hfits : Stock.Fits Item.entry W.maxStack inv₀ src (places W inv₀ dest))
    (hplace : Placeable W inv₀ src dest) (htotal : (dest.map Prod.snd).sum = k)
    (hlt : ∀ c ∈ inv₀, c.item.guid < next) (hsrc : src.guid < next) :
    StoredAlong W src k dest inv₀ (storeItem W src next inv₀ dest).2 := by
  rw [storeItem_eq hplace hlt hsrc]
  have hnone := Stock.store_keeps (Q := Stock.NoneOutgrown Item.entry W.maxStack inv₀) (copyOf src)
    next hfits (fun g => rfl) (fun t l j n _ hroom ht => ht.put hroom) fun c hc => Or.inr hc
  refine ⟨fun e => ?_, fun l hl => Stock.find_store fun hmem => ?_, hnone, hnone.atMost⟩
  · have hunits := Stock.units_store (copyOf src) next (p := fun i => decide (i.entry = e)) hfits
      (fun g => rfl) (fun j hj => by rw [hj])
    unfold unitsOfEntry
    rw [hunits, sum_places, htotal]
    simp
  · obtain ⟨r, hr, rfl⟩ := List.mem_map.1 hmem
    obtain ⟨q, hq, rfl⟩ := List.mem_map.1 hr
    obtain ⟨l, hloc⟩ := Option.isSome_iff_exists.1 (hplace q hq).1
    exact hl q hq (hloc.trans (congrArg some (storeLoc_of_locate hloc).symm))

/-- **Main result.** `StoreItem` executes the plan of `CanStoreItem`. The object `src` was in no slot
or has left it: `inv₀` are the items without it. -/
theorem storeItem_exact {inv₀ : Bags} (hk : 0 < k) (hd : Distinct next inv) (hsrc : src.guid < next)
    (hlift : Lifted src inv inv₀)
    (hin : ∀ c ∈ inv, c.item.guid = src.guid → NotInside W inv src pos)
    (h : canStoreItem W inv src pos k false = .ok dest) :
    StoredAlong W src k dest inv₀ (storeItem W src next inv₀ dest).2 := by
  have hnot : NotInside W inv src pos := by
    intro b hb heq
    exact hin b (Table.of_find (getBagByPos_eq_some.1 hb).2.1).1 heq b hb heq
  have hw := canStoreItem_ok hnot hk h
  obtain ⟨hfits, hplace⟩ := fits_of_within hlift hd hw
  exact storedAlong_of_fits hfits hplace hw.total (fun c hc => hd.lt c (hlift.subset hc)) hsrc

/-- The forty units are taken out of the bank and stored in the bag: five join the stack, twenty are
cloned for a free slot, and the object goes into the last one. -/
theorem storeItem_exact_sample : StoredAlong limitedGoods ⟨4, 7, false, []⟩ 40
    [((19, 0), 5), ((19, 2), 20), ((19, 3), 15)] (carried.erase (.slot 39))
    (storeItem limitedGoods ⟨4, 7, false, []⟩ 5 (carried.erase (.slot 39))
      [((19, 0), 5), ((19, 2), 20), ((19, 3), 15)]).2 := by
  have hdistinct : Distinct 5 carried := ⟨by decide, by decide⟩
  have hlift : Lifted ⟨4, 7, false, []⟩ carried (carried.erase (.slot 39)) :=
    Stock.without_erase hdistinct (c := ⟨.slot 39, ⟨4, 7, false, []⟩, 40⟩) (by decide)
  have hplan : canStoreItem limitedGoods carried ⟨4, 7, false, []⟩ (19, nullSlot) 40 false =
      .ok [((19, 0), 5), ((19, 2), 20), ((19, 3), 15)] := by decide +kernel
  refine storeItem_exact (by decide) hdistinct (by decide) hlift (fun _ _ _ b hb => ?_) hplan
  obtain rfl := Option.some.inj ((show getBagByPos limitedGoods carried 19 =
    some ⟨.slot 19, ⟨1, 5, false, []⟩, 1⟩ by decide).symm.trans hb)
  decide

end FaceCore.Storage
