import FaceCore.Player.Holdings
import FaceCore.Player.Money

/-!
# Refunding an item

`Player::RefundItem`: an item that was bought for other items is destroyed, and the player gets back
what was paid. Before the item is destroyed, each kind of the required items is checked to have room
in the inventory, alone; afterwards they are stored one after another, and an assertion says that each
has room.

* `refundItem`: the function, with its assertion;
* `RefundKept`: the assertion does not fail, and all required items are given back;
* `Affords`: there is room for all kinds together, in numbers;
* `refund_kept_iff`: the refund is kept exactly if a check refuses it or all kinds have room.

The answers that depend on the item are in `RefundData`. What is sent and saved is left out.
-/

namespace FaceCore.Storage.Refund

open Filling

/-- `MAX_ITEM_EXTENDED_COST_REQUIREMENTS`. -/
abbrev maxItemExtendedCostRequirements : ℕ := 5

/-- `ItemExtendedCostEntry`: what a vendor asks for besides money. -/
structure ItemExtendedCostEntry where
  reqhonorpoints : UInt32
  reqarenapoints : UInt32
  reqitem : Fin maxItemExtendedCostRequirements → UInt32
  reqitemcount : Fin maxItemExtendedCostRequirements → UInt32

/-- The required items, where there is a number of them. -/
def ItemExtendedCostEntry.requirements (iece : ItemExtendedCostEntry) : List (ℕ × ℕ) :=
  (List.finRange maxItemExtendedCostRequirements).filterMap fun i =>
    if iece.reqitemcount i ≠ 0 ∧ iece.reqitem i ≠ 0 then
      some ((iece.reqitem i).toNat, (iece.reqitemcount i).toNat)
    else none

/-- What the function asks of the item: `ITEM_FLAG_REFUNDABLE`, `IsRefundExpired`, whether the player
is `GetRefundRecipient`, `GetPaidMoney`, and the entry of `GetPaidExtendedCost`. -/
structure RefundData where
  refundable : Bool
  refundExpired : Bool
  isRecipient : Bool
  paidMoney : UInt32
  paidExtendedCost : Option ItemExtendedCostEntry

/-- What the function asks of the server: the templates that exist, `CONFIG_MAX_HONOR_POINTS` and
`CONFIG_MAX_ARENA_POINTS`. -/
structure Server where
  known : ℕ → Bool
  maxHonorPoints : UInt32
  maxArenaPoints : UInt32

/-- The player. `next` is the next free item guid. -/
structure Refunder where
  money : UInt32
  honorPoints : UInt32
  arenaPoints : UInt32
  next : ℕ
  bags : Bags

/-- Where `RefundItem` ends early; `assertion` is the failed `ASSERT`. -/
inductive RefundError
  | notRefundable
  | refundExpired
  | traded
  | noExtendedCost
  | storeError
  | assertion
  deriving DecidableEq

section

variable (W : World) (srv : Server)

/-- `Player::DestroyItem`, with the contents of a bag; `depth` bounds how deep bags are nested. -/
def destroyItem : ℕ → Bags → Pos → Bags
  | 0, inv, _ => inv
  | depth + 1, inv, pos =>
    match getItemByPos W inv pos with
    | none => inv
    | some c =>
      let inv' :=
        if isNotEmptyBag W inv c.item then
          (List.range 36).foldl (fun inv i => destroyItem depth inv (pos.2, i)) inv
        else inv
      inv'.erase c.loc

/-- `Player::StoreNewItem`, for the next free guid and the items. -/
def storeNewItem (s : ℕ × Bags) (item : ℕ) (dest : List (Pos × ℕ)) : ℕ × Bags :=
  let count := (dest.map Prod.snd).sum % 2 ^ 32
  -- CreateItem
  if count < 1 then s else storeItem W (newItem s.1 item) (s.1 + 1) s.2 dest

/-- `CanStoreNewItem(NULL_BAG, NULL_SLOT, ...)`. -/
def canStoreNewItem (inv : Bags) (item count : ℕ) : StoreAnswer :=
  canStore W inv (srv.known item) (.entry item) (nullBag, nullSlot) count

/-- The loop of the checks. -/
def checkItems (inv : Bags) (reqs : List (ℕ × ℕ)) : Bool :=
  reqs.all fun r =>
    match (canStoreNewItem W srv inv r.1 r.2).res with
    | .ok _ => true
    | .error _ => false

/-- Grant back extendedcost items; `none` is the failed assertion. -/
def grantItems : List (ℕ × ℕ) → ℕ × Bags → Option (ℕ × Bags)
  | [], s => some s
  | r :: reqs, s =>
    match (canStoreNewItem W srv s.2 r.1 r.2).res with
    | .ok _ =>
      grantItems reqs (storeNewItem W s r.1 (canStoreNewItem W srv s.2 r.1 r.2).dest)
    | .error _ => none

/-- `Player::ModifyHonorPoints` and `Player::ModifyArenaPoints`, with `SetHonorPoints` and
`SetArenaPoints`. -/
def modifyPoints (maximum points : UInt32) (value : Int32) : UInt32 :=
  let newValue := points.toInt32 + value
  let newValue := if newValue < 0 then 0 else newValue
  min newValue.toUInt32 maximum

/-- `Player::RefundItem` of the item at `pos`. -/
def refundItem (depth : ℕ) (s : Refunder) (pos : Pos) (item : RefundData) :
    Except RefundError Refunder :=
  if !item.refundable then .error .notRefundable
  else if item.refundExpired then .error .refundExpired
  else if !item.isRecipient then .error .traded
  else
    match item.paidExtendedCost with
    | none => .error .noExtendedCost
    | some iece =>
      if !checkItems W srv s.bags iece.requirements then .error .storeError
      else
        match grantItems W srv iece.requirements (s.next, destroyItem W depth s.bags pos) with
        | none => .error .assertion
        | some r => .ok
            { money := if item.paidMoney ≠ 0 then (modifyMoney s.money item.paidMoney.toInt32).1
                else s.money
              honorPoints := if iece.reqhonorpoints ≠ 0 then
                modifyPoints srv.maxHonorPoints s.honorPoints iece.reqhonorpoints.toInt32
                else s.honorPoints
              arenaPoints := if iece.reqarenapoints ≠ 0 then
                modifyPoints srv.maxArenaPoints s.arenaPoints iece.reqarenapoints.toInt32
                else s.arenaPoints
              next := r.1
              bags := r.2 }

end

/-! ### What a refund should do -/

/-- The units of an entry among the required items. -/
def requiredUnits (reqs : List (ℕ × ℕ)) (e : ℕ) : ℕ :=
  ((reqs.filter fun r => r.1 = e).map Prod.snd).sum

/-- The required items are added to `inv` in full. -/
def GivenBack (reqs : List (ℕ × ℕ)) (inv inv' : Bags) : Prop :=
  ∀ e, unitsOfEntry e inv' = unitsOfEntry e inv + requiredUnits reqs e

/-- The assertion does not fail, and the required items are given back in full, next to what is left
without the item. -/
structure RefundKept (W : World) (srv : Server) (depth : ℕ) (s : Refunder) (pos : Pos)
    (item : RefundData) : Prop where
  noAssertion : refundItem W srv depth s pos item ≠ .error .assertion
  givenBack : ∀ s' iece, refundItem W srv depth s pos item = .ok s' →
    item.paidExtendedCost = some iece →
    GivenBack iece.requirements (destroyItem W depth s.bags pos) s'.bags

/-- The checks before the item is destroyed let a refund pass. -/
structure Checked (W : World) (srv : Server) (s : Refunder) (item : RefundData)
    (iece : ItemExtendedCostEntry) : Prop where
  refundable : item.refundable = true
  notExpired : item.refundExpired = false
  isRecipient : item.isRecipient = true
  cost : item.paidExtendedCost = some iece
  room : checkItems W srv s.bags iece.requirements = true

/-- The player may have the required items, one kind after another, and there is space for each kind
in its stacks and in the free places that the kinds before have left. -/
def Affords (W : World) (openTo : ℕ → List Pos) : Holdings → List (ℕ × ℕ) → Prop
  | _, [] => True
  | h, r :: reqs => h.Takes W openTo r.1 r.2 ∧ Affords W openTo (h.give W openTo r.1 r.2) reqs

/-- Whether the required items are affordable is computed kind by kind. -/
def decidableAffords (W : World) (openTo : ℕ → List Pos) :
    (h : Holdings) → (reqs : List (ℕ × ℕ)) → Decidable (Affords W openTo h reqs)
  | _, [] => .isTrue trivial
  | h, r :: reqs =>
    have := decidableAffords W openTo (h.give W openTo r.1 r.2) reqs
    inferInstanceAs (Decidable (_ ∧ _))

instance (W : World) (openTo : ℕ → List Pos) (h : Holdings) (reqs : List (ℕ × ℕ)) :
    Decidable (Affords W openTo h reqs) := decidableAffords W openTo h reqs

/-! ### Granting the items -/

variable {W : World} {srv : Server} {s : ℕ × Bags} {reqs : List (ℕ × ℕ)} {inv : Bags}
  {item k next : ℕ}

theorem canStoreNewItem_known (h : (canStoreNewItem W srv inv item k).res = .ok ()) :
    srv.known item = true := by
  unfold canStoreNewItem canStore at h
  by_contra hknown
  rw [Bool.not_eq_true] at hknown
  simp [hknown] at h

theorem canStoreNewItem_spec (hknown : srv.known item = true) (hk : 0 < k) (hd : Distinct next inv) :
    ((canStoreNewItem W srv inv item k).res = .ok () ↔
        (holdings W inv).Takes W (freeSlots W inv) item k) ∧
      ((canStoreNewItem W srv inv item k).res = .ok () →
        k ≤ space (spaces W inv (newItem next item)) ∧
        (canStoreNewItem W srv inv item k).dest = fill (spaces W inv (newItem next item)) k) := by
  have habs : Absent inv (newItem next item) := absent_newItem hd
  unfold canStoreNewItem
  rw [hknown]
  refine ⟨canStore_iff_takes hk, fun h => ⟨?_, ?_⟩⟩
  · exact (space_spaces habs).2 ((canStore_iff_takes hk).1 h).fits
  · rw [(canStore_anywhere hk).2 h, spaces_congr (absent_null item) habs rfl]

theorem storeNewItem_eq {dest : List (Pos × ℕ)} (htotal : (dest.map Prod.snd).sum = k) (hk : 0 < k)
    (hlt : k < 2 ^ 32) : storeNewItem W s item dest =
      storeItem W (newItem s.1 item) (s.1 + 1) s.2 dest := by
  unfold storeNewItem
  dsimp only
  rw [htotal, Nat.mod_eq_of_lt hlt, if_neg (by omega)]

/-- `StoreNewItem` along a plan for which there is room. -/
theorem storeNewItem_within {dest : List (Pos × ℕ)} (hd : Distinct s.1 s.2) (hk : 0 < k)
    (hlt : k < 2 ^ 32) (h : Plan.Within (Reserved W s.2 (newItem s.1 item)) k ⟨dest, 0⟩) :
    Distinct (storeNewItem W s item dest).1 (storeNewItem W s item dest).2 ∧
      StoredAlong W (newItem s.1 item) k dest s.2 (storeNewItem W s item dest).2 := by
  have habs : Absent s.2 (newItem s.1 item) := absent_newItem hd
  have htotal : (dest.map Prod.snd).sum = k := h.total
  obtain ⟨hfits, hplace⟩ := fits_of_within (Stock.without_of_forall_ne habs) hd h
  have hguid : ∀ c ∈ s.2, c.item.guid < s.1 + 1 := fun c hc => Nat.lt_succ_of_lt (hd.lt c hc)
  rw [storeNewItem_eq htotal hk hlt]
  refine ⟨?_, storedAlong_of_fits hfits hplace htotal hguid (Nat.lt_succ_self s.1)⟩
  rw [storeItem_eq hplace hguid (Nat.lt_succ_self s.1)]
  exact (Stock.Fresh.store _ _ (hd.mono (Nat.le_succ s.1)) habs (Nat.lt_succ_self s.1)
    fun _ => rfl).1

/-- What `StoreNewItem` does along the plan of `CanStoreNewItem`. -/
structure Granted (W : World) (s s' : ℕ × Bags) (item k : ℕ) : Prop where
  distinct : Distinct s'.1 s'.2
  units : ∀ e, unitsOfEntry e s'.2 = unitsOfEntry e s.2 + if item = e then k else 0
  holdings : holdings W s'.2 = (holdings W s.2).give W (freeSlots W s.2) item k
  freeSlots : freeSlots W s'.2 = freeSlots W s.2

theorem granted (hd : Distinct s.1 s.2) (hk : 0 < k) (hlt : k < 2 ^ 32)
    (hle : k ≤ space (spaces W s.2 (newItem s.1 item))) :
    Granted W s (storeNewItem W s item (fill (spaces W s.2 (newItem s.1 item)) k)) item k := by
  have hwithin := within_spaces (absent_newItem hd) hle
  obtain ⟨hdistinct, hstored⟩ := storeNewItem_within hd hk hlt hwithin
  refine ⟨hdistinct, hstored.units, ?_, ?_⟩
  · rw [storeNewItem_eq hwithin.total hk hlt]
    exact holdings_store hd hle
  · rw [storeNewItem_eq hwithin.total hk hlt]
    exact freeSlots_congr (newlyStored hd hle)

/-- All required items have room exactly if they are affordable, and then they are given back. -/
theorem grantItems_spec (hd : Distinct s.1 s.2)
    (hreqs : ∀ r ∈ reqs, srv.known r.1 = true ∧ 0 < r.2 ∧ r.2 < 2 ^ 32) :
    (grantItems W srv reqs s ≠ none ↔ Affords W (freeSlots W s.2) (holdings W s.2) reqs) ∧
      ∀ s', grantItems W srv reqs s = some s' → GivenBack reqs s.2 s'.2 := by
  induction reqs generalizing s with
  | nil =>
    refine ⟨iff_of_true nofun trivial, fun s' hs' e => ?_⟩
    obtain rfl := Option.some.inj hs'
    rfl
  | cons r reqs ih =>
    obtain ⟨hknown, hk, hlt⟩ := hreqs r List.mem_cons_self
    obtain ⟨hiff, hdest⟩ := canStoreNewItem_spec (W := W) hknown hk hd
    unfold grantItems Affords
    cases hres : (canStoreNewItem W srv s.2 r.1 r.2).res with
    | error res =>
      have hnot : ¬ (holdings W s.2).Takes W (freeSlots W s.2) r.1 r.2 := by
        rw [← hiff, hres]
        exact nofun
      exact ⟨iff_of_false (fun h => h rfl) fun h => hnot h.1, nofun⟩
    | ok u =>
      obtain ⟨hle, hfill⟩ := hdest hres
      -- the item is stored, and the next one is looked up in what is left
      have hg := granted hd hk hlt hle
      rw [← hfill] at hg
      obtain ⟨hnext, hgiven⟩ := ih hg.distinct fun t ht => hreqs t (List.mem_cons_of_mem r ht)
      rw [hg.holdings, hg.freeSlots] at hnext
      refine ⟨hnext.trans ⟨fun h => ⟨hiff.1 hres, h⟩, fun h => h.2⟩, fun s' hs' e => ?_⟩
      have hunits := hgiven s' hs' e
      rw [hg.units e] at hunits
      by_cases he : r.1 = e <;> simp [requiredUnits, he] at hunits ⊢ <;> omega

/-! ### The refund -/

theorem mem_requirements {iece : ItemExtendedCostEntry} {r : ℕ × ℕ}
    (h : r ∈ iece.requirements) : 0 < r.2 ∧ r.2 < 2 ^ 32 := by
  obtain ⟨i, -, hi⟩ := List.mem_filterMap.1 h
  split_ifs at hi with hne
  obtain rfl := Option.some.inj hi
  refine ⟨Nat.pos_of_ne_zero fun hz => hne.1 (UInt32.toNat_inj.1 hz), UInt32.toNat_lt _⟩

theorem known_of_checkItems {r : ℕ × ℕ} (h : checkItems W srv inv reqs = true) (hr : r ∈ reqs) :
    srv.known r.1 = true := by
  have hcheck := List.all_eq_true.1 h r hr
  have hok : (canStoreNewItem W srv inv r.1 r.2).res = .ok () → srv.known r.1 = true :=
    canStoreNewItem_known
  apply hok
  cases hres : (canStoreNewItem W srv inv r.1 r.2).res with
  | ok u => rfl
  | error res => simp [hres] at hcheck

/-- What is left after an item is destroyed is told apart by the guids. -/
theorem distinct_destroyItem (depth : ℕ) (pos : Pos) (hd : Distinct next inv) :
    Distinct next (destroyItem W depth inv pos) := by
  induction depth generalizing inv pos with
  | zero => exact hd
  | succ depth ih =>
    unfold destroyItem
    cases getItemByPos W inv pos with
    | none => exact hd
    | some c =>
      dsimp only
      refine Stock.Fresh.erase ?_ c.loc
      split_ifs
      · exact List.foldlRecOn _ _ hd fun inv hinv i _ => ih _ hinv
      · exact hd

theorem refundItem_of_checked {depth : ℕ} {s : Refunder} {pos : Pos} {item : RefundData}
    {iece : ItemExtendedCostEntry} (h : Checked W srv s item iece) :
    (refundItem W srv depth s pos item = .error .assertion ↔
        grantItems W srv iece.requirements (s.next, destroyItem W depth s.bags pos) = none) ∧
      ∀ s', refundItem W srv depth s pos item = .ok s' →
        grantItems W srv iece.requirements (s.next, destroyItem W depth s.bags pos) =
          some (s'.next, s'.bags) := by
  unfold refundItem
  simp only [h.refundable, h.notExpired, h.isRecipient, h.cost, h.room, Bool.not_true,
    Bool.false_eq_true, if_false]
  cases grantItems W srv iece.requirements (s.next, destroyItem W depth s.bags pos) with
  | none => exact ⟨iff_of_true rfl rfl, nofun⟩
  | some r =>
    refine ⟨iff_of_false nofun nofun, fun s' hs' => ?_⟩
    obtain rfl := Except.ok.inj hs'
    rfl

theorem checked_of_granting {depth : ℕ} {s : Refunder} {pos : Pos} {item : RefundData}
    (h : refundItem W srv depth s pos item = .error .assertion ∨
      ∃ s', refundItem W srv depth s pos item = .ok s') : ∃ iece, Checked W srv s item iece := by
  unfold refundItem at h
  cases hrefundable : item.refundable with
  | false => simp [hrefundable] at h
  | true =>
    cases hexpired : item.refundExpired with
    | true => simp [hrefundable, hexpired] at h
    | false =>
      cases hrecipient : item.isRecipient with
      | false => simp [hrefundable, hexpired, hrecipient] at h
      | true =>
        cases hcost : item.paidExtendedCost with
        | none => simp [hrefundable, hexpired, hrecipient, hcost] at h
        | some iece =>
          cases hroom : checkItems W srv s.bags iece.requirements with
          | false => simp [hrefundable, hexpired, hrecipient, hcost, hroom] at h
          | true => exact ⟨iece, hrefundable, hexpired, hrecipient, hcost, hroom⟩

/-- **Main result.** A refund fails its assertion, or gives something back not in full, exactly if the
checks let it pass although the inventory without the item has no room for all kinds of the required
items together. -/
theorem refund_kept_iff {depth : ℕ} {s : Refunder} {pos : Pos} {item : RefundData}
    (hd : Distinct s.next s.bags) :
    RefundKept W srv depth s pos item ↔ ∀ iece, Checked W srv s item iece →
      Affords W (freeSlots W (destroyItem W depth s.bags pos))
        (holdings W (destroyItem W depth s.bags pos)) iece.requirements := by
  have hd' : Distinct s.next (destroyItem W depth s.bags pos) := distinct_destroyItem depth pos hd
  have hspec : ∀ iece, Checked W srv s item iece →
      (grantItems W srv iece.requirements (s.next, destroyItem W depth s.bags pos) ≠ none ↔
        Affords W (freeSlots W (destroyItem W depth s.bags pos))
          (holdings W (destroyItem W depth s.bags pos)) iece.requirements) ∧
        ∀ s', grantItems W srv iece.requirements (s.next, destroyItem W depth s.bags pos) = some s' →
          GivenBack iece.requirements (destroyItem W depth s.bags pos) s'.2 := fun iece h =>
    grantItems_spec (s := (s.next, destroyItem W depth s.bags pos)) hd'
      fun r hr => ⟨known_of_checkItems h.room hr, mem_requirements hr⟩
  constructor
  · intro h iece hchecked
    refine (hspec iece hchecked).1.1 fun hnone => h.noAssertion ?_
    exact (refundItem_of_checked hchecked).1.2 hnone
  · intro h
    refine ⟨fun hassert => ?_, fun s' iece hok hcost => ?_⟩
    · obtain ⟨iece, hchecked⟩ := checked_of_granting (.inl hassert)
      exact (hspec iece hchecked).1.2 (h iece hchecked) ((refundItem_of_checked hchecked).1.1 hassert)
    · obtain ⟨iece', hchecked⟩ := checked_of_granting (.inr ⟨s', hok⟩)
      obtain rfl := Option.some.inj (hcost.symm.trans hchecked.cost)
      exact (hspec iece hchecked).2 _ ((refundItem_of_checked hchecked).2 s' hok)

/-- Goods in stacks of one, as many as there is space for. -/
def tokens : World where
  template _ := ⟨.other 7, 0, .nonEquip, 0, 1, 0, 0, 0, noSlots_le, false, false⟩
  limitCategory _ := none
  isBindedNotWith _ := false

/-- A server with templates for all entries. -/
def tokenServer : Server := ⟨fun _ => true, 75000, 10000⟩

/-- The cost of an item that was paid with units of the entries 7 and 8. -/
def tokenCost (sevens eights : UInt32) : ItemExtendedCostEntry where
  reqhonorpoints := 0
  reqarenapoints := 0
  reqitem := ![7, 8, 0, 0, 0]
  reqitemcount := ![sevens, eights, 0, 0, 0]

/-- An item that was paid so. -/
def paidWith (sevens eights : UInt32) : RefundData :=
  ⟨true, false, true, 0, some (tokenCost sevens eights)⟩

/-- A player who wears an item of entry 9, with an empty backpack and without bags. -/
def wearer : Refunder := ⟨0, 0, 0, 2, ⟨[⟨.slot 0, ⟨1, 9, false, []⟩, 1⟩], by simp⟩⟩

/-- Ten units of one kind and six of another fill the backpack. -/
theorem refund_kept_sample :
    RefundKept tokens tokenServer 2 wearer (inventorySlotBag0, 0) (paidWith 10 6) := by
  have hd : Distinct wearer.next wearer.bags := ⟨by decide, by decide⟩
  refine (refund_kept_iff hd).2 fun iece h => ?_
  obtain rfl : tokenCost 10 6 = iece := Option.some.inj h.cost
  decide +kernel

/-- Sixteen units of each kind have room in the backpack, but not together. -/
theorem assertion_fails : Distinct wearer.next wearer.bags ∧
    (getItemByPos tokens wearer.bags (inventorySlotBag0, 0)).isSome ∧
    ¬ RefundKept tokens tokenServer 2 wearer (inventorySlotBag0, 0) (paidWith 16 16) := by
  have hd : Distinct wearer.next wearer.bags := ⟨by decide, by decide⟩
  refine ⟨hd, by decide, fun h => h.noAssertion ?_⟩
  have hchecked : Checked tokens tokenServer wearer (paidWith 16 16) (tokenCost 16 16) :=
    ⟨rfl, rfl, rfl, rfl, by decide +kernel⟩
  have hnone : (grantItems tokens tokenServer (tokenCost 16 16).requirements
      (wearer.next, destroyItem tokens 2 wearer.bags (inventorySlotBag0, 0))).isNone := by
    decide +kernel
  exact (refundItem_of_checked hchecked).1.2 (Option.isNone_iff_eq_none.1 hnone)

end FaceCore.Storage.Refund
