import FaceCore.Player.Inventory
import FaceCore.Player.Money

/-!
# Posting an auction

`WorldSession::HandleAuctionSellItem`. The packet lists pairs of an item guid and a count. The
handler reads and checks the pairs, merges the counts into `finalCount`, and then either moves the
one stack it was given to the auction house, or clones the first stack with `finalCount` units and
takes the listed counts out of the listed stacks, one pair after the other.

`sellStacks_remaining` says what the removal loop does to a stack that is listed any number of
times; `auctionSell_conserves_iff` says when the units that leave the inventory are the units that
the auction holds.
-/

namespace FaceCore.Auction

open Inventory

/-- `MAX_AUCTION_ITEMS`. -/
def maxAuctionItems : ℕ := 160

/-- `MIN_AUCTION_TIME`, in seconds. -/
def minAuctionTime : UInt32 := 12 * 3600

/-- `AuctionEntry`. -/
structure AuctionEntry where
  id : UInt32
  auctioneer : UInt32
  itemGUIDLow : UInt32
  itemEntry : UInt32
  itemCount : UInt32
  owner : UInt32
  startbid : UInt32
  bidder : UInt32
  bid : UInt32
  buyout : UInt32
  expireTime : ℕ
  deposit : UInt32

/-- `CMSG_AUCTION_SELL_ITEM`. -/
structure SellPacket where
  auctioneer : UInt64
  items : List (UInt64 × UInt32)
  bid : UInt32
  buyout : UInt32
  etime : UInt32

/-- The seller. -/
structure Seller where
  guidLow : UInt32
  money : UInt32
  inventory : Inventory

/-- What the handler asks of the rest of the server. -/
structure SellEnv where
  /-- `GetNPCIfCanInteractWith` finds the auctioneer. -/
  canInteract : Bool
  /-- `AuctionHouseMgr::GetAuctionHouseEntry` knows his faction. -/
  hasHouse : Bool
  /-- `AuctionHouseMgr::GetAItem`. -/
  isAuctionItem : UInt64 → Bool
  /-- `uint32(etime * sWorld->getRate(RATE_AUCTION_TIME))`. -/
  auctionTime : UInt32 → UInt32
  /-- `AuctionHouseMgr::GetAuctionDeposit`. -/
  auctionDeposit : UInt32 → Item → UInt32 → UInt32
  /-- `CONFIG_ALLOW_TWO_SIDE_INTERACTION_AUCTION`. -/
  twoSideInteraction : Bool
  /-- `ObjectMgr::GenerateAuctionID`. -/
  auctionId : UInt32
  /-- `Item::Create` for the clone, and the guid it gets. -/
  createItem : Bool
  newGuidLow : UInt32
  /-- `time(NULL)`. -/
  time : ℕ

/-- How the handler ends: without a reply, with an error, or with an auction. -/
inductive SellResult
  | dropped
  | databaseError
  | itemNotFound
  | notEnoughMoney
  | ok (auction : AuctionEntry)

/-- The check of the pairs while the packet is read. -/
def pairOk (p : UInt64 × UInt32) : Bool := p.1 ≠ 0 && p.2 ≠ 0 && p.2 ≤ 1000

/-- The check of one listed item. -/
def itemOk (env : SellEnv) (it : Item) (count : UInt32) : Bool :=
  !(env.isAuctionItem it.guid || !it.canBeTraded false false || it.isNotEmptyBag || it.conjured ||
    it.duration ≠ 0 || it.count < count)

/-- The first loop over the pairs: look every item up and check it. -/
def collectItems (env : SellEnv) (inv : Inventory) :
    List (UInt64 × UInt32) → Except SellResult (List Item)
  | [] => .ok []
  | p :: ps =>
    match inv.getItemByGuid p.1 with
    | none => .error .itemNotFound
    | some it =>
      if itemOk env it p.2 then
        match collectItems env inv ps with
        | .ok its => .ok (it :: its)
        | .error e => .error e
      else .error .databaseError

/-- `finalCount`. -/
def finalCount (ps : List (UInt64 × UInt32)) : UInt32 := (ps.map Prod.snd).sum

/-- The body of the removal loop: a stack of exactly the listed count leaves the inventory, a
larger one shrinks. -/
def sellStack (it : Item) (count : UInt32) : Item :=
  if it.count = count then { it with stored := false } else { it with count := it.count - count }

theorem sellStack_guid (it : Item) (count : UInt32) : (sellStack it count).guid = it.guid := by
  unfold sellStack
  split_ifs <;> rfl

/-- The removal loop. -/
def sellStacks (inv : Inventory) (ps : List (UInt64 × UInt32)) : Inventory :=
  ps.foldl (fun inv p => inv.update p.1 (sellStack · p.2) (sellStack_guid · p.2)) inv

/-- The new auction. -/
def newAuction (env : SellEnv) (pkt : SellPacket) (p : Seller) (etime : UInt32)
    (guidLow entry count deposit : UInt32) : AuctionEntry where
  id := env.auctionId
  auctioneer := if env.twoSideInteraction then 23442 else guidLoPart pkt.auctioneer
  itemGUIDLow := guidLow
  itemEntry := entry
  itemCount := count
  owner := p.guidLow
  startbid := pkt.bid
  bidder := 0
  bid := 0
  buyout := pkt.buyout
  expireTime := env.time + (env.auctionTime etime).toNat
  deposit := deposit

/-- The part of the handler after the items are collected, for a first item `item`. -/
def postAuction (env : SellEnv) (pkt : SellPacket) (p : Seller) (etime : UInt32) (item : Item)
    (items : List Item) : Seller × SellResult :=
  let count := finalCount pkt.items
  if count = 0 then (p, .databaseError)
  else if (item :: items).any fun it => it.maxStackCount < count then (p, .databaseError)
  else
    let deposit := env.auctionDeposit etime item count
    if !hasEnoughMoney p.money deposit then (p, .notEnoughMoney)
    else if pkt.items.map Prod.snd = [item.count] then
      ({ p with
          inventory := p.inventory.moveItemFromInventory item.guid
          money := (modifyMoney p.money (-deposit.toInt32)).1 },
        .ok (newAuction env pkt p etime (guidLoPart item.guid) item.entry item.count deposit))
    else if !env.createItem then (p, .databaseError)
    else
      -- `CreateItem` cuts the count to the maximum stack, which was checked above
      let newCount := if count > item.maxStackCount then item.maxStackCount else count
      ({ p with
          inventory := sellStacks p.inventory pkt.items
          money := (modifyMoney p.money (-deposit.toInt32)).1 },
        .ok (newAuction env pkt p etime env.newGuidLow item.entry newCount deposit))

/-- `WorldSession::HandleAuctionSellItem`. -/
def handleAuctionSellItem (env : SellEnv) (pkt : SellPacket) (p : Seller) : Seller × SellResult :=
  if pkt.items.length > maxAuctionItems then (p, .databaseError)
  else if !pkt.items.all pairOk then (p, .dropped)
  else if pkt.bid = 0 || pkt.etime = 0 then (p, .dropped)
  else if pkt.bid > maxMoneyAmount.toUInt32 || pkt.buyout > maxMoneyAmount.toUInt32 then
    (p, .databaseError)
  else if !env.canInteract || !env.hasHouse then (p, .dropped)
  else
    let etime := pkt.etime * 60
    if etime = 1 * minAuctionTime || etime = 2 * minAuctionTime || etime = 4 * minAuctionTime then
      match collectItems env p.inventory pkt.items with
      | .error e => (p, e)
      -- no pairs at all: `finalCount` is zero
      | .ok [] => (p, .databaseError)
      | .ok (item :: items) => postAuction env pkt p etime item items
    else (p, .dropped)

/-! ### The removal loop -/

/-- The counts listed for the stack `guid`, in the order of the packet. -/
def countsOf (ps : List (UInt64 × UInt32)) (guid : UInt64) : List UInt32 :=
  (ps.filter fun p => p.1 == guid).map Prod.snd

/-- How many units the packet takes from the stack `guid` in all. -/
def drawn (ps : List (UInt64 × UInt32)) (guid : UInt64) : ℕ :=
  ((countsOf ps guid).map UInt32.toNat).sum

theorem countsOf_cons (p : UInt64 × UInt32) (ps : List (UInt64 × UInt32)) (guid : UInt64) :
    countsOf (p :: ps) guid = if p.1 = guid then p.2 :: countsOf ps guid else countsOf ps guid := by
  by_cases h : p.1 = guid <;> simp [countsOf, h]

theorem drawn_cons (p : UInt64 × UInt32) (ps : List (UInt64 × UInt32)) (guid : UInt64) :
    drawn (p :: ps) guid = (if p.1 = guid then p.2.toNat else 0) + drawn ps guid := by
  unfold drawn
  rw [countsOf_cons]
  split_ifs <;> simp

/-- The loop treats every object on its own: it applies the counts listed for its guid. -/
theorem sellStacks_items (inv : Inventory) (ps : List (UInt64 × UInt32)) :
    (sellStacks inv ps).items =
      inv.items.map fun it => (countsOf ps it.guid).foldl sellStack it := by
  induction ps generalizing inv with
  | nil => simp [sellStacks, countsOf]
  | cons p ps ih =>
    rw [show sellStacks inv (p :: ps) =
      sellStacks (inv.update p.1 (sellStack · p.2) (sellStack_guid · p.2)) ps from rfl, ih]
    rw [Inventory.update, List.map_map]
    refine List.map_congr_left fun it _ => ?_
    rw [Function.comp_apply, countsOf_cons]
    by_cases h : it.guid = p.1
    · rw [if_pos h, sellStack_guid, if_pos h.symm, List.foldl_cons]
    · rw [if_neg h, if_neg (Ne.symm h)]

/-- Units that an object still holds, whatever its entry. -/
def remaining (it : Item) : ℕ := if it.stored then it.count.toNat else 0

theorem unitsOf_eq (e : UInt32) (it : Item) :
    unitsOf e it = if it.entry = e then remaining it else 0 := by
  unfold unitsOf remaining
  by_cases hs : it.stored = true <;> by_cases he : it.entry = e <;> simp [hs, he]

theorem foldl_sellStack_entry (it : Item) (cs : List UInt32) :
    (cs.foldl sellStack it).entry = it.entry := by
  induction cs generalizing it with
  | nil => rfl
  | cons c cs ih =>
    rw [List.foldl_cons, ih, sellStack]
    split_ifs <;> rfl

/-- A stack that covers the counts listed for it loses exactly their sum: only its last count can
equal what is left. -/
theorem remaining_foldl_sellStack {it : Item} {cs : List UInt32} (hs : it.stored = true)
    (hpos : ∀ c ∈ cs, 0 < c.toNat) (hle : (cs.map UInt32.toNat).sum ≤ it.count.toNat) :
    remaining (cs.foldl sellStack it) + (cs.map UInt32.toNat).sum = it.count.toNat := by
  induction cs generalizing it with
  | nil => simp [remaining, hs]
  | cons c cs ih =>
    rw [List.map_cons, List.sum_cons] at hle ⊢
    rw [List.foldl_cons]
    by_cases hc : it.count = c
    · -- the rest of the counts is positive and sums to zero, so there is no rest
      cases cs with
      | nil => simp [sellStack, hc, remaining]
      | cons d cs =>
        have hd := hpos d (by simp)
        rw [List.map_cons, List.sum_cons, hc] at hle
        omega
    · have hsub : (it.count - c).toNat = it.count.toNat - c.toNat :=
        UInt32.toNat_sub_of_le _ _ (UInt32.le_iff_toNat_le.2 (by omega))
      have hstep : sellStack it c = { it with count := it.count - c } := if_neg hc
      have := @ih { it with count := it.count - c } hs
        (fun d hd => hpos d (List.mem_cons_of_mem _ hd)) (by simp only [hsub]; omega)
      rw [hstep]
      simp only [hsub] at this
      omega

/-- What the loop leaves of an object, together with what the packet took from it, is never less
than the object held, and it is no more exactly when the object covers what was taken. -/
theorem sellStack_units {it : Item} {cs : List UInt32} (hs : it.stored = true)
    (hpos : ∀ c ∈ cs, 0 < c.toNat) :
    it.count.toNat ≤ remaining (cs.foldl sellStack it) + (cs.map UInt32.toNat).sum ∧
      (remaining (cs.foldl sellStack it) + (cs.map UInt32.toNat).sum = it.count.toNat ↔
        (cs.map UInt32.toNat).sum ≤ it.count.toNat) := by
  by_cases hle : (cs.map UInt32.toNat).sum ≤ it.count.toNat
  · have := remaining_foldl_sellStack hs hpos hle
    omega
  · omega

/-! ### Conservation -/

section Conservation

variable {inv : Inventory} {ps : List (UInt64 × UInt32)}

/-- Every pair names a stored object. -/
def AllFound (inv : Inventory) (ps : List (UInt64 × UInt32)) : Prop :=
  ∀ p ∈ ps, ∃ it, inv.getItemByGuid p.1 = some it

/-- All listed stacks are of one entry. -/
def SameEntry (inv : Inventory) (ps : List (UInt64 × UInt32)) : Prop :=
  ∀ p ∈ ps, ∀ q ∈ ps,
    (inv.getItemByGuid p.1).map Item.entry = (inv.getItemByGuid q.1).map Item.entry

/-- No stack is listed for more units, over all pairs that name it, than it holds. -/
def Covered (inv : Inventory) (ps : List (UInt64 × UInt32)) : Prop :=
  ∀ p ∈ ps, ∀ it, inv.getItemByGuid p.1 = some it → drawn ps p.1 ≤ it.count.toNat

theorem drawn_pos_iff (hpos : ∀ p ∈ ps, 0 < p.2.toNat) {guid : UInt64} :
    0 < drawn ps guid ↔ ∃ p ∈ ps, p.1 = guid := by
  induction ps with
  | nil => simp [drawn, countsOf]
  | cons p ps ih =>
    have hp := hpos p (by simp)
    rw [drawn_cons, Nat.add_pos_iff_pos_or_pos, ih fun q hq => hpos q (List.mem_cons_of_mem _ hq)]
    simp only [List.mem_cons, exists_eq_or_imp]
    refine or_congr ?_ Iff.rfl
    split_ifs with h
    · exact iff_of_true hp h
    · exact iff_of_false (lt_irrefl 0) h

theorem found_of_drawn (hf : AllFound inv ps) (hpos : ∀ p ∈ ps, 0 < p.2.toNat) {it : Item}
    (hit : it ∈ inv.items) (hd : 0 < drawn ps it.guid) :
    inv.getItemByGuid it.guid = some it ∧ it.stored = true := by
  obtain ⟨p, hp, hg⟩ := (drawn_pos_iff hpos).1 hd
  obtain ⟨it', hit'⟩ := hf p hp
  obtain ⟨hm, hs, hg'⟩ := getItemByGuid_some hit'
  obtain rfl := eq_of_guid_eq hit hm (hg.symm.trans hg'.symm)
  exact ⟨hg ▸ hit', hs⟩

theorem sum_drawn (hf : AllFound inv ps) :
    (inv.items.map fun it => drawn ps it.guid).sum = (ps.map fun p => p.2.toNat).sum := by
  induction ps with
  | nil => simp [drawn, countsOf]
  | cons p ps ih =>
    obtain ⟨it, hit⟩ := hf p (by simp)
    obtain ⟨hm, -, hg⟩ := getItemByGuid_some hit
    have hone : (inv.items.map fun x => if p.1 = x.guid then p.2.toNat else 0).sum = p.2.toNat := by
      simpa only [hg, eq_comm] using sum_map_guid (fun _ => p.2.toNat) hm
    simp only [drawn_cons, List.sum_map_add, List.map_cons, List.sum_cons]
    rw [ih fun q hq => hf q (List.mem_cons_of_mem _ hq), hone]

/-- What the loop leaves of any object of the inventory. -/
theorem sellStacks_remaining (hf : AllFound inv ps) (hpos : ∀ p ∈ ps, 0 < p.2.toNat) {it : Item}
    (hit : it ∈ inv.items) :
    let left := remaining ((countsOf ps it.guid).foldl sellStack it)
    remaining it ≤ left + drawn ps it.guid ∧
      (left + drawn ps it.guid = remaining it ↔ drawn ps it.guid ≤ remaining it) := by
  have hc : ∀ c ∈ countsOf ps it.guid, 0 < c.toNat := by
    intro c hc
    obtain ⟨p, hp, rfl⟩ := List.mem_map.1 hc
    exact hpos p (List.mem_of_mem_filter hp)
  rcases Nat.eq_zero_or_pos (drawn ps it.guid) with hz | hd
  · -- counts are positive, so an object that gives nothing is not listed
    have hnil : countsOf ps it.guid = [] := by
      rcases hl : countsOf ps it.guid with _ | ⟨c, cs⟩
      · rfl
      · have := hc c (by simp [hl])
        simp [drawn, hl] at hz
        omega
    simp [hnil, hz]
  · obtain ⟨-, hs⟩ := found_of_drawn hf hpos hit hd
    have hrem : remaining it = it.count.toNat := if_pos hs
    rw [hrem]
    exact sellStack_units hs hc

/-- One object at a time, the condition under which the loop and the auction balance. -/
theorem conditions_iff (hf : AllFound inv ps) (hpos : ∀ p ∈ ps, 0 < p.2.toNat) {e₀ : UInt32}
    (he₀ : ∃ p ∈ ps, (inv.getItemByGuid p.1).map Item.entry = some e₀) :
    (SameEntry inv ps ∧ Covered inv ps) ↔
      ∀ it ∈ inv.items,
        drawn ps it.guid ≤ remaining it ∧ (0 < drawn ps it.guid → it.entry = e₀) := by
  constructor
  · rintro ⟨hsame, hcov⟩ it hit
    rcases Nat.eq_zero_or_pos (drawn ps it.guid) with hz | hd
    · omega
    · obtain ⟨hget, hs⟩ := found_of_drawn hf hpos hit hd
      obtain ⟨p, hp, hg⟩ := (drawn_pos_iff hpos).1 hd
      obtain ⟨q, hq, hqe⟩ := he₀
      have hcnt := hcov p hp it (hg ▸ hget)
      have hent := hsame p hp q hq
      rw [hqe, hg, hget] at hent
      rw [hg] at hcnt
      exact ⟨by simpa [remaining, hs] using hcnt, fun _ => by simpa using hent⟩
  · intro h
    have key : ∀ p ∈ ps, ∀ it, inv.getItemByGuid p.1 = some it →
        drawn ps p.1 ≤ it.count.toNat ∧ it.entry = e₀ := by
      intro p hp it hit
      obtain ⟨hm, hs, hg⟩ := getItemByGuid_some hit
      have hd : 0 < drawn ps it.guid := (drawn_pos_iff hpos).2 ⟨p, hp, hg.symm⟩
      have := h it hm
      exact ⟨by simpa [remaining, hs, hg] using this.1, this.2 hd⟩
    refine ⟨fun p hp q hq => ?_, fun p hp it hit => (key p hp it hit).1⟩
    obtain ⟨it, hit⟩ := hf p hp
    obtain ⟨it', hit'⟩ := hf q hq
    rw [hit, hit', Option.map_some, Option.map_some, (key p hp it hit).2, (key q hq it' hit').2]

/-- The removal loop takes exactly the units of an auction of `e₀` with all the listed counts when,
and only when, the stacks are of one entry and none is listed for more than it holds. -/
theorem sellStacks_units_iff (hf : AllFound inv ps) (hpos : ∀ p ∈ ps, 0 < p.2.toNat) {e₀ : UInt32}
    (he₀ : ∃ p ∈ ps, (inv.getItemByGuid p.1).map Item.entry = some e₀) :
    (∀ e, (sellStacks inv ps).units e + (if e₀ = e then (ps.map fun p => p.2.toNat).sum else 0) =
      inv.units e) ↔ SameEntry inv ps ∧ Covered inv ps := by
  rw [conditions_iff hf hpos he₀]
  have hunits : ∀ e, (sellStacks inv ps).units e = (inv.items.map fun it =>
      if it.entry = e then remaining ((countsOf ps it.guid).foldl sellStack it) else 0).sum := by
    intro e
    rw [units, sellStacks_items, List.map_map]
    refine congrArg List.sum (List.map_congr_left fun it _ => ?_)
    rw [Function.comp_apply, unitsOf_eq, foldl_sellStack_entry]
  have hsum : ∀ e, (sellStacks inv ps).units e +
      (if e₀ = e then (ps.map fun p => p.2.toNat).sum else 0) = (inv.items.map fun it =>
        (if it.entry = e then remaining ((countsOf ps it.guid).foldl sellStack it) else 0) +
          if e₀ = e then drawn ps it.guid else 0).sum := by
    intro e
    rw [hunits, List.sum_map_add]
    split_ifs
    · rw [sum_drawn hf]
    · simp
  have hinv : ∀ e, inv.units e =
      (inv.items.map fun it => if it.entry = e then remaining it else 0).sum :=
    fun e => congrArg List.sum (List.map_congr_left fun it _ => unitsOf_eq e it)
  constructor
  · intro h it hit
    -- every object contributes at least what it held, so equal sums force equality everywhere
    have hle : ∀ x ∈ inv.items, (if x.entry = e₀ then remaining x else 0) ≤
        (if x.entry = e₀ then remaining ((countsOf ps x.guid).foldl sellStack x) else 0) +
          if e₀ = e₀ then drawn ps x.guid else 0 := by
      intro x hx
      have := (sellStacks_remaining hf hpos hx).1
      rw [if_pos (rfl : e₀ = e₀)]
      split_ifs <;> omega
    have hnlt := fun hx => (List.sum_lt_sum _ _ hle hx).ne' ((hsum e₀).symm.trans
      ((h e₀).trans (hinv e₀)))
    have heq := sellStacks_remaining hf hpos hit
    by_contra hcon
    refine hnlt ⟨it, hit, ?_⟩
    split_ifs <;> grind
  · intro h e
    rw [hsum, hinv]
    refine congrArg List.sum (List.map_congr_left fun it hit => ?_)
    have heq := sellStacks_remaining hf hpos hit
    obtain ⟨hle, hent⟩ := h it hit
    grind

end Conservation

/-! ### The handler -/

/-- An auction of `count` units of `entry` balances a change of the inventory. -/
def Conserved (inv inv' : Inventory) (a : AuctionEntry) : Prop :=
  ∀ e, inv'.units e + (if a.itemEntry = e then a.itemCount.toNat else 0) = inv.units e

theorem collectItems_ok {env : SellEnv} {inv : Inventory} {ps : List (UInt64 × UInt32)}
    {its : List Item} (h : collectItems env inv ps = .ok its) :
    ps.map (fun p => inv.getItemByGuid p.1) = its.map some := by
  induction ps generalizing its with
  | nil =>
    obtain rfl : [] = its := by simpa [collectItems] using h
    rfl
  | cons p ps ih =>
    rw [collectItems] at h
    rcases hit : inv.getItemByGuid p.1 with _ | it
    · simp [hit] at h
    · rcases hc : collectItems env inv ps with e | its'
      · simp only [hit, hc] at h
        split_ifs at h
      · simp only [hit, hc] at h
        split_ifs at h
        obtain rfl : it :: its' = its := by simpa using h
        rw [List.map_cons, List.map_cons, hit, ih hc]

theorem collectItems_error {env : SellEnv} {inv : Inventory} {ps : List (UInt64 × UInt32)}
    {e : SellResult} (h : collectItems env inv ps = .error e) (a : AuctionEntry) : e ≠ .ok a := by
  induction ps with
  | nil => simp [collectItems] at h
  | cons p ps ih =>
    rw [collectItems] at h
    rcases hit : inv.getItemByGuid p.1 with _ | it
    · simp only [hit, Except.error.injEq] at h
      simp [← h]
    · rcases hc : collectItems env inv ps with e' | its
      · simp only [hit, hc] at h
        split_ifs at h
        · exact ih (hc.trans h)
        · obtain rfl : SellResult.databaseError = e := by simpa using h
          nofun
      · simp only [hit, hc] at h
        split_ifs at h
        obtain rfl : SellResult.databaseError = e := by simpa using h
        nofun

theorem units_moveItemFromInventory {inv : Inventory} {guid : UInt64} {it : Item}
    (h : inv.getItemByGuid guid = some it) (e : UInt32) :
    (inv.moveItemFromInventory guid).units e + (if it.entry = e then it.count.toNat else 0) =
      inv.units e := by
  obtain ⟨hm, hs, hg⟩ := getItemByGuid_some h
  have hsum := sum_map_guid (unitsOf e) hm
  rw [unitsOf, hs] at hsum
  simp only [true_and] at hsum
  rw [← hsum, units, units, moveItemFromInventory, Inventory.update, List.map_map,
    ← List.sum_map_add]
  refine congrArg List.sum (List.map_congr_left fun x _ => ?_)
  by_cases hx : x.guid = guid <;> simp [hx, hg, unitsOf]

/-- `finalCount` does not wrap: there are at most 160 pairs of at most 1000 units. -/
theorem finalCount_toNat {ps : List (UInt64 × UInt32)} (hlen : ps.length ≤ maxAuctionItems)
    (hok : ps.all pairOk = true) : (finalCount ps).toNat = (ps.map fun p => p.2.toNat).sum := by
  have hle : ∀ x ∈ ps.map (fun p => p.2.toNat), x ≤ 1000 := by
    intro x hx
    obtain ⟨p, hp, rfl⟩ := List.mem_map.1 hx
    have := List.all_eq_true.1 hok p hp
    simp only [pairOk, Bool.and_eq_true, decide_eq_true_eq] at this
    exact UInt32.le_iff_toNat_le.1 this.2
  have hsum := List.sum_le_card_nsmul _ _ hle
  rw [List.length_map, smul_eq_mul] at hsum
  unfold maxAuctionItems at hlen
  have hmap : (ps.map Prod.snd).map UInt32.toNat = ps.map fun p => p.2.toNat := by
    rw [List.map_map]
    rfl
  rw [finalCount, FixedWidth.toNat_sum_of_lt (by rw [hmap]; omega), hmap]

theorem pos_of_pairOk {ps : List (UInt64 × UInt32)} (hok : ps.all pairOk = true) :
    ∀ p ∈ ps, 0 < p.2.toNat := by
  intro p hp
  have := List.all_eq_true.1 hok p hp
  simp only [pairOk, Bool.and_eq_true, decide_eq_true_eq] at this
  exact Nat.pos_of_ne_zero fun h0 => this.1.2 (UInt32.toNat_inj.1 h0)

/-- A run of the handler ends without an auction and leaves the seller as he was, or it reached
`postAuction` with checked pairs and the objects they name. -/
theorem handleAuctionSellItem_cases (env : SellEnv) (pkt : SellPacket) (p : Seller) :
    ((handleAuctionSellItem env pkt p).1 = p ∧ ∀ a, (handleAuctionSellItem env pkt p).2 ≠ .ok a) ∨
      ∃ item items, pkt.items.length ≤ maxAuctionItems ∧ pkt.items.all pairOk = true ∧
        pkt.items.map (fun q => p.inventory.getItemByGuid q.1) = (item :: items).map some ∧
        handleAuctionSellItem env pkt p = postAuction env pkt p (pkt.etime * 60) item items := by
  generalize hx : handleAuctionSellItem env pkt p = x
  unfold handleAuctionSellItem at hx
  dsimp only at hx
  split_ifs at hx with hlen hok hbid hmax hnpc
  any_goals
    subst hx
    exact .inl ⟨rfl, nofun⟩
  rcases hc : collectItems env p.inventory pkt.items with e | _ | ⟨item, items⟩
  · rw [hc] at hx
    subst hx
    exact .inl ⟨rfl, collectItems_error hc⟩
  · rw [hc] at hx
    subst hx
    exact .inl ⟨rfl, nofun⟩
  · rw [hc] at hx
    exact .inr ⟨item, items, by omega, by simpa using hok, collectItems_ok hc, hx.symm⟩

/-- How `postAuction` ends: without an auction, by moving the one stack, or by the clone and the
removal loop. -/
theorem postAuction_cases (env : SellEnv) (pkt : SellPacket) (p : Seller) (etime : UInt32)
    (item : Item) (items : List Item) :
    ((postAuction env pkt p etime item items).1 = p ∧
        ∀ a, (postAuction env pkt p etime item items).2 ≠ .ok a) ∨
      ∃ p' a, postAuction env pkt p etime item items = (p', .ok a) ∧ a.itemEntry = item.entry ∧
        ((pkt.items.map Prod.snd = [item.count] ∧ a.itemCount = item.count ∧
            p'.inventory = p.inventory.moveItemFromInventory item.guid) ∨
          (a.itemCount = finalCount pkt.items ∧
            p'.inventory = sellStacks p.inventory pkt.items)) := by
  generalize hx : postAuction env pkt p etime item items = x
  unfold postAuction at hx
  dsimp only at hx
  split_ifs at hx with hzero hstack hmoney hone hcreate hcut
  all_goals subst hx
  any_goals exact .inl ⟨rfl, fun a => nofun⟩
  · exact .inr ⟨_, _, rfl, rfl, .inl ⟨hone, rfl, rfl⟩⟩
  · -- the cut of `CreateItem` would contradict the check of the maximum stack
    simp only [List.any_cons, Bool.or_eq_true, not_or, decide_eq_true_eq] at hstack
    exact absurd hcut hstack.1
  · exact .inr ⟨_, _, rfl, rfl, .inr ⟨rfl, rfl⟩⟩

/-- The one whole stack of the fast path satisfies both conditions. -/
theorem conditions_of_single {inv : Inventory} {ps : List (UInt64 × UInt32)} {item : Item}
    (hget : ps.map (fun q => inv.getItemByGuid q.1) = [some item])
    (hcount : ps.map Prod.snd = [item.count]) : SameEntry inv ps ∧ Covered inv ps := by
  obtain ⟨q, rfl⟩ : ∃ q, ps = [q] :=
    List.length_eq_one_iff.1 (by simpa using congrArg List.length hget)
  simp only [List.map_cons, List.map_nil, List.cons.injEq, and_true] at hget hcount
  refine ⟨by simp [SameEntry], fun p hp it hit => ?_⟩
  obtain rfl : p = q := by simpa using hp
  obtain rfl : item = it := by simpa using hget.symm.trans hit
  simp [drawn, countsOf, hcount]

/-- **Main result.** Without an auction the seller is as he was. With an auction, the units that
left the inventory are the units that the auction holds exactly when the listed stacks are of one
entry and no stack is listed, over all its pairs, for more units than it holds. -/
theorem auctionSell_conserves_iff (env : SellEnv) (pkt : SellPacket) (p : Seller) :
    ((∀ a, (handleAuctionSellItem env pkt p).2 ≠ .ok a) →
        (handleAuctionSellItem env pkt p).1.inventory = p.inventory) ∧
      ∀ a, (handleAuctionSellItem env pkt p).2 = .ok a →
        (Conserved p.inventory (handleAuctionSellItem env pkt p).1.inventory a ↔
          SameEntry p.inventory pkt.items ∧ Covered p.inventory pkt.items) := by
  rcases handleAuctionSellItem_cases env pkt p with
    ⟨hp, hr⟩ | ⟨item, items, hlen, hok, hget, heq⟩
  · exact ⟨fun _ => by rw [hp], fun a ha => absurd ha (hr a)⟩
  rw [heq]
  rcases postAuction_cases env pkt p (pkt.etime * 60) item items with
    ⟨hp, hr⟩ | ⟨p', a, hpost, hentry, hkind⟩
  · exact ⟨fun _ => by rw [hp], fun a ha => absurd ha (hr a)⟩
  rw [hpost]
  refine ⟨fun h => absurd rfl (h a), fun a' ha' => ?_⟩
  obtain rfl : a = a' := SellResult.ok.inj ha'
  have hfirst : ∃ q ∈ pkt.items, p.inventory.getItemByGuid q.1 = some item :=
    List.mem_map.1 (hget ▸ List.mem_map.2 ⟨item, by simp, rfl⟩)
  rcases hkind with ⟨hone, hcount, hinv⟩ | ⟨hcount, hinv⟩
  · have hitems : items = [] := by
      have hl := (congrArg List.length hget).symm.trans
        ((List.length_map _).trans
          ((List.length_map Prod.snd).symm.trans (congrArg List.length hone)))
      simpa using hl
    subst hitems
    obtain ⟨q, hq, hqi⟩ := hfirst
    have hguid : item.guid = q.1 := (getItemByGuid_some hqi).2.2
    refine iff_of_true (fun e => ?_) (conditions_of_single hget hone)
    rw [hinv, hentry, hcount]
    exact units_moveItemFromInventory (hguid ▸ hqi) e
  · have hfound : AllFound p.inventory pkt.items := by
      intro q hq
      have hmem := List.mem_map_of_mem (f := fun q => p.inventory.getItemByGuid q.1) hq
      rw [hget] at hmem
      obtain ⟨it, -, hit⟩ := List.mem_map.1 hmem
      exact ⟨it, hit.symm⟩
    obtain ⟨q, hq, hqi⟩ := hfirst
    rw [← sellStacks_units_iff hfound (pos_of_pairOk hok) ⟨q, hq, by rw [hqi]; rfl⟩, Conserved,
      hinv, hentry, hcount, finalCount_toNat hlen hok]

/-- A tradeable stack of five of at most twenty units. -/
def sampleStack : Item where
  guid := 7
  entry := 2589
  count := 5
  maxStackCount := 20
  stored := true
  lootGenerated := false
  soulBound := false
  bopTradeable := false
  wrapped := false
  boundAccountWide := false
  conjured := false
  duration := 0
  isBag := false
  inBagPos := false
  notEmptyBag := false
  canUnequip := true
  beingLooted := false
  boundByEnchant := false

/-- A seller with that stack only. -/
def sampleSeller : Seller where
  guidLow := 1
  money := 100000
  inventory := ⟨[sampleStack], by simp⟩

/-- An auction house that takes a deposit of one silver. -/
def sampleEnv : SellEnv where
  canInteract := true
  hasHouse := true
  isAuctionItem _ := false
  auctionTime etime := etime
  auctionDeposit _ _ _ := 100
  twoSideInteraction := false
  auctionId := 1
  createItem := true
  newGuidLow := 8
  time := 0

/-- A packet for twelve hours. -/
def samplePacket (items : List (UInt64 × UInt32)) : SellPacket where
  auctioneer := 3
  items := items
  bid := 1
  buyout := 0
  etime := 720

/-- Three of the five units: an auction of three, and two stay. -/
theorem auctionSell_conserves_part : ∃ a,
    (handleAuctionSellItem sampleEnv (samplePacket [(7, 3)]) sampleSeller).2 = .ok a ∧
      Conserved sampleSeller.inventory
        (handleAuctionSellItem sampleEnv (samplePacket [(7, 3)]) sampleSeller).1.inventory a := by
  refine ⟨_, rfl, ((auctionSell_conserves_iff _ _ _).2 _ rfl).2 ⟨?_, ?_⟩⟩
  · simp [SameEntry, samplePacket]
  · intro p hp it hit
    obtain rfl : p = (7, 3) := by simpa [samplePacket] using hp
    obtain rfl : sampleStack = it := by
      simpa [getItemByGuid, sampleSeller, sampleStack] using hit
    decide

/-- The stack of five, listed twice, becomes an auction of ten. -/
theorem auctionSell_doubles_listed_twice : ∃ a,
    (handleAuctionSellItem sampleEnv (samplePacket [(7, 5), (7, 5)]) sampleSeller).2 = .ok a ∧
      ¬Conserved sampleSeller.inventory
        (handleAuctionSellItem sampleEnv (samplePacket [(7, 5), (7, 5)]) sampleSeller).1.inventory
        a := by
  refine ⟨_, rfl, fun h => ?_⟩
  have h5 := h 2589
  revert h5
  decide

end FaceCore.Auction
