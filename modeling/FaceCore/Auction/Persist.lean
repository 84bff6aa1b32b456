import FaceCore.Auction.Sell
import FaceCore.Player.SaveInventory

/-!
# What a posted auction leaves in the database

`WorldSession::HandleAuctionSellItem` once more, with the statements that it issues. The stack that
becomes an auction is taken out of the inventory and saved; the stacks of a clone are saved one after
the other, and last the inventory and the money. The deposit is debited after that.

* `Poster`: the seller with his part of the database and the update states of his items;
* `Persisted`: what is stored describes the money, the inventory and the auction;
* `Persistable`: when it does;
* `auction_post_persisted_iff`.
-/

namespace FaceCore.Auction

open Inventory Saving

/-- A row of `auctionhouse`. -/
structure AuctionRow where
  id : UInt32
  auctioneer : UInt32
  itemGUIDLow : UInt32
  owner : UInt32
  buyout : UInt32
  time : UInt32
  bidder : UInt32
  bid : UInt32
  startbid : UInt32
  deposit : UInt32

/-- `AuctionEntry::SaveToDB`. -/
def AuctionEntry.row (a : AuctionEntry) : AuctionRow where
  id := a.id
  auctioneer := a.auctioneer
  itemGUIDLow := a.itemGUIDLow
  owner := a.owner
  buyout := a.buyout
  time := UInt32.ofNat a.expireTime
  bidder := a.bidder
  bid := a.bid
  startbid := a.startbid
  deposit := a.deposit

/-- `AuctionEntry::LoadFromDB`; the row is joined with that of the item. -/
def AuctionRow.load (r : AuctionRow) (item : InstanceRow) : AuctionEntry where
  id := r.id
  auctioneer := r.auctioneer
  itemGUIDLow := r.itemGUIDLow
  itemEntry := item.itemEntry
  itemCount := item.count
  owner := r.owner
  startbid := r.startbid
  bidder := r.bidder
  bid := r.bid
  buyout := r.buyout
  expireTime := r.time.toNat
  deposit := r.deposit

/-- `NULL_SLOT`, the slot of an object that left the inventory. -/
def nullSlot : UInt8 := 255

/-- The row of an item object. -/
def itemRow (it : Item) : InstanceRow := ⟨it.entry, it.count⟩

/-- The item object with a low guid. -/
def findLow (inv : Inventory) (g : UInt32) : Option Item :=
  inv.items.find? fun it => guidLoPart it.guid = g

/-- The objects of the inventory, whose items are at the places `pos`, and a new object besides,
which has the slot that the constructor gave it. -/
def objects (inv : Inventory) (pos : UInt32 → Place) (clone : InstanceRow) : Objects where
  content g := ((findLow inv g).map itemRow).getD clone
  place g :=
    match findLow inv g with
    | some it => if it.stored then pos g else (0, nullSlot)
    | none => (0, 0)
  itemAt p := (inv.items.find? fun it => it.stored && pos (guidLoPart it.guid) = p).map
    fun it => guidLoPart it.guid

/-- The seller, the places of his items by low guid, the states of the items and the tables they are
in, the items in his buyback slots, and those that a save changes. -/
structure Poster where
  seller : Seller
  pos : UInt32 → Place
  save : SaveState
  buyback : List UInt32
  touched : List UInt32
  /-- The random property of an item is one that `SetItemRandomProperties` finds. -/
  randomProperties : UInt32 → Bool
  /-- `money` in his row of `characters`. -/
  dbMoney : UInt32
  auctions : UInt32 → Option AuctionRow

/-- The removal loop of the handler for one pair, with the transaction of the pair. -/
def Poster.sellStack (c : Poster) (p : UInt64 × UInt32) : Poster :=
  let g := guidLoPart p.1
  match c.seller.inventory.items.find? fun it => it.guid = p.1 with
  | some it =>
    let inventory := sellStacks c.seller.inventory [p]
    let seller := { c.seller with inventory := inventory }
    if it.count = p.2 then
      -- `MoveItemFromInventory` finds nothing at the position of an object that left before
      let save := if it.stored then c.save.removeFromUpdateQueueOf g else c.save
      { c with
        seller := seller
        save :=
          { save with tables := (save.tables.delInventoryByItem g).delItemInstance g } }
    else
      { c with
        seller := seller
        save := (c.save.setState g .changed).saveToDB (objects inventory c.pos ⟨0, 0⟩) g }
  | none => c

/-- `SaveInventoryAndGoldToDB` after the auction was saved, and the debit of the deposit. There is no
result if the save gets to an object that it deleted. -/
def Poster.finish (c : Poster) (o : Objects) (a : AuctionEntry) : Option Poster :=
  (c.save.saveInventory o c.buyback c.touched).map fun save =>
    { c with
      save := save
      dbMoney := c.seller.money
      auctions := Function.update c.auctions a.id (some a.row)
      seller := { c.seller with money := (modifyMoney c.seller.money (-a.deposit.toInt32)).1 } }

/-- The branch of the handler that moves the one stack `item`. -/
def Poster.postStack (c : Poster) (item : Item) (a : AuctionEntry) : Option Poster :=
  let g := guidLoPart item.guid
  let inventory := c.seller.inventory.moveItemFromInventory item.guid
  let o := objects inventory c.pos ⟨0, 0⟩
  let save := c.save.removeFromUpdateQueueOf g
  let save := { save with tables := save.tables.delInventoryByItem g }.saveToDB o g
  Poster.finish { c with seller := { c.seller with inventory := inventory }, save := save } o a

/-- `Item::CloneItem` for the new object `g`: its random properties put it into the queue. -/
def Poster.cloneItem (c : Poster) (item : Item) (g : UInt32) : SaveState :=
  let save :=
    { c.save with
      state := Function.update c.save.state g .new
      queuePos := Function.update c.save.queuePos g none
      deleted := Function.update c.save.deleted g false }
  if c.randomProperties (guidLoPart item.guid) then save.setState g .changed else save

/-- The branch of the handler that clones the first stack. -/
def Poster.postClone (c : Poster) (item : Item) (ps : List (UInt64 × UInt32)) (a : AuctionEntry) :
    Option Poster :=
  let g := a.itemGUIDLow
  let c := ps.foldl Poster.sellStack { c with save := c.cloneItem item g }
  let o := objects c.seller.inventory c.pos ⟨a.itemEntry, a.itemCount⟩
  Poster.finish { c with save := c.save.saveToDB o g } o a

/-- `WorldSession::HandleAuctionSellItem` with the database. -/
def handleAuctionSellItemDb (env : SellEnv) (pkt : SellPacket) (c : Poster) :
    SellResult × Option Poster :=
  match (handleAuctionSellItem env pkt c.seller).2 with
  | .ok a =>
    match pkt.items.head?.bind fun p => c.seller.inventory.getItemByGuid p.1 with
    | some item =>
      if pkt.items.map Prod.snd = [item.count] then (.ok a, c.postStack item a)
      else (.ok a, c.postClone item pkt.items a)
    | none => (.ok a, some c)
  | r => (r, some c)

/-- The item of a low guid in the inventory, with its place. -/
def Poster.holds (c : Poster) (g : UInt32) : Option (Place × InstanceRow) :=
  (findLow c.seller.inventory g).bind fun it =>
    if it.stored then some (c.pos g, itemRow it) else none

/-- `AuctionHouseMgr::LoadAuctions` for one auction. -/
def Poster.loadAuction (c : Poster) (id : UInt32) : Option AuctionEntry :=
  (c.auctions id).bind fun r => (c.save.tables.instances r.itemGUIDLow).map r.load

/-- The tables describe the money, the inventory and the auction. -/
structure Persisted (c : Poster) (a : AuctionEntry) : Prop where
  money : c.dbMoney = c.seller.money
  inventory : ∀ g, c.save.tables.selInventory g = c.holds g
  auction : c.loadAuction a.id = some a

/-! ### When they do -/

/-- The counts, one after the other, use a stack of `n` units up. -/
def usedUp : UInt32 → List UInt32 → Bool
  | _, [] => false
  | n, c :: cs => n = c || usedUp (n - c) cs

/-- How many of the counts are split off a stack of `n` units. -/
def splits : UInt32 → List UInt32 → ℕ
  | _, [] => 0
  | n, c :: cs => if n = c then splits n cs else splits (n - c) cs + 1

/-- The first listed item. -/
def firstListed (pkt : SellPacket) (p : Seller) : Option Item :=
  pkt.items.head?.bind fun q => p.inventory.getItemByGuid q.1

/-- The deposit that is asked for. -/
def deposit (env : SellEnv) (pkt : SellPacket) (p : Seller) : UInt32 :=
  match firstListed pkt p with
  | some item => env.auctionDeposit (pkt.etime * 60) item (finalCount pkt.items)
  | none => 0

/-- An item whose pairs do not use it up stays in the inventory. -/
def Stays (ps : List (UInt64 × UInt32)) (it : Item) : Prop :=
  it.stored = true ∧ usedUp it.count (countsOf ps it.guid) = false

/-- The condition under which the database describes the posted auction. -/
structure Persistable (env : SellEnv) (pkt : SellPacket) (c : Poster) : Prop where
  /-- The debit of the deposit changes nothing. -/
  debit : deposit env pkt c.seller = 0 ∨ 2 ^ 31 < (deposit env pkt c.seller).toNat ∧
    ¬ ((deposit env pkt c.seller).toNat = 2 ^ 31 + 1 ∧ c.seller.money.toNat < 2 ^ 32 - 1)
  /-- The end of the auction fits its column. -/
  time : env.time + (env.auctionTime (pkt.etime * 60)).toNat < 2 ^ 32
  /-- What is sold in part has its place in the database, or is saved for another reason. -/
  places : ∀ it ∈ c.seller.inventory.items, countsOf pkt.items it.guid ≠ [] → Stays pkt.items it →
    c.save.tables.inventory (guidLoPart it.guid) = some (c.pos (guidLoPart it.guid)) ∨
      guidLoPart it.guid ∈ c.touched
  /-- What is sold out was split at most once before. -/
  split : ∀ it ∈ c.seller.inventory.items, usedUp it.count (countsOf pkt.items it.guid) = true →
    splits it.count (countsOf pkt.items it.guid) ≤ 1
  /-- A clone with random properties is taken to be in slot 0, where something is. -/
  clone : ∀ item, firstListed pkt c.seller = some item → pkt.items.map Prod.snd ≠ [item.count] →
    c.randomProperties (guidLoPart item.guid) = true →
      ∃ it ∈ c.seller.inventory.items, Stays pkt.items it ∧ c.pos (guidLoPart it.guid) = (0, 0)

/-! ### What holds before the request -/

/-- The low guids tell the objects apart, and the items of the inventory have places of their own. -/
structure Located (inv : Inventory) (pos : UInt32 → Place) : Prop where
  low : ∀ it ∈ inv.items, ∀ it' ∈ inv.items,
    guidLoPart it.guid = guidLoPart it'.guid → it.guid = it'.guid
  placed : ∀ it ∈ inv.items, it.stored = true → pos (guidLoPart it.guid) ≠ (0, nullSlot)
  apart : ∀ it ∈ inv.items, ∀ it' ∈ inv.items, it.stored = true → it'.stored = true →
    pos (guidLoPart it.guid) = pos (guidLoPart it'.guid) → it.guid = it'.guid

/-- The player's items as the saves keep them: an item that is not flagged has its rows, and what is
flagged is in the queue once. The new guid is nowhere in use. -/
structure InSync (env : SellEnv) (c : Poster) : Prop where
  located : Located c.seller.inventory c.pos
  tracked : c.save.Tracked (objects c.seller.inventory c.pos ⟨0, 0⟩) c.buyback
  current : ∀ it ∈ c.seller.inventory.items, it.stored = true →
    c.save.state (guidLoPart it.guid) = .unchanged →
      c.save.tables.inventory (guidLoPart it.guid) = some (c.pos (guidLoPart it.guid))
  once : ∀ g, c.save.queue.count (some g) = if c.save.queuePos g = none then 0 else 1
  fresh : (∀ it ∈ c.seller.inventory.items, guidLoPart it.guid ≠ env.newGuidLow) ∧
    c.save.tables.inventory env.newGuidLow = none ∧ some env.newGuidLow ∉ c.save.queue ∧
    env.newGuidLow ∉ c.buyback

variable {inv : Inventory} {pos : UInt32 → Place} {clone : InstanceRow} {it : Item} {g : UInt32}
  {ps : List (UInt64 × UInt32)} {cs : List UInt32} {s s' : SaveState} {F : Item → Item}

/-! ### The objects -/

theorem eq_of_low (hl : Located inv pos) {it' : Item} (h : it ∈ inv.items) (h' : it' ∈ inv.items)
    (hg : guidLoPart it.guid = guidLoPart it'.guid) : it = it' :=
  eq_of_guid_eq h h' (hl.low it h it' h' hg)

theorem findLow_eq_some (hl : Located inv pos) :
    findLow inv g = some it ↔ it ∈ inv.items ∧ guidLoPart it.guid = g := by
  constructor
  · intro h
    exact ⟨List.mem_of_find?_eq_some h, by simpa using List.find?_some h⟩
  · rintro ⟨hm, rfl⟩
    cases hf : findLow inv (guidLoPart it.guid) with
    | none =>
      have hne := List.find?_eq_none.1 hf it hm
      simp at hne
    | some it' =>
      have hg : guidLoPart it'.guid = guidLoPart it.guid := by simpa using List.find?_some hf
      rw [eq_of_low hl (List.mem_of_find?_eq_some hf) hm hg]

theorem findLow_eq_none : findLow inv g = none ↔ ∀ it ∈ inv.items, guidLoPart it.guid ≠ g := by
  simp [findLow, List.find?_eq_none]

theorem itemAt_eq_some (hl : Located inv pos) {p : Place} :
    (objects inv pos clone).itemAt p = some g ↔
      ∃ it ∈ inv.items, it.stored = true ∧ pos (guidLoPart it.guid) = p ∧ guidLoPart it.guid = g := by
  show Option.map _ _ = _ ↔ _
  rw [Option.map_eq_some_iff]
  constructor
  · rintro ⟨it, hf, rfl⟩
    have hp := List.find?_some hf
    simp only [Bool.and_eq_true, decide_eq_true_eq] at hp
    exact ⟨it, List.mem_of_find?_eq_some hf, hp.1, hp.2, rfl⟩
  · rintro ⟨it, hm, hs, hp, rfl⟩
    cases hf : inv.items.find? fun it => it.stored && pos (guidLoPart it.guid) = p with
    | none =>
      have hne := List.find?_eq_none.1 hf it hm
      simp [hs, hp] at hne
    | some it' =>
      have hp' := List.find?_some hf
      simp only [Bool.and_eq_true, decide_eq_true_eq] at hp'
      have hg := hl.apart it' (List.mem_of_find?_eq_some hf) it hm hp'.1 hs (hp'.2.trans hp.symm)
      exact ⟨it', rfl, congrArg guidLoPart hg⟩

theorem itemAt_eq_none {p : Place} : (objects inv pos clone).itemAt p = none ↔
    ∀ it ∈ inv.items, it.stored = true → pos (guidLoPart it.guid) ≠ p := by
  show Option.map _ _ = _ ↔ _
  rw [Option.map_eq_none_iff, List.find?_eq_none]
  simp

theorem stored_iff (hl : Located inv pos) : (objects inv pos clone).Stored g ↔
    ∃ it, findLow inv g = some it ∧ it.stored = true := by
  unfold Objects.Stored
  rw [itemAt_eq_some hl]
  constructor
  · rintro ⟨it, hm, hs, -, hg⟩
    exact ⟨it, (findLow_eq_some hl).2 ⟨hm, hg⟩, hs⟩
  · rintro ⟨it, hf, hs⟩
    obtain ⟨hm, hg⟩ := (findLow_eq_some hl).1 hf
    refine ⟨it, hm, hs, ?_, hg⟩
    show _ = (match findLow inv g with | some it => _ | none => _)
    rw [hf, hg]
    exact (if_pos hs).symm

theorem place_of_stored (hf : findLow inv g = some it) (hs : it.stored = true) :
    (objects inv pos clone).place g = pos g := by
  show (match findLow inv g with | some it => _ | none => _) = _
  rw [hf]
  exact if_pos hs

theorem content_of_findLow (hf : findLow inv g = some it) :
    (objects inv pos clone).content g = itemRow it := by
  show ((findLow inv g).map itemRow).getD clone = _
  rw [hf]
  rfl

theorem doomed_of_left (hl : Located inv pos) (hf : findLow inv g = some it)
    (hs : it.stored = false) : s.Doomed (objects inv pos clone) g := by
  refine .inr ?_
  have hplace : (objects inv pos clone).place g = (0, nullSlot) := by
    show (match findLow inv g with | some it => _ | none => _) = _
    rw [hf]
    exact if_neg (by simp [hs])
  rw [hplace, itemAt_eq_none]
  exact hl.placed

/-- `inv'` are the objects of `inv` after a change that keeps their guids and brings none back. -/
structure Shrunk (inv inv' : Inventory) (F : Item → Item) : Prop where
  items : inv'.items = inv.items.map F
  guid : ∀ it, (F it).guid = it.guid
  stored : ∀ it, (F it).stored = true → it.stored = true

section Shrunk

variable {inv' : Inventory} (h : Shrunk inv inv' F)
include h

theorem Shrunk.located (hl : Located inv pos) : Located inv' pos := by
  have hmem : ∀ it' ∈ inv'.items, ∃ it ∈ inv.items, F it = it' := fun it' hm => by
    rw [h.items] at hm
    exact List.mem_map.1 hm
  refine ⟨fun x hx y hy hg => ?_, fun x hx hs => ?_, fun x hx y hy hs hs' hp => ?_⟩
  · obtain ⟨x, hx', rfl⟩ := hmem x hx
    obtain ⟨y, hy', rfl⟩ := hmem y hy
    rw [h.guid, h.guid] at hg ⊢
    exact hl.low x hx' y hy' hg
  · obtain ⟨x, hx', rfl⟩ := hmem x hx
    rw [h.guid]
    exact hl.placed x hx' (h.stored x hs)
  · obtain ⟨x, hx', rfl⟩ := hmem x hx
    obtain ⟨y, hy', rfl⟩ := hmem y hy
    rw [h.guid, h.guid] at hp ⊢
    exact hl.apart x hx' y hy' (h.stored x hs) (h.stored y hs') hp

theorem Shrunk.findLow : findLow inv' g = (findLow inv g).map F := by
  unfold Auction.findLow
  rw [h.items, List.find?_map]
  congr 1
  refine List.find?_congr fun it _ => ?_
  rw [Function.comp_apply, h.guid]

end Shrunk

/-! ### Items that a change leaves alone -/

/-- The entries of `g` are as before. -/
structure Same (s s' : SaveState) (g : UInt32) : Prop where
  state : s'.state g = s.state g
  queuePos : s'.queuePos g = s.queuePos g
  count : s'.queue.count (some g) = s.queue.count (some g)
  deleted : s'.deleted g = s.deleted g
  inventory : s'.tables.inventory g = s.tables.inventory g
  instances : s'.tables.instances g = s.tables.instances g

theorem Same.refl (s : SaveState) (g : UInt32) : Same s s g := ⟨rfl, rfl, rfl, rfl, rfl, rfl⟩

theorem Same.trans {s'' : SaveState} (h : Same s s' g) (h' : Same s' s'' g) : Same s s'' g :=
  ⟨h'.state.trans h.state, h'.queuePos.trans h.queuePos, h'.count.trans h.count,
    h'.deleted.trans h.deleted, h'.inventory.trans h.inventory, h'.instances.trans h.instances⟩

theorem same_setState_changed (hq : s.QueueOk) {g' : UInt32} (hne : g ≠ g') :
    Same s (s.setState g' .changed) g := by
  obtain ⟨htables, hdel, -, -, -, -, hother⟩ := SaveState.setState_changed_spec hq (g := g')
  obtain ⟨hstate, hpos, hcount⟩ := hother g hne
  exact ⟨hstate, hpos, hcount, congrFun hdel g, by rw [htables], by rw [htables]⟩

theorem same_saveToDB {o : Objects} {g' : UInt32} (hne : g ≠ g') :
    Same s (s.saveToDB o g') g := by
  obtain ⟨hstate, hdel, hrow, hpos⟩ := SaveState.saveToDB_ne (o := o) (s := s) hne
  exact ⟨hstate, hpos, by rw [SaveState.saveToDB_queue], hdel,
    congrFun SaveState.saveToDB_inventory g, hrow⟩

/-- What is left of the entries of an item that was saved on its own. -/
structure Handled (o : Objects) (s' : SaveState) (g : UInt32) : Prop where
  deleted : s'.deleted g = false
  stored : o.Stored g → s'.state g = .unchanged ∧ s'.tables.instances g = some (o.content g)
  left : ¬ o.Stored g → s'.tables.inventory g = none

/-- After a change of some items, which were saved one by one, the states are as a save of the
inventory wants them. -/
theorem tracked_of_handled {inv' : Inventory} (clone' : InstanceRow) {buyback : List UInt32}
    (hF : Shrunk inv inv' F) (hl : Located inv pos)
    (ht : s.Tracked (objects inv pos clone) buyback) (hq : s'.QueueOk)
    (hcase : ∀ g, Same s s' g ∧ findLow inv' g = findLow inv g ∨
      Handled (objects inv' pos clone') s' g ∧ g ∉ buyback) :
    s'.Tracked (objects inv' pos clone') buyback := by
  have hl' := hF.located hl
  have hstored : ∀ g, findLow inv' g = findLow inv g →
      ((objects inv' pos clone').Stored g ↔ (objects inv pos clone).Stored g) := by
    intro g hf
    rw [stored_iff hl', stored_iff hl, hf]
  have hback : ∀ g, (objects inv' pos clone').Stored g → (objects inv pos clone).Stored g := by
    intro g hg
    rw [stored_iff hl', hF.findLow] at hg
    rw [stored_iff hl]
    obtain ⟨it', hf', hs⟩ := hg
    obtain ⟨it, hf, rfl⟩ := Option.map_eq_some_iff.1 hf'
    exact ⟨it, hf, hF.stored it hs⟩
  have hmem : ∀ g, Same s s' g → (some g ∈ s'.queue ↔ some g ∈ s.queue) := by
    intro g hsame
    rw [← List.count_pos_iff, ← List.count_pos_iff, hsame.count]
  refine ⟨hq, fun g hg => ?_, fun g hg hc => ?_, fun g hg hc => ?_, fun g hg hc => ?_,
    fun g hb => ⟨?_, ?_⟩, fun g p hg hp => ?_, fun g => ?_⟩
  -- every clause twice: for an item that was left alone, and for one that was handled
  all_goals rcases hcase g with ⟨hsame, hf⟩ | ⟨hh, hb'⟩
  · rw [hsame.state]
    exact ht.not_removed g (hback g hg)
  · rw [(hh.stored hg).1]
    nofun
  · rw [hsame.state] at hc
    exact (hmem g hsame).2 (ht.queued g (hback g hg) hc)
  · exact absurd (hh.stored hg).1 hc
  · rw [hsame.state] at hc
    rw [hsame.instances, ht.row g (hback g hg) hc]
    obtain ⟨it, hit, -⟩ := (stored_iff hl').1 hg
    rw [content_of_findLow hit, content_of_findLow (hf ▸ hit)]
  · exact (hh.stored hg).2
  · rw [hsame.state] at hc
    rw [hsame.instances]
    exact ht.row_isSome g (hback g hg) hc
  · rw [(hh.stored hg).2]
    rfl
  · exact fun hg => (ht.inBuyback g hb).1 (hback g hg)
  · exact absurd hb hb'
  · rw [hmem g hsame]
    exact (ht.inBuyback g hb).2
  · exact absurd hb hb'
  · rw [hstored g hf] at hg
    rw [hsame.inventory] at hp
    refine (ht.pending g p hg hp).imp (fun ⟨hm, hd⟩ => ⟨(hmem g hsame).2 hm, ?_⟩) fun ⟨hb, hn⟩ =>
      ⟨hb, hsame.state ▸ hn⟩
    refine hd.imp (fun hr => hsame.state.trans hr) fun hn => ?_
    have hplace : (objects inv' pos clone').place g = (objects inv pos clone).place g := by
      show (match findLow inv' g with | some it => _ | none => _) = _
      rw [hf]
      rfl
    rw [hplace]
    rw [itemAt_eq_none] at hn ⊢
    intro it' hit' hs'
    rw [hF.items] at hit'
    obtain ⟨it, hit, rfl⟩ := List.mem_map.1 hit'
    rw [hF.guid]
    exact hn it hit (hF.stored it hs')
  · rw [hh.left hg] at hp
    cases hp
  · rw [hsame.deleted]
    exact ht.deleted g
  · exact hh.deleted

/-! ### The counts of one stack -/

theorem foldl_sellStack_guid (it : Item) (cs : List UInt32) :
    (cs.foldl sellStack it).guid = it.guid := by
  induction cs generalizing it with
  | nil => rfl
  | cons c cs ih => rw [List.foldl_cons, ih, sellStack_guid]

theorem sellStack_stored (it : Item) (c : UInt32) :
    (sellStack it c).stored = (it.stored && !decide (it.count = c)) := by
  unfold sellStack
  split_ifs with hc <;> simp [hc]

theorem sellStack_count (it : Item) (c : UInt32) :
    (sellStack it c).count = if it.count = c then it.count else it.count - c := by
  unfold sellStack
  split_ifs <;> rfl

theorem usedUp_cons (n c : UInt32) (cs : List UInt32) :
    usedUp n (c :: cs) = (decide (n = c) || usedUp (n - c) cs) := rfl

theorem splits_cons (n c : UInt32) (cs : List UInt32) :
    splits n (c :: cs) = if n = c then splits n cs else splits (n - c) cs + 1 := rfl

/-- An object is in the inventory as long as the counts did not use it up. -/
theorem foldl_sellStack_stored (it : Item) (cs : List UInt32) :
    (cs.foldl sellStack it).stored = (it.stored && !usedUp it.count cs) := by
  induction cs generalizing it with
  | nil => simp [usedUp]
  | cons c cs ih =>
    rw [List.foldl_cons, ih, sellStack_stored, sellStack_count, usedUp_cons]
    by_cases hc : it.count = c <;> simp [hc]

theorem usedUp_append (it : Item) (hs : it.stored = true) (cs : List UInt32) (c : UInt32) :
    usedUp it.count (cs ++ [c]) =
      (usedUp it.count cs || decide ((cs.foldl sellStack it).count = c)) := by
  have h := foldl_sellStack_stored it (cs ++ [c])
  rw [List.foldl_append, List.foldl_cons, List.foldl_nil, sellStack_stored,
    foldl_sellStack_stored, hs, Bool.true_and, Bool.true_and] at h
  rw [← Bool.not_inj_iff, ← h, Bool.not_or]

theorem splits_append (it : Item) (cs : List UInt32) (c : UInt32) :
    splits it.count (cs ++ [c]) =
      splits it.count cs + if (cs.foldl sellStack it).count = c then 0 else 1 := by
  induction cs generalizing it with
  | nil =>
    rw [List.nil_append, List.foldl_nil, splits_cons]
    split_ifs <;> rfl
  | cons d cs ih =>
    have hstep := ih (sellStack it d)
    rw [sellStack_count] at hstep
    rw [List.cons_append, List.foldl_cons, splits_cons, splits_cons]
    split_ifs at hstep ⊢ <;> omega

/-! ### The removal loop -/

/-- An item of the inventory before its first pair. -/
structure Ready (s : SaveState) (it : Item) : Prop where
  stored : it.stored = true
  not_removed : s.state (guidLoPart it.guid) ≠ .removed
  row : s.state (guidLoPart it.guid) = .unchanged →
    s.tables.instances (guidLoPart it.guid) = some (itemRow it)
  row_isSome : s.state (guidLoPart it.guid) = .changed →
    (s.tables.instances (guidLoPart it.guid)).isSome
  count : s.queue.count (some (guidLoPart it.guid)) =
    if s.queuePos (guidLoPart it.guid) = none then 0 else 1
  deleted : s.deleted (guidLoPart it.guid) = false

/-- What the loop leaves of the entries of an item, after the counts `cs`. -/
structure Taken (s s' : SaveState) (it : Item) (cs : List UInt32) : Prop where
  queuePos : s'.queuePos (guidLoPart it.guid) = none
  count : s'.queue.count (some (guidLoPart it.guid)) = splits it.count cs
  deleted : s'.deleted (guidLoPart it.guid) = false
  not_removed : s'.state (guidLoPart it.guid) ≠ .removed
  inventory : s'.tables.inventory (guidLoPart it.guid) =
    if usedUp it.count cs then none else s.tables.inventory (guidLoPart it.guid)
  kept : usedUp it.count cs = false → s'.state (guidLoPart it.guid) = .unchanged ∧
    s'.tables.instances (guidLoPart it.guid) = some (itemRow (cs.foldl sellStack it))

/-- Before and after: what the next pair for an item finds. -/
structure Found (s s' : SaveState) (it : Item) (cs : List UInt32) : Prop where
  ready : Ready s it
  before : cs = [] → Same s s' (guidLoPart it.guid)
  after : cs ≠ [] → Taken s s' it cs

theorem Found.not_removed (h : Found s s' it cs) : s'.state (guidLoPart it.guid) ≠ .removed := by
  by_cases hcs : cs = []
  · rw [(h.before hcs).state]
    exact h.ready.not_removed
  · exact (h.after hcs).not_removed

theorem Found.deleted (h : Found s s' it cs) : s'.deleted (guidLoPart it.guid) = false := by
  by_cases hcs : cs = []
  · rw [(h.before hcs).deleted]
    exact h.ready.deleted
  · exact (h.after hcs).deleted

theorem Found.inventory (h : Found s s' it cs) : s'.tables.inventory (guidLoPart it.guid) =
    if usedUp it.count cs then none else s.tables.inventory (guidLoPart it.guid) := by
  by_cases hcs : cs = []
  · subst hcs
    exact (h.before rfl).inventory
  · exact (h.after hcs).inventory

/-- The queue holds the item as often as it was split, or once if it was flagged before. -/
theorem Found.count (h : Found s s' it cs) :
    s'.queue.count (some (guidLoPart it.guid)) =
      splits it.count cs + if s'.queuePos (guidLoPart it.guid) = none then 0 else 1 := by
  by_cases hcs : cs = []
  · subst hcs
    rw [(h.before rfl).count, (h.before rfl).queuePos, h.ready.count]
    exact (Nat.zero_add _).symm
  · rw [(h.after hcs).count, if_pos (h.after hcs).queuePos]
    rfl

theorem Found.left (h : Found s s' it cs) (hs : (cs.foldl sellStack it).stored = false) :
    s'.queuePos (guidLoPart it.guid) = none := by
  have hcs : cs ≠ [] := by
    rintro rfl
    rw [List.foldl_nil, h.ready.stored] at hs
    cases hs
  exact (h.after hcs).queuePos

/-- A pair that takes the rest of the stack. -/
theorem Found.remove (h : Found s s' it cs) (hq : s'.QueueOk) {c : UInt32}
    (hc : (cs.foldl sellStack it).count = c) :
    let save := if (cs.foldl sellStack it).stored
      then s'.removeFromUpdateQueueOf (guidLoPart it.guid) else s'
    Taken s { save with
      tables := (save.tables.delInventoryByItem (guidLoPart it.guid)).delItemInstance
        (guidLoPart it.guid) } it (cs ++ [c]) := by
  have hused : usedUp it.count (cs ++ [c]) = true := by
    rw [usedUp_append it h.ready.stored, hc]
    simp
  have hsplits : splits it.count (cs ++ [c]) = splits it.count cs := by
    rw [splits_append, if_pos hc, Nat.add_zero]
  have hqueue : ∀ save : SaveState, save = (if (cs.foldl sellStack it).stored
        then s'.removeFromUpdateQueueOf (guidLoPart it.guid) else s') →
      save.queuePos (guidLoPart it.guid) = none ∧
        save.queue.count (some (guidLoPart it.guid)) = splits it.count cs ∧
        save.deleted = s'.deleted ∧ save.state = s'.state := by
    rintro save rfl
    have hcount := h.count
    split_ifs with hs
    · obtain ⟨-, hpos, hadd, -⟩ := SaveState.removeFromUpdateQueueOf_spec hq (g := guidLoPart it.guid)
      obtain ⟨-, hdel, hstate⟩ := SaveState.removeFromUpdateQueueOf_keeps (s := s')
        (g := guidLoPart it.guid)
      exact ⟨hpos, by omega, hdel, hstate⟩
    · have hpos := h.left (by simpa using hs)
      rw [if_pos hpos] at hcount
      exact ⟨hpos, hcount, rfl, rfl⟩
  intro save
  obtain ⟨hpos, hcount, hdel, hstate⟩ := hqueue save rfl
  exact
    { queuePos := hpos
      count := hcount.trans hsplits.symm
      deleted := (congrFun hdel _).trans h.deleted
      not_removed := by
        show save.state _ ≠ _
        rw [hstate]
        exact h.not_removed
      inventory := by
        rw [hused]
        exact Function.update_self ..
      kept := fun hc => by rw [hused] at hc; cases hc }

/-- A pair that splits the stack. -/
theorem Found.split (h : Found s s' it cs) (hq : s'.QueueOk) {c : UInt32} {o : Objects}
    (hc : (cs.foldl sellStack it).count ≠ c)
    (ho : o.content (guidLoPart it.guid) = itemRow ((cs ++ [c]).foldl sellStack it)) :
    Taken s ((s'.setState (guidLoPart it.guid) .changed).saveToDB o (guidLoPart it.guid)) it
      (cs ++ [c]) := by
  have hused : usedUp it.count (cs ++ [c]) = usedUp it.count cs := by
    rw [usedUp_append it h.ready.stored]
    simp [hc]
  have hsplits : splits it.count (cs ++ [c]) = splits it.count cs + 1 := by
    rw [splits_append, if_neg hc]
  obtain ⟨htables, hdel, hq', hpos, hstate, -, -⟩ :=
    SaveState.setState_changed_spec hq (g := guidLoPart it.guid)
  generalize hs₁ : s'.setState (guidLoPart it.guid) .changed = s₁ at *
  have hr : s₁.state (guidLoPart it.guid) ≠ .removed := by
    rw [hstate]
    split_ifs <;> simp
  obtain ⟨hstate₂, hdel₂, hinv₂, -, hrow₂⟩ := SaveState.saveToDB_self (o := o) hr
  have hcount : s₁.queue.count (some (guidLoPart it.guid)) = splits it.count cs + 1 := by
    rw [← hs₁, SaveState.count_setState_changed, h.count]
    split_ifs <;> rfl
  refine
    { queuePos := SaveState.saveToDB_queuePos hr
      count := by rw [SaveState.saveToDB_queue, hcount, hsplits]
      deleted := by rw [hdel₂, hdel]; exact h.deleted
      not_removed := by rw [hstate₂]; nofun
      inventory := by rw [hinv₂, htables, hused]; exact h.inventory
      kept := fun hkept => ⟨hstate₂, ?_⟩ }
  rw [← ho]
  apply hrow₂
  rw [hstate, htables]
  split_ifs with hnew
  · exact .inl rfl
  refine .inr ⟨rfl, ?_⟩
  by_cases hcs : cs = []
  · rw [(h.before hcs).state] at hnew
    rw [(h.before hcs).instances]
    cases hold : s.state (guidLoPart it.guid) with
    | unchanged => rw [h.ready.row hold]; rfl
    | changed => exact h.ready.row_isSome hold
    | new => exact absurd hold hnew
    | removed => exact absurd hold h.ready.not_removed
  · rw [((h.after hcs).kept (hused ▸ hkept)).2]
    rfl

theorem Taken.of_same {s'' : SaveState} (h : Taken s s' it cs)
    (hs : Same s' s'' (guidLoPart it.guid)) : Taken s s'' it cs where
  queuePos := hs.queuePos.trans h.queuePos
  count := hs.count.trans h.count
  deleted := hs.deleted.trans h.deleted
  not_removed := by rw [hs.state]; exact h.not_removed
  inventory := hs.inventory.trans h.inventory
  kept := fun hc => ⟨hs.state.trans (h.kept hc).1, hs.instances.trans (h.kept hc).2⟩

theorem same_remove (hq : s.QueueOk) {g' : UInt32} (hne : g ≠ g') (b : Bool) :
    let save := if b then s.removeFromUpdateQueueOf g' else s
    Same s { save with tables := (save.tables.delInventoryByItem g').delItemInstance g' } g := by
  have hqueue : ∀ save : SaveState, save = (if b then s.removeFromUpdateQueueOf g' else s) →
      save.tables = s.tables ∧ save.deleted = s.deleted ∧ save.state = s.state ∧
        save.queuePos g = s.queuePos g ∧ save.queue.count (some g) = s.queue.count (some g) := by
    rintro save rfl
    obtain ⟨-, -, -, hother⟩ := SaveState.removeFromUpdateQueueOf_spec hq (g := g')
    obtain ⟨htables, hdel, hstate⟩ := SaveState.removeFromUpdateQueueOf_keeps (s := s) (g := g')
    split_ifs
    · exact ⟨htables, hdel, hstate, hother g hne⟩
    · exact ⟨rfl, rfl, rfl, rfl, rfl⟩
  intro save
  obtain ⟨htables, hdel, hstate, hpos, hcount⟩ := hqueue save rfl
  exact
    { state := congrFun hstate g
      queuePos := hpos
      count := hcount
      deleted := congrFun hdel g
      inventory := (Function.update_of_ne hne ..).trans (by rw [htables])
      instances := (Function.update_of_ne hne ..).trans (by rw [htables]; rfl) }

theorem countsOf_append (ps : List (UInt64 × UInt32)) (p : UInt64 × UInt32) (guid : UInt64) :
    countsOf (ps ++ [p]) guid = countsOf ps guid ++ if p.1 = guid then [p.2] else [] := by
  unfold countsOf
  rw [List.filter_append, List.map_append]
  by_cases h : p.1 = guid <;> simp [h]

theorem shrunk_sellStacks (inv : Inventory) (ps : List (UInt64 × UInt32)) :
    Shrunk inv (sellStacks inv ps) fun it => (countsOf ps it.guid).foldl sellStack it where
  items := sellStacks_items inv ps
  guid it := foldl_sellStack_guid it _
  stored it h := by
    rw [foldl_sellStack_stored, Bool.and_eq_true] at h
    exact h.1

theorem find_guid (h : it ∈ inv.items) : (inv.items.find? fun x => x.guid = it.guid) = some it := by
  cases hf : inv.items.find? fun x => x.guid = it.guid with
  | none =>
    have hne := List.find?_eq_none.1 hf it h
    simp at hne
  | some it' =>
    have hg : it'.guid = it.guid := by simpa using List.find?_some hf
    rw [eq_of_guid_eq (List.mem_of_find?_eq_some hf) h hg]

/-- What the removal loop has done after the pairs `ps`. -/
structure Removed (c₀ c : Poster) (ps : List (UInt64 × UInt32)) : Prop where
  frame : c = { c₀ with
    seller := { c₀.seller with inventory := sellStacks c₀.seller.inventory ps }, save := c.save }
  queueOk : c.save.QueueOk
  other : ∀ g, (∀ it ∈ c₀.seller.inventory.items, guidLoPart it.guid = g →
    countsOf ps it.guid = []) → Same c₀.save c.save g
  taken : ∀ it ∈ c₀.seller.inventory.items, countsOf ps it.guid ≠ [] →
    Taken c₀.save c.save it (countsOf ps it.guid)

theorem Removed.next {c₀ c c' : Poster} (hl : Located c₀.seller.inventory c₀.pos)
    (h : Removed c₀ c ps) {p : UInt64 × UInt32} (hm : it ∈ c₀.seller.inventory.items)
    (hg : it.guid = p.1)
    (hframe : c' = { c₀ with
      seller := { c₀.seller with inventory := sellStacks c₀.seller.inventory (ps ++ [p]) }
      save := c'.save })
    (hq : c'.save.QueueOk) (hsame : ∀ g, g ≠ guidLoPart it.guid → Same c.save c'.save g)
    (htaken : Taken c₀.save c'.save it (countsOf ps it.guid ++ [p.2])) :
    Removed c₀ c' (ps ++ [p]) := by
  refine ⟨hframe, hq, fun g hnone => ?_, fun x hx hcs => ?_⟩
  · have hne : g ≠ guidLoPart it.guid := by
      rintro rfl
      have hcs := hnone it hm rfl
      rw [countsOf_append, if_pos hg.symm] at hcs
      simp at hcs
    refine (h.other g fun x hx hxg => ?_).trans (hsame g hne)
    have hcs := hnone x hx hxg
    rw [countsOf_append] at hcs
    exact (List.append_eq_nil_iff.1 hcs).1
  · rw [countsOf_append] at hcs ⊢
    by_cases hxp : p.1 = x.guid
    · obtain rfl : x = it := eq_of_guid_eq hx hm (hxp.symm.trans hg.symm)
      rw [if_pos hxp]
      exact htaken
    · rw [if_neg hxp, List.append_nil] at hcs ⊢
      refine (h.taken x hx hcs).of_same (hsame _ fun hlow => hxp ?_)
      rw [← hg, eq_of_low hl hx hm hlow]

theorem Removed.step {c₀ c : Poster} (hl : Located c₀.seller.inventory c₀.pos)
    (hready : ∀ it ∈ c₀.seller.inventory.items, it.stored = true → Ready c₀.save it)
    (h : Removed c₀ c ps) {p : UInt64 × UInt32}
    (hp : c₀.seller.inventory.getItemByGuid p.1 = some it) :
    Removed c₀ (c.sellStack p) (ps ++ [p]) := by
  obtain ⟨hm, hs, hg⟩ := getItemByGuid_some hp
  have hinv : c.seller.inventory = sellStacks c₀.seller.inventory ps := by rw [h.frame]
  have hpos : c.pos = c₀.pos := by rw [h.frame]
  have hshrunk := shrunk_sellStacks c₀.seller.inventory ps
  have hnext : sellStacks (sellStacks c₀.seller.inventory ps) [p] =
      sellStacks c₀.seller.inventory (ps ++ [p]) := by
    unfold sellStacks
    rw [List.foldl_append]
  have hfind : (c.seller.inventory.items.find? fun x => x.guid = p.1) =
      some ((countsOf ps it.guid).foldl sellStack it) := by
    have hmem : (countsOf ps it.guid).foldl sellStack it ∈ c.seller.inventory.items := by
      rw [hinv, hshrunk.items]
      exact List.mem_map_of_mem hm
    have hfind := find_guid hmem
    rw [foldl_sellStack_guid, hg] at hfind
    rw [hg]
    exact hfind
  have hfound : Found c₀.save c.save it (countsOf ps it.guid) :=
    { ready := hready it hm hs
      before := fun hcs => h.other _ fun x hx hxg => by
        rw [eq_of_low hl hx hm hxg]
        exact hcs
      after := h.taken it hm }
  have hframe : ∀ save, { c with
      seller := { c.seller with inventory := sellStacks c.seller.inventory [p] }
      save := save } = { c₀ with
        seller := { c₀.seller with inventory := sellStacks c₀.seller.inventory (ps ++ [p]) }
        save := save } := by
    intro save
    rw [hinv, hnext, h.frame]
  unfold Poster.sellStack
  simp only [hfind]
  by_cases hc : ((countsOf ps it.guid).foldl sellStack it).count = p.2
  · -- the whole stack is taken
    rw [if_pos hc]
    refine h.next hl hm hg (hframe _) ?_ (fun g hne => ?_) ?_
    · split_ifs
      · exact (SaveState.removeFromUpdateQueueOf_spec h.queueOk).1
      · exact h.queueOk
    · rw [← hg]
      exact same_remove h.queueOk hne _
    · rw [← hg]
      exact hfound.remove h.queueOk hc
  · -- the stack is split, and what stays is saved at once
    rw [if_neg hc]
    obtain ⟨-, -, hq, -, hstate, -, -⟩ :=
      SaveState.setState_changed_spec h.queueOk (g := guidLoPart p.1)
    refine h.next hl hm hg (hframe _) (hq.saveToDB ?_) (fun g hne => ?_) ?_
    · rw [hstate]
      split_ifs <;> simp
    · rw [hg] at hne
      exact (same_setState_changed h.queueOk hne).trans (same_saveToDB hne)
    · rw [← hg]
      refine hfound.split h.queueOk hc (content_of_findLow ?_)
      have hlow := (findLow_eq_some hl).2 ⟨hm, rfl⟩
      rw [hinv, hg, hnext, (shrunk_sellStacks _ _).findLow, ← hg, hlow, Option.map_some,
        countsOf_append, if_pos hg.symm]

theorem removed_foldl {c₀ : Poster} (hl : Located c₀.seller.inventory c₀.pos)
    (hq : c₀.save.QueueOk)
    (hready : ∀ it ∈ c₀.seller.inventory.items, it.stored = true → Ready c₀.save it)
    (hf : AllFound c₀.seller.inventory ps) : Removed c₀ (ps.foldl Poster.sellStack c₀) ps := by
  induction ps using List.reverseRecOn with
  | nil => exact ⟨rfl, hq, fun g _ => Same.refl _ g, fun it _ hcs => absurd rfl hcs⟩
  | append_singleton ps p ih =>
    obtain ⟨it, hit⟩ := hf p (by simp)
    rw [List.foldl_append]
    exact (ih fun q hq => hf q (List.mem_append_left _ hq)).step hl hready hit

/-! ### The last save -/

theorem load_row_eq_iff (a : AuctionEntry) (row : InstanceRow) :
    a.row.load row = a ↔ a.expireTime < 2 ^ 32 ∧ row = ⟨a.itemEntry, a.itemCount⟩ := by
  have htime : (UInt32.ofNat a.expireTime).toNat = a.expireTime ↔ a.expireTime < 2 ^ 32 := by
    rw [UInt32.toNat_ofNat']
    omega
  cases row
  cases a
  simp only [AuctionRow.load, AuctionEntry.row, AuctionEntry.mk.injEq, InstanceRow.mk.injEq]
    at htime ⊢
  tauto

/-- What is described once the inventory and the money are saved and the deposit is debited. -/
theorem finish_persisted_iff {c c' : Poster} {a : AuctionEntry}
    (hl : Located c.seller.inventory c.pos)
    (ht : c.save.Tracked (objects c.seller.inventory c.pos clone) c.buyback)
    (h : c.finish (objects c.seller.inventory c.pos clone) a = some c') :
    Persisted c' a ↔
      (modifyMoney c.seller.money (-a.deposit.toInt32)).1 = c.seller.money ∧
      (∀ it ∈ c.seller.inventory.items, it.stored = true →
        c.save.tables.inventory (guidLoPart it.guid) = some (c.pos (guidLoPart it.guid)) ∨
          c.save.state (guidLoPart it.guid) ≠ .unchanged ∨ guidLoPart it.guid ∈ c.touched) ∧
      a.expireTime < 2 ^ 32 ∧
        c'.save.tables.instances a.itemGUIDLow = some ⟨a.itemEntry, a.itemCount⟩ := by
  obtain ⟨save, hsave, rfl⟩ := Option.map_eq_some_iff.1 h
  obtain ⟨hstored, hleft, -⟩ := SaveState.saveInventory_spec ht hsave
  have hauction : ∀ o : Option InstanceRow, o.map a.row.load = some a ↔
      a.expireTime < 2 ^ 32 ∧ o = some ⟨a.itemEntry, a.itemCount⟩ := by
    intro o
    cases o with
    | none => simp
    | some row => rw [Option.map_some, Option.some.injEq, load_row_eq_iff, Option.some.injEq]
  constructor
  · rintro ⟨hmoney, hinv, hload⟩
    refine ⟨hmoney.symm, fun it hm hs => ?_, (hauction _).1 ?_⟩
    · -- a stored item whose row is read back has its place in the database
      have hf := (findLow_eq_some hl).2 ⟨hm, rfl⟩
      have hg : (objects c.seller.inventory c.pos clone).Stored (guidLoPart it.guid) :=
        (stored_iff hl).2 ⟨it, hf, hs⟩
      have hplace : (objects c.seller.inventory c.pos clone).place (guidLoPart it.guid) =
          c.pos (guidLoPart it.guid) := place_of_stored hf hs
      rw [← hplace]
      apply (hstored _ hg).2.1
      have hrow := hinv (guidLoPart it.guid)
      have hholds : Poster.holds { c with
          save := save
          dbMoney := c.seller.money
          auctions := Function.update c.auctions a.id (some a.row)
          seller := { c.seller with
            money := (modifyMoney c.seller.money (-a.deposit.toInt32)).1 } }
          (guidLoPart it.guid) = some (c.pos (guidLoPart it.guid), itemRow it) := by
        show (findLow c.seller.inventory _).bind _ = _
        rw [hf]
        exact if_pos hs
      rw [hholds] at hrow
      obtain ⟨p, hp, hrow⟩ := Option.bind_eq_some_iff.1 hrow
      obtain ⟨row, -, hrow⟩ := Option.map_eq_some_iff.1 hrow
      obtain ⟨rfl, -⟩ := Prod.mk.inj hrow
      rw [hplace]
      exact hp
    · have hid : Function.update c.auctions a.id (some a.row) a.id = some a.row :=
        Function.update_self ..
      unfold Poster.loadAuction at hload
      simp only [hid, Option.bind_some] at hload
      exact hload
  · rintro ⟨hmoney, hinv, hload⟩
    refine ⟨hmoney.symm, fun g => ?_, ?_⟩
    · show (save.tables.inventory g).bind _ = (findLow c.seller.inventory g).bind _
      by_cases hg : (objects c.seller.inventory c.pos clone).Stored g
      · obtain ⟨hrow, hplace⟩ := hstored g hg
        obtain ⟨it, hf, hs⟩ := (stored_iff hl).1 hg
        obtain ⟨hm, hlow⟩ := (findLow_eq_some hl).1 hf
        have hp := hplace.2 (by
          rw [place_of_stored hf hs, ← hlow]
          exact hinv it hm hs)
        rw [hp, hf, Option.bind_some, Option.bind_some, hrow, Option.map_some, if_pos hs,
          place_of_stored hf hs, content_of_findLow hf]
      · rw [hleft g hg, Option.bind_none]
        cases hf : findLow c.seller.inventory g with
        | none => rfl
        | some it =>
          rw [Option.bind_some, if_neg]
          exact fun hs => hg ((stored_iff hl).2 ⟨it, hf, hs⟩)
    · have hid : Function.update c.auctions a.id (some a.row) a.id = some a.row :=
        Function.update_self ..
      unfold Poster.loadAuction
      simp only [hid, Option.bind_some]
      exact (hauction _).2 hload

theorem finish_instances {c c' : Poster} {o : Objects} {a : AuctionEntry}
    (ht : c.save.Tracked o c.buyback) (h : c.finish o a = some c') (hg : ¬ o.Stored g)
    (hb : g ∉ c.buyback) :
    (some g ∉ c.save.queue → c'.save.tables.instances g = c.save.tables.instances g) ∧
      (some g ∈ c.save.queue →
        (c.save.Doomed o g → c'.save.tables.instances g = none) ∧
        (c.save.state g = .unchanged → o.itemAt (o.place g) ≠ none →
          c'.save.tables.instances g = c.save.tables.instances g)) := by
  obtain ⟨save, hsave, rfl⟩ := Option.map_eq_some_iff.1 h
  exact ⟨fun hm => (SaveState.saveInventory_spec ht hsave).2.2 g hg hm hb,
    fun hm => SaveState.saveInventory_outside ht hsave hg hb hm⟩

theorem finish_isSome_iff {c : Poster} {o : Objects} {a : AuctionEntry}
    (ht : c.save.Tracked o c.buyback) : (c.finish o a).isSome = true ↔
      ∀ g, ¬ o.Stored g → c.save.Doomed o g → c.save.queue.count (some g) ≤ 1 := by
  unfold Poster.finish
  rw [Option.isSome_map, SaveState.saveInventory_isSome_iff ht]

/-- The items of a player in sync, before the request. -/
theorem InSync.ready {env : SellEnv} {c : Poster} (h : InSync env c) (save : SaveState)
    (hsame : ∀ g, g ≠ env.newGuidLow → Same c.save save g) :
    ∀ it ∈ c.seller.inventory.items, it.stored = true → Ready save it := by
  intro it hm hs
  have hf := (findLow_eq_some h.located).2 ⟨hm, rfl⟩
  have hg : (objects c.seller.inventory c.pos ⟨0, 0⟩).Stored (guidLoPart it.guid) :=
    (stored_iff h.located).2 ⟨it, hf, hs⟩
  have hs' := hsame _ (h.fresh.1 it hm)
  have hcontent : (objects c.seller.inventory c.pos ⟨0, 0⟩).content (guidLoPart it.guid) =
      itemRow it := content_of_findLow hf
  exact
    { stored := hs
      not_removed := by rw [hs'.state]; exact h.tracked.not_removed _ hg
      row := fun hc => by
        rw [hs'.state] at hc
        rw [hs'.instances, h.tracked.row _ hg hc, hcontent]
      row_isSome := fun hc => by
        rw [hs'.state] at hc
        rw [hs'.instances]
        exact h.tracked.row_isSome _ hg hc
      count := by rw [hs'.count, hs'.queuePos]; exact h.once _
      deleted := by rw [hs'.deleted]; exact h.tracked.deleted _ }

/-! ### The stack that is moved -/

theorem shrunk_moveItemFromInventory (inv : Inventory) (guid : UInt64) :
    Shrunk inv (inv.moveItemFromInventory guid)
      fun it => if it.guid = guid then { it with stored := false } else it where
  items := rfl
  guid it := by split_ifs <;> rfl
  stored it h := by
    split_ifs at h
    exact h

/-- The states after the stack left the inventory and was saved. -/
theorem moved_save (hq : s.QueueOk) (hready : Ready s it) {o : Objects}
    (ho : o.content (guidLoPart it.guid) = itemRow it)
    (hs' : { s.removeFromUpdateQueueOf (guidLoPart it.guid) with
      tables := (s.removeFromUpdateQueueOf (guidLoPart it.guid)).tables.delInventoryByItem
        (guidLoPart it.guid) }.saveToDB o (guidLoPart it.guid) = s') :
    s'.QueueOk ∧ (∀ g, g ≠ guidLoPart it.guid → Same s s' g) ∧
      s'.deleted (guidLoPart it.guid) = false ∧
      s'.tables.inventory (guidLoPart it.guid) = none ∧
      s'.tables.instances (guidLoPart it.guid) = some (itemRow it) ∧
      s'.queue.count (some (guidLoPart it.guid)) = 0 := by
  obtain ⟨hq₁, -, hadd, hother⟩ :=
    SaveState.removeFromUpdateQueueOf_spec hq (g := guidLoPart it.guid)
  obtain ⟨htables, hdel, hstate⟩ := SaveState.removeFromUpdateQueueOf_keeps (s := s)
    (g := guidLoPart it.guid)
  have hcount := hready.count
  -- the state between the deletion of the row and the save
  generalize hs₁ : ({ s.removeFromUpdateQueueOf (guidLoPart it.guid) with
    tables := (s.removeFromUpdateQueueOf (guidLoPart it.guid)).tables.delInventoryByItem
      (guidLoPart it.guid) } : SaveState) = s₁ at hs'
  have hstate₁ : s₁.state = s.state := by rw [← hs₁, ← hstate]
  have hr₁ : s₁.state (guidLoPart it.guid) ≠ .removed := by
    rw [hstate₁]
    exact hready.not_removed
  have hinst₁ : s₁.tables.instances = s.tables.instances := by
    rw [← hs₁, ← htables]
    rfl
  have hsame₁ : ∀ g, g ≠ guidLoPart it.guid → Same s s₁ g := by
    intro g hne
    rw [← hs₁]
    exact
      { state := congrFun hstate g
        queuePos := (hother g hne).1
        count := (hother g hne).2
        deleted := congrFun hdel g
        inventory := (Function.update_of_ne hne ..).trans (by rw [htables])
        instances := by rw [← htables]; rfl }
  obtain ⟨hstate', hdel', hinv', htables', hrow'⟩ := SaveState.saveToDB_self (o := o) hr₁
  rw [hs'] at hstate' hdel' hinv' htables' hrow'
  refine ⟨?_, fun g hne => (hsame₁ g hne).trans ?_, ?_, ?_, ?_, ?_⟩
  · rw [← hs']
    refine SaveState.QueueOk.saveToDB ?_ hr₁
    rw [← hs₁]
    exact hq₁
  · rw [← hs']
    exact same_saveToDB hne
  · rw [hdel', ← hs₁]
    exact (congrFun hdel _).trans hready.deleted
  · rw [hinv', ← hs₁]
    exact Function.update_self ..
  · rw [hstate₁, hinst₁] at hrow'
    rw [hstate₁] at htables'
    -- an unchanged item keeps its row; any other one is written
    cases hc : s.state (guidLoPart it.guid) with
    | removed => exact absurd hc hready.not_removed
    | unchanged => rw [htables' hc, hinst₁, hready.row hc]
    | new => rw [hrow' (.inl hc), ho]
    | changed => rw [hrow' (.inr ⟨hc, hready.row_isSome hc⟩), ho]
  · rw [← hs', SaveState.saveToDB_queue, ← hs₁]
    show (s.removeFromUpdateQueueOf _).queue.count _ = 0
    omega

/-- The stack is found as before, outside the inventory, and every other one as it was. -/
theorem findLow_moveItemFromInventory (hl : Located inv pos) (hm : it ∈ inv.items) :
    findLow (inv.moveItemFromInventory it.guid) (guidLoPart it.guid) =
        some { it with stored := false } ∧
      ∀ g, g ≠ guidLoPart it.guid → findLow (inv.moveItemFromInventory it.guid) g = findLow inv g := by
  have hshrunk := shrunk_moveItemFromInventory inv it.guid
  constructor
  · rw [hshrunk.findLow, (findLow_eq_some hl).2 ⟨hm, rfl⟩]
    exact congrArg some (if_pos rfl)
  · intro g hne
    rw [hshrunk.findLow]
    cases hg : findLow inv g with
    | none => rfl
    | some it' =>
      refine congrArg some (if_neg fun hc => hne ?_)
      rw [← ((findLow_eq_some hl).1 hg).2, hc]

/-- What stays in the inventory has its place in the database, or is still to be saved. -/
theorem InSync.places_of_same {env : SellEnv} {c : Poster} (h : InSync env c)
    (hm : it ∈ c.seller.inventory.items)
    (hsame : ∀ g, g ≠ guidLoPart it.guid → Same c.save s' g) {it' : Item}
    (hm' : it' ∈ (c.seller.inventory.moveItemFromInventory it.guid).items)
    (hs' : it'.stored = true) :
    s'.tables.inventory (guidLoPart it'.guid) = some (c.pos (guidLoPart it'.guid)) ∨
      s'.state (guidLoPart it'.guid) ≠ .unchanged := by
  have hshrunk := shrunk_moveItemFromInventory c.seller.inventory it.guid
  rw [hshrunk.items] at hm'
  obtain ⟨it₀, hm₀, rfl⟩ := List.mem_map.1 hm'
  rw [hshrunk.guid]
  have hne : it₀.guid ≠ it.guid := by
    intro hc
    rw [if_pos hc] at hs'
    cases hs'
  have hlow : guidLoPart it₀.guid ≠ guidLoPart it.guid := fun hc =>
    hne (h.located.low it₀ hm₀ it hm hc)
  rw [(hsame _ hlow).inventory, (hsame _ hlow).state]
  by_cases hun : c.save.state (guidLoPart it₀.guid) = .unchanged
  · exact .inl (h.current it₀ hm₀ (hshrunk.stored it₀ hs') hun)
  · exact .inr hun

theorem postStack_persisted_iff {env : SellEnv} {c : Poster} {item : Item} {a : AuctionEntry}
    (h : InSync env c) (hget : c.seller.inventory.getItemByGuid item.guid = some item)
    (hguid : a.itemGUIDLow = guidLoPart item.guid) (hentry : a.itemEntry = item.entry)
    (hcount : a.itemCount = item.count) :
    (∃ c', c.postStack item a = some c' ∧ Persisted c' a) ↔
      (modifyMoney c.seller.money (-a.deposit.toInt32)).1 = c.seller.money ∧
        a.expireTime < 2 ^ 32 := by
  obtain ⟨hm, hs, -⟩ := getItemByGuid_some hget
  have hready := h.ready c.save (fun g _ => Same.refl _ g) item hm hs
  have hshrunk := shrunk_moveItemFromInventory c.seller.inventory item.guid
  have hl := h.located
  have hl' := hshrunk.located hl
  have hf := (findLow_eq_some hl).2 ⟨hm, rfl⟩
  obtain ⟨hf', hfother⟩ := findLow_moveItemFromInventory hl hm
  have ho : (objects (c.seller.inventory.moveItemFromInventory item.guid) c.pos ⟨0, 0⟩).content
      (guidLoPart item.guid) = itemRow item := (content_of_findLow hf').trans rfl
  obtain ⟨hq, hsame, hdel, hinv, hrow, hzero⟩ := moved_save h.tracked.queueOk hready ho rfl
  have hnot : ¬ (objects (c.seller.inventory.moveItemFromInventory item.guid) c.pos ⟨0, 0⟩).Stored
      (guidLoPart item.guid) := by
    rw [stored_iff hl', hf']
    rintro ⟨it, hit, hst⟩
    rw [← Option.some.inj hit] at hst
    cases hst
  have hbuyback : guidLoPart item.guid ∉ c.buyback := fun hb =>
    (h.tracked.inBuyback _ hb).1 ((stored_iff hl).2 ⟨item, hf, hs⟩)
  have ht := tracked_of_handled ⟨0, 0⟩ hshrunk hl h.tracked hq fun g => by
    by_cases hne : g = guidLoPart item.guid
    · rw [hne]
      exact .inr ⟨⟨hdel, fun hc => absurd hc hnot, fun _ => hinv⟩, hbuyback⟩
    · exact .inl ⟨hsame g hne, hfother g hne⟩
  -- the poster after the stack was saved
  generalize hs₁ : { c.save.removeFromUpdateQueueOf (guidLoPart item.guid) with
    tables := (c.save.removeFromUpdateQueueOf (guidLoPart item.guid)).tables.delInventoryByItem
      (guidLoPart item.guid) }.saveToDB _ (guidLoPart item.guid) = save at *
  generalize hc₁ : { c with
    seller := { c.seller with
      inventory := c.seller.inventory.moveItemFromInventory item.guid }, save := save } = c₁
  have hpost : c.postStack item a =
      c₁.finish (objects c₁.seller.inventory c₁.pos ⟨0, 0⟩) a := by
    rw [← hc₁, ← hs₁]
    rfl
  have hl₁ : Located c₁.seller.inventory c₁.pos := by
    rw [← hc₁]
    exact hl'
  have ht₁ : c₁.save.Tracked (objects c₁.seller.inventory c₁.pos ⟨0, 0⟩) c₁.buyback := by
    rw [← hc₁]
    exact ht
  -- no item is queued twice, so that the inventory can be saved
  have hsome := (finish_isSome_iff (a := a) ht₁).2 fun g _ _ => by
    rw [← hc₁]
    show save.queue.count _ ≤ 1
    by_cases hne : g = guidLoPart item.guid
    · rw [hne]
      omega
    · rw [(hsame g hne).count, h.once]
      split_ifs <;> omega
  obtain ⟨c', hc'⟩ := Option.isSome_iff_exists.1 hsome
  have hiff := finish_persisted_iff hl₁ ht₁ hc'
  rw [hpost, hc']
  simp only [Option.some.injEq, exists_eq_left']
  rw [hiff]
  have hplaces : ∀ it ∈ c₁.seller.inventory.items, it.stored = true →
      c₁.save.tables.inventory (guidLoPart it.guid) = some (c₁.pos (guidLoPart it.guid)) ∨
        c₁.save.state (guidLoPart it.guid) ≠ .unchanged ∨ guidLoPart it.guid ∈ c₁.touched := by
    rw [← hc₁]
    exact fun it' hit' hst => (h.places_of_same hm hsame hit' hst).imp_right .inl
  -- the row of the stack is not written again
  have hinst : c'.save.tables.instances a.itemGUIDLow = some ⟨a.itemEntry, a.itemCount⟩ := by
    rw [hguid, hentry, hcount]
    have hnot₁ : ¬ (objects c₁.seller.inventory c₁.pos ⟨0, 0⟩).Stored (guidLoPart item.guid) := by
      rw [← hc₁]
      exact hnot
    have hb₁ : guidLoPart item.guid ∉ c₁.buyback := by
      rw [← hc₁]
      exact hbuyback
    refine ((finish_instances ht₁ hc' hnot₁ hb₁).1 ?_).trans ?_
    · rw [← hc₁]
      exact List.count_eq_zero.1 hzero
    · rw [← hc₁]
      exact hrow
  rw [← hc₁] at hplaces ⊢
  exact ⟨fun hc => ⟨hc.1, hc.2.2.1⟩, fun hc => ⟨hc.1, hplaces, hc.2, hinst⟩⟩

/-! ### The clone -/

/-- The new object is flagged as new, and in the queue if it has random properties. -/
theorem cloneItem_spec {c : Poster} (hq : c.save.QueueOk) (item : Item) (g : UInt32) :
    (c.cloneItem item g).QueueOk ∧ (∀ h, h ≠ g → Same c.save (c.cloneItem item g) h) ∧
      (c.cloneItem item g).state g = .new ∧ (c.cloneItem item g).deleted g = false ∧
      (c.cloneItem item g).tables = c.save.tables ∧
      (c.cloneItem item g).queue.count (some g) = c.save.queue.count (some g) +
        if c.randomProperties (guidLoPart item.guid) then 1 else 0 := by
  unfold Poster.cloneItem
  generalize hs₁ : ({ c.save with
    state := Function.update c.save.state g .new
    queuePos := Function.update c.save.queuePos g none
    deleted := Function.update c.save.deleted g false } : SaveState) = s₁
  have hq₁ : s₁.QueueOk := by
    rw [← hs₁]
    intro h k hk
    by_cases hne : h = g
    · rw [hne] at hk
      dsimp only at hk
      rw [Function.update_self] at hk
      cases hk
    · dsimp only at hk
      rw [Function.update_of_ne hne] at hk
      exact hq h k hk
  have hsame₁ : ∀ h, h ≠ g → Same c.save s₁ h := by
    intro h hne
    rw [← hs₁]
    exact ⟨Function.update_of_ne hne .., Function.update_of_ne hne .., rfl,
      Function.update_of_ne hne .., rfl, rfl⟩
  have hself₁ : s₁.state g = .new ∧ s₁.deleted g = false ∧ s₁.queuePos g = none ∧
      s₁.tables = c.save.tables ∧ s₁.queue = c.save.queue := by
    rw [← hs₁]
    exact ⟨Function.update_self .., Function.update_self .., Function.update_self .., rfl, rfl⟩
  obtain ⟨hstate, hdel, hpos, htables, hqueue⟩ := hself₁
  dsimp only
  split_ifs with hrandom
  · obtain ⟨htables', hdel', hq', -, hstate', -, -⟩ := SaveState.setState_changed_spec hq₁ (g := g)
    refine ⟨hq', fun h hne => (hsame₁ h hne).trans (same_setState_changed hq₁ hne), ?_, ?_, ?_, ?_⟩
    · rw [hstate', if_pos hstate]
    · rw [hdel', hdel]
    · rw [htables', htables]
    · rw [SaveState.count_setState_changed, if_pos hpos, hqueue]
  · exact ⟨hq₁, hsame₁, hstate, hdel, htables, by rw [hqueue]; rfl⟩

/-- The states when the loop is done and the clone is saved. -/
structure Cloned (c : Poster) (item : Item) (ps : List (UInt64 × UInt32)) (row : InstanceRow)
    (g : UInt32) (s' : SaveState) : Prop where
  queueOk : s'.QueueOk
  other : ∀ h, h ≠ g → (∀ it ∈ c.seller.inventory.items, guidLoPart it.guid = h →
    countsOf ps it.guid = []) → Same c.save s' h
  taken : ∀ it ∈ c.seller.inventory.items, countsOf ps it.guid ≠ [] →
    Taken c.save s' it (countsOf ps it.guid)
  state : s'.state g = .unchanged
  deleted : s'.deleted g = false
  inventory : s'.tables.inventory g = none
  instances : s'.tables.instances g = some row
  count : s'.queue.count (some g) = if c.randomProperties (guidLoPart item.guid) then 1 else 0

theorem cloned_of_inSync {env : SellEnv} {c : Poster} (h : InSync env c) (item : Item)
    (hf : AllFound c.seller.inventory ps) (row : InstanceRow) :
    let c₂ := ps.foldl Poster.sellStack { c with save := c.cloneItem item env.newGuidLow }
    c₂ = { c with
      seller := { c.seller with inventory := sellStacks c.seller.inventory ps }
      save := c₂.save } ∧
    Cloned c item ps row env.newGuidLow (c₂.save.saveToDB
      (objects (sellStacks c.seller.inventory ps) c.pos row) env.newGuidLow) := by
  obtain ⟨hlow, hrow, hqueue, -⟩ := h.fresh
  obtain ⟨hq, hsame, hstate, hdel, htables, hcount⟩ :=
    cloneItem_spec h.tracked.queueOk item env.newGuidLow
  rw [List.count_eq_zero.2 hqueue, Nat.zero_add] at hcount
  intro c₂
  have hloop : Removed { c with save := c.cloneItem item env.newGuidLow } c₂ ps :=
    removed_foldl h.located hq (h.ready _ hsame) hf
  have hclone := hloop.other env.newGuidLow fun it hm hc => absurd hc (hlow it hm)
  have hr : c₂.save.state env.newGuidLow = .new := hclone.state.trans hstate
  have hr' : c₂.save.state env.newGuidLow ≠ .removed := by
    rw [hr]
    nofun
  obtain ⟨hstate', hdel', hinv', -, hinst'⟩ := SaveState.saveToDB_self
    (o := objects (sellStacks c.seller.inventory ps) c.pos row) hr'
  refine ⟨hloop.frame, ?_⟩
  have hnone : findLow (sellStacks c.seller.inventory ps) env.newGuidLow = none := by
    rw [(shrunk_sellStacks _ _).findLow, findLow_eq_none.2 hlow]
    rfl
  exact
    { queueOk := hloop.queueOk.saveToDB hr'
      other := fun g hne hnil =>
        ((hsame g hne).trans (hloop.other g hnil)).trans (same_saveToDB hne)
      taken := fun it hm hcs => by
        have htaken := (hloop.taken it hm hcs).of_same
          (same_saveToDB (o := objects (sellStacks c.seller.inventory ps) c.pos row)
            (hlow it hm))
        exact { htaken with
          inventory := htaken.inventory.trans (by rw [(hsame _ (hlow it hm)).inventory]) }
      state := hstate'
      deleted := by
        rw [hdel']
        exact hclone.deleted.trans hdel
      inventory := by
        rw [hinv']
        refine hclone.inventory.trans ?_
        show (c.cloneItem item env.newGuidLow).tables.inventory _ = none
        rw [htables]
        exact hrow
      instances := by
        rw [hinst' (.inl hr)]
        show some (((findLow (sellStacks c.seller.inventory ps) _).map itemRow).getD row) = _
        rw [hnone]
        rfl
      count := by
        rw [SaveState.saveToDB_queue]
        exact hclone.count.trans hcount }

theorem stored_of_listed (hf : AllFound inv ps) (hm : it ∈ inv.items)
    (hcs : countsOf ps it.guid ≠ []) : it.stored = true := by
  obtain ⟨cnt, hcnt⟩ := List.exists_mem_of_ne_nil _ hcs
  obtain ⟨p, hp, -⟩ := List.mem_map.1 hcnt
  obtain ⟨hps, hguid⟩ := List.mem_filter.1 hp
  obtain ⟨it', hit'⟩ := hf p hps
  obtain ⟨hm', hs', hg'⟩ := getItemByGuid_some hit'
  have hg : p.1 = it.guid := by simpa using hguid
  rw [eq_of_guid_eq hm hm' (hg.symm.trans hg'.symm)]
  exact hs'

theorem stored_sellStacks_iff (hl : Located inv pos) (hm : it ∈ inv.items) :
    (objects (sellStacks inv ps) pos clone).Stored (guidLoPart it.guid) ↔ Stays ps it := by
  have hl' := (shrunk_sellStacks inv ps).located hl
  rw [stored_iff hl', (shrunk_sellStacks inv ps).findLow, (findLow_eq_some hl).2 ⟨hm, rfl⟩]
  simp only [Option.map_some, Option.some.injEq, exists_eq_left', foldl_sellStack_stored,
    Bool.and_eq_true, Bool.not_eq_true', Stays]

section Clone

variable {env : SellEnv} {c : Poster} {item : Item} {row : InstanceRow}

theorem Cloned.tracked (h : InSync env c) (hf : AllFound c.seller.inventory ps)
    (hs : Cloned c item ps row env.newGuidLow s') :
    s'.Tracked (objects (sellStacks c.seller.inventory ps) c.pos row) c.buyback := by
  obtain ⟨hlow, -, -, hb⟩ := h.fresh
  have hl := h.located
  have hshrunk := shrunk_sellStacks c.seller.inventory ps
  refine tracked_of_handled row hshrunk hl h.tracked hs.queueOk fun g => ?_
  by_cases hnew : g = env.newGuidLow
  · rw [hnew]
    have hnone : ¬ (objects (sellStacks c.seller.inventory ps) c.pos row).Stored
        env.newGuidLow := by
      rw [stored_iff (hshrunk.located hl), hshrunk.findLow, findLow_eq_none.2 hlow]
      rintro ⟨it, hit, -⟩
      cases hit
    exact .inr ⟨⟨hs.deleted, fun hc => absurd hc hnone, fun _ => hs.inventory⟩, hb⟩
  cases hfind : findLow c.seller.inventory g with
  | none =>
    refine .inl ⟨hs.other g hnew fun it hm hg => absurd hg (findLow_eq_none.1 hfind it hm), ?_⟩
    rw [hshrunk.findLow, hfind]
    rfl
  | some it =>
    obtain ⟨hm, rfl⟩ := (findLow_eq_some hl).1 hfind
    by_cases hcs : countsOf ps it.guid = []
    · refine .inl ⟨hs.other _ hnew fun x hx hg => ?_, ?_⟩
      · rw [eq_of_low hl hx hm hg]
        exact hcs
      · rw [hshrunk.findLow, hfind, Option.map_some, hcs]
        rfl
    · have htaken := hs.taken it hm hcs
      have hst := stored_of_listed hf hm hcs
      refine .inr ⟨⟨htaken.deleted, fun hg => ?_, fun hg => ?_⟩, fun hc => ?_⟩
      · rw [stored_sellStacks_iff hl hm] at hg
        rw [content_of_findLow (by rw [hshrunk.findLow, hfind]; rfl)]
        exact htaken.kept hg.2
      · rw [stored_sellStacks_iff hl hm, Stays, not_and, Bool.not_eq_false] at hg
        rw [htaken.inventory, if_pos (hg hst)]
      · exact (h.tracked.inBuyback _ hc).1 ((stored_iff hl).2 ⟨it, hfind, hst⟩)

/-- What the save deletes is in the queue once, up to what is sold out. -/
theorem Cloned.split_iff (h : InSync env c) (hf : AllFound c.seller.inventory ps)
    (hs : Cloned c item ps row env.newGuidLow s') :
    (∀ g, ¬ (objects (sellStacks c.seller.inventory ps) c.pos row).Stored g →
        s'.Doomed (objects (sellStacks c.seller.inventory ps) c.pos row) g →
        s'.queue.count (some g) ≤ 1) ↔
      ∀ it ∈ c.seller.inventory.items, usedUp it.count (countsOf ps it.guid) = true →
        splits it.count (countsOf ps it.guid) ≤ 1 := by
  have hl := h.located
  have hshrunk := shrunk_sellStacks c.seller.inventory ps
  constructor
  · intro hall it hm hused
    have hcs : countsOf ps it.guid ≠ [] := by
      intro hc
      rw [hc] at hused
      cases hused
    rw [← (hs.taken it hm hcs).count]
    refine hall _ (fun hg => ?_) ?_
    · rw [stored_sellStacks_iff hl hm] at hg
      rw [hg.2] at hused
      cases hused
    · have hfind : findLow (sellStacks c.seller.inventory ps) (guidLoPart it.guid) =
          some ((countsOf ps it.guid).foldl sellStack it) := by
        rw [hshrunk.findLow, (findLow_eq_some hl).2 ⟨hm, rfl⟩]
        rfl
      refine doomed_of_left (hshrunk.located hl) hfind ?_
      rw [foldl_sellStack_stored, hused]
      simp
  · intro hall g hg hd
    by_cases hnew : g = env.newGuidLow
    · rw [hnew, hs.count]
      split_ifs <;> omega
    by_cases hlisted : ∀ it ∈ c.seller.inventory.items, guidLoPart it.guid = g →
        countsOf ps it.guid = []
    · rw [(hs.other g hnew hlisted).count, h.once]
      split_ifs <;> omega
    · push Not at hlisted
      obtain ⟨it, hm, rfl, hcs⟩ := hlisted
      rw [(hs.taken it hm hcs).count]
      rw [stored_sellStacks_iff hl hm, Stays, not_and, Bool.not_eq_false] at hg
      exact hall it hm (hg (stored_of_listed hf hm hcs))

/-- The places that the save leaves are right, up to what was sold in part. -/
theorem Cloned.places_iff (h : InSync env c)
    (hs : Cloned c item ps row env.newGuidLow s') :
    (∀ it ∈ (sellStacks c.seller.inventory ps).items, it.stored = true →
        s'.tables.inventory (guidLoPart it.guid) = some (c.pos (guidLoPart it.guid)) ∨
          s'.state (guidLoPart it.guid) ≠ .unchanged ∨ guidLoPart it.guid ∈ c.touched) ↔
      ∀ it ∈ c.seller.inventory.items, countsOf ps it.guid ≠ [] → Stays ps it →
        c.save.tables.inventory (guidLoPart it.guid) = some (c.pos (guidLoPart it.guid)) ∨
          guidLoPart it.guid ∈ c.touched := by
  have hl := h.located
  have hshrunk := shrunk_sellStacks c.seller.inventory ps
  rw [hshrunk.items, List.forall_mem_map]
  refine forall₂_congr fun it hm => ?_
  rw [foldl_sellStack_guid, foldl_sellStack_stored, Bool.and_eq_true, Bool.not_eq_true']
  by_cases hcs : countsOf ps it.guid = []
  · have hnil : ∀ x ∈ c.seller.inventory.items, guidLoPart x.guid = guidLoPart it.guid →
        countsOf ps x.guid = [] := fun x hx hg => by
      rw [eq_of_low hl hx hm hg]
      exact hcs
    have hsame := hs.other _ (h.fresh.1 it hm) hnil
    refine iff_of_true (fun hst => ?_) fun hc => absurd hcs hc
    rw [hsame.inventory, hsame.state]
    by_cases hun : c.save.state (guidLoPart it.guid) = .unchanged
    · exact .inl (h.current it hm hst.1 hun)
    · exact .inr (.inl hun)
  · have htaken := hs.taken it hm hcs
    rw [imp_iff_right hcs]
    refine forall_congr' fun hstay => ?_
    rw [htaken.inventory, if_neg (by simp [hstay.2]), (htaken.kept hstay.2).1]
    simp

/-- The clone is not deleted, up to one with random properties. -/
theorem Cloned.instances_iff (h : InSync env c) (hf : AllFound c.seller.inventory ps) {c₁ c' : Poster}
    {a : AuctionEntry} (hs : Cloned c item ps row env.newGuidLow c₁.save)
    (hc₁ : c₁.buyback = c.buyback)
    (hc' : c₁.finish (objects (sellStacks c.seller.inventory ps) c.pos row) a = some c') :
    c'.save.tables.instances env.newGuidLow = some row ↔
      (c.randomProperties (guidLoPart item.guid) = true →
        ∃ it ∈ c.seller.inventory.items, Stays ps it ∧ c.pos (guidLoPart it.guid) = (0, 0)) := by
  obtain ⟨hlow, -, -, hb⟩ := h.fresh
  have hl := h.located
  have hshrunk := shrunk_sellStacks c.seller.inventory ps
  have ht := hs.tracked h hf
  rw [← hc₁] at ht hb
  have hnone : findLow (sellStacks c.seller.inventory ps) env.newGuidLow = none := by
    rw [hshrunk.findLow, findLow_eq_none.2 hlow]
    rfl
  have hnot : ¬ (objects (sellStacks c.seller.inventory ps) c.pos row).Stored env.newGuidLow := by
    rw [stored_iff (hshrunk.located hl), hnone]
    rintro ⟨it, hit, -⟩
    cases hit
  have hplace : (objects (sellStacks c.seller.inventory ps) c.pos row).place env.newGuidLow =
      (0, 0) := by
    show (match findLow (sellStacks c.seller.inventory ps) _ with | some it => _ | none => _) = _
    rw [hnone]
  have hat : (objects (sellStacks c.seller.inventory ps) c.pos row).itemAt (0, 0) ≠ none ↔
      ∃ it ∈ c.seller.inventory.items, Stays ps it ∧ c.pos (guidLoPart it.guid) = (0, 0) := by
    rw [Ne, itemAt_eq_none, hshrunk.items, List.forall_mem_map]
    simp only [foldl_sellStack_guid, foldl_sellStack_stored, Bool.and_eq_true, Bool.not_eq_true',
      Stays]
    push Not
    rfl
  obtain ⟨hout, hin⟩ := finish_instances ht hc' hnot hb
  have hcount := hs.count
  by_cases hrandom : c.randomProperties (guidLoPart item.guid) = true
  · rw [if_pos hrandom] at hcount
    have hm : some env.newGuidLow ∈ c₁.save.queue := List.count_pos_iff.1 (by omega)
    obtain ⟨hdoomed, hkept⟩ := hin hm
    rw [imp_iff_right hrandom, ← hat, ← hplace]
    constructor
    · intro hrow hn
      rw [hdoomed (.inr hn)] at hrow
      cases hrow
    · intro hn
      rw [hkept hs.state hn]
      exact hs.instances
  · rw [if_neg hrandom] at hcount
    refine iff_of_true ?_ fun hc => absurd hc hrandom
    rw [hout (List.count_eq_zero.1 hcount)]
    exact hs.instances

theorem postClone_persisted_iff {a : AuctionEntry} (h : InSync env c)
    (hf : AllFound c.seller.inventory ps) (hguid : a.itemGUIDLow = env.newGuidLow) :
    (∃ c', c.postClone item ps a = some c' ∧ Persisted c' a) ↔
      (modifyMoney c.seller.money (-a.deposit.toInt32)).1 = c.seller.money ∧
      a.expireTime < 2 ^ 32 ∧
      (∀ it ∈ c.seller.inventory.items, countsOf ps it.guid ≠ [] → Stays ps it →
        c.save.tables.inventory (guidLoPart it.guid) = some (c.pos (guidLoPart it.guid)) ∨
          guidLoPart it.guid ∈ c.touched) ∧
      (∀ it ∈ c.seller.inventory.items, usedUp it.count (countsOf ps it.guid) = true →
        splits it.count (countsOf ps it.guid) ≤ 1) ∧
      (c.randomProperties (guidLoPart item.guid) = true →
        ∃ it ∈ c.seller.inventory.items, Stays ps it ∧ c.pos (guidLoPart it.guid) = (0, 0)) := by
  obtain ⟨hframe, hs⟩ := cloned_of_inSync h item hf ⟨a.itemEntry, a.itemCount⟩
  have hl' := (shrunk_sellStacks c.seller.inventory ps).located h.located
  generalize hc₂ : ps.foldl Poster.sellStack { c with save := c.cloneItem item env.newGuidLow } = c₂
    at hframe hs
  generalize hsave : c₂.save.saveToDB (objects (sellStacks c.seller.inventory ps) c.pos
    ⟨a.itemEntry, a.itemCount⟩) env.newGuidLow = save at hs
  generalize hc₁ : { c with
    seller := { c.seller with inventory := sellStacks c.seller.inventory ps }
    save := save } = c₁
  have hpost : c.postClone item ps a = c₁.finish
      (objects c₁.seller.inventory c₁.pos ⟨a.itemEntry, a.itemCount⟩) a := by
    unfold Poster.postClone
    rw [hguid]
    dsimp only
    rw [hc₂, ← hc₁, ← hsave, hframe]
  have hl₁ : Located c₁.seller.inventory c₁.pos := by
    rw [← hc₁]
    exact hl'
  have ht₁ : c₁.save.Tracked (objects c₁.seller.inventory c₁.pos ⟨a.itemEntry, a.itemCount⟩)
      c₁.buyback := by
    rw [← hc₁]
    exact hs.tracked h hf
  have hsome := finish_isSome_iff (a := a) ht₁
  rw [hpost]
  cases hc' : c₁.finish (objects c₁.seller.inventory c₁.pos ⟨a.itemEntry, a.itemCount⟩) a with
  | none =>
    -- an object is deleted twice
    rw [hc'] at hsome
    refine iff_of_false (by simp) fun hc => ?_
    have hall := (hs.split_iff h hf).2 hc.2.2.2.1
    rw [← hc₁] at hsome
    have hfalse := hsome.2 hall
    cases hfalse
  | some c' =>
    rw [hc'] at hsome
    have hall := hsome.1 rfl
    rw [← hc₁] at hall
    have hsplit := (hs.split_iff h hf).1 hall
    have hiff := finish_persisted_iff hl₁ ht₁ hc'
    simp only [Option.some.injEq, exists_eq_left']
    rw [hiff, hguid]
    have hplaces := hs.places_iff h
    have hs₁ : Cloned c item ps ⟨a.itemEntry, a.itemCount⟩ env.newGuidLow c₁.save := by
      rw [← hc₁]
      exact hs
    have hfinish : c₁.finish (objects (sellStacks c.seller.inventory ps) c.pos
        ⟨a.itemEntry, a.itemCount⟩) a = some c' := by
      rw [← hc', ← hc₁]
    have hinst := hs₁.instances_iff h hf (by rw [← hc₁]) hfinish
    rw [hinst]
    rw [← hc₁]
    constructor
    · rintro ⟨hmoney, hpl, htime, hclone⟩
      exact ⟨hmoney, htime, hplaces.1 hpl, hsplit, hclone⟩
    · rintro ⟨hmoney, htime, hpl, -, hclone⟩
      exact ⟨hmoney, hplaces.2 hpl, htime, hclone⟩

end Clone

/-! ### The handler -/

/-- The auction that is posted for a first item. -/
theorem postAuction_ok {env : SellEnv} {pkt : SellPacket} {p : Seller} {etime : UInt32}
    {item : Item} {items : List Item} {a : AuctionEntry}
    (h : (postAuction env pkt p etime item items).2 = .ok a) :
    (env.auctionDeposit etime item (finalCount pkt.items)).toNat ≤ p.money.toNat ∧
      a.deposit = env.auctionDeposit etime item (finalCount pkt.items) ∧
      a.expireTime = env.time + (env.auctionTime etime).toNat ∧ a.itemEntry = item.entry ∧
      (if pkt.items.map Prod.snd = [item.count] then
        a.itemGUIDLow = guidLoPart item.guid ∧ a.itemCount = item.count ∧
          (postAuction env pkt p etime item items).1 =
            { p with
              inventory := p.inventory.moveItemFromInventory item.guid
              money := (modifyMoney p.money (-a.deposit.toInt32)).1 }
      else
        a.itemGUIDLow = env.newGuidLow ∧
          (postAuction env pkt p etime item items).1 =
            { p with
              inventory := sellStacks p.inventory pkt.items
              money := (modifyMoney p.money (-a.deposit.toInt32)).1 }) := by
  have hmoney : hasEnoughMoney p.money (env.auctionDeposit etime item (finalCount pkt.items)) =
      true := by
    by_contra hc
    unfold postAuction at h
    simp only [Bool.not_eq_true] at hc
    simp only [hc, Bool.not_false, if_true] at h
    split_ifs at h
  refine ⟨hasEnoughMoney_iff.1 hmoney, ?_⟩
  unfold postAuction at h ⊢
  dsimp only at h ⊢
  split_ifs at h ⊢
  all_goals cases h
  all_goals
    refine ⟨rfl, rfl, rfl, ?_⟩
    simp [newAuction]

theorem allFound_of_map {its : List Item}
    (h : ps.map (fun q => inv.getItemByGuid q.1) = its.map some) : AllFound inv ps := by
  intro q hq
  have hmem := List.mem_map_of_mem (f := fun q => inv.getItemByGuid q.1) hq
  rw [h] at hmem
  obtain ⟨it, -, hit⟩ := List.mem_map.1 hmem
  exact ⟨it, hit.symm⟩

/-- What a request that posts an auction goes through. -/
theorem handleAuctionSellItemDb_ok {env : SellEnv} {pkt : SellPacket} {c : Poster}
    {a : AuctionEntry} {r : Option Poster}
    (h : handleAuctionSellItemDb env pkt c = (.ok a, r)) :
    ∃ item items, AllFound c.seller.inventory pkt.items ∧ firstListed pkt c.seller = some item ∧
      c.seller.inventory.getItemByGuid item.guid = some item ∧
      (pkt.items.map Prod.snd = [item.count] → pkt.items = [(item.guid, item.count)]) ∧
      handleAuctionSellItem env pkt c.seller =
        postAuction env pkt c.seller (pkt.etime * 60) item items ∧
      (postAuction env pkt c.seller (pkt.etime * 60) item items).2 = .ok a ∧
      r = if pkt.items.map Prod.snd = [item.count] then c.postStack item a
        else c.postClone item pkt.items a := by
  unfold handleAuctionSellItemDb at h
  cases hres : (handleAuctionSellItem env pkt c.seller).2 with
  | ok a' =>
    rcases handleAuctionSellItem_cases env pkt c.seller with
      ⟨-, hr⟩ | ⟨item, items, -, -, hget, heq⟩
    · exact absurd hres (hr a')
    have hfirst : firstListed pkt c.seller = some item := by
      unfold firstListed
      cases hps : pkt.items with
      | nil => simp [hps] at hget
      | cons q qs =>
        rw [hps, List.map_cons, List.map_cons] at hget
        exact (List.cons.inj hget).1
    have hguid : c.seller.inventory.getItemByGuid item.guid = some item ∧
        (pkt.items.map Prod.snd = [item.count] → pkt.items = [(item.guid, item.count)]) := by
      unfold firstListed at hfirst
      obtain ⟨q, hq, hitem⟩ := Option.bind_eq_some_iff.1 hfirst
      have hg := (getItemByGuid_some hitem).2.2
      refine ⟨hg ▸ hitem, fun hone => ?_⟩
      obtain ⟨q', hq'⟩ := List.length_eq_one_iff.1
        ((List.length_map Prod.snd).symm.trans (congrArg List.length hone))
      rw [hq'] at hq hone ⊢
      obtain rfl : q' = q := Option.some.inj hq
      rw [hg, ← (List.cons.inj hone).1]
    rw [hres] at h
    have hhead : (pkt.items.head?.bind fun p => c.seller.inventory.getItemByGuid p.1) =
        some item := hfirst
    simp only [hhead] at h
    refine ⟨item, items, allFound_of_map hget, hfirst, hguid.1, hguid.2, heq, ?_⟩
    rw [← heq, hres]
    split_ifs at h ⊢ with hone
    · obtain ⟨ha, hr⟩ := Prod.mk.inj h
      rw [SellResult.ok.inj ha] at hr ⊢
      exact ⟨rfl, hr.symm⟩
    · obtain ⟨ha, hr⟩ := Prod.mk.inj h
      rw [SellResult.ok.inj ha] at hr ⊢
      exact ⟨rfl, hr.symm⟩
  | _ =>
    rw [hres] at h
    cases (Prod.mk.inj h).1

theorem persistable_iff_of_single {env : SellEnv} {pkt : SellPacket} {c : Poster} {item : Item}
    (hfirst : firstListed pkt c.seller = some item)
    (hget : c.seller.inventory.getItemByGuid item.guid = some item)
    (hitems : pkt.items = [(item.guid, item.count)]) :
    Persistable env pkt c ↔
      (deposit env pkt c.seller = 0 ∨ 2 ^ 31 < (deposit env pkt c.seller).toNat ∧
        ¬ ((deposit env pkt c.seller).toNat = 2 ^ 31 + 1 ∧
          c.seller.money.toNat < 2 ^ 32 - 1)) ∧
      env.time + (env.auctionTime (pkt.etime * 60)).toNat < 2 ^ 32 := by
  obtain ⟨hm, -, -⟩ := getItemByGuid_some hget
  -- the one listed stack is used up by its one count
  have hlisted : ∀ it ∈ c.seller.inventory.items, countsOf pkt.items it.guid ≠ [] →
      usedUp it.count (countsOf pkt.items it.guid) = true ∧
        splits it.count (countsOf pkt.items it.guid) = 0 := by
    intro it hit hcs
    rw [hitems] at hcs ⊢
    by_cases hg : item.guid = it.guid
    · obtain rfl := eq_of_guid_eq hm hit hg
      simp [countsOf, usedUp_cons, splits_cons, splits]
    · simp [countsOf, hg] at hcs
  refine ⟨fun h => ⟨h.debit, h.time⟩, fun h => ⟨h.1, h.2, fun it hit hcs hst => ?_,
    fun it hit hused => ?_, fun x hx hne => ?_⟩⟩
  · have hused := (hlisted it hit hcs).1
    rw [hst.2] at hused
    cases hused
  · have hcs : countsOf pkt.items it.guid ≠ [] := by
      intro hc
      rw [hc] at hused
      cases hused
    rw [(hlisted it hit hcs).2]
    exact Nat.zero_le 1
  · rw [hfirst] at hx
    rw [← Option.some.inj hx, hitems] at hne
    exact absurd rfl hne

/-- **Main result.** After a request that posts an auction the database describes the money, the
inventory and the auction exactly when the request is `Persistable`. -/
theorem auction_post_persisted_iff {env : SellEnv} {pkt : SellPacket} {c : Poster}
    {a : AuctionEntry} {r : Option Poster} (h : InSync env c)
    (hpost : handleAuctionSellItemDb env pkt c = (.ok a, r)) :
    (∃ c', r = some c' ∧ Persisted c' a) ↔ Persistable env pkt c := by
  obtain ⟨item, items, hf, hfirst, hget, hsingle, -, hok, rfl⟩ := handleAuctionSellItemDb_ok hpost
  obtain ⟨henough, hdeposit, hexpire, hentry, hbranch⟩ := postAuction_ok hok
  have hasked : deposit env pkt c.seller = a.deposit := by
    unfold deposit
    rw [hfirst, hdeposit]
  have hdebit := modifyMoney_debit_self_iff (hdeposit ▸ henough)
  rw [← hasked] at hdebit
  split_ifs at hbranch ⊢ with hone
  · rw [postStack_persisted_iff h hget hbranch.1 hentry hbranch.2.1,
      persistable_iff_of_single hfirst hget (hsingle hone), ← hdebit, hasked, hexpire]
  · rw [postClone_persisted_iff h hf hbranch.1, ← hasked, hdebit, hexpire]
    constructor
    · rintro ⟨hd, ht, hplaces, hsplit, hclone⟩
      refine ⟨hd, ht, hplaces, hsplit, fun x hx _ hrandom => ?_⟩
      rw [hfirst] at hx
      rw [← Option.some.inj hx] at hrandom
      exact hclone hrandom
    · rintro ⟨hd, ht, hplaces, hsplit, hclone⟩
      exact ⟨hd, ht, hplaces, hsplit, hclone item hfirst hone⟩

/-- The seller with one stack, in the backpack and saved there. -/
def samplePoster : Poster where
  seller := sampleSeller
  pos _ := (0, 23)
  save :=
    { tables :=
        { inventory := Function.update (fun _ => none) 7 (some (0, 23))
          instances := Function.update (fun _ => none) 7 (some ⟨2589, 5⟩) }
      state := fun _ => .unchanged
      queuePos := fun _ => none
      queue := []
      deleted := fun _ => false }
  buyback := []
  touched := []
  randomProperties _ := false
  dbMoney := 100000
  auctions _ := none

theorem samplePoster_inSync (env : SellEnv) (hnew : env.newGuidLow = 8) :
    InSync env samplePoster := by
  have hitems : ∀ it ∈ samplePoster.seller.inventory.items, it = sampleStack := fun it hm =>
    List.mem_singleton.1 hm
  have hlow : guidLoPart sampleStack.guid = 7 := rfl
  have hl : Located samplePoster.seller.inventory samplePoster.pos := by
    refine ⟨fun x hx y hy _ => ?_, fun x _ _ => ?_, fun x hx y hy _ _ _ => ?_⟩
    · rw [hitems x hx, hitems y hy]
    · show ((0, 23) : Place) ≠ (0, nullSlot)
      decide
    · rw [hitems x hx, hitems y hy]
  have hstored : ∀ g, (objects samplePoster.seller.inventory samplePoster.pos ⟨0, 0⟩).Stored g ↔
      g = 7 := by
    intro g
    rw [stored_iff hl]
    constructor
    · rintro ⟨it, hf, -⟩
      obtain ⟨hm, hg⟩ := (findLow_eq_some hl).1 hf
      rw [← hg, hitems it hm, hlow]
    · rintro rfl
      exact ⟨sampleStack, rfl, rfl⟩
  refine ⟨hl, ⟨?_, ?_, ?_, ?_, ?_, ?_, ?_, ?_⟩, fun it hm _ _ => ?_, fun g => rfl, ?_⟩
  · nofun
  · nofun
  · exact fun g _ hc => absurd rfl hc
  · intro g hg _
    rw [(hstored g).1 hg]
    rfl
  · nofun
  · nofun
  · intro g p hg hp
    have hg7 : g ≠ 7 := fun hc => hg ((hstored g).2 hc)
    have hrow : samplePoster.save.tables.inventory g = none := by
      show Function.update (fun _ => none) 7 (some ((0, 23) : Place)) g = none
      rw [Function.update_of_ne hg7]
    rw [hrow] at hp
    cases hp
  · exact fun g => rfl
  · rw [hitems it hm]
    rfl
  · rw [hnew]
    refine ⟨fun it hm => ?_, rfl, List.not_mem_nil, List.not_mem_nil⟩
    rw [hitems it hm]
    decide

/-- Without a deposit the whole stack is posted as it is stored. -/
theorem auction_post_persisted_free : ∃ c' a,
    handleAuctionSellItemDb { sampleEnv with auctionDeposit := fun _ _ _ => 0 }
      (samplePacket [(7, 5)]) samplePoster = (.ok a, some c') ∧ Persisted c' a := by
  have hpost : handleAuctionSellItemDb { sampleEnv with auctionDeposit := fun _ _ _ => 0 }
      (samplePacket [(7, 5)]) samplePoster = (.ok _, some _) := rfl
  have hiff := auction_post_persisted_iff (samplePoster_inSync _ rfl) hpost
  have hget : samplePoster.seller.inventory.getItemByGuid sampleStack.guid = some sampleStack := rfl
  obtain ⟨c', hc', hpersisted⟩ :=
    hiff.2 ((persistable_iff_of_single rfl hget rfl).2 ⟨.inl rfl, by decide⟩)
  exact ⟨c', _, hpost.trans (by rw [hc']), hpersisted⟩

/-- The stack is posted for a deposit of one silver, which is still there in the database. -/
theorem deposit_not_persisted : InSync sampleEnv samplePoster ∧ ∃ c' a,
    handleAuctionSellItemDb sampleEnv (samplePacket [(7, 5)]) samplePoster = (.ok a, some c') ∧
      c'.dbMoney = 100000 ∧ c'.seller.money = 99900 ∧ ¬ Persisted c' a := by
  refine ⟨samplePoster_inSync _ rfl, _, _, rfl, rfl, by decide, fun h => ?_⟩
  have hmoney := h.money
  revert hmoney
  decide

end FaceCore.Auction
