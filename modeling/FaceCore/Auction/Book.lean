import FaceCore.Auction.Bids

/-!
# The auction book

The auctions of all houses together with the items that `AuctionHouseMgr` holds for them, under
`HandleAuctionSellItem`, `HandleAuctionPlaceBid`, `HandleAuctionRemoveItem` and
`AuctionHouseObject::Update`.

* `Book`, `BookRequest`, `bookStep`: the book with the counters of `ObjectMgr`, what can happen to
  it, and the book afterwards;
* `Book.Sound`: bids and bidders go together, bids stay below the buyout, and items and auctions
  correspond to each other;
* `auction_book_sound`: this holds along any run, and every bid on an auction is larger than the one
  before.

The handlers are those of the modules before; what is added is how a new auction and its item get
into the book. A counter that comes to its end, or an assertion that fails, stops the server. The
inventory of a seller is given with his request, and its items have guids that the server has
generated.
-/

namespace FaceCore.Auction

open Inventory

/-- `GetGUIDLow` of the items is smaller than the counter `_hiItemGuid`. -/
def issued (hiItemGuid : UInt32) (inv : Inventory) : Bool :=
  inv.items.all fun it => guidLoPart it.guid < hiItemGuid

/-- `MAKE_NEW_GUID` for an item. -/
def makeItemGuid (low : UInt32) : UInt64 := low.toUInt64 ||| 0x4000000000000000

theorem guidLoPart_makeItemGuid (low : UInt32) : guidLoPart (makeItemGuid low) = low := by
  have hhigh : (0x4000000000000000 : UInt64).toUInt32 = 0 := rfl
  unfold guidLoPart makeItemGuid
  rw [UInt64.toUInt32_or, hhigh, UInt32.or_zero, UInt32.toUInt32_toUInt64]

/-- `Item::CloneItem`: a new object of the same entry, in no slot. -/
def cloneItem (item : Item) (guidLow count : UInt32) : Item :=
  { item with
    guid := makeItemGuid guidLow
    count := count
    stored := false
    lootGenerated := false
    bopTradeable := false
    inBagPos := false
    notEmptyBag := false
    canUnequip := true
    beingLooted := false
    boundByEnchant := false }

/-- The auctions with their items, and the counters `_hiItemGuid` and `_auctionId`. -/
structure Book where
  state : State
  hiItemGuid : UInt32
  auctionId : UInt32

/-- The item whose stack is moved or cloned: `items[0]`. -/
def firstItem (pkt : SellPacket) (inv : Inventory) : Option Item :=
  pkt.items.head?.bind fun q => inv.getItemByGuid q.1

/-- The packet lists one stack, as a whole. -/
def movesStack (pkt : SellPacket) (item : Item) : Bool := pkt.items.map Prod.snd = [item.count]

/-- What the seller's handler asks of the book. -/
def Book.sellEnv (b : Book) (env : SellEnv) : SellEnv :=
  { env with
    isAuctionItem := fun guid => (b.state.aItems.find (guidLoPart guid)).isSome
    auctionId := b.auctionId
    newGuidLow := b.hiItemGuid }

/-- `AddAItem` and `AddAuction`, with the guid and the id that were generated for them. -/
def Book.addAuction (b : Book) (house : House) (cloned : Bool) (item : Item) (a : AuctionEntry) :
    Option Book :=
  if cloned && b.hiItemGuid ≥ 0xFFFFFFFE || b.auctionId ≥ 0xFFFFFFFE then none
  else if (b.state.aItems.find (guidLoPart item.guid)).isSome then none
  else
    some
      { state :=
          { b.state with
            aItems := b.state.aItems.insert item
            auctions := b.state.auctions.insert ⟨house, a⟩ }
        hiItemGuid := if cloned then b.hiItemGuid + 1 else b.hiItemGuid
        auctionId := b.auctionId + 1 }

/-- `WorldSession::HandleAuctionSellItem`, for a player in the world and an auctioneer of a house. -/
def Book.sell (b : Book) (env : SellEnv) (pkt : SellPacket) (player : UInt32) (house : House)
    (inv : Inventory) : Option Book :=
  match b.state.findPlayer player with
  | none => some b
  | some c =>
    let (seller, result) := handleAuctionSellItem (b.sellEnv env) pkt ⟨player, c.money, inv⟩
    match result, firstItem pkt inv with
    | .ok a, some item =>
      let moved := movesStack pkt item
      let item :=
        if moved then { item with stored := false } else cloneItem item a.itemGUIDLow a.itemCount
      let b := { b with state := { b.state with
        characters := b.state.characters.modify player
          (fun c => { c with money := seller.money }) fun _ => rfl } }
      b.addAuction house (!moved) item a
    | _, _ => some b

/-- What can happen to the book. Other parts of the server create items, too. -/
inductive BookRequest
  | sell (env : SellEnv) (pkt : SellPacket) (player : UInt32) (house : House) (inv : Inventory)
  | request (r : Request)
  | createItem

/-- The book after a request, if the server has not stopped. -/
def bookStep (env : Env) (b : Book) : BookRequest → Option Book
  | .sell sellEnv pkt player house inv =>
    if issued b.hiItemGuid inv then b.sell sellEnv pkt player house inv else some b
  | .request r => some { b with state := step env b.state r }
  | .createItem =>
    if b.hiItemGuid ≥ 0xFFFFFFFE then none else some { b with hiItemGuid := b.hiItemGuid + 1 }

/-! ### What holds of the book -/

/-- Every auction has its own item among those of the manager, and every item its auction. -/
structure Registered (s : State) : Prop where
  item : ∀ a ∈ s.auctions, ∃ it ∈ s.aItems, guidLoPart it.guid = a.entry.itemGUIDLow
  auction : ∀ it ∈ s.aItems, ∃ a ∈ s.auctions, a.entry.itemGUIDLow = guidLoPart it.guid
  single : ∀ a ∈ s.auctions, ∀ a' ∈ s.auctions,
    a.entry.itemGUIDLow = a'.entry.itemGUIDLow → a = a'

/-- What holds of an auction: a bidder and a bid go together, and the bid is below the buyout. -/
structure AuctionEntry.Sound (e : AuctionEntry) : Prop where
  bidder : e.bidder = 0 ↔ e.bid = 0
  buyout : 0 < e.buyout → e.bid < e.buyout

/-- What holds of the book. The guids and ids in it have been generated, and no character has the
guid zero. -/
structure Book.Sound (b : Book) : Prop where
  entries : ∀ a ∈ b.state.auctions, a.entry.Sound
  registered : Registered b.state
  guidLow : ∀ c ∈ b.state.characters, c.guidLow ≠ 0
  itemGuids : ∀ it ∈ b.state.aItems, guidLoPart it.guid < b.hiItemGuid
  auctionIds : ∀ a ∈ b.state.auctions, a.entry.id < b.auctionId

/-! ### A new auction -/

theorem collectItems_head {env : SellEnv} {inv : Inventory} {ps : List (UInt64 × UInt32)}
    {item : Item} {items : List Item} (h : collectItems env inv ps = .ok (item :: items)) :
    (ps.head?.bind fun q => inv.getItemByGuid q.1) = some item ∧
      env.isAuctionItem item.guid = false := by
  cases ps with
  | nil => simp [collectItems] at h
  | cons q ps =>
    rw [collectItems] at h
    cases hget : inv.getItemByGuid q.1 with
    | none => simp [hget] at h
    | some it =>
      simp only [hget] at h
      split_ifs at h with hok
      cases hrest : collectItems env inv ps with
      | error e => simp [hrest] at h
      | ok its =>
        simp only [hrest, Except.ok.injEq, List.cons.injEq] at h
        obtain ⟨rfl, -⟩ := h
        refine ⟨hget, ?_⟩
        unfold itemOk at hok
        simp only [Bool.not_eq_true', Bool.or_eq_false_iff] at hok
        exact hok.1.1.1.1.1

/-- What the handler puts into a new auction. -/
theorem handleAuctionSellItem_ok {env : SellEnv} {pkt : SellPacket} {p p' : Seller}
    {a : AuctionEntry} (h : handleAuctionSellItem env pkt p = (p', .ok a)) :
    ∃ item, firstItem pkt p.inventory = some item ∧ env.isAuctionItem item.guid = false ∧
      a.id = env.auctionId ∧ a.bidder = 0 ∧ a.bid = 0 ∧
      a.itemGUIDLow = if movesStack pkt item then guidLoPart item.guid else env.newGuidLow := by
  unfold handleAuctionSellItem at h
  dsimp only at h
  split_ifs at h with hlen hok hbid hmax hnpc htime
  any_goals cases h
  cases hitems : collectItems env p.inventory pkt.items with
  | error e =>
    simp only [hitems, Prod.mk.injEq] at h
    exact absurd h.2 (collectItems_error hitems a)
  | ok items =>
    rw [hitems] at h
    cases items with
    | nil => cases h
    | cons item items =>
      obtain ⟨hfirst, hfree⟩ := collectItems_head hitems
      refine ⟨item, hfirst, hfree, ?_⟩
      dsimp only [postAuction] at h
      unfold movesStack
      split_ifs at h with hzero hstack hmoney hone hcreate hcut
      any_goals cases h
      · exact ⟨rfl, rfl, rfl, by simp [newAuction, hone]⟩
      · exact ⟨rfl, rfl, rfl, by simp [newAuction, hone]⟩
      · exact ⟨rfl, rfl, rfl, by simp [newAuction, hone]⟩

/-! ### The book after a request -/

/-- An auction that is still there after a request is as it was, or it has a new and larger bid. -/
def Raised (s s' : State) : Prop :=
  ∀ a ∈ s.auctions, ∀ a' ∈ s'.auctions, a'.key = a.key →
    a' = a ∨ ∃ bidder bid, a' = a.withBid bidder bid ∧ a.entry.bid < bid

/-- The unsigned differences that a player pays who raises his own bid: from his bid to the new one,
or to the buyout if the auction is gone. -/
def ownDifferences (env : Env) (s : State) : Request → List (UInt32 × UInt32)
  | .placeBid time player creature auctionId price =>
    match creature.bind fun house => s.auctions.find (house, auctionId) with
    | none => []
    | some a =>
      let s' := step env s (.placeBid time player creature auctionId price)
      if a.entry.bidder = player then
        match s'.auctions.find a.key with
        | none => [(a.entry.buyout, a.entry.bid)]
        | some a' => if a'.entry.bid = a.entry.bid then [] else [(price, a.entry.bid)]
      else []
  | _ => []

variable {env : Env} {time : ℕ} {s s' : State} {b b' : Book}

theorem Raised.of_mem (h : ∀ a ∈ s'.auctions, a ∈ s.auctions) : Raised s s' :=
  fun _ ha _ ha' hkey => .inl (Table.eq_of_key_eq (h _ ha') ha hkey)

theorem Registered.erase (h : Registered s) {house : House} {a : Posted}
    (ha : s.auctions.find (house, a.entry.id) = some a)
    (hauctions : s'.auctions = s.auctions.erase (house, a.entry.id))
    (hitems : s'.aItems = s.aItems.erase a.entry.itemGUIDLow) : Registered s' := by
  have hkey := (Table.of_find ha).2
  have hmem := (Table.of_find ha).1
  constructor
  · rw [hauctions, hitems]
    intro a' ha'
    obtain ⟨ha', hne⟩ := Table.mem_erase.1 ha'
    obtain ⟨it, hit, hguid⟩ := h.item a' ha'
    refine ⟨it, Table.mem_erase.2 ⟨hit, fun heq => hne ?_⟩, hguid⟩
    rw [h.single a' ha' a hmem (hguid.symm.trans heq)]
    exact hkey
  · rw [hauctions, hitems]
    intro it hit
    obtain ⟨hit, hne⟩ := Table.mem_erase.1 hit
    obtain ⟨a', ha', hguid⟩ := h.auction it hit
    refine ⟨a', Table.mem_erase.2 ⟨ha', fun heq => hne ?_⟩, hguid⟩
    rw [← hguid, Table.eq_of_key_eq ha' hmem (heq.trans hkey.symm)]
  · rw [hauctions]
    intro a₁ h₁ a₂ h₂
    exact h.single a₁ (Table.mem_erase.1 h₁).1 a₂ (Table.mem_erase.1 h₂).1

theorem Registered.insert (h : Registered s) {it : Item} {a : Posted}
    (hguid : guidLoPart it.guid = a.entry.itemGUIDLow)
    (hitem : ∀ it' ∈ s.aItems, guidLoPart it'.guid ≠ guidLoPart it.guid)
    (hnew : ∀ a' ∈ s.auctions, a'.key ≠ a.key)
    (hauctions : s'.auctions = s.auctions.insert a) (hitems : s'.aItems = s.aItems.insert it) :
    Registered s' := by
  have hother : ∀ a' ∈ s.auctions, a'.entry.itemGUIDLow ≠ a.entry.itemGUIDLow := by
    intro a' ha' heq
    obtain ⟨it', hit', hguid'⟩ := h.item a' ha'
    exact hitem it' hit' (hguid'.trans (heq.trans hguid.symm))
  constructor
  · rw [hauctions, hitems]
    intro a' ha'
    rcases Table.mem_insert.1 ha' with rfl | ⟨ha', -⟩
    · exact ⟨it, Table.mem_insert.2 (.inl rfl), hguid⟩
    · obtain ⟨it', hit', hguid'⟩ := h.item a' ha'
      exact ⟨it', Table.mem_insert.2 (.inr ⟨hit', hitem it' hit'⟩), hguid'⟩
  · rw [hauctions, hitems]
    intro it' hit'
    rcases Table.mem_insert.1 hit' with rfl | ⟨hit', -⟩
    · exact ⟨a, Table.mem_insert.2 (.inl rfl), hguid.symm⟩
    · obtain ⟨a', ha', hguid'⟩ := h.auction it' hit'
      exact ⟨a', Table.mem_insert.2 (.inr ⟨ha', hnew a' ha'⟩), hguid'⟩
  · rw [hauctions]
    intro a₁ h₁ a₂ h₂ heq
    rcases Table.mem_insert.1 h₁ with h₁ | h₁
    · rcases Table.mem_insert.1 h₂ with h₂ | h₂
      · exact h₁.trans h₂.symm
      · rw [h₁] at heq
        exact absurd heq.symm (hother a₂ h₂.1)
    · rcases Table.mem_insert.1 h₂ with h₂ | h₂
      · rw [h₂] at heq
        exact absurd heq (hother a₁ h₁.1)
      · exact h.single a₁ h₁.1 a₂ h₂.1 heq

theorem key_withBid (bidder bid : UInt32) (a : Posted) : (a.withBid bidder bid).key = a.key := rfl

/-- A bid changes no item and no auction but for its bidder and bid. -/
theorem Registered.setBid (h : Registered s) {key : House × UInt32} {bidder bid : UInt32}
    (hauctions : s'.auctions =
      s.auctions.modify key (Posted.withBid bidder bid) (key_withBid bidder bid))
    (hitems : s'.aItems = s.aItems) : Registered s' := by
  have hguid : ∀ a : Posted,
      (if a.key = key then a.withBid bidder bid else a).entry.itemGUIDLow = a.entry.itemGUIDLow := by
    intro a
    split_ifs <;> rfl
  constructor
  · rw [hauctions, Table.forall_mem_modify, hitems]
    intro a ha
    rw [hguid]
    exact h.item a ha
  · rw [hauctions, hitems]
    intro it hit
    rw [Table.exists_mem_modify]
    obtain ⟨a, ha, hit⟩ := h.auction it hit
    exact ⟨a, ha, (hguid a).trans hit⟩
  · rw [hauctions, Table.forall_mem_modify]
    intro a ha
    rw [Table.forall_mem_modify]
    intro a' ha' heq
    rw [hguid, hguid] at heq
    rw [h.single a ha a' ha' heq]

/-! ### What a request does to the book -/

/-- Mails are sent and purses changed: auctions, items and the guids of the characters stay. -/
structure Quiet (s s' : State) : Prop where
  auctions : s'.auctions = s.auctions
  aItems : s'.aItems = s.aItems
  guidLow : (∀ c ∈ s.characters, c.guidLow ≠ 0) → ∀ c ∈ s'.characters, c.guidLow ≠ 0

theorem Quiet.refl (s : State) : Quiet s s := ⟨rfl, rfl, id⟩

theorem Quiet.trans {s₁ s₂ s₃ : State} (h : Quiet s₁ s₂) (h' : Quiet s₂ s₃) : Quiet s₁ s₃ :=
  ⟨h'.auctions.trans h.auctions, h'.aItems.trans h.aItems, h'.guidLow ∘ h.guidLow⟩

theorem quiet_modifyMoney (guid : UInt32) (amount : Int32) : Quiet s (s.modifyMoney guid amount) := by
  refine ⟨rfl, rfl, fun h => ?_⟩
  unfold State.modifyMoney
  rw [Table.forall_mem_modify]
  intro c hc
  split_ifs
  · exact h c hc
  · exact h c hc

theorem quiet_sendMailTo (a : AuctionEntry) (response : MailAuctionAnswers) (receiver : UInt32)
    (draft : MailDraft) (delay : ℕ) :
    Quiet s (s.sendMailTo env time a response receiver draft delay) :=
  ⟨rfl, rfl, id⟩

theorem quiet_wonMail (a : AuctionEntry) : Quiet s (sendAuctionWonMail env time s a) := by
  unfold sendAuctionWonMail
  split
  · exact Quiet.refl s
  · split_ifs
    · exact quiet_sendMailTo ..
    · exact Quiet.refl s

theorem quiet_expiredMail (a : AuctionEntry) : Quiet s (sendAuctionExpiredMail env time s a) := by
  unfold sendAuctionExpiredMail
  split
  · exact Quiet.refl s
  · split_ifs
    · exact quiet_sendMailTo ..
    · exact Quiet.refl s

theorem quiet_salePendingMail (a : AuctionEntry) :
    Quiet s (sendAuctionSalePendingMail env time s a) := by
  unfold sendAuctionSalePendingMail
  split_ifs
  · exact quiet_sendMailTo ..
  · exact Quiet.refl s

theorem quiet_successfulMail (a : AuctionEntry) :
    Quiet s (sendAuctionSuccessfulMail env time s a) := by
  unfold sendAuctionSuccessfulMail
  split_ifs
  · exact quiet_sendMailTo ..
  · exact Quiet.refl s

theorem quiet_outbiddedMail (a : AuctionEntry) :
    Quiet s (sendAuctionOutbiddedMail env time s a) := by
  unfold sendAuctionOutbiddedMail
  split_ifs
  · exact quiet_sendMailTo ..
  · exact Quiet.refl s

theorem quiet_cancelledToBidderMail (a : AuctionEntry) :
    Quiet s (sendAuctionCancelledToBidderMail env time s a) := by
  unfold sendAuctionCancelledToBidderMail
  split_ifs
  · exact quiet_sendMailTo ..
  · exact Quiet.refl s

/-- What a request does to auctions and items: nothing, a bid below the buyout by a player, or the
removal of an auction with its item. -/
inductive Change (s s' : State) : Prop
  | same (auctions : s'.auctions = s.auctions) (aItems : s'.aItems = s.aItems)
  | bid {a : Posted} {player price : UInt32} (mem : a ∈ s.auctions) (player_ne : player ≠ 0)
      (larger : a.entry.bid < price) (below : price < a.entry.buyout ∨ a.entry.buyout = 0)
      (auctions : s'.auctions =
        s.auctions.modify a.key (Posted.withBid player price) (key_withBid player price))
      (aItems : s'.aItems = s.aItems)
  | gone {a : Posted} (mem : a ∈ s.auctions) (auctions : s'.auctions = s.auctions.erase a.key)
      (aItems : s'.aItems = s.aItems.erase a.entry.itemGUIDLow)

/-- The guids of the characters stay different from zero. -/
def KeepsGuids (s s' : State) : Prop :=
  (∀ c ∈ s.characters, c.guidLow ≠ 0) → ∀ c ∈ s'.characters, c.guidLow ≠ 0

theorem Quiet.removeAuction (h : Quiet s s') {house : House} {a : Posted} {e : AuctionEntry}
    (ha : s.auctions.find (house, a.entry.id) = some a) (hid : e.id = a.entry.id)
    (hguid : e.itemGUIDLow = a.entry.itemGUIDLow) :
    Change s (s'.removeAuction house e) ∧ KeepsGuids s (s'.removeAuction house e) := by
  refine ⟨.gone (Table.of_find ha).1 ?_ ?_, h.guidLow⟩
  · show s'.auctions.erase _ = _
    rw [h.auctions, hid, (Table.of_find ha).2]
  · show s'.aItems.erase _ = _
    rw [h.aItems, hguid]

variable (env time)

theorem placeBid_change (hguid : ∀ c ∈ s.characters, c.guidLow ≠ 0) (player : UInt32)
    (creature : Option House) (auctionId price : UInt32) :
    let s' := handleAuctionPlaceBid env time s player creature auctionId price
    Change s s' ∧ KeepsGuids s s' := by
  rcases placeBid_cases env time s player creature auctionId price with
    heq | ⟨house, a, c, rfl, ha, hkey, hc, hpass, hdone⟩
  · rw [heq]
    exact ⟨.same rfl rfl, id⟩
  obtain ⟨-, rfl⟩ := Prod.mk.inj hkey
  rcases hdone with ⟨hbelow, heq⟩ | ⟨-, -, heq⟩
  · rw [heq]
    have hplayer : player ≠ 0 := by
      rw [← (Table.of_find hc).2]
      exact hguid c (Table.of_find hc).1
    unfold bidOn
    dsimp only
    have hquiet : Quiet s (if a.entry.bidder > 0 then
        if a.entry.bidder = player then s.modifyMoney player (-(price - a.entry.bid).toInt32)
        else (sendAuctionOutbiddedMail env time s a.entry).modifyMoney player (-price.toInt32)
      else s.modifyMoney player (-price.toInt32)) := by
      split_ifs
      · exact quiet_modifyMoney ..
      · exact (quiet_outbiddedMail a.entry).trans (quiet_modifyMoney ..)
      · exact quiet_modifyMoney ..
    refine ⟨.bid (Table.of_find ha).1 hplayer hpass.bid hbelow ?_ hquiet.aItems, hquiet.guidLow⟩
    unfold State.setBid
    dsimp only
    rw [hquiet.auctions, hkey]
  · rw [heq]
    unfold buyOut
    dsimp only
    refine Quiet.removeAuction ?_ ha rfl rfl
    refine Quiet.trans ?_ (quiet_wonMail ..)
    refine Quiet.trans ?_ (quiet_successfulMail ..)
    refine Quiet.trans ?_ (quiet_salePendingMail ..)
    split_ifs
    · exact quiet_modifyMoney ..
    · exact (quiet_modifyMoney ..).trans (quiet_outbiddedMail ..)
    · exact quiet_modifyMoney ..

theorem removeItem_change (player : UInt32) (creature : Option House) (auctionId : UInt32) :
    let s' := handleAuctionRemoveItem env time s player creature auctionId
    Change s s' ∧ KeepsGuids s s' := by
  rcases removeItem_cases env time s player creature auctionId with
    heq | ⟨house, a, c, item, rfl, ha, hkey, -, -, heq⟩
  · rw [heq]
    exact ⟨.same rfl rfl, id⟩
  obtain ⟨-, rfl⟩ := Prod.mk.inj hkey
  rw [heq]
  unfold cancelAuction
  dsimp only
  refine Quiet.removeAuction ?_ ha rfl rfl
  refine Quiet.trans ?_ (quiet_sendMailTo ..)
  split_ifs
  · exact (quiet_cancelledToBidderMail ..).trans (quiet_modifyMoney ..)
  · exact Quiet.refl s

theorem updateRow_change (house : House) (id : UInt32) :
    let s' := updateRow env time house s id
    Change s s' ∧ KeepsGuids s s' ∧ ∀ a ∈ s'.auctions, a ∈ s.auctions := by
  unfold updateRow
  cases ha : s.auctions.find (house, id) with
  | none => exact ⟨.same rfl rfl, fun h => h, fun _ h => h⟩
  | some a =>
    obtain ⟨-, rfl⟩ := Prod.mk.inj (Table.of_find ha).2
    have hquiet : Quiet s (if a.entry.bidder = 0 then sendAuctionExpiredMail env time s a.entry
        else sendAuctionWonMail env time (sendAuctionSuccessfulMail env time s a.entry) a.entry) := by
      split_ifs
      · exact quiet_expiredMail ..
      · exact (quiet_successfulMail ..).trans (quiet_wonMail ..)
    have hchange := hquiet.removeAuction ha rfl rfl
    refine ⟨hchange.1, hchange.2, fun b hb => ?_⟩
    have hb' := (Table.mem_erase.1 hb).1
    rw [hquiet.auctions] at hb'
    exact hb'

/-! ### One step -/

/-- A change leaves a sound book. -/
theorem Change.sound (hc : Change b.state s') (hk : KeepsGuids b.state s') (hb : b.Sound) :
    Book.Sound { b with state := s' } := by
  cases hc with
  | same hauctions hitems =>
    refine ⟨?_, ⟨?_, ?_, ?_⟩, hk hb.guidLow, ?_, ?_⟩
    all_goals simp only [hauctions, hitems]
    · exact hb.entries
    · exact hb.registered.item
    · exact hb.registered.auction
    · exact hb.registered.single
    · exact hb.itemGuids
    · exact hb.auctionIds
  | @bid a player price hmem hplayer hlarger hbelow hauctions hitems =>
    refine ⟨?_, hb.registered.setBid hauctions hitems, hk hb.guidLow, ?_, ?_⟩
    all_goals simp only [hauctions, hitems]
    · rw [Table.forall_mem_modify]
      intro a' ha'
      split_ifs with hkey
      · obtain rfl := Table.eq_of_key_eq ha' hmem hkey
        have hprice : price ≠ 0 := by
          rintro rfl
          exact UInt32.not_lt_zero hlarger
        refine ⟨iff_of_false hplayer hprice, fun hbuyout => ?_⟩
        rcases hbelow with hbelow | hzero
        · exact hbelow
        · exact absurd hbuyout (by
            show ¬ (0 : UInt32) < a'.entry.buyout
            rw [hzero]
            exact UInt32.lt_irrefl 0)
      · exact hb.entries a' ha'
    · exact hb.itemGuids
    · rw [Table.forall_mem_modify]
      intro a' ha'
      split_ifs
      · exact hb.auctionIds a' ha'
      · exact hb.auctionIds a' ha'
  | @gone a hmem hauctions hitems =>
    have hregistered : Registered s' := by
      have hfind : b.state.auctions.find (a.house, a.entry.id) = some a := Table.find_key hmem
      exact hb.registered.erase hfind hauctions hitems
    refine ⟨?_, hregistered, hk hb.guidLow, ?_, ?_⟩
    all_goals simp only [hauctions, hitems]
    · exact fun a' ha' => hb.entries a' (Table.mem_erase.1 ha').1
    · exact fun it hit => hb.itemGuids it (Table.mem_erase.1 hit).1
    · exact fun a' ha' => hb.auctionIds a' (Table.mem_erase.1 ha').1

theorem Change.raised (hc : Change s s') : Raised s s' := by
  cases hc with
  | same hauctions _ => exact Raised.of_mem fun a ha => hauctions ▸ ha
  | @bid a player price hmem _ hlarger _ hauctions _ =>
    unfold Raised
    intro a₁ h₁
    rw [hauctions, Table.forall_mem_modify]
    intro a₂ h₂
    split_ifs with hkey
    · intro hkey₁
      have heq₁ : a₁ = a := Table.eq_of_key_eq h₁ hmem (hkey₁.symm.trans hkey)
      have heq₂ : a₂ = a := Table.eq_of_key_eq h₂ hmem hkey
      rw [heq₁, heq₂]
      exact .inr ⟨player, price, rfl, hlarger⟩
    · intro hkey₁
      exact .inl (Table.eq_of_key_eq h₂ h₁ hkey₁)
  | gone _ hauctions _ =>
    refine Raised.of_mem fun a ha => ?_
    rw [hauctions] at ha
    exact (Table.mem_erase.1 ha).1

theorem updateRows_sound (house : House) (rows : List UInt32) (hb : b.Sound) :
    Book.Sound { b with state := rows.foldl (updateRow env time house) b.state } ∧
      ∀ a ∈ (rows.foldl (updateRow env time house) b.state).auctions, a ∈ b.state.auctions := by
  induction rows generalizing b with
  | nil => exact ⟨hb, fun _ ha => ha⟩
  | cons id rows ih =>
    obtain ⟨hchange, hkeeps, hsub⟩ := updateRow_change env time (s := b.state) house id
    have hrest := ih (b := { b with state := updateRow env time house b.state id })
      (hchange.sound hkeeps hb)
    exact ⟨hrest.1, fun a ha => hsub a (hrest.2 a ha)⟩

theorem request_sound (hb : b.Sound) (r : Request) :
    Book.Sound { b with state := step env b.state r } ∧ Raised b.state (step env b.state r) := by
  cases r with
  | placeBid time player creature auctionId price =>
    obtain ⟨hchange, hkeeps⟩ := placeBid_change env time hb.guidLow player creature auctionId
      price
    exact ⟨hchange.sound hkeeps hb, hchange.raised⟩
  | removeItem time player creature auctionId =>
    obtain ⟨hchange, hkeeps⟩ := removeItem_change env time (s := b.state) player creature
      auctionId
    exact ⟨hchange.sound hkeeps hb, hchange.raised⟩
  | update time house rows =>
    unfold step update
    dsimp only
    split_ifs
    · exact ⟨hb, Raised.of_mem fun _ ha => ha⟩
    · obtain ⟨hsound, hsub⟩ := updateRows_sound env time house rows hb
      exact ⟨hsound, Raised.of_mem hsub⟩

theorem ownDifferences_le (hb : b.Sound) (r : Request) :
    ∀ d ∈ ownDifferences env b.state r, d.2 ≤ d.1 := by
  cases r with
  | placeBid time player creature auctionId price =>
    unfold ownDifferences
    dsimp only
    cases ha : creature.bind fun house => b.state.auctions.find (house, auctionId) with
    | none => simp
    | some a =>
      obtain ⟨house, rfl, hfind⟩ := Option.bind_eq_some_iff.1 ha
      have hmem := (Table.of_find hfind).1
      have hkey := (Table.of_find hfind).2
      dsimp only [step]
      rcases placeBid_cases env time b.state player (some house) auctionId price with
        heq | ⟨house', a', c, hhouse, hfind', -, -, hpass, hdone⟩
      · rw [heq, Table.find_key hmem]
        simp
      obtain rfl := Option.some.inj hhouse
      obtain rfl : a = a' := Option.some.inj (hfind.symm.trans hfind')
      obtain ⟨-, rfl⟩ := Prod.mk.inj hkey
      rcases hdone with ⟨-, heq⟩ | ⟨hbuyout, -, heq⟩
      · rw [heq, hkey, find_bidOn env time hfind]
        intro d hd
        dsimp only at hd
        split_ifs at hd
        · cases hd
        · rw [List.mem_singleton.1 hd]
          exact UInt32.le_of_lt hpass.bid
        · cases hd
      · rw [heq, hkey, auctions_buyOut, Table.find_erase, if_pos rfl]
        intro d hd
        dsimp only at hd
        split_ifs at hd
        · rw [List.mem_singleton.1 hd]
          exact UInt32.le_of_lt ((hb.entries a hmem).buyout (UInt32.pos_iff_ne_zero.2 hbuyout))
        · cases hd
  | removeItem time player creature auctionId => exact nofun
  | update time house rows => exact nofun

/-- An auction and an item that the server has made up come into the book. -/
theorem Book.addAuction_sound (hb : b.Sound) {house : House} {cloned : Bool} {item : Item}
    {a : AuctionEntry} (hguid : a.itemGUIDLow = guidLoPart item.guid) (hid : a.id = b.auctionId)
    (hbidder : a.bidder = 0) (hbid : a.bid = 0)
    (hitem : if cloned then guidLoPart item.guid = b.hiItemGuid
      else guidLoPart item.guid < b.hiItemGuid ∧ b.state.aItems.find (guidLoPart item.guid) = none) :
    (∀ b', b.addAuction house cloned item a = some b' →
        b'.Sound ∧ Raised b.state b'.state) ∧
      (b.addAuction house cloned item a = none →
        b.hiItemGuid ≥ 0xFFFFFFFE ∨ b.auctionId ≥ 0xFFFFFFFE) := by
  -- neither the item nor the auction is in the book
  have hfresh : ∀ it ∈ b.state.aItems, guidLoPart it.guid ≠ guidLoPart item.guid := by
    intro it hit heq
    cases cloned with
    | true =>
      rw [if_pos rfl] at hitem
      have hlt := hb.itemGuids it hit
      rw [heq, hitem] at hlt
      exact UInt32.lt_irrefl _ hlt
    | false => exact Table.find_eq_none.1 hitem.2 it hit heq
  have hnew : ∀ a' ∈ b.state.auctions, a'.key ≠ (Posted.mk house a).key := by
    intro a' ha' heq
    have hlt := hb.auctionIds a' ha'
    have hid' : a'.entry.id = a.id := congrArg Prod.snd heq
    rw [hid', hid] at hlt
    exact UInt32.lt_irrefl _ hlt
  have hnone : ¬ (b.state.aItems.find (guidLoPart item.guid)).isSome = true := by
    rw [Table.find_eq_none.2 hfresh]
    exact Bool.false_ne_true
  unfold Book.addAuction
  by_cases hcounters : (cloned && b.hiItemGuid ≥ 0xFFFFFFFE || b.auctionId ≥ 0xFFFFFFFE) = true
  · rw [if_pos hcounters]
    refine ⟨nofun, fun _ => ?_⟩
    simp only [Bool.or_eq_true, Bool.and_eq_true, decide_eq_true_eq] at hcounters
    exact hcounters.imp_left And.right
  rw [if_neg hcounters, if_neg hnone]
  refine ⟨fun b' hb' => ?_, nofun⟩
  obtain rfl := Option.some.inj hb'
  simp only [Bool.or_eq_true, Bool.and_eq_true, decide_eq_true_eq, not_or, not_and,
    ge_iff_le, UInt32.not_le] at hcounters
  -- no counter wraps, as the server shuts down before
  have hidlt : b.auctionId < b.auctionId + 1 := FixedWidth.lt_add_one_of_lt hcounters.2
  have hguidlt : ∀ g, g < b.hiItemGuid ∨ g = guidLoPart item.guid →
      g < if cloned then b.hiItemGuid + 1 else b.hiItemGuid := by
    intro g hg
    cases cloned with
    | true =>
      have hlt := FixedWidth.lt_add_one_of_lt (hcounters.1 rfl)
      rw [if_pos rfl] at hitem ⊢
      rcases hg with hg | rfl
      · exact UInt32.lt_trans hg hlt
      · rw [hitem]
        exact hlt
    | false =>
      rcases hg with hg | rfl
      · exact hg
      · exact hitem.1
  constructor
  · constructor
    · intro a' ha'
      rcases Table.mem_insert.1 ha' with rfl | ⟨ha', -⟩
      · refine ⟨iff_of_true hbidder hbid, fun hbuyout => ?_⟩
        rw [hbid]
        exact hbuyout
      · exact hb.entries a' ha'
    · exact hb.registered.insert hguid.symm hfresh hnew rfl rfl
    · exact hb.guidLow
    · intro it hit
      rcases Table.mem_insert.1 hit with rfl | ⟨hit, -⟩
      · exact hguidlt _ (.inr rfl)
      · exact hguidlt _ (.inl (hb.itemGuids it hit))
    · intro a' ha'
      rcases Table.mem_insert.1 ha' with rfl | ⟨ha', -⟩
      · show a.id < _
        rw [hid]
        exact hidlt
      · exact UInt32.lt_trans (hb.auctionIds a' ha') hidlt
  · intro a₁ h₁ a₂ h₂ hkey
    rcases Table.mem_insert.1 h₂ with rfl | ⟨h₂, -⟩
    · exact absurd hkey.symm (hnew a₁ h₁)
    · exact .inl (Table.eq_of_key_eq h₂ h₁ hkey)

theorem Book.sell_sound (hb : b.Sound) (sellEnv : SellEnv) (pkt : SellPacket) (player : UInt32)
    (house : House) {inv : Inventory} (hinv : issued b.hiItemGuid inv = true) :
    (∀ b', b.sell sellEnv pkt player house inv = some b' → b'.Sound ∧ Raised b.state b'.state) ∧
      (b.sell sellEnv pkt player house inv = none →
        b.hiItemGuid ≥ 0xFFFFFFFE ∨ b.auctionId ≥ 0xFFFFFFFE) := by
  have hsame : (∀ b', some b = some b' → b'.Sound ∧ Raised b.state b'.state) ∧
      (some b = none → b.hiItemGuid ≥ 0xFFFFFFFE ∨ b.auctionId ≥ 0xFFFFFFFE) := by
    refine ⟨fun b' hb' => ?_, nofun⟩
    obtain rfl := Option.some.inj hb'
    exact ⟨hb, Raised.of_mem fun _ ha => ha⟩
  unfold Book.sell
  cases hp : b.state.findPlayer player with
  | none => exact hsame
  | some c =>
    dsimp only
    rcases hsell : handleAuctionSellItem (b.sellEnv sellEnv) pkt ⟨player, c.money, inv⟩ with
      ⟨seller, result⟩
    dsimp only
    split
    next a item hfirst =>
      obtain ⟨item', hfirst', hfree, hid, hbidder, hbid, hguid⟩ := handleAuctionSellItem_ok hsell
      obtain rfl : item = item' := Option.some.inj (hfirst.symm.trans hfirst')
      have hsound : Book.Sound { b with state := { b.state with
          characters := b.state.characters.modify player
            (fun c => { c with money := seller.money }) fun _ => rfl } } := by
        refine ⟨hb.entries, ⟨hb.registered.item, hb.registered.auction, hb.registered.single⟩, ?_,
          hb.itemGuids, hb.auctionIds⟩
        rw [Table.forall_mem_modify]
        intro c hc
        split_ifs
        · exact hb.guidLow c hc
        · exact hb.guidLow c hc
      refine Book.addAuction_sound hsound ?_ hid hbidder hbid ?_
      · rw [hguid]
        split_ifs
        · rfl
        · exact (guidLoPart_makeItemGuid _).symm
      · have hmem : guidLoPart item.guid < b.hiItemGuid := by
          obtain ⟨q, -, hget⟩ := Option.bind_eq_some_iff.1 hfirst
          exact of_decide_eq_true (List.all_eq_true.1 hinv item (getItemByGuid_some hget).1)
        rw [hguid]
        cases hmoved : movesStack pkt item with
        | true =>
          refine ⟨hmem, ?_⟩
          exact Option.isSome_eq_false_iff.1 hfree |> Option.isNone_iff_eq_none.1
        | false => exact guidLoPart_makeItemGuid _
    next => exact hsame

/-! ### Runs -/

/-- What holds of one request: bids only rise, the difference that is paid for a higher bid does not
wrap, and no assertion fails; the server stops only when a counter is at its end. -/
def Book.StepOk (env : Env) (b : Book) (r : BookRequest) : Prop :=
  (∀ b', bookStep env b r = some b' → Raised b.state b'.state) ∧
    (∀ q, r = .request q → ∀ d ∈ ownDifferences env b.state q, d.2 ≤ d.1) ∧
    (bookStep env b r = none → b.hiItemGuid ≥ 0xFFFFFFFE ∨ b.auctionId ≥ 0xFFFFFFFE)

/-- One step keeps the book sound. -/
theorem bookStep_sound (hb : b.Sound) (r : BookRequest) :
    (∀ b', bookStep env b r = some b' → b'.Sound) ∧ b.StepOk env r := by
  unfold Book.StepOk
  cases r with
  | sell sellEnv pkt player house inv =>
    unfold bookStep
    dsimp only
    by_cases hinv : issued b.hiItemGuid inv = true
    · rw [if_pos hinv]
      obtain ⟨hsome, hnone⟩ := Book.sell_sound hb sellEnv pkt player house hinv
      exact ⟨fun b' hb' => (hsome b' hb').1, fun b' hb' => (hsome b' hb').2, nofun, hnone⟩
    · rw [if_neg hinv]
      refine ⟨fun b' hb' => ?_, fun b' hb' => ?_, nofun, nofun⟩
      · exact Option.some.inj hb' ▸ hb
      · exact Option.some.inj hb' ▸ Raised.of_mem fun _ ha => ha
  | request r =>
    obtain ⟨hsound, hraised⟩ := request_sound env hb r
    refine ⟨fun b' hb' => ?_, fun b' hb' => ?_, fun q hq => ?_, nofun⟩
    · exact Option.some.inj hb' ▸ hsound
    · exact Option.some.inj hb' ▸ hraised
    · obtain rfl := BookRequest.request.inj hq
      exact ownDifferences_le env hb r
  | createItem =>
    unfold bookStep
    dsimp only
    by_cases hend : b.hiItemGuid ≥ 0xFFFFFFFE
    · rw [if_pos hend]
      exact ⟨nofun, nofun, nofun, fun _ => .inl hend⟩
    · rw [if_neg hend]
      have hlt := FixedWidth.lt_add_one_of_lt (UInt32.not_le.1 hend)
      refine ⟨fun b' hb' => ?_, fun b' hb' => ?_, nofun, nofun⟩
      · obtain rfl := Option.some.inj hb'
        exact { hb with itemGuids := fun it hit => UInt32.lt_trans (hb.itemGuids it hit) hlt }
      · obtain rfl := Option.some.inj hb'
        exact Raised.of_mem fun _ ha => ha

/-- **Main result.** Along any run from a sound book, as long as the server runs, the book is sound:
an auction has a bid exactly if it has a bidder, the bid is below the buyout, and auctions and items
correspond to each other. At every step a new bid is larger than the bid before, and what is paid for
it does not wrap. -/
theorem auction_book_sound (env : Env) (b : Book) (hb : b.Sound) (rs : List BookRequest) :
    Runs.Along (Runs.stepOption (bookStep env)) (fun s => ∀ b', s = some b' → b'.Sound) (some b)
        rs ∧
      Runs.EachStep (Runs.stepOption (bookStep env)) (fun s r => ∀ b', s = some b' → b'.StepOk env r)
        (some b) rs := by
  have hstart : ∀ b', some b = some b' → b'.Sound := fun b' hb' => Option.some.inj hb' ▸ hb
  have hstep : ∀ (s : Option Book) (r : BookRequest), (∀ b', s = some b' → b'.Sound) → True →
      ∀ b', Runs.stepOption (bookStep env) s r = some b' → b'.Sound := by
    intro s r hs _ b' hb'
    obtain ⟨b₁, hb₁, hnext⟩ := Option.bind_eq_some_iff.1 hb'
    exact (bookStep_sound env (hs b₁ hb₁) r).1 b' hnext
  have hall : Runs.EachStep (Runs.stepOption (bookStep env)) (fun _ _ => True) (some b) rs :=
    fun _ _ _ => trivial
  refine ⟨Runs.along_of_inv hall hstart hstep, hall.mono_inv hstart hstep ?_⟩
  intro s r hs _ b' hb'
  exact (bookStep_sound env (hs b' hb') r).2

theorem Book.sound_of_empty (hauctions : b.state.auctions = Table.empty _)
    (hitems : b.state.aItems = Table.empty _) (hguid : ∀ c ∈ b.state.characters, c.guidLow ≠ 0) :
    b.Sound := by
  refine ⟨?_, ⟨?_, ?_, ?_⟩, hguid, ?_, ?_⟩
  all_goals simp only [hauctions, hitems]
  all_goals exact fun _ h => absurd h Table.not_mem_empty

/-- The characters of `openingState`, and no auction yet. -/
def openingBook : Book where
  state := { openingState with auctions := Table.empty _ }
  hiItemGuid := 8
  auctionId := 1

/-- A stack of five is put up with a buyout of 500, and gets two bids. -/
def openingRequests : List BookRequest :=
  [.sell sampleEnv { samplePacket [(7, 5)] with buyout := 500 } 3 .neutral sampleSeller.inventory,
    .request (.placeBid 0 2 (some .neutral) 1 120), .request (.placeBid 1 2 (some .neutral) 1 150)]

theorem auction_book_sound_opening :
    Runs.Along (Runs.stepOption (bookStep twentiethEnv)) (fun s => ∀ b', s = some b' → b'.Sound)
        (some openingBook) openingRequests ∧
      Runs.EachStep (Runs.stepOption (bookStep twentiethEnv))
        (fun s r => ∀ b', s = some b' → b'.StepOk twentiethEnv r) (some openingBook)
        openingRequests := by
  refine auction_book_sound twentiethEnv openingBook (Book.sound_of_empty rfl rfl ?_) _
  exact (by decide : ∀ c ∈ openingState.characters.toList, c.guidLow ≠ 0)

example : ((openingRequests.foldl (Runs.stepOption (bookStep twentiethEnv)) (some openingBook)).map
    fun b => b.state.auctions.toList.map fun a => (a.entry.itemGUIDLow, a.entry.bidder,
      a.entry.bid)) = some [(7, 2, 150)] := by
  decide

end FaceCore.Auction
