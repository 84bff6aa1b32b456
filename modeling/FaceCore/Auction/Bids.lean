import FaceCore.Auction.Sell
import FaceCore.Lib.Runs
import FaceCore.Lib.Table
import FaceCore.Mail.Draft

/-!
# Bids on auctions

`WorldSession::HandleAuctionPlaceBid`, `WorldSession::HandleAuctionRemoveItem`,
`AuctionHouseObject::Update` and the mails that `AuctionHouseMgr` sends from them.

A bid leaves the bidder's purse when it is placed and is held by the auction until it is outbid, the
auction is cancelled, bought out or expires. A player who raises his own bid pays the difference.

* `State.gold`: the gold of all characters, in all mails, and in the bids that auctions hold;
* `returnedDeposit`, `displaced`: the deposits that a request pays back, and the bids that it
  displaces;
* `auction_gold_conserved`: along any run of requests, the gold grows at most by returned deposits,
  and exactly the displaced bids are refunded, as long as `ModifyMoney` takes what bidders owe for
  debits (`Paid`). A purse of more than `2^31` copper can bid an amount that it takes for a credit.

`GetAuctionCut` and `GetAuctionOutBid` compute with floats and are parameters. Notifications,
achievements and the database are left out: the rows that the query of `Update` yields are given.
-/

namespace FaceCore.Auction

/-- `MailAuctionAnswers`. -/
inductive MailAuctionAnswers
  | outbidded
  | won
  | successful
  | expired
  | cancelledToBidder
  | canceled
  | salePending
  deriving DecidableEq

/-- The number of an answer. -/
def MailAuctionAnswers.code : MailAuctionAnswers → ℕ
  | .outbidded => 0
  | .won => 1
  | .successful => 2
  | .expired => 3
  | .cancelledToBidder => 4
  | .canceled => 5
  | .salePending => 6

/-- The three objects that `AuctionHouseMgr::GetAuctionsMap` chooses from. -/
inductive House
  | alliance
  | horde
  | neutral
  deriving DecidableEq

/-- A character: his account, whether he is in the world, and his coinage. -/
structure Character where
  guidLow : UInt32
  accountId : UInt32
  online : Bool
  money : UInt32

/-- An auction in the map of its house. -/
structure Posted where
  house : House
  entry : AuctionEntry

/-- `AuctionsMap` is a map by `Id` for each house. -/
def Posted.key (a : Posted) : House × UInt32 := (a.house, a.entry.id)

/-- An auction with another bidder and bid. -/
def Posted.withBid (bidder bid : UInt32) (a : Posted) : Posted :=
  { a with entry := { a.entry with bidder := bidder, bid := bid } }

/-- A mail of `AuctionHouseMgr`, with the answer and the auction that its subject names. -/
structure SentMail where
  answer : MailAuctionAnswers
  auctionId : UInt32
  mail : Mail

/-- What is not computed here: `AuctionEntry::GetAuctionCut`, `GetAuctionOutBid`, `GetHouseId`, and
`CONFIG_MAIL_DELIVERY_DELAY`. -/
structure Env where
  auctionCut : AuctionEntry → UInt32
  auctionOutBid : AuctionEntry → UInt32
  houseId : AuctionEntry → UInt32
  mailDeliveryDelay : ℕ

/-- The characters, the auctions and their items, and the mails that were sent. -/
structure State where
  characters : Table Character.guidLow
  auctions : Table Posted.key
  aItems : Table fun it : Item => guidLoPart it.guid
  mails : List SentMail
  mailId : UInt32

/-- `ObjectAccessor::FindPlayer`: a character in the world. -/
def State.findPlayer (s : State) (guid : UInt32) : Option Character :=
  (s.characters.find guid).filter Character.online

/-- `ObjectMgr::GetPlayerAccountIdByGUID`. -/
def State.accountIdByGuid (s : State) (guid : UInt32) : UInt32 :=
  ((s.characters.find guid).map Character.accountId).getD 0

/-- The test before a mail is sent: the receiver is online or has an account. -/
def State.receiverExists (s : State) (guid : UInt32) : Bool :=
  (s.findPlayer guid).isSome || s.accountIdByGuid guid ≠ 0

/-- `ModifyMoney` of a player. -/
def State.modifyMoney (s : State) (guid : UInt32) (amount : Int32) : State :=
  { s with
    characters := s.characters.modify guid
      (fun c => { c with money := (FaceCore.modifyMoney c.money amount).1 }) fun _ => rfl }

/-! ### Mails -/

/-- `AuctionEntry::BuildAuctionMailSubject`. -/
def buildAuctionMailSubject (a : AuctionEntry) (response : MailAuctionAnswers) : String :=
  toString a.itemEntry ++ ":0:" ++ toString response.code ++ ":" ++ toString a.id ++ ":" ++
    toString a.itemCount

/-- `AuctionEntry::BuildAuctionMailBody`: the guid as sixteen places in hexadecimal. -/
def buildAuctionMailBody (lowGuid bid buyout deposit cut : UInt32) : String :=
  String.ofList (List.leftpad 16 ' ' (Nat.toDigits 16 lowGuid.toNat)) ++ ":" ++ toString bid ++
    ":" ++ toString buyout ++ ":" ++ toString deposit ++ ":" ++ toString cut

/-- `MailDraft::SendMailTo` for a draft about an auction. -/
def State.sendMailTo (env : Env) (time : ℕ) (s : State) (a : AuctionEntry)
    (response : MailAuctionAnswers) (receiver : UInt32) (draft : MailDraft) (deliverDelay : ℕ) :
    State :=
  { s with
    mails := s.mails ++ [⟨response, a.id,
      draft.sendMailTo s.mailId receiver (env.houseId a) mailCheckMaskCopied time deliverDelay⟩]
    mailId := s.mailId + 1 }

/-- `AuctionHouseMgr::SendAuctionWonMail`. -/
def sendAuctionWonMail (env : Env) (time : ℕ) (s : State) (a : AuctionEntry) : State :=
  match s.aItems.find a.itemGUIDLow with
  | none => s
  | some item =>
    if s.receiverExists a.bidder then
      s.sendMailTo env time a .won a.bidder
        ((MailDraft.new (buildAuctionMailSubject a .won)
          (buildAuctionMailBody a.owner a.bid a.buyout 0 0)).addItem item) 0
    else s

/-- `AuctionHouseMgr::SendAuctionSalePendingMail`. -/
def sendAuctionSalePendingMail (env : Env) (time : ℕ) (s : State) (a : AuctionEntry) : State :=
  if s.receiverExists a.owner then
    s.sendMailTo env time a .salePending a.owner
      (MailDraft.new (buildAuctionMailSubject a .salePending)
        (buildAuctionMailBody a.bidder a.bid a.buyout a.deposit (env.auctionCut a))) 0
  else s

/-- `AuctionHouseMgr::SendAuctionSuccessfulMail`. -/
def sendAuctionSuccessfulMail (env : Env) (time : ℕ) (s : State) (a : AuctionEntry) : State :=
  if s.receiverExists a.owner then
    let profit := a.bid + a.deposit - env.auctionCut a
    s.sendMailTo env time a .successful a.owner
      ((MailDraft.new (buildAuctionMailSubject a .successful)
        (buildAuctionMailBody a.bidder a.bid a.buyout a.deposit (env.auctionCut a))).addMoney profit)
      env.mailDeliveryDelay
  else s

/-- `AuctionHouseMgr::SendAuctionExpiredMail`. -/
def sendAuctionExpiredMail (env : Env) (time : ℕ) (s : State) (a : AuctionEntry) : State :=
  match s.aItems.find a.itemGUIDLow with
  | none => s
  | some item =>
    if s.receiverExists a.owner then
      s.sendMailTo env time a .expired a.owner
        ((MailDraft.new (buildAuctionMailSubject a .expired)
          (buildAuctionMailBody 0 0 a.buyout a.deposit 0)).addItem item) 0
    else s

/-- `AuctionHouseMgr::SendAuctionOutbiddedMail`. -/
def sendAuctionOutbiddedMail (env : Env) (time : ℕ) (s : State) (a : AuctionEntry) : State :=
  if s.receiverExists a.bidder then
    s.sendMailTo env time a .outbidded a.bidder
      ((MailDraft.new (buildAuctionMailSubject a .outbidded)
        (buildAuctionMailBody a.owner a.bid a.buyout a.deposit (env.auctionCut a))).addMoney a.bid) 0
  else s

/-- `AuctionHouseMgr::SendAuctionCancelledToBidderMail`. -/
def sendAuctionCancelledToBidderMail (env : Env) (time : ℕ) (s : State) (a : AuctionEntry) :
    State :=
  if s.receiverExists a.bidder then
    s.sendMailTo env time a .cancelledToBidder a.bidder
      ((MailDraft.new (buildAuctionMailSubject a .cancelledToBidder)
        (buildAuctionMailBody a.owner a.bid a.buyout a.deposit 0)).addMoney a.bid) 0
  else s

/-! ### Requests -/

/-- `RemoveAItem` and `RemoveAuction`. -/
def State.removeAuction (s : State) (house : House) (a : AuctionEntry) : State :=
  { s with
    aItems := s.aItems.erase a.itemGUIDLow
    auctions := s.auctions.erase (house, a.id) }

/-- Set bidder and bid of an auction. -/
def State.setBid (s : State) (house : House) (id bidder bid : UInt32) : State :=
  { s with
    auctions := s.auctions.modify (house, id) (Posted.withBid bidder bid) fun _ => rfl }

/-- The branch of `HandleAuctionPlaceBid` for a bid below the buyout. -/
def bidOn (env : Env) (time : ℕ) (s : State) (house : House) (auction : AuctionEntry)
    (player price : UInt32) : State :=
  let s :=
    if auction.bidder > 0 then
      if auction.bidder = player then s.modifyMoney player (-(price - auction.bid).toInt32)
      else (sendAuctionOutbiddedMail env time s auction).modifyMoney player (-price.toInt32)
    else s.modifyMoney player (-price.toInt32)
  s.setBid house auction.id player price

/-- The branch of `HandleAuctionPlaceBid` for a buyout. -/
def buyOut (env : Env) (time : ℕ) (s : State) (house : House) (auction : AuctionEntry)
    (player : UInt32) : State :=
  let s :=
    if player = auction.bidder then
      s.modifyMoney player (-(auction.buyout - auction.bid).toInt32)
    else
      let s := s.modifyMoney player (-auction.buyout.toInt32)
      if auction.bidder ≠ 0 then sendAuctionOutbiddedMail env time s auction else s
  let auction := { auction with bidder := player, bid := auction.buyout }
  let s := sendAuctionSalePendingMail env time s auction
  let s := sendAuctionSuccessfulMail env time s auction
  let s := sendAuctionWonMail env time s auction
  s.removeAuction house auction

/-- `WorldSession::HandleAuctionPlaceBid`. `creature` is the house of the auctioneer, if the player
can interact with him. -/
def handleAuctionPlaceBid (env : Env) (time : ℕ) (s : State) (player : UInt32)
    (creature : Option House) (auctionId price : UInt32) : State :=
  if auctionId = 0 || price = 0 then s
  else
    match creature with
    | none => s
    | some house =>
      match s.findPlayer player, s.auctions.find (house, auctionId) with
      | some p, some ⟨_, auction⟩ =>
        if auction.owner = player then s
        else if (s.findPlayer auction.owner).isNone &&
            s.accountIdByGuid auction.owner = p.accountId then s
        -- cheating
        else if price ≤ auction.bid || price < auction.startbid then s
        -- price too low for next bid if not buyout
        else if (price < auction.buyout || auction.buyout = 0) &&
            price < auction.bid + env.auctionOutBid auction then s
        else if !hasEnoughMoney p.money price then s
        else if price < auction.buyout || auction.buyout = 0 then
          bidOn env time s house auction player price
        else buyOut env time s house auction player
      | _, _ => s

/-- The part of `HandleAuctionRemoveItem` that cancels the auction. -/
def cancelAuction (env : Env) (time : ℕ) (s : State) (house : House) (auction : AuctionEntry)
    (player : UInt32) (item : Item) : State :=
  let s :=
    -- if there is a bidder, he is sent the money he paid
    if auction.bidder > 0 then
      (sendAuctionCancelledToBidderMail env time s auction).modifyMoney player
        (-(env.auctionCut auction).toInt32)
    else s
  let s := s.sendMailTo env time auction .canceled player
    ((MailDraft.new (buildAuctionMailSubject auction .canceled)
      (buildAuctionMailBody 0 0 auction.buyout auction.deposit 0)).addItem item) 0
  s.removeAuction house auction

/-- `WorldSession::HandleAuctionRemoveItem`. -/
def handleAuctionRemoveItem (env : Env) (time : ℕ) (s : State) (player : UInt32)
    (creature : Option House) (auctionId : UInt32) : State :=
  match creature with
  | none => s
  | some house =>
    match s.findPlayer player, s.auctions.find (house, auctionId) with
    | some p, some ⟨_, auction⟩ =>
      if auction.owner ≠ player then s
      else
        match s.aItems.find auction.itemGUIDLow with
        | none => s
        | some item =>
          if auction.bidder > 0 && !hasEnoughMoney p.money (env.auctionCut auction) then s
          else cancelAuction env time s house auction player item
    | _, _ => s

/-- One row of the loop of `Update`. -/
def updateRow (env : Env) (time : ℕ) (house : House) (s : State) (id : UInt32) : State :=
  match s.auctions.find (house, id) with
  | none => s
  | some ⟨_, auction⟩ =>
    let s :=
      if auction.bidder = 0 then sendAuctionExpiredMail env time s auction
      else sendAuctionWonMail env time (sendAuctionSuccessfulMail env time s auction) auction
    s.removeAuction house auction

/-- `AuctionHouseObject::Update`, where the query for expired auctions yields `rows`. -/
def update (env : Env) (time : ℕ) (s : State) (house : House) (rows : List UInt32) : State :=
  if s.auctions.toList.all fun a => a.house ≠ house then s
  else rows.foldl (updateRow env time house) s

/-- What can happen to the auctions. -/
inductive Request
  | placeBid (time : ℕ) (player : UInt32) (creature : Option House) (auctionId price : UInt32)
  | removeItem (time : ℕ) (player : UInt32) (creature : Option House) (auctionId : UInt32)
  | update (time : ℕ) (house : House) (rows : List UInt32)

/-- The state after a request. -/
def step (env : Env) (s : State) : Request → State
  | .placeBid time player creature auctionId price =>
    handleAuctionPlaceBid env time s player creature auctionId price
  | .removeItem time player creature auctionId =>
    handleAuctionRemoveItem env time s player creature auctionId
  | .update time house rows => update env time s house rows

/-! ### Gold and refunds -/

/-- The bid that an auction holds. -/
def Posted.held (a : Posted) : ℕ := if a.entry.bidder = 0 then 0 else a.entry.bid.toNat

/-- The gold of all characters. -/
def State.charGold (s : State) : ℕ := (s.characters.toList.map fun c => c.money.toNat).sum

/-- The gold in all mails. -/
def State.mailGold (s : State) : ℕ := (s.mails.map fun m => m.mail.money.toNat).sum

/-- The bids that the auctions hold. -/
def State.heldGold (s : State) : ℕ := (s.auctions.toList.map Posted.held).sum

/-- The gold of all characters, in all mails, and in the bids that the auctions hold. -/
def State.gold (s : State) : ℕ := s.charGold + s.mailGold + s.heldGold

/-- A bid that is given back: the auction, the bidder and the amount. -/
abbrev Refund := UInt32 × UInt32 × UInt32

/-- The mails that give a bid back, in the order in which they were sent. -/
def refundsOf (mails : List SentMail) : List Refund :=
  (mails.filter fun m => m.answer = .outbidded || m.answer = .cancelledToBidder).map
    fun m => (m.auctionId, m.mail.receiver, m.mail.money)

/-- The deposits that a request pays back: those of the auctions that are gone because they were
bought out, or expired with a bidder. -/
def returnedDeposit (env : Env) (s : State) (r : Request) : ℕ :=
  let gone (a : Posted) : Prop := (step env s r).auctions.find a.key = none
  match r with
  | .placeBid .. =>
    (s.auctions.toList.map fun a => if gone a then a.entry.deposit.toNat else 0).sum
  | .removeItem .. => 0
  | .update .. =>
    (s.auctions.toList.map fun a =>
      if gone a then if a.entry.bidder = 0 then 0 else a.entry.deposit.toNat else 0).sum

/-- The refund of the bid that an auction holds. -/
def Posted.refund (a : Posted) : Refund := (a.entry.id, a.entry.bidder, a.entry.bid)

/-- The bids that a request displaces: the bid of the auction it names, if another player's bid takes
its place or the auction is cancelled. -/
def displaced (env : Env) (s : State) (r : Request) : List Refund :=
  match r with
  | .placeBid _ player creature auctionId _ =>
    match creature.bind fun house => s.auctions.find (house, auctionId) with
    | none => []
    | some a =>
      if a.entry.bidder ≠ 0 ∧ a.entry.bidder ≠ player ∧
          ((step env s r).auctions.find a.key).map (·.entry.bidder) ≠ some a.entry.bidder then
        [a.refund]
      else []
  | .removeItem _ _ creature auctionId =>
    match creature.bind fun house => s.auctions.find (house, auctionId) with
    | none => []
    | some a =>
      if a.entry.bidder ≠ 0 ∧ (step env s r).auctions.find a.key = none then [a.refund] else []
  | .update .. => []

/-- What the code relies on: no character has the guid zero, and bidders can be sent mail. -/
structure WellFormed (s : State) : Prop where
  guidLow : ∀ c ∈ s.characters, c.guidLow ≠ 0
  bidder : ∀ a ∈ s.auctions, a.entry.bidder ≠ 0 → s.receiverExists a.entry.bidder = true

/-- `ModifyMoney(-int32(amount))` takes the amount from a purse that covers it. -/
def IsDebit (money : UInt32) (amount : ℕ) : Prop :=
  amount ≤ 2 ^ 31 ∨ amount = 2 ^ 31 + 1 ∧ money.toNat < 2 ^ 32 - 1

/-- What a bidder has to pay: the bid or the buyout, less what he has bid himself. -/
def Posted.due (a : Posted) (player price : UInt32) : ℕ :=
  (if price < a.entry.buyout ∨ a.entry.buyout = 0 then price else a.entry.buyout).toNat -
    if a.entry.bidder = player then a.entry.bid.toNat else 0

/-- The checks of `HandleAuctionPlaceBid` let the bid of `c` pass. -/
structure Passes (env : Env) (s : State) (player auctionId price : UInt32) (a : Posted)
    (c : Character) : Prop where
  given : auctionId ≠ 0 ∧ price ≠ 0
  online : c.online = true
  notOwner : a.entry.owner ≠ player
  notAccount : (s.findPlayer a.entry.owner).isNone = true →
    s.accountIdByGuid a.entry.owner ≠ c.accountId
  bid : a.entry.bid < price
  startbid : a.entry.startbid ≤ price
  outBid : price < a.entry.buyout ∨ a.entry.buyout = 0 →
    a.entry.bid + env.auctionOutBid a.entry ≤ price
  money : price ≤ c.money

/-- A bid that passes the checks is one that the bidder is made to pay. -/
def Paid (env : Env) (s : State) : Request → Prop
  | .placeBid _ player creature auctionId price =>
    ∀ house a c, creature = some house → s.auctions.find (house, auctionId) = some a →
      s.characters.find player = some c → Passes env s player auctionId price a c →
        IsDebit c.money (a.due player price)
  | _ => True

variable (env : Env) (time : ℕ) {s s' : State}

theorem paid_of_le {player price : UInt32} (creature : Option House) (auctionId : UInt32)
    (h : price.toNat ≤ 2 ^ 31) : Paid env s (.placeBid time player creature auctionId price) := by
  rintro house a c - - - -
  left
  unfold Posted.due
  by_cases hnot : price < a.entry.buyout ∨ a.entry.buyout = 0
  · rw [if_pos hnot]
    omega
  · have hle := UInt32.le_iff_toNat_le.1 (UInt32.not_lt.1 (not_or.1 hnot).1)
    rw [if_neg hnot]
    omega

/-! ### Mails and purses -/

/-- Only mails are sent: at most `g` gold in all, and the refunds `rs`. -/
structure Sends (s s' : State) (g : ℕ) (rs : List Refund) : Prop where
  characters : s'.characters = s.characters
  auctions : s'.auctions = s.auctions
  mailGold : s'.mailGold ≤ s.mailGold + g
  refunds : refundsOf s'.mails = refundsOf s.mails ++ rs

theorem Sends.refl (s : State) : Sends s s 0 [] :=
  ⟨rfl, rfl, le_rfl, (List.append_nil _).symm⟩

theorem Sends.trans {s₁ s₂ s₃ : State} {g g' : ℕ} {rs rs' : List Refund}
    (h : Sends s₁ s₂ g rs) (h' : Sends s₂ s₃ g' rs') : Sends s₁ s₃ (g + g') (rs ++ rs') := by
  refine ⟨h'.characters.trans h.characters, h'.auctions.trans h.auctions, ?_, ?_⟩
  · have := h.mailGold
    have := h'.mailGold
    omega
  · rw [h'.refunds, h.refunds, List.append_assoc]

theorem sends_sendMailTo (a : AuctionEntry) (response : MailAuctionAnswers) (receiver : UInt32)
    (draft : MailDraft) (delay : ℕ) :
    Sends s (s.sendMailTo env time a response receiver draft delay) draft.money.toNat
      (if response = .outbidded ∨ response = .cancelledToBidder then
        [(a.id, receiver, draft.money)] else []) := by
  refine ⟨rfl, rfl, ?_, ?_⟩
  · simp [State.mailGold, State.sendMailTo, MailDraft.sendMailTo]
  · unfold refundsOf State.sendMailTo
    rw [List.filter_append, List.map_append]
    congr 1
    split_ifs with h
    · simp [h, MailDraft.sendMailTo]
    · simp [h]

theorem sends_plain (a : AuctionEntry) {response : MailAuctionAnswers} (receiver : UInt32)
    {draft : MailDraft} (delay : ℕ) (hm : draft.money = 0) (h₁ : response ≠ .outbidded)
    (h₂ : response ≠ .cancelledToBidder) :
    Sends s (s.sendMailTo env time a response receiver draft delay) 0 [] := by
  have h := sends_sendMailTo env time (s := s) a response receiver draft delay
  rw [hm, if_neg (by simp [h₁, h₂])] at h
  exact h

theorem sends_wonMail (a : AuctionEntry) : Sends s (sendAuctionWonMail env time s a) 0 [] := by
  unfold sendAuctionWonMail
  cases s.aItems.find a.itemGUIDLow with
  | none => exact Sends.refl s
  | some item =>
    dsimp only
    split_ifs
    · exact sends_plain env time a _ 0 rfl (by decide) (by decide)
    · exact Sends.refl s

theorem sends_salePendingMail (a : AuctionEntry) :
    Sends s (sendAuctionSalePendingMail env time s a) 0 [] := by
  unfold sendAuctionSalePendingMail
  split_ifs
  · exact sends_plain env time a _ 0 rfl (by decide) (by decide)
  · exact Sends.refl s

theorem sends_expiredMail (a : AuctionEntry) :
    Sends s (sendAuctionExpiredMail env time s a) 0 [] := by
  unfold sendAuctionExpiredMail
  cases s.aItems.find a.itemGUIDLow with
  | none => exact Sends.refl s
  | some item =>
    dsimp only
    split_ifs
    · exact sends_plain env time a _ 0 rfl (by decide) (by decide)
    · exact Sends.refl s

/-- The profit is at most bid and deposit together. -/
theorem sends_successfulMail {a : AuctionEntry} (hcut : env.auctionCut a ≤ a.bid) :
    Sends s (sendAuctionSuccessfulMail env time s a) (a.bid.toNat + a.deposit.toNat) [] := by
  unfold sendAuctionSuccessfulMail
  split_ifs
  · have h := sends_sendMailTo env time (s := s) a .successful a.owner
      ((MailDraft.new (buildAuctionMailSubject a .successful)
        (buildAuctionMailBody a.bidder a.bid a.buyout a.deposit (env.auctionCut a))).addMoney
        (a.bid + a.deposit - env.auctionCut a)) env.mailDeliveryDelay
    rw [if_neg (by decide)] at h
    refine ⟨h.characters, h.auctions, h.mailGold.trans ?_, h.refunds⟩
    have hprofit : (a.bid + a.deposit - env.auctionCut a).toNat ≤
        a.bid.toNat + a.deposit.toNat := by
      have hle := UInt32.le_iff_toNat_le.1 hcut
      have hlt := a.bid.toNat_lt
      rw [UInt32.toNat_sub, UInt32.toNat_add]
      omega
    exact Nat.add_le_add_left hprofit _
  · refine ⟨rfl, rfl, Nat.le_add_right _ _, (List.append_nil _).symm⟩

theorem sends_outbiddedMail {a : AuctionEntry} (h : s.receiverExists a.bidder = true) :
    Sends s (sendAuctionOutbiddedMail env time s a) a.bid.toNat [(a.id, a.bidder, a.bid)] := by
  unfold sendAuctionOutbiddedMail
  rw [if_pos h]
  exact sends_sendMailTo env time a .outbidded a.bidder _ 0

theorem sends_cancelledToBidderMail {a : AuctionEntry} (h : s.receiverExists a.bidder = true) :
    Sends s (sendAuctionCancelledToBidderMail env time s a) a.bid.toNat
      [(a.id, a.bidder, a.bid)] := by
  unfold sendAuctionCancelledToBidderMail
  rw [if_pos h]
  exact sends_sendMailTo env time a .cancelledToBidder a.bidder _ 0

theorem receiverExists_eq (s : State) (guid : UInt32) :
    s.receiverExists guid =
      (s.characters.find guid).any fun c => c.online || c.accountId ≠ 0 := by
  unfold State.receiverExists State.findPlayer State.accountIdByGuid
  cases hfind : s.characters.find guid with
  | none => simp
  | some c => cases hon : c.online <;> simp [hon, Option.filter]

theorem receiverExists_modifyMoney (guid : UInt32) (amount : Int32) (guid' : UInt32) :
    (s.modifyMoney guid amount).receiverExists guid' = s.receiverExists guid' := by
  rw [receiverExists_eq, receiverExists_eq, State.modifyMoney, Table.find_modify]
  split_ifs with h
  · rw [h, Option.any_map]
  · rfl

theorem charGold_modifyMoney {guid : UInt32} {c : Character} (amount : Int32)
    (h : s.characters.find guid = some c) :
    (s.modifyMoney guid amount).charGold + c.money.toNat =
      s.charGold + (FaceCore.modifyMoney c.money amount).1.toNat :=
  Table.sum_modify
    (f := fun c : Character => { c with money := (FaceCore.modifyMoney c.money amount).1 })
    (fun _ => rfl) h fun c => c.money.toNat

theorem heldGold_setBid {house : House} {id : UInt32} {a : Posted} (bidder bid : UInt32)
    (h : s.auctions.find (house, id) = some a) (hb : bidder ≠ 0) :
    (s.setBid house id bidder bid).heldGold + a.held = s.heldGold + bid.toNat := by
  have hsum := Table.sum_modify (f := Posted.withBid bidder bid) (fun _ => rfl) h Posted.held
  have hheld : (a.withBid bidder bid).held = bid.toNat := if_neg hb
  rw [hheld] at hsum
  exact hsum

theorem heldGold_removeAuction {house : House} {a : Posted}
    (h : s.auctions.find (house, a.entry.id) = some a) :
    (s.removeAuction house a.entry).heldGold + a.held = s.heldGold :=
  Table.sum_erase h Posted.held

theorem charGold_debit {guid x : UInt32} {c : Character} (hc : s.characters.find guid = some c)
    (hx : x ≤ c.money) (hd : IsDebit c.money x.toNat) :
    (s.modifyMoney guid (-x.toInt32)).charGold + x.toNat = s.charGold := by
  have hle := UInt32.le_iff_toNat_le.1 hx
  have hsum := charGold_modifyMoney (-x.toInt32) hc
  rcases Nat.eq_zero_or_pos x.toNat with h0 | hpos
  · have hmoney := (@modifyMoney_debit c.money x (by omega) hle).1
    omega
  · have hmoney := (modifyMoney_debit_iff hpos).2 ⟨hle, hd⟩
    omega

theorem charGold_debit_le {guid x : UInt32} {c : Character}
    (hc : s.characters.find guid = some c) (hx : x ≤ c.money) :
    (s.modifyMoney guid (-x.toInt32)).charGold ≤ s.charGold := by
  by_cases hd : IsDebit c.money x.toNat
  · have hgold := charGold_debit hc hx hd
    omega
  · have hsum := charGold_modifyMoney (-x.toInt32) hc
    unfold IsDebit at hd
    rw [(modifyMoney_debit_self_iff (UInt32.le_iff_toNat_le.1 hx)).2 (.inr (by omega))] at hsum
    omega

/-- A credit, which may be refused or taken for a debit. -/
theorem charGold_credit {guid x : UInt32} {c : Character}
    (hc : s.characters.find guid = some c) :
    (s.modifyMoney guid x.toInt32).charGold ≤ s.charGold + x.toNat := by
  have hsum := charGold_modifyMoney x.toInt32 hc
  have hadd : (c.money + x).toNat ≤ c.money.toNat + x.toNat := by
    rw [UInt32.toNat_add]
    exact Nat.mod_le _ _
  have hmoney : (FaceCore.modifyMoney c.money x.toInt32).1.toNat ≤ c.money.toNat + x.toNat := by
    rw [modifyMoney_toInt32]
    split_ifs
    · exact Nat.le_add_right _ _
    · exact hadd
    · exact Nat.zero_le _
    · exact hadd
    · exact Nat.le_add_right _ _
  omega

theorem WellFormed.of_sends {g : ℕ} {rs : List Refund} (hw : WellFormed s) (h : Sends s s' g rs) :
    WellFormed s' := by
  refine ⟨h.characters ▸ hw.guidLow, fun a ha hb => ?_⟩
  rw [receiverExists_eq, h.characters, ← receiverExists_eq]
  exact hw.bidder a (h.auctions ▸ ha) hb

theorem WellFormed.modifyMoney (hw : WellFormed s) (guid : UInt32) (amount : Int32) :
    WellFormed (s.modifyMoney guid amount) := by
  refine ⟨fun c' hmem => ?_, fun a ha hb => ?_⟩
  · obtain ⟨c₀, hc₀, rfl⟩ := List.mem_map.1 hmem
    split_ifs <;> exact hw.guidLow c₀ hc₀
  · rw [receiverExists_modifyMoney]
    exact hw.bidder a ha hb

theorem WellFormed.setBid {house : House} {id player bid : UInt32} (hw : WellFormed s)
    (hp : s.receiverExists player = true) : WellFormed (s.setBid house id player bid) := by
  refine ⟨hw.guidLow, fun a hmem => ?_⟩
  obtain ⟨a₀, ha₀, rfl⟩ := List.mem_map.1 hmem
  split_ifs
  · exact fun _ => hp
  · exact hw.bidder a₀ ha₀

theorem WellFormed.removeAuction {house : House} {a : AuctionEntry} (hw : WellFormed s) :
    WellFormed (s.removeAuction house a) :=
  ⟨hw.guidLow, fun b hb => hw.bidder b (Table.mem_erase.1 hb).1⟩

/-! ### A bid -/

theorem receiverExists_of_online {guid : UInt32} {c : Character}
    (hc : s.characters.find guid = some c) (hon : c.online = true) :
    s.receiverExists guid = true := by
  rw [receiverExists_eq, hc, Option.any_some, hon, Bool.true_or]

/-- What a purse and the mails do while a bid is replaced: the new bid is paid, the old one goes back
to another bidder or counts for its own. -/
structure Pays (s s' : State) (a : Posted) (player price : UInt32) : Prop where
  wellFormed : WellFormed s'
  auctions : s'.auctions = s.auctions
  gold : s'.charGold + s'.mailGold + price.toNat ≤ s.charGold + s.mailGold + a.held
  refunds : refundsOf s'.mails = refundsOf s.mails ++
    if a.entry.bidder ≠ 0 ∧ a.entry.bidder ≠ player then [a.refund] else []
  receiver : ∀ guid, s'.receiverExists guid = s.receiverExists guid

theorem Sends.receiverExists {g : ℕ} {rs : List Refund} (h : Sends s s' g rs) (guid : UInt32) :
    s'.receiverExists guid = s.receiverExists guid := by
  rw [receiverExists_eq, receiverExists_eq, h.characters]

/-- A player who has no bid on the auction pays the whole price. -/
theorem pays_full {a : Posted} {player price : UInt32} {c : Character} (hw : WellFormed s)
    (ha : a ∈ s.auctions) (hc : s.characters.find player = some c) (hprice : price ≤ c.money)
    (hd : IsDebit c.money price.toNat) (hother : a.entry.bidder ≠ player) (hs' : s' = if a.entry.bidder ≠ 0 then
      (sendAuctionOutbiddedMail env time s a.entry).modifyMoney player (-price.toInt32)
      else s.modifyMoney player (-price.toInt32)) : Pays s s' a player price := by
  subst hs'
  split_ifs with hb
  · have hsend := sends_outbiddedMail env time (hw.bidder a ha hb)
    have hc' : (sendAuctionOutbiddedMail env time s a.entry).characters.find player = some c := by
      rw [hsend.characters]
      exact hc
    have hgold := charGold_debit hc' hprice hd
    refine ⟨(hw.of_sends hsend).modifyMoney _ _, hsend.auctions, ?_, ?_, fun guid => ?_⟩
    · have hmail := hsend.mailGold
      have hheld : a.held = a.entry.bid.toNat := if_neg hb
      have hchar : (sendAuctionOutbiddedMail env time s a.entry).charGold = s.charGold := by
        unfold State.charGold
        rw [hsend.characters]
      have hsame : ((sendAuctionOutbiddedMail env time s a.entry).modifyMoney player
          (-price.toInt32)).mailGold = (sendAuctionOutbiddedMail env time s a.entry).mailGold := rfl
      omega
    · rw [if_pos ⟨hb, hother⟩]
      exact hsend.refunds
    · rw [receiverExists_modifyMoney, hsend.receiverExists]
  · have hgold := charGold_debit hc hprice hd
    refine ⟨hw.modifyMoney _ _, rfl, ?_, ?_, receiverExists_modifyMoney player _⟩
    · have hsame : (s.modifyMoney player (-price.toInt32)).mailGold = s.mailGold := rfl
      omega
    · rw [if_neg fun h => hb h.1]
      exact (List.append_nil _).symm

/-- A player who raises his own bid pays the difference. -/
theorem pays_difference {a : Posted} {player price : UInt32} {c : Character} (hw : WellFormed s)
    (hc : s.characters.find player = some c) (hprice : price ≤ c.money)
    (hd : IsDebit c.money (price.toNat - a.entry.bid.toNat)) (hown : a.entry.bidder = player) :
    Pays s (s.modifyMoney player (-(price - a.entry.bid).toInt32)) a player price := by
  have hguid : player ≠ 0 := by
    obtain ⟨hmem, rfl⟩ := Table.of_find hc
    exact hw.guidLow c hmem
  have hheld : a.held = a.entry.bid.toNat := if_neg (hown ▸ hguid)
  have hsame : (s.modifyMoney player (-(price - a.entry.bid).toInt32)).mailGold = s.mailGold := rfl
  have hp := UInt32.le_iff_toNat_le.1 hprice
  have hpaid : (s.modifyMoney player (-(price - a.entry.bid).toInt32)).charGold + price.toNat ≤
      s.charGold + a.entry.bid.toNat := by
    by_cases hless : a.entry.bid ≤ price
    · have hsub := UInt32.toNat_sub_of_le _ _ hless
      have hlt := UInt32.le_iff_toNat_le.1 hless
      have hgold := charGold_debit (x := price - a.entry.bid) hc (by
        rw [UInt32.le_iff_toNat_le, hsub]
        omega) (by rwa [hsub])
      omega
    · -- a lower price pays the difference back, as far as the purse takes it
      have hge : price ≤ a.entry.bid := by
        rw [UInt32.le_iff_toNat_le] at hless ⊢
        omega
      have hneg : -(price - a.entry.bid).toInt32 = (a.entry.bid - price).toInt32 := by
        rw [← UInt32.toInt32_neg, UInt32.neg_sub]
      have hsub := UInt32.toNat_sub_of_le _ _ hge
      have hlt := UInt32.le_iff_toNat_le.1 hge
      have hgold := charGold_credit (x := a.entry.bid - price) hc
      rw [hneg]
      omega
  refine ⟨hw.modifyMoney _ _, rfl, by omega, ?_, receiverExists_modifyMoney player _⟩
  rw [if_neg fun h => h.2 hown]
  exact (List.append_nil _).symm

/-- A step that keeps the law: the gold grows by at most `g`, and the refunds are `rs`. -/
structure Lawful (s s' : State) (g : ℕ) (rs : List Refund) : Prop where
  wellFormed : WellFormed s'
  gold : s'.gold ≤ s.gold + g
  refunds : refundsOf s'.mails = refundsOf s.mails ++ rs

theorem Lawful.refl (hw : WellFormed s) : Lawful s s 0 [] :=
  ⟨hw, le_rfl, (List.append_nil _).symm⟩

/-- The refunds of a bid by a player. -/
def Posted.refundsFor (a : Posted) (player : UInt32) : List Refund :=
  if a.entry.bidder ≠ 0 ∧ a.entry.bidder ≠ player then [a.refund] else []

section

variable {house : House} {a : Posted} {player price : UInt32} {c : Character}

theorem bidOn_lawful (hw : WellFormed s) (hc : s.characters.find player = some c)
    (hon : c.online = true) (ha : s.auctions.find (house, a.entry.id) = some a)
    (hprice : price ≤ c.money) (hnot : price < a.entry.buyout ∨ a.entry.buyout = 0)
    (hd : IsDebit c.money (a.due player price)) :
    Lawful s (bidOn env time s house a.entry player price) 0 (a.refundsFor player) := by
  have hguid : player ≠ 0 := by
    obtain ⟨hmem, rfl⟩ := Table.of_find hc
    exact hw.guidLow c hmem
  obtain ⟨s₁, hs₁, hpays⟩ : ∃ s₁, bidOn env time s house a.entry player price =
      s₁.setBid house a.entry.id player price ∧ Pays s s₁ a player price := by
    refine ⟨_, rfl, ?_⟩
    by_cases hown : a.entry.bidder = player
    · have hpos : a.entry.bidder > 0 := UInt32.pos_iff_ne_zero.2 (hown ▸ hguid)
      rw [if_pos hpos, if_pos hown]
      rw [Posted.due, if_pos hnot, if_pos hown] at hd
      exact pays_difference hw hc hprice hd hown
    · rw [Posted.due, if_pos hnot, if_neg hown] at hd
      refine pays_full env time hw (Table.of_find ha).1 hc hprice hd hown ?_
      by_cases hb : a.entry.bidder = 0
      · simp [hb]
      · have hpos : a.entry.bidder > 0 := UInt32.pos_iff_ne_zero.2 hb
        rw [if_pos hpos, if_neg hown, if_pos hb]
  have ha₁ : s₁.auctions.find (house, a.entry.id) = some a := by
    rw [hpays.auctions]
    exact ha
  have hheld := heldGold_setBid player price ha₁ hguid
  have hsame : s₁.heldGold = s.heldGold := by
    unfold State.heldGold
    rw [hpays.auctions]
  have hgold := hpays.gold
  rw [hs₁]
  refine ⟨hpays.wellFormed.setBid ?_, ?_, hpays.refunds⟩
  · rw [hpays.receiver]
    exact receiverExists_of_online hc hon
  · have hchar : (s₁.setBid house a.entry.id player price).charGold = s₁.charGold := rfl
    have hmail : (s₁.setBid house a.entry.id player price).mailGold = s₁.mailGold := rfl
    unfold State.gold
    omega

theorem sends_sale {e : AuctionEntry} (hcut : env.auctionCut e ≤ e.bid) :
    Sends s (sendAuctionWonMail env time (sendAuctionSuccessfulMail env time
      (sendAuctionSalePendingMail env time s e) e) e) (e.bid.toNat + e.deposit.toNat) [] := by
  have h := ((sends_salePendingMail env time (s := s) e).trans
    (sends_successfulMail env time hcut)).trans (sends_wonMail env time e)
  rw [Nat.zero_add, Nat.add_zero] at h
  exact h

theorem outbiddedMail_modifyMoney (e : AuctionEntry) (guid : UInt32) (amount : Int32) :
    sendAuctionOutbiddedMail env time (s.modifyMoney guid amount) e =
      (sendAuctionOutbiddedMail env time s e).modifyMoney guid amount := by
  unfold sendAuctionOutbiddedMail
  rw [receiverExists_modifyMoney]
  split_ifs <;> rfl

theorem lawful_removeAuction {s₁ : State} {g : ℕ} {rs : List Refund} (hw : WellFormed s₁)
    (ha : s.auctions.find (house, a.entry.id) = some a) (hauctions : s₁.auctions = s.auctions)
    (hgold : s₁.charGold + s₁.mailGold ≤ s.charGold + s.mailGold + a.held + g)
    (hrefunds : refundsOf s₁.mails = refundsOf s.mails ++ rs) :
    Lawful s (s₁.removeAuction house a.entry) g rs := by
  have ha₁ : s₁.auctions.find (house, a.entry.id) = some a := by
    rw [hauctions]
    exact ha
  have hheld := heldGold_removeAuction ha₁
  have hsame : s₁.heldGold = s.heldGold := by
    unfold State.heldGold
    rw [hauctions]
  have hchar : (s₁.removeAuction house a.entry).charGold = s₁.charGold := rfl
  have hmail : (s₁.removeAuction house a.entry).mailGold = s₁.mailGold := rfl
  refine ⟨hw.removeAuction, ?_, hrefunds⟩
  unfold State.gold
  omega

theorem Sends.charGold {g : ℕ} {rs : List Refund} (h : Sends s s' g rs) :
    s'.charGold = s.charGold := by
  unfold State.charGold
  rw [h.characters]

theorem buyOut_lawful (hcut : ∀ e, env.auctionCut e ≤ e.bid) (hw : WellFormed s)
    (hc : s.characters.find player = some c) (ha : s.auctions.find (house, a.entry.id) = some a)
    (hbuyout : a.entry.buyout ≤ c.money)
    (hnot : ¬ (price < a.entry.buyout ∨ a.entry.buyout = 0))
    (hd : IsDebit c.money (a.due player price)) :
    Lawful s (buyOut env time s house a.entry player) a.entry.deposit.toNat
      (a.refundsFor player) := by
  obtain ⟨s₁, hs₁, hpays⟩ : ∃ s₁, buyOut env time s house a.entry player =
      (sendAuctionWonMail env time (sendAuctionSuccessfulMail env time
        (sendAuctionSalePendingMail env time s₁
          { a.entry with bidder := player, bid := a.entry.buyout })
        { a.entry with bidder := player, bid := a.entry.buyout })
        { a.entry with bidder := player, bid := a.entry.buyout }).removeAuction house a.entry ∧
      Pays s s₁ a player a.entry.buyout := by
    refine ⟨_, rfl, ?_⟩
    by_cases hown : player = a.entry.bidder
    · rw [if_pos hown]
      rw [Posted.due, if_neg hnot, if_pos hown.symm] at hd
      exact pays_difference hw hc hbuyout hd hown.symm
    · rw [if_neg hown]
      rw [Posted.due, if_neg hnot, if_neg (Ne.symm hown)] at hd
      refine pays_full env time hw (Table.of_find ha).1 hc hbuyout hd (Ne.symm hown) ?_
      dsimp only
      rw [outbiddedMail_modifyMoney]
  have hsends := sends_sale env time (s := s₁)
    (hcut { a.entry with bidder := player, bid := a.entry.buyout })
  rw [hs₁]
  generalize sendAuctionWonMail env time _ _ = s₂ at hsends ⊢
  have hgold := hpays.gold
  have hsent := hsends.mailGold
  have hchar := hsends.charGold
  have hrefunds := hsends.refunds
  dsimp only at hsent
  rw [List.append_nil] at hrefunds
  exact lawful_removeAuction (hpays.wellFormed.of_sends hsends) ha
    (hsends.auctions.trans hpays.auctions) (by omega) (hrefunds.trans hpays.refunds)

/-- A cancelled auction: the bid goes back, the owner pays the cut. -/
theorem cancelAuction_lawful (hw : WellFormed s) (hc : s.characters.find player = some c)
    (ha : s.auctions.find (house, a.entry.id) = some a) (item : Item)
    (hcut : a.entry.bidder ≠ 0 → env.auctionCut a.entry ≤ c.money) :
    Lawful s (cancelAuction env time s house a.entry player item) 0
      (if a.entry.bidder ≠ 0 then [a.refund] else []) := by
  obtain ⟨s₁, draft, hs₁, hdraft, hw₁, hauctions, hgold, hrefunds⟩ : ∃ s₁ draft,
      cancelAuction env time s house a.entry player item =
        (s₁.sendMailTo env time a.entry .canceled player draft 0).removeAuction house a.entry ∧
      draft.money = 0 ∧ WellFormed s₁ ∧ s₁.auctions = s.auctions ∧
      s₁.charGold + s₁.mailGold ≤ s.charGold + s.mailGold + a.held ∧
      refundsOf s₁.mails = refundsOf s.mails ++ if a.entry.bidder ≠ 0 then [a.refund] else [] := by
    refine ⟨_, _, rfl, rfl, ?_⟩
    by_cases hb : a.entry.bidder = 0
    · have hpos : ¬ a.entry.bidder > 0 := by simp [hb]
      rw [if_neg hpos, if_neg (by simp [hb])]
      exact ⟨hw, rfl, Nat.le_add_right _ _, (List.append_nil _).symm⟩
    · have hpos : a.entry.bidder > 0 := UInt32.pos_iff_ne_zero.2 hb
      rw [if_pos hpos, if_pos hb]
      have hsends := sends_cancelledToBidderMail env time (hw.bidder a (Table.of_find ha).1 hb)
      generalize sendAuctionCancelledToBidderMail env time s a.entry = s₂ at hsends ⊢
      have hc₂ : s₂.characters.find player = some c := by
        rw [hsends.characters]
        exact hc
      have hpaid := charGold_debit_le hc₂ (hcut hb)
      refine ⟨(hw.of_sends hsends).modifyMoney _ _, hsends.auctions, ?_, hsends.refunds⟩
      have hmail := hsends.mailGold
      have hheld : a.held = a.entry.bid.toNat := if_neg hb
      have hchar := hsends.charGold
      have hsame : (s₂.modifyMoney player (-(env.auctionCut a.entry).toInt32)).mailGold =
          s₂.mailGold := rfl
      omega
  have hsends := @sends_plain env time s₁ a.entry .canceled player draft 0 hdraft (by decide)
    (by decide)
  have hmail := hsends.mailGold
  have hchar := hsends.charGold
  rw [hs₁]
  refine lawful_removeAuction (hw₁.of_sends hsends) ha (hsends.auctions.trans hauctions) (by omega) ?_
  rw [hsends.refunds, hrefunds, List.append_nil]

theorem updateRow_lawful (hcut : ∀ e, env.auctionCut e ≤ e.bid) (hw : WellFormed s)
    (ha : s.auctions.find (house, a.entry.id) = some a) :
    Lawful s (updateRow env time house s a.entry.id)
      (if a.entry.bidder = 0 then 0 else a.entry.deposit.toNat) [] := by
  unfold updateRow
  rw [ha]
  dsimp only
  split_ifs with hb
  · have hsends := sends_expiredMail env time (s := s) a.entry
    have hmail := hsends.mailGold
    have hchar := hsends.charGold
    exact lawful_removeAuction (hw.of_sends hsends) ha hsends.auctions (by omega) hsends.refunds
  · have hsends := (sends_successfulMail env time (s := s) (hcut a.entry)).trans
      (sends_wonMail env time a.entry)
    have hmail := hsends.mailGold
    have hchar := hsends.charGold
    have hheld : a.held = a.entry.bid.toNat := if_neg hb
    exact lawful_removeAuction (hw.of_sends hsends) ha hsends.auctions (by omega) hsends.refunds

/-! ### Which auctions are left -/

@[simp] theorem auctions_outbiddedMail (e : AuctionEntry) :
    (sendAuctionOutbiddedMail env time s e).auctions = s.auctions := by
  unfold sendAuctionOutbiddedMail
  split_ifs <;> rfl

@[simp] theorem auctions_cancelledToBidderMail (e : AuctionEntry) :
    (sendAuctionCancelledToBidderMail env time s e).auctions = s.auctions := by
  unfold sendAuctionCancelledToBidderMail
  split_ifs <;> rfl

@[simp] theorem auctions_salePendingMail (e : AuctionEntry) :
    (sendAuctionSalePendingMail env time s e).auctions = s.auctions :=
  (sends_salePendingMail env time e).auctions

@[simp] theorem auctions_successfulMail (e : AuctionEntry) :
    (sendAuctionSuccessfulMail env time s e).auctions = s.auctions := by
  unfold sendAuctionSuccessfulMail
  split_ifs <;> rfl

@[simp] theorem auctions_wonMail (e : AuctionEntry) :
    (sendAuctionWonMail env time s e).auctions = s.auctions :=
  (sends_wonMail env time e).auctions

@[simp] theorem auctions_expiredMail (e : AuctionEntry) :
    (sendAuctionExpiredMail env time s e).auctions = s.auctions :=
  (sends_expiredMail env time e).auctions

@[simp] theorem auctions_modifyMoney (guid : UInt32) (amount : Int32) :
    (s.modifyMoney guid amount).auctions = s.auctions := rfl

theorem find_setBid (id bidder bid : UInt32) :
    (s.setBid house id bidder bid).auctions.find (house, id) =
      (s.auctions.find (house, id)).map (Posted.withBid bidder bid) :=
  (Table.find_modify (f := Posted.withBid bidder bid) fun _ => rfl).trans (if_pos rfl)

theorem find_bidOn (ha : s.auctions.find (house, a.entry.id) = some a) :
    (bidOn env time s house a.entry player price).auctions.find (house, a.entry.id) =
      some (a.withBid player price) := by
  unfold bidOn
  dsimp only
  rw [find_setBid]
  split_ifs <;> simp [ha]

theorem auctions_buyOut (house : House) (e : AuctionEntry) (player : UInt32) :
    (buyOut env time s house e player).auctions = s.auctions.erase (house, e.id) := by
  unfold buyOut State.removeAuction
  simp only [auctions_wonMail, auctions_successfulMail, auctions_salePendingMail]
  congr 1
  split_ifs <;> simp

theorem auctions_cancelAuction (house : House) (e : AuctionEntry) (player : UInt32) (item : Item) :
    (cancelAuction env time s house e player item).auctions = s.auctions.erase (house, e.id) := by
  unfold cancelAuction State.removeAuction State.sendMailTo
  dsimp only
  congr 1
  split_ifs <;> simp

theorem auctions_updateRow (ha : s.auctions.find (house, a.entry.id) = some a) :
    (updateRow env time house s a.entry.id).auctions = s.auctions.erase (house, a.entry.id) := by
  unfold updateRow State.removeAuction
  rw [ha]
  dsimp only
  congr 1
  split_ifs <;> simp

end

/-! ### Requests -/

theorem placeBid_cases (s : State) (player : UInt32) (creature : Option House)
    (auctionId price : UInt32) :
    handleAuctionPlaceBid env time s player creature auctionId price = s ∨
      ∃ house a c, creature = some house ∧ s.auctions.find (house, auctionId) = some a ∧
        a.key = (house, auctionId) ∧ s.characters.find player = some c ∧
        Passes env s player auctionId price a c ∧
        ((price < a.entry.buyout ∨ a.entry.buyout = 0) ∧
            handleAuctionPlaceBid env time s player creature auctionId price =
              bidOn env time s house a.entry player price ∨
          a.entry.buyout ≠ 0 ∧ a.entry.buyout ≤ price ∧
            handleAuctionPlaceBid env time s player creature auctionId price =
              buyOut env time s house a.entry player) := by
  generalize hx : handleAuctionPlaceBid env time s player creature auctionId price = x
  unfold handleAuctionPlaceBid at hx
  by_cases h₁ : (auctionId = 0 || price = 0) = true
  · rw [if_pos h₁] at hx
    exact .inl hx.symm
  rw [if_neg h₁] at hx
  cases creature with
  | none => exact .inl hx.symm
  | some house =>
    dsimp only at hx
    cases hp : s.findPlayer player with
    | none =>
      rw [hp] at hx
      exact .inl hx.symm
    | some c =>
      cases ha : s.auctions.find (house, auctionId) with
      | none =>
        rw [hp, ha] at hx
        exact .inl hx.symm
      | some a =>
        obtain ⟨hc, hon⟩ := Option.filter_eq_some_iff.1 hp
        rw [hp, ha] at hx
        dsimp only at hx
        split_ifs at hx with h₂ h₃ h₄ h₅ h₆ h₇
        · exact .inl hx.symm
        · exact .inl hx.symm
        · exact .inl hx.symm
        · exact .inl hx.symm
        · exact .inl hx.symm
        all_goals
          have hpass : Passes env s player auctionId price a c := by
            simp only [Bool.or_eq_true, Bool.and_eq_true, decide_eq_true_eq, not_or, not_and]
              at h₁ h₃ h₄ h₅
            exact ⟨h₁, hon, h₂, h₃, UInt32.not_le.1 h₄.1, UInt32.not_lt.1 h₄.2,
              fun h => UInt32.not_lt.1 (h₅ h), by simpa [hasEnoughMoney] using h₆⟩
        · refine .inr ⟨house, a, c, rfl, ha, (Table.of_find ha).2, hc, hpass, .inl ⟨?_, hx.symm⟩⟩
          simpa using h₇
        · simp only [Bool.or_eq_true, decide_eq_true_eq, not_or] at h₇
          exact .inr ⟨house, a, c, rfl, ha, (Table.of_find ha).2, hc, hpass,
            .inr ⟨h₇.2, UInt32.not_lt.1 h₇.1, hx.symm⟩⟩

theorem removeItem_cases (s : State) (player : UInt32) (creature : Option House)
    (auctionId : UInt32) :
    handleAuctionRemoveItem env time s player creature auctionId = s ∨
      ∃ house a c item, creature = some house ∧ s.auctions.find (house, auctionId) = some a ∧
        a.key = (house, auctionId) ∧ s.characters.find player = some c ∧
        (a.entry.bidder ≠ 0 → env.auctionCut a.entry ≤ c.money) ∧
        handleAuctionRemoveItem env time s player creature auctionId =
          cancelAuction env time s house a.entry player item := by
  unfold handleAuctionRemoveItem
  cases creature with
  | none => exact .inl rfl
  | some house =>
    dsimp only
    cases hp : s.findPlayer player with
    | none => exact .inl rfl
    | some c =>
      cases ha : s.auctions.find (house, auctionId) with
      | none => exact .inl rfl
      | some a =>
        have hc := (Option.filter_eq_some_iff.1 hp).1
        dsimp only
        by_cases howner : a.entry.owner ≠ player
        · exact .inl (if_pos howner)
        rw [if_neg howner]
        cases s.aItems.find a.entry.itemGUIDLow with
        | none => exact .inl rfl
        | some item =>
          dsimp only
          split_ifs with hpoor
          · exact .inl rfl
          · refine .inr ⟨house, a, c, item, rfl, ha, (Table.of_find ha).2, hc, fun hb => ?_, rfl⟩
            have hpos : a.entry.bidder > 0 := UInt32.pos_iff_ne_zero.2 hb
            simpa [hpos, hasEnoughMoney] using hpoor

theorem find_of_bind {creature : Option House} {auctionId : UInt32} {a : Posted}
    (h : (creature.bind fun house => s.auctions.find (house, auctionId)) = some a) :
    s.auctions.find a.key = some a := by
  obtain ⟨house, -, hfind⟩ := Option.bind_eq_some_iff.1 h
  exact Table.find_key (Table.of_find hfind).1

theorem displaced_eq_nil {r : Request} (h : step env s r = s) : displaced env s r = [] := by
  cases r with
  | placeBid time player creature auctionId price =>
    unfold displaced
    dsimp only
    rw [h]
    cases ha : creature.bind fun house => s.auctions.find (house, auctionId) with
    | none => rfl
    | some a =>
      dsimp only
      rw [find_of_bind ha]
      exact if_neg fun hc => hc.2.2 rfl
  | removeItem time player creature auctionId =>
    unfold displaced
    dsimp only
    rw [h]
    cases ha : creature.bind fun house => s.auctions.find (house, auctionId) with
    | none => rfl
    | some a =>
      dsimp only
      rw [find_of_bind ha]
      exact if_neg fun hc => Option.some_ne_none a hc.2
  | update time house rows => rfl

theorem placeBid_lawful (hcut : ∀ e, env.auctionCut e ≤ e.bid) (hw : WellFormed s)
    (time : ℕ) (player : UInt32) (creature : Option House) (auctionId price : UInt32)
    (hpaid : Paid env s (.placeBid time player creature auctionId price)) :
    Lawful s (step env s (.placeBid time player creature auctionId price))
      (returnedDeposit env s (.placeBid time player creature auctionId price))
      (displaced env s (.placeBid time player creature auctionId price)) := by
  rcases placeBid_cases env time s player creature auctionId price with
    heq | ⟨house, a, c, rfl, ha, hkey, hc, hpass, hdone⟩
  · have hstep : step env s (.placeBid time player creature auctionId price) = s := heq
    rw [displaced_eq_nil env hstep, hstep]
    exact ⟨hw, Nat.le_add_right _ _, (List.append_nil _).symm⟩
  obtain ⟨-, rfl⟩ := Prod.mk.inj hkey
  have hd := hpaid house a c rfl ha hc hpass
  have hdisplaced : ∀ s', step env s (.placeBid time player (some house) a.entry.id price) = s' →
      displaced env s (.placeBid time player (some house) a.entry.id price) =
        if a.entry.bidder ≠ 0 ∧ a.entry.bidder ≠ player ∧
          (s'.auctions.find a.key).map (·.entry.bidder) ≠ some a.entry.bidder then [a.refund]
        else [] := by
    intro s' hs'
    unfold displaced
    dsimp only [Option.bind_some]
    rw [ha, hs']
  rcases hdone with ⟨hnot, heq⟩ | ⟨hpos, hbuyout, heq⟩
  · have hstep : step env s (.placeBid time player (some house) a.entry.id price) = _ := heq
    have hlaw := bidOn_lawful env time hw hc hpass.online ha hpass.money hnot hd
    have hrefunds : displaced env s (.placeBid time player (some house) a.entry.id price) =
        a.refundsFor player := by
      rw [hdisplaced _ hstep, hkey, find_bidOn env time ha]
      refine if_congr (and_congr_right fun _ => and_iff_left_of_imp fun hne => ?_) rfl rfl
      exact fun heq => hne (Option.some.inj heq).symm
    rw [hrefunds, hstep]
    exact ⟨hlaw.wellFormed, hlaw.gold.trans (Nat.le_add_right _ _), hlaw.refunds⟩
  · have hstep : step env s (.placeBid time player (some house) a.entry.id price) = _ := heq
    have hnot : ¬ (price < a.entry.buyout ∨ a.entry.buyout = 0) := by
      rw [not_or, UInt32.not_lt]
      exact ⟨hbuyout, hpos⟩
    have hlaw := buyOut_lawful env time hcut hw hc ha (UInt32.le_trans hbuyout hpass.money) hnot hd
    have hgone := auctions_buyOut env time (s := s) house a.entry player
    have hrefunds : displaced env s (.placeBid time player (some house) a.entry.id price) =
        a.refundsFor player := by
      rw [hdisplaced _ hstep, hkey, hgone, Table.find_erase, if_pos rfl]
      refine if_congr (and_congr_right fun _ => and_iff_left_of_imp fun _ => ?_) rfl rfl
      exact nofun
    have hdeposit : returnedDeposit env s (.placeBid time player (some house) a.entry.id price) =
        a.entry.deposit.toNat := by
      have hrest := ((Table.Rest.refl s.auctions).erase (house, a.entry.id)).sum_removed
        fun b => b.entry.deposit.toNat
      have hsum := Table.sum_erase ha fun b => b.entry.deposit.toNat
      unfold returnedDeposit
      dsimp only
      rw [hstep, hgone]
      omega
    rw [hrefunds, hdeposit, hstep]
    exact hlaw

theorem removeItem_lawful (hw : WellFormed s) (time : ℕ) (player : UInt32)
    (creature : Option House) (auctionId : UInt32) :
    Lawful s (step env s (.removeItem time player creature auctionId))
      (returnedDeposit env s (.removeItem time player creature auctionId))
      (displaced env s (.removeItem time player creature auctionId)) := by
  have hsame : step env s (.removeItem time player creature auctionId) = s →
      Lawful s (step env s (.removeItem time player creature auctionId))
        (returnedDeposit env s (.removeItem time player creature auctionId))
        (displaced env s (.removeItem time player creature auctionId)) := by
    intro hstep
    rw [displaced_eq_nil env hstep, hstep]
    exact ⟨hw, Nat.le_add_right _ _, (List.append_nil _).symm⟩
  rcases removeItem_cases env time s player creature auctionId with
    heq | ⟨house, a, c, item, rfl, ha, hkey, hc, hmoney, heq⟩
  · exact hsame heq
  obtain ⟨-, rfl⟩ := Prod.mk.inj hkey
  have hstep : step env s (.removeItem time player (some house) a.entry.id) = _ := heq
  have hlaw := cancelAuction_lawful env time hw hc ha item hmoney
  have hgone := auctions_cancelAuction env time (s := s) house a.entry player item
  have hrefunds : displaced env s (.removeItem time player (some house) a.entry.id) =
      if a.entry.bidder ≠ 0 then [a.refund] else [] := by
    unfold displaced
    dsimp only [Option.bind_some]
    rw [ha, hstep]
    dsimp only
    rw [hkey, hgone, Table.find_erase, if_pos rfl]
    exact if_congr (and_iff_left rfl) rfl rfl
  rw [hrefunds, hstep]
  exact hlaw

/-- The deposits that the auctions with a bidder hold. -/
def State.owedDeposits (s : State) : ℕ :=
  (s.auctions.toList.map fun a => if a.entry.bidder = 0 then 0 else a.entry.deposit.toNat).sum

theorem updateRow_owed (hcut : ∀ e, env.auctionCut e ≤ e.bid) (house : House) (id : UInt32)
    (hw : WellFormed s) :
    let s' := updateRow env time house s id
    WellFormed s' ∧ s'.gold + s'.owedDeposits ≤ s.gold + s.owedDeposits ∧
      refundsOf s'.mails = refundsOf s.mails := by
  cases ha : s.auctions.find (house, id) with
  | none =>
    have hsame : updateRow env time house s id = s := by simp [updateRow, ha]
    rw [hsame]
    exact ⟨hw, le_rfl, rfl⟩
  | some a =>
    obtain ⟨-, hkey⟩ := Table.of_find ha
    obtain ⟨-, rfl⟩ := Prod.mk.inj hkey
    have hlaw := updateRow_lawful env time hcut hw ha
    have hgone := auctions_updateRow env time ha
    have howed := Table.sum_erase ha fun b : Posted =>
      if b.entry.bidder = 0 then 0 else b.entry.deposit.toNat
    have hsum : (updateRow env time house s a.entry.id).owedDeposits +
        (if a.entry.bidder = 0 then 0 else a.entry.deposit.toNat) = s.owedDeposits := by
      unfold State.owedDeposits
      rw [hgone]
      exact howed
    have hgold := hlaw.gold
    exact ⟨hlaw.wellFormed, by omega, hlaw.refunds.trans (List.append_nil _)⟩

/-- The loop of `Update` pays a deposit back for every auction with a bidder that it removes. -/
theorem updateRows_owed (hcut : ∀ e, env.auctionCut e ≤ e.bid) (house : House)
    (rows : List UInt32) (hw : WellFormed s) :
    let s' := rows.foldl (updateRow env time house) s
    WellFormed s' ∧ s'.gold + s'.owedDeposits ≤ s.gold + s.owedDeposits ∧
      refundsOf s'.mails = refundsOf s.mails := by
  induction rows generalizing s with
  | nil => exact ⟨hw, le_rfl, rfl⟩
  | cons id rows ih =>
    obtain ⟨hw₁, hgold₁, hrefunds₁⟩ := updateRow_owed env time hcut house id hw
    obtain ⟨hw₂, hgold₂, hrefunds₂⟩ := ih hw₁
    exact ⟨hw₂, hgold₂.trans hgold₁, hrefunds₂.trans hrefunds₁⟩

theorem rest_updateRows (house : House) (rows : List UInt32) {t : Table Posted.key}
    (h : Table.Rest t s.auctions) :
    Table.Rest t (rows.foldl (updateRow env time house) s).auctions := by
  induction rows generalizing s with
  | nil => exact h
  | cons id rows ih =>
    refine ih ?_
    cases ha : s.auctions.find (house, id) with
    | none =>
      have hsame : updateRow env time house s id = s := by simp [updateRow, ha]
      rw [hsame]
      exact h
    | some a =>
      obtain ⟨-, hkey⟩ := Table.of_find ha
      obtain ⟨-, rfl⟩ := Prod.mk.inj hkey
      rw [auctions_updateRow env time ha]
      exact h.erase _

theorem update_lawful (hcut : ∀ e, env.auctionCut e ≤ e.bid) (hw : WellFormed s) (time : ℕ)
    (house : House) (rows : List UInt32) :
    Lawful s (step env s (.update time house rows))
      (returnedDeposit env s (.update time house rows))
      (displaced env s (.update time house rows)) := by
  by_cases hempty : (s.auctions.toList.all fun a => a.house ≠ house) = true
  · have hstep : step env s (.update time house rows) = s := if_pos hempty
    rw [hstep]
    exact ⟨hw, Nat.le_add_right _ _, (List.append_nil _).symm⟩
  have hstep : step env s (.update time house rows) = rows.foldl (updateRow env time house) s :=
    if_neg hempty
  obtain ⟨hw', hgold, hrefunds⟩ := updateRows_owed env time hcut house rows hw
  have hrest := (rest_updateRows env time house rows (Table.Rest.refl s.auctions)).sum_removed
    fun a => if a.entry.bidder = 0 then 0 else a.entry.deposit.toNat
  have hreturned : returnedDeposit env s (.update time house rows) +
      (rows.foldl (updateRow env time house) s).owedDeposits = s.owedDeposits := by
    rw [← hstep] at hrest ⊢
    exact hrest
  rw [hstep]
  exact ⟨hw', by omega, hrefunds.trans (List.append_nil _).symm⟩

/-- Every request keeps the law. -/
theorem step_lawful (hcut : ∀ e, env.auctionCut e ≤ e.bid) (hw : WellFormed s) (r : Request)
    (hpaid : Paid env s r) :
    Lawful s (step env s r) (returnedDeposit env s r) (displaced env s r) := by
  cases r with
  | placeBid time player creature auctionId price =>
    exact placeBid_lawful env hcut hw time player creature auctionId price hpaid
  | removeItem time player creature auctionId =>
    exact removeItem_lawful env hw time player creature auctionId
  | update time house rows => exact update_lawful env hcut hw time house rows

/-- **Main result.** Along any run of bids, buyouts, cancellations and expiries in which the bids are
paid, the gold of all characters, in all mails and in the bids that auctions hold grows at most by
the deposits that are paid back, and each step refunds exactly the bids that it displaces. -/
theorem auction_gold_conserved (hcut : ∀ e, env.auctionCut e ≤ e.bid) (hw : WellFormed s)
    {rs : List Request} (hpaid : Runs.EachStep (step env) (Paid env) s rs) :
    Runs.EachStep (step env)
      (fun s r => (step env s r).gold ≤ s.gold + returnedDeposit env s r ∧
        refundsOf (step env s r).mails = refundsOf s.mails ++ displaced env s r) s rs := by
  refine hpaid.mono_inv (I := WellFormed) hw
    (fun s r hw hp => (step_lawful env hcut hw r hp).wellFormed) fun s r hw hp => ?_
  have hlaw := step_lawful env hcut hw r hp
  exact ⟨hlaw.gold, hlaw.refunds⟩

/-- A house that keeps a twentieth of the bid. -/
def twentiethEnv : Env := ⟨fun a => a.bid / 20, fun _ => 1, fun _ => 7, 3600⟩

/-- Three characters, and an auction of the first that has no bid yet. -/
def openingState : State where
  characters := ⟨[⟨1, 11, true, 50⟩, ⟨2, 12, true, 1000⟩, ⟨3, 13, true, 1000⟩], by decide⟩
  auctions := ⟨[⟨.neutral, ⟨5, 23442, 77, 2589, 1, 1, 100, 0, 0, 500, 0, 10⟩⟩], by decide⟩
  aItems := Table.empty _
  mails := []
  mailId := 1

/-- The law along a run: a bid, a raise, a higher bid of another player, and a buyout. -/
theorem auction_gold_conserved_opening :
    Runs.EachStep (step twentiethEnv)
      (fun s r => (step twentiethEnv s r).gold ≤ s.gold + returnedDeposit twentiethEnv s r ∧
        refundsOf (step twentiethEnv s r).mails =
          refundsOf s.mails ++ displaced twentiethEnv s r) openingState
      [.placeBid 0 2 (some .neutral) 5 120, .placeBid 1 2 (some .neutral) 5 150,
        .placeBid 2 3 (some .neutral) 5 200, .placeBid 3 2 (some .neutral) 5 500] := by
  refine auction_gold_conserved twentiethEnv (fun e => ?_) ⟨?_, ?_⟩ ?_
  · rw [UInt32.le_iff_toNat_le]
    exact (UInt32.toNat_div e.bid 20).le.trans (Nat.div_le_self _ _)
  · exact (by decide : ∀ c ∈ openingState.characters.toList, c.guidLow ≠ 0)
  · exact (by decide : ∀ a ∈ openingState.auctions.toList,
      a.entry.bidder ≠ 0 → openingState.receiverExists a.entry.bidder = true)
  · simp only [Runs.eachStep_cons]
    exact ⟨paid_of_le _ 0 _ _ (by decide), paid_of_le _ 1 _ _ (by decide), paid_of_le _ 2 _ _ (by decide),
      paid_of_le _ 3 _ _ (by decide), Runs.EachStep.nil _⟩

/-- A player with 3000000000 copper, and an auction without a buyout. -/
def richState : State :=
  { openingState with
    characters := ⟨[⟨1, 11, true, 50⟩, ⟨2, 12, true, 3000000000⟩], by decide⟩
    auctions := ⟨[⟨.neutral, ⟨5, 23442, 77, 2589, 1, 1, 100, 0, 0, 0, 0, 10⟩⟩], by decide⟩ }

/-- A bid of 2500000000 is taken for a credit, which is refused, and the bid stands. -/
theorem not_gold_conserved_rich : ¬ Runs.EachStep (step twentiethEnv)
    (fun s r => (step twentiethEnv s r).gold ≤ s.gold + returnedDeposit twentiethEnv s r ∧
      refundsOf (step twentiethEnv s r).mails = refundsOf s.mails ++ displaced twentiethEnv s r)
    richState [.placeBid 0 2 (some .neutral) 5 2500000000] := by
  rw [Runs.eachStep_cons]
  exact fun h => absurd h.1.1 (by decide)

/-- The first bidder has his bid back once, and the seller the price without the cut. -/
example : ([.placeBid 0 2 (some .neutral) 5 120, .placeBid 2 3 (some .neutral) 5 500].foldl
    (step twentiethEnv) openingState).mails.map (fun m => (m.answer, m.mail.receiver, m.mail.money)) =
      [(.outbidded, 2, 120), (.salePending, 1, 0), (.successful, 1, 485)] := by
  decide

end FaceCore.Auction
