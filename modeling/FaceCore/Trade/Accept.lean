import FaceCore.Lib.Runs
import FaceCore.Player.Money
import Mathlib.Data.List.FinRange

/-!
# The trade window

`WorldSession::HandleSetTradeGoldOpcode`, `HandleUnacceptTradeOpcode` and
`HandleAcceptTradeOpcode` for two players whose trade windows are open to each other. The two
sides are passed explicitly, the acting player first.

What the handler asks of the inventories and of the spell system is collected in `TradeOps`, so
the results hold for every inventory: which item a guid names, whether it may be traded, whether
the other side can store what is offered, and how the items move. The money is followed through
every path: the two sufficiency checks, the two cap checks, and the four updates at the end.
-/

namespace FaceCore.Trade

open FixedWidth

/-- `TRADE_SLOT_TRADED_COUNT` slots of items that change hands, and the non-traded slot. -/
abbrev TradeSlot := Fin 7

/-- `TRADE_SLOT_NONTRADED`. -/
def slotNonTraded : TradeSlot := 6

/-- The slots below `TRADE_SLOT_TRADED_COUNT`. -/
def tradedSlots : List TradeSlot := (List.finRange 6).map Fin.castSucc

/-- `TradeData`, the window of one player. -/
structure TradeData where
  accepted : Bool
  acceptProcess : Bool
  money : UInt32
  spell : UInt32
  spellCastItem : UInt64
  items : TradeSlot → UInt64

/-- A trading player: his coinage, his inventory and his open window, if any. -/
structure Trader (Inv : Type) where
  money : UInt32
  inventory : Inv
  trade : Option TradeData

/-- What `HandleAcceptTradeOpcode` asks of inventories, items and spells. -/
structure TradeOps (Inv Item : Type) where
  /-- `Player::GetItemByGuid`. -/
  getItemByGuid : Inv → UInt64 → Option Item
  /-- `Item::CanBeTraded(false, true)`. -/
  canBeTraded : Inv → Item → Bool
  /-- `Item::IsBindedNotWith` the player with the given inventory. -/
  isBindedNotWith : Item → Inv → Bool
  /-- `SpellMgr::GetSpellInfo` finds the spell. -/
  hasSpellInfo : UInt32 → Bool
  /-- `Spell::CheckCast` of the spell by the first player on the second one's item. -/
  checkCast : UInt32 → Option Item → Inv → Inv → Bool
  /-- `Player::CanStoreItems`, with the player's own offered items marked as in trade. -/
  canStoreItems : Inv → List (Option Item) → List (Option Item) → Bool
  /-- Steps 1 and 2 of the exchange: both offers are removed and stored (`moveItems`). -/
  moveItems : Inv → Inv → List (Option Item) → List (Option Item) → Inv × Inv

/-- How `HandleAcceptTradeOpcode` ends. -/
inductive AcceptResult
  | noTrade
  | notEnoughGold
  | partnerNotEnoughGold
  | tooMuchGold
  | partnerTooMuchGold
  | tradeCanceled
  | notEligible
  | spellRefused
  | partnerSpellRefused
  | notFreeSlots
  | partnerNotFreeSlots
  | tradeAccept
  | tradeComplete
  deriving DecidableEq, Repr

section Window

/-- `TradeData::SetAccepted`. -/
def TradeData.setAccepted (t : TradeData) (state : Bool) : TradeData := { t with accepted := state }

/-- `TradeData::SetMoney`: a change of the offer withdraws both acceptances. -/
def TradeData.setMoney (mine his : TradeData) (money : UInt32) : TradeData × TradeData :=
  if mine.money = money then (mine, his)
  else ({ mine with money := money }.setAccepted false, his.setAccepted false)

/-- `TradeData::SetSpell`: a change of the spell withdraws both acceptances. -/
def TradeData.setSpell (mine his : TradeData) (spell : UInt32) (castItem : UInt64) :
    TradeData × TradeData :=
  if mine.spell = spell ∧ mine.spellCastItem = castItem then (mine, his)
  else ({ mine with spell := spell, spellCastItem := castItem }.setAccepted false,
    his.setAccepted false)

/-- `TradeData::SetInAcceptProcess`. -/
def TradeData.setInAcceptProcess (t : TradeData) (state : Bool) : TradeData :=
  { t with acceptProcess := state }

end Window

section Handlers

variable {Inv Item : Type}

/-- `WorldSession::HandleSetTradeGoldOpcode`; the amount is whatever the client sent. -/
def handleSetTradeGoldOpcode (me him : Trader Inv) (gold : UInt32) : Trader Inv × Trader Inv :=
  match me.trade, him.trade with
  | some mine, some his =>
    let windows := mine.setMoney his gold
    ({ me with trade := some windows.1 }, { him with trade := some windows.2 })
  | _, _ => (me, him)

/-- `WorldSession::HandleUnacceptTradeOpcode`. -/
def handleUnacceptTradeOpcode (me : Trader Inv) : Trader Inv :=
  { me with trade := me.trade.map (·.setAccepted false) }

variable (ops : TradeOps Inv Item)

/-- `TradeData::GetItem`: the slot's guid, looked up in the owner's inventory. -/
def getItem (inv : Inv) (t : TradeData) (slot : TradeSlot) : Option Item :=
  if t.items slot ≠ 0 then ops.getItemByGuid inv (t.items slot) else none

/-- The items in the traded slots. -/
def offered (inv : Inv) (t : TradeData) : List (Option Item) := tradedSlots.map (getItem ops inv t)

/-- The checks on the acting player's item in one slot. -/
def checkMine (me him : Inv) (mine : TradeData) (slot : TradeSlot) : Option AcceptResult :=
  match getItem ops me mine slot with
  | some item =>
    if !ops.canBeTraded me item then some .tradeCanceled
    else if ops.isBindedNotWith item him then some .notEligible
    else none
  | none => none

/-- The check on the partner's item in one slot; binding is left to his own accept. -/
def checkHis (him : Inv) (his : TradeData) (slot : TradeSlot) : Option AcceptResult :=
  match getItem ops him his slot with
  | some item => if !ops.canBeTraded him item then some .tradeCanceled else none
  | none => none

/-- The checks on one slot: the acting player's item first, then the partner's. -/
def checkSlot (me him : Inv) (mine his : TradeData) (slot : TradeSlot) : Option AcceptResult :=
  (checkMine ops me him mine slot).or (checkHis ops him his slot)

/-- The checks on the spell `mine` applies to the item in `his` non-traded slot. -/
def spellOk (me him : Inv) (mine his : TradeData) : Bool :=
  let castItem := if mine.spellCastItem ≠ 0 then ops.getItemByGuid me mine.spellCastItem else none
  mine.spell = 0 ||
    (ops.hasSpellInfo mine.spell && (getItem ops him his slotNonTraded).isSome &&
      !(mine.spellCastItem ≠ 0 && castItem.isNone) && ops.checkCast mine.spell castItem me him)

/-- The four updates of the coinages at the end of the exchange. -/
def exchangeMoney (me him : UInt32) (mine his : TradeData) : UInt32 × UInt32 :=
  let me := (modifyMoney me (-mine.money.toInt32)).1
  let me := (modifyMoney me his.money.toInt32).1
  let him := (modifyMoney him (-his.money.toInt32)).1
  let him := (modifyMoney him mine.money.toInt32).1
  (me, him)

/-- The part of `HandleAcceptTradeOpcode` after `his_trade->IsAccepted()`: both windows are
accepted and the exchange is tried. -/
def executeTrade (me him : Trader Inv) (mine his : TradeData) :
    Trader Inv × Trader Inv × AcceptResult :=
  let myItems := offered ops me.inventory mine
  let hisItems := offered ops him.inventory his
  -- `clearAcceptTradeMode` stands on every way out
  let stop (m h : TradeData) (r : AcceptResult) : Trader Inv × Trader Inv × AcceptResult :=
    ({ me with trade := some (m.setInAcceptProcess false) },
      { him with trade := some (h.setInAcceptProcess false) }, r)
  if !spellOk ops me.inventory him.inventory mine his then
    let windows := mine.setSpell his 0 0
    stop windows.1 windows.2 .spellRefused
  else if !spellOk ops him.inventory me.inventory his mine then
    let windows := his.setSpell mine 0 0
    stop windows.2 windows.1 .partnerSpellRefused
  else if !ops.canStoreItems me.inventory myItems hisItems then
    stop (mine.setAccepted false) (his.setAccepted false) .notFreeSlots
  else if !ops.canStoreItems him.inventory hisItems myItems then
    stop (mine.setAccepted false) (his.setAccepted false) .partnerNotFreeSlots
  else
    let inv := ops.moveItems me.inventory him.inventory myItems hisItems
    let money := exchangeMoney me.money him.money mine his
    ({ money := money.1, inventory := inv.1, trade := none },
      { money := money.2, inventory := inv.2, trade := none }, .tradeComplete)

/-- The part of `HandleAcceptTradeOpcode` after the money checks: the items are checked, and when
the partner has accepted too the exchange is tried. -/
def acceptChecked (me him : Trader Inv) (mine his : TradeData) :
    Trader Inv × Trader Inv × AcceptResult :=
  match tradedSlots.findSome? (checkSlot ops me.inventory him.inventory mine his) with
  | some r => (me, him, r)
  | none => if his.accepted then executeTrade ops me him mine his else (me, him, .tradeAccept)

/-- `WorldSession::HandleAcceptTradeOpcode`. -/
def handleAcceptTradeOpcode (me him : Trader Inv) : Trader Inv × Trader Inv × AcceptResult :=
  match me.trade, him.trade with
  | some mine, some his =>
    let accepted := mine.setAccepted true
    -- the paths that stop here leave the windows with these flags
    let stop (m h : TradeData) (r : AcceptResult) : Trader Inv × Trader Inv × AcceptResult :=
      ({ me with trade := some m }, { him with trade := some h }, r)
    if !hasEnoughMoney me.money mine.money then
      stop (accepted.setAccepted false) his .notEnoughGold
    else if !hasEnoughMoney him.money his.money then
      stop accepted (his.setAccepted false) .partnerNotEnoughGold
    else if me.money ≥ maxMoneyAmount.toUInt32 - his.money then
      stop (accepted.setAccepted false) his .tooMuchGold
    else if him.money ≥ maxMoneyAmount.toUInt32 - mine.money then
      stop accepted (his.setAccepted false) .partnerTooMuchGold
    else
      acceptChecked ops { me with trade := some accepted } him accepted his
  | _, _ => (me, him, .noTrade)

/-- A trade request of one of the two players. -/
inductive TradeRequest
  | setGold (gold : UInt32)
  | unaccept
  | accept

/-- One request of the acting player; only an accept has an outcome of its own. -/
def handleTradeRequest (me him : Trader Inv) :
    TradeRequest → Trader Inv × Trader Inv × AcceptResult
  | .setGold gold =>
    let s := handleSetTradeGoldOpcode me him gold
    (s.1, s.2, .tradeAccept)
  | .unaccept => (handleUnacceptTradeOpcode me, him, .tradeAccept)
  | .accept => handleAcceptTradeOpcode ops me him

/-- The two traders, and a request of the first (`true`) or the second one. -/
def tradeStep (s : Trader Inv × Trader Inv) (i : Bool × TradeRequest) : Trader Inv × Trader Inv :=
  if i.1 then
    let s' := handleTradeRequest ops s.1 s.2 i.2
    (s'.1, s'.2.1)
  else
    let s' := handleTradeRequest ops s.2 s.1 i.2
    (s'.2.1, s'.1)

end Handlers

/-! ### Money -/

section Money

variable {Inv Item : Type} {ops : TradeOps Inv Item} {me him me' him' : Trader Inv}
  {mine his : TradeData} {r : AcceptResult}

theorem capCheck {money offer : UInt32} (ho : offer.toNat ≤ 2147483646)
    (h : money < maxMoneyAmount.toUInt32 - offer) : money.toNat + offer.toNat < 2147483646 := by
  rw [UInt32.lt_iff_toNat_lt, toNat_maxMoneyAmount_sub ho] at h
  omega

/-- The exchange is exact when the offers are covered and neither balance reaches the cap. -/
theorem exchangeMoney_spec {me him : UInt32} {mine his : TradeData}
    (hm : mine.money.toNat ≤ me.toNat) (hh : his.money.toNat ≤ him.toNat)
    (cm : me.toNat + his.money.toNat < 2147483646)
    (ch : him.toNat + mine.money.toNat < 2147483646) :
    (exchangeMoney me him mine his).1.toNat = me.toNat - mine.money.toNat + his.money.toNat ∧
      (exchangeMoney me him mine his).2.toNat =
        him.toNat - his.money.toNat + mine.money.toNat := by
  obtain ⟨d1, -⟩ := modifyMoney_debit (x := mine.money) (by omega) hm
  obtain ⟨d2, -⟩ := modifyMoney_debit (x := his.money) (by omega) hh
  obtain ⟨c1, -⟩ := @modifyMoney_credit (modifyMoney me (-mine.money.toInt32)).1 his.money
    (by omega)
  obtain ⟨c2, -⟩ := @modifyMoney_credit (modifyMoney him (-his.money.toInt32)).1 mine.money
    (by omega)
  rw [d1] at c1
  rw [d2] at c2
  exact ⟨c1, c2⟩

theorem checkSlot_ne_complete {slot : TradeSlot} {i j : Inv}
    (h : checkSlot ops i j mine his slot = some r) : r ≠ .tradeComplete := by
  rcases Option.or_eq_some_iff.1 h with h | ⟨-, h⟩
  · unfold checkMine at h
    cases hi : getItem ops i mine slot with
    | none => simp [hi] at h
    | some item =>
      simp only [hi] at h
      split_ifs at h <;> cases h <;> decide
  · unfold checkHis at h
    cases hi : getItem ops j his slot with
    | none => simp [hi] at h
    | some item =>
      simp only [hi] at h
      split_ifs at h
      cases h
      decide

/-- Every way out of the exchange either keeps both coinages or completes the trade with
`exchangeMoney`. -/
theorem executeTrade_money (h : executeTrade ops me him mine his = (me', him', r)) :
    (r ≠ .tradeComplete ∧ me'.money = me.money ∧ him'.money = him.money) ∨
      (r = .tradeComplete ∧ me'.money = (exchangeMoney me.money him.money mine his).1 ∧
        him'.money = (exchangeMoney me.money him.money mine his).2) := by
  unfold executeTrade at h
  simp only at h
  split_ifs at h <;> simp only [Prod.mk.injEq] at h <;> obtain ⟨rfl, rfl, rfl⟩ := h
  · exact Or.inl ⟨by decide, rfl, rfl⟩
  · exact Or.inl ⟨by decide, rfl, rfl⟩
  · exact Or.inl ⟨by decide, rfl, rfl⟩
  · exact Or.inl ⟨by decide, rfl, rfl⟩
  · refine Or.inr ⟨rfl, ?_, ?_⟩ <;> dsimp only

theorem acceptChecked_money (h : acceptChecked ops me him mine his = (me', him', r)) :
    (r ≠ .tradeComplete ∧ me'.money = me.money ∧ him'.money = him.money) ∨
      (r = .tradeComplete ∧ me'.money = (exchangeMoney me.money him.money mine his).1 ∧
        him'.money = (exchangeMoney me.money him.money mine his).2) := by
  unfold acceptChecked at h
  cases hs : tradedSlots.findSome? (checkSlot ops me.inventory him.inventory mine his) with
  | some r' =>
    simp only [hs] at h
    cases h
    obtain ⟨slot, -, hslot⟩ := List.exists_of_findSome?_eq_some hs
    exact Or.inl ⟨checkSlot_ne_complete hslot, rfl, rfl⟩
  | none =>
    simp only [hs] at h
    split_ifs at h
    · exact executeTrade_money h
    · cases h
      exact Or.inl ⟨by decide, rfl, rfl⟩

/-- What the handler can do to the coinages: nothing, or, with both offers covered by their
owners and below the other's cap, the exchange. -/
theorem handleAcceptTradeOpcode_money (h : handleAcceptTradeOpcode ops me him = (me', him', r)) :
    (r ≠ .tradeComplete ∧ me'.money = me.money ∧ him'.money = him.money) ∨
      (r = .tradeComplete ∧ ∃ mine his, me.trade = some mine ∧ him.trade = some his ∧
        mine.money.toNat ≤ me.money.toNat ∧ his.money.toNat ≤ him.money.toNat ∧
        me.money < maxMoneyAmount.toUInt32 - his.money ∧
        him.money < maxMoneyAmount.toUInt32 - mine.money ∧
        me'.money = (exchangeMoney me.money him.money mine his).1 ∧
        him'.money = (exchangeMoney me.money him.money mine his).2) := by
  unfold handleAcceptTradeOpcode at h
  cases hm : me.trade with
  | none =>
    simp only [hm] at h
    cases h
    exact Or.inl ⟨by decide, rfl, rfl⟩
  | some mine =>
    cases hh : him.trade with
    | none =>
      simp only [hm, hh] at h
      cases h
      exact Or.inl ⟨by decide, rfl, rfl⟩
    | some his =>
      simp only [hm, hh] at h
      split_ifs at h with h1 h2 h3 h4
      · cases h
        exact Or.inl ⟨by decide, rfl, rfl⟩
      · cases h
        exact Or.inl ⟨by decide, rfl, rfl⟩
      · cases h
        exact Or.inl ⟨by decide, rfl, rfl⟩
      · cases h
        exact Or.inl ⟨by decide, rfl, rfl⟩
      · rw [Bool.not_eq_true', Bool.not_eq_false] at h1 h2
        rcases acceptChecked_money h with hk | ⟨hr, he⟩
        · exact Or.inl hk
        · exact Or.inr ⟨hr, mine, his, rfl, rfl, hasEnoughMoney_iff.1 h1, hasEnoughMoney_iff.1 h2,
            UInt32.not_le.1 h3, UInt32.not_le.1 h4, he⟩

/-- What an outcome `r` may do to the money of the acting player and of his partner: a completed
trade moves exactly the two offers, each covered by its owner; anything else moves nothing. -/
def MoneyLaw (me him me' him' : Trader Inv) (r : AcceptResult) : Prop :=
  (r = .tradeComplete → ∃ mine his, me.trade = some mine ∧ him.trade = some his ∧
    mine.money.toNat ≤ me.money.toNat ∧ his.money.toNat ≤ him.money.toNat ∧
    me'.money.toNat = me.money.toNat - mine.money.toNat + his.money.toNat ∧
    him'.money.toNat = him.money.toNat - his.money.toNat + mine.money.toNat ∧
    me'.money.toNat + him'.money.toNat = me.money.toNat + him.money.toNat ∧
    me'.money ≤ maxMoneyAmount.toUInt32 ∧ him'.money ≤ maxMoneyAmount.toUInt32) ∧
  (r ≠ .tradeComplete → me'.money = me.money ∧ him'.money = him.money)

/-- One accept obeys the law, and both balances stay below the maximum. -/
theorem handleAcceptTradeOpcode_law (bm : me.money < maxMoneyAmount.toUInt32)
    (bh : him.money < maxMoneyAmount.toUInt32)
    (h : handleAcceptTradeOpcode ops me him = (me', him', r)) :
    MoneyLaw me him me' him' r ∧ me'.money < maxMoneyAmount.toUInt32 ∧
      him'.money < maxMoneyAmount.toUInt32 := by
  rcases handleAcceptTradeOpcode_money h with
    ⟨hr, em, eh⟩ | ⟨hr, mine, his, hm, hh, cm, ch, lm, lh, em, eh⟩
  · exact ⟨⟨fun hc => absurd hc hr, fun _ => ⟨em, eh⟩⟩, em ▸ bm, eh ▸ bh⟩
  · -- the offers are below the cap, so the unsigned cap checks do not wrap
    rw [UInt32.lt_iff_toNat_lt, toNat_maxMoneyAmount] at bm bh
    have km := capCheck (ch.trans bh.le) lm
    have kh := capCheck (cm.trans bm.le) lh
    obtain ⟨e1, e2⟩ := exchangeMoney_spec cm ch km kh
    rw [← em] at e1
    rw [← eh] at e2
    refine ⟨⟨fun _ => ⟨mine, his, hm, hh, cm, ch, e1, e2, ?_⟩, fun hc => absurd hr hc⟩, ?_⟩
    · simp only [UInt32.le_iff_toNat_le, toNat_maxMoneyAmount]
      omega
    · simp only [UInt32.lt_iff_toNat_lt, toNat_maxMoneyAmount]
      omega

/-- Every request obeys the law, and both balances stay below the maximum. -/
theorem handleTradeRequest_law (bm : me.money < maxMoneyAmount.toUInt32)
    (bh : him.money < maxMoneyAmount.toUInt32) (q : TradeRequest)
    (h : handleTradeRequest ops me him q = (me', him', r)) :
    MoneyLaw me him me' him' r ∧ me'.money < maxMoneyAmount.toUInt32 ∧
      him'.money < maxMoneyAmount.toUInt32 := by
  have keep : ∀ {m' h' : Trader Inv}, m'.money = me.money → h'.money = him.money →
      MoneyLaw me him m' h' .tradeAccept ∧ m'.money < maxMoneyAmount.toUInt32 ∧
        h'.money < maxMoneyAmount.toUInt32 := fun em eh =>
    ⟨⟨fun hc => absurd hc (by decide), fun _ => ⟨em, eh⟩⟩, em ▸ bm, eh ▸ bh⟩
  cases q with
  | setGold gold =>
    cases h
    unfold handleSetTradeGoldOpcode
    split <;> exact keep rfl rfl
  | unaccept =>
    cases h
    exact keep rfl rfl
  | accept => exact handleAcceptTradeOpcode_law bm bh h

/-- **Trading conserves money.** In every sequence of requests of two traders with balances below
the maximum, whatever amounts their clients offer, a request that completes the trade moves
exactly the two offers and any other request leaves both balances as they were. -/
theorem trade_conserves_money (ops : TradeOps Inv Item) (s : Trader Inv × Trader Inv)
    (bm : s.1.money < maxMoneyAmount.toUInt32) (bh : s.2.money < maxMoneyAmount.toUInt32)
    (is : List (Bool × TradeRequest)) :
    Runs.EachStep (tradeStep ops) (fun s i =>
      if i.1 then
        let s' := handleTradeRequest ops s.1 s.2 i.2
        MoneyLaw s.1 s.2 s'.1 s'.2.1 s'.2.2
      else
        let s' := handleTradeRequest ops s.2 s.1 i.2
        MoneyLaw s.2 s.1 s'.1 s'.2.1 s'.2.2) s is := by
  refine Runs.EachStep.mono_inv (C := fun _ _ => True) (fun _ _ _ => trivial)
    (I := fun s => s.1.money < maxMoneyAmount.toUInt32 ∧ s.2.money < maxMoneyAmount.toUInt32)
    ⟨bm, bh⟩ ?_ ?_
  · rintro s ⟨who, q⟩ ⟨b1, b2⟩ -
    cases who
    · exact (handleTradeRequest_law b2 b1 q rfl).2.symm
    · exact (handleTradeRequest_law b1 b2 q rfl).2
  · rintro s ⟨who, q⟩ ⟨b1, b2⟩ -
    cases who
    · exact (handleTradeRequest_law b2 b1 q rfl).1
    · exact (handleTradeRequest_law b1 b2 q rfl).1

/-- An inventory of nothing, in which every check passes. -/
def noItems : TradeOps Unit Unit where
  getItemByGuid _ _ := none
  canBeTraded _ _ := true
  isBindedNotWith _ _ := false
  hasSpellInfo _ := true
  checkCast _ _ _ _ := true
  canStoreItems _ _ _ := true
  moveItems _ _ _ _ := ((), ())

/-- A player with the given coinage and an empty trade window. -/
def openWindow (money : UInt32) : Trader Unit :=
  ⟨money, (), some ⟨false, false, 0, 0, 0, fun _ => 0⟩⟩

/-- Ten copper against three: the offers are set, both accept, and the trade completes. -/
def sampleTrade : List (Bool × TradeRequest) :=
  [(true, .setGold 10), (false, .setGold 3), (false, .accept), (true, .accept)]

theorem trade_conserves_money_sample :
    ((sampleTrade.foldl (tradeStep noItems) (openWindow 100, openWindow 50)).1.money = 93 ∧
      (sampleTrade.foldl (tradeStep noItems) (openWindow 100, openWindow 50)).2.money = 57) ∧
    Runs.EachStep (tradeStep noItems) (fun s i =>
      if i.1 then
        let s' := handleTradeRequest noItems s.1 s.2 i.2
        MoneyLaw s.1 s.2 s'.1 s'.2.1 s'.2.2
      else
        let s' := handleTradeRequest noItems s.2 s.1 i.2
        MoneyLaw s.2 s.1 s'.1 s'.2.1 s'.2.2) (openWindow 100, openWindow 50) sampleTrade :=
  ⟨by decide, trade_conserves_money noItems (openWindow 100, openWindow 50) (by decide) (by decide)
    sampleTrade⟩

end Money

end FaceCore.Trade
