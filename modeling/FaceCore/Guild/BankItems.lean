import FaceCore.Player.Placement
import Mathlib.Data.UInt

/-!
# The items of a guild bank

`Guild::SwapItems`, `Guild::SwapItemsWithInventory` and what they call: `_MoveItems`,
`_DoItemsMove`, and the endpoints `BankMoveItemData` and `PlayerMoveItemData` with `InitItem`,
`CheckItem`, `HasStoreRights`, `HasWithdrawRights`, `CanStore`, `RemoveItem`, `StoreItem`. A move
splits a stack, or takes it whole and merges it into the destination, or, if that cannot be done,
swaps the two stacks.

The bank is one `Stock`, by tab and slot; the player's items are those of `FaceCore.Storage`. The
guids of new items are counted up. The logs and the statements sent to the database do not feed
back into the items and are left out.
-/

namespace FaceCore.Storage.GuildItems

/-- `GUILD_BANK_MAX_TABS`. -/
def guildBankMaxTabs : ℕ := 6

/-- `GUILD_BANK_MAX_SLOTS`. -/
def guildBankMaxSlots : ℕ := 98

/-- `GR_GUILDMASTER`. -/
def grGuildMaster : ℕ := 0

/-- `GUILD_BANK_RIGHT_VIEW_TAB`. -/
def guildBankRightViewTab : UInt8 := 0x01

/-- `GUILD_BANK_RIGHT_DEPOSIT_ITEM`. -/
def guildBankRightDepositItem : UInt8 := 0x03

/-- `GUILD_WITHDRAW_SLOT_UNLIMITED`, as `int32`. -/
def guildWithdrawSlotUnlimited : Int32 := (0xFFFFFFFF : UInt32).toInt32

/-- The rights and the items per day of a rank in a tab. -/
structure RightsAndSlots where
  rights : UInt8
  slots : Int32

/-- The player's `Guild::Member`: his rank and `m_bankWithdraw`, the items he took out of each tab
today. -/
structure Member where
  rankId : ℕ
  bankWithdraw : ℕ → Int32

/-- What a move does not change: the templates, the tabs, the ranks, whether the player is the
guild's leader, and the answers of `Item::IsSoulBound` and `Item::CanBeTraded`. -/
structure Guild where
  world : World
  purchasedTabs : ℕ
  /-- The ranks, by id: what is set for each tab. -/
  ranks : List (ℕ → RightsAndSlots)
  isLeader : Bool
  isSoulBound : Item → Bool
  canBeTraded : Item → Bool

/-- The items of the bank, by tab and slot. -/
abbrev Bank := Stock (ℕ × ℕ) Item

/-- The items of the bank and of the player, the next free item guid, and the player's membership. -/
structure Holdings where
  bank : Bank
  bags : Bags
  next : ℕ
  member : Option Member

variable (G : Guild)

/-! ### Rights -/

/-- `RankInfo::GetBankTabRights` and `GetBankTabSlotsPerDay` of a rank. -/
def rightsAndSlots (rankId tabId : ℕ) : RightsAndSlots :=
  match G.ranks[rankId]? with
  | some rank => if tabId < guildBankMaxTabs then rank tabId else ⟨0, 0⟩
  | none => ⟨0, 0⟩

/-- `Guild::_GetRankBankTabSlotsPerDay`. -/
def getRankBankTabSlotsPerDay (rankId tabId : ℕ) : Int32 :=
  if tabId < G.purchasedTabs then (rightsAndSlots G rankId tabId).slots else 0

/-- `Guild::_GetMemberRemainingSlots`. -/
def getMemberRemainingSlots (m : Option Member) (tabId : ℕ) : Int32 :=
  match m with
  | none => 0
  | some m =>
    if m.rankId = grGuildMaster then guildWithdrawSlotUnlimited
    else if (rightsAndSlots G m.rankId tabId).rights &&& guildBankRightViewTab ≠ 0 then
      let remaining := getRankBankTabSlotsPerDay G m.rankId tabId - m.bankWithdraw tabId
      if remaining > 0 then remaining else 0
    else 0

/-- `Guild::_MemberHasTabRights`. -/
def memberHasTabRights (m : Option Member) (tabId : ℕ) (rights : UInt8) : Bool :=
  match m with
  | none => false
  | some m =>
    m.rankId = grGuildMaster || G.isLeader ||
      (rightsAndSlots G m.rankId tabId).rights &&& rights = rights

/-- `Guild::_UpdateMemberWithdrawSlots`. -/
def updateMemberWithdrawSlots (m : Option Member) (tabId : ℕ) : Option Member :=
  m.map fun m =>
    if m.rankId ≠ grGuildMaster ∧
        m.bankWithdraw tabId < getRankBankTabSlotsPerDay G m.rankId tabId then
      { m with bankWithdraw := Function.update m.bankWithdraw tabId (m.bankWithdraw tabId + 1) }
    else m

/-! ### The bank as a destination -/

/-- `Guild::_GetItem`. -/
def getItem (bank : Bank) (tabId slotId : ℕ) : Option (Cell (ℕ × ℕ) Item) :=
  if tabId < G.purchasedTabs ∧ slotId < guildBankMaxSlots then bank.find (tabId, slotId) else none

/-- The item of a slot, ignoring the item that is moved. -/
def otherItem (bank : Bank) (item : Item) (tabId slotId : ℕ) : Option (Cell (ℕ × ℕ) Item) :=
  (getItem G bank tabId slotId).filter fun c => c.item.guid ≠ item.guid

/-- `BankMoveItemData::_ReserveSpace`: the plan afterwards, or nothing if the items do not match. -/
def reserveSpace (item : Item) (slotId : ℕ) (itemDest : Option (Cell (ℕ × ℕ) Item))
    (plan : Plan Pos) : Option (Plan Pos) :=
  let max := G.world.maxStack item.entry
  match itemDest with
  | some c =>
    if c.item.entry ≠ item.entry ∨ c.count ≥ max then none else some (plan.reserve (0, slotId) (max - c.count))
  | none => some (plan.reserve (0, slotId) max)

/-- `BankMoveItemData::CanStoreItemInTab`, over a list of slots. -/
def canStoreItemInTab (bank : Bank) (item : Item) (tabId skipSlotId : ℕ) (merge : Bool) :
    List ℕ → Plan Pos → Plan Pos
  | [], plan => plan
  | slotId :: slots, plan =>
    if plan.count = 0 then plan
    else if slotId = skipSlotId then canStoreItemInTab bank item tabId skipSlotId merge slots plan
    else
      let itemDest := otherItem G bank item tabId slotId
      if itemDest.isSome ≠ merge then
        canStoreItemInTab bank item tabId skipSlotId merge slots plan
      else
        canStoreItemInTab bank item tabId skipSlotId merge slots
          ((reserveSpace G item slotId itemDest plan).getD plan)

/-- The first part of `BankMoveItemData::CanStore`: the slot that is explicitly specified. -/
def reserveSpecific (bank : Bank) (tabId slotId : ℕ) (item : Item) (count : ℕ) (swap : Bool) :
    Option (Plan Pos) :=
  if slotId ≠ nullSlot then
    reserveSpace G item slotId (if swap then none else otherItem G bank item tabId slotId)
      ⟨[], count⟩
  else some ⟨[], count⟩

/-- `BankMoveItemData::CanStore`. -/
def bankCanStore (bank : Bank) (tabId slotId : ℕ) (item : Item) (count : ℕ) (swap : Bool) :
    Except InventoryResult (List (Pos × ℕ)) :=
  if G.isSoulBound item then .error .cantDropSoulbound
  else if G.purchasedTabs ≤ tabId then .error .itemDoesntGoIntoBag
  else
    match reserveSpecific G bank tabId slotId item count swap with
    | none => .error .itemCantStack
    | some plan =>
      if slotId ≠ nullSlot ∧ plan.count = 0 then .ok plan.dest
      else
        let slots := List.range guildBankMaxSlots
        let merged :=
          if 1 < G.world.maxStack item.entry then
            canStoreItemInTab G bank item tabId slotId true slots plan
          else plan
        if 1 < G.world.maxStack item.entry ∧ merged.count = 0 then .ok merged.dest
        else
          let found := canStoreItemInTab G bank item tabId slotId false slots merged
          if found.count = 0 then .ok found.dest else .error .bankFull

/-- `BankMoveItemData::_StoreItem`. -/
def bankStoreItemAt (tabId : ℕ) (next : ℕ) (bank : Bank) (pos : Pos) (item : Item) (count : ℕ)
    (clone : Bool) : ℕ × Bank :=
  match getItem G bank tabId pos.2 with
  | some c => (next, bank.setCount c.loc (c.count + count))
  | none =>
    let stored := if clone then cloneItem G.world item count next else some (item, count)
    match stored with
    | some (i, n) =>
      (if clone then next + 1 else next,
        if pos.2 < guildBankMaxSlots then bank.insert ⟨(tabId, pos.2), i, n⟩ else bank)
    | none => (next, bank)

/-- The loop of `BankMoveItemData::StoreItem`. -/
def bankStoreItem (tabId : ℕ) (item : Item) : ℕ → Bank → List (Pos × ℕ) → ℕ × Bank
  | next, bank, [] => (next, bank)
  | next, bank, q :: dest =>
    if dest.isEmpty then bankStoreItemAt G tabId next bank q.1 item q.2 false
    else
      let r := bankStoreItemAt G tabId next bank q.1 item q.2 true
      bankStoreItem tabId item r.1 r.2 dest

/-! ### The endpoints of a move -/

/-- A `MoveItemData`: a container and a slot, of the bank or of the player. -/
inductive Endpoint
  | bank (tabId slotId : ℕ)
  | player (pos : Pos)
  deriving DecidableEq

/-- The endpoint is in the bank, in the same tab as the other one. -/
def Endpoint.sameTab : Endpoint → Endpoint → Bool
  | .bank tabId _, .bank tabId' _ => tabId = tabId'
  | _, _ => false

/-- `MoveItemData::InitItem`: the item object and its count. -/
def Endpoint.initItem (st : Holdings) : Endpoint → Option (Item × ℕ)
  | .bank tabId slotId => (getItem G st.bank tabId slotId).map fun c => (c.item, c.count)
  | .player pos =>
    match getItemByPos G.world st.bags pos with
    | some c =>
      if isNotEmptyBag G.world st.bags c.item then none
      else if !G.canBeTraded c.item then none
      else some (c.item, c.count)
    | none => none

/-- `MoveItemData::HasStoreRights`. -/
def Endpoint.hasStoreRights (st : Holdings) (ep other : Endpoint) : Bool :=
  match ep with
  | .bank tabId _ =>
    ep.sameTab other || memberHasTabRights G st.member tabId guildBankRightDepositItem
  | .player _ => true

/-- `MoveItemData::HasWithdrawRights`. -/
def Endpoint.hasWithdrawRights (st : Holdings) (ep other : Endpoint) : Bool :=
  match ep with
  | .bank tabId _ => ep.sameTab other || getMemberRemainingSlots G st.member tabId ≠ 0
  | .player _ => true

/-- `MoveItemData::CanStore`. -/
def Endpoint.canStore (st : Holdings) (ep : Endpoint) (item : Item) (count : ℕ) (swap : Bool) :
    Except InventoryResult (List (Pos × ℕ)) :=
  match ep with
  | .bank tabId slotId => bankCanStore G st.bank tabId slotId item count swap
  | .player pos => canStoreItem G.world st.bags item pos count swap

/-- `MoveItemData::RemoveItem` of the endpoint's item, which has `count` units: `splitedAmount` of
them, or the whole item. -/
def Endpoint.removeItem (st : Holdings) (ep other : Endpoint) (count splitedAmount : ℕ) :
    Holdings :=
  match ep with
  | .bank tabId slotId =>
    { st with
      bank :=
        if splitedAmount ≠ 0 then st.bank.setCount (tabId, slotId) (count - splitedAmount)
        else st.bank.erase (tabId, slotId)
      member :=
        if ep.sameTab other then st.member else updateMemberWithdrawSlots G st.member tabId }
  | .player pos =>
    { st with
      bags :=
        if splitedAmount ≠ 0 then
          match getItemByPos G.world st.bags pos with
          | some c => st.bags.setCount c.loc (count - splitedAmount)
          | none => st.bags
        else Storage.removeItem G.world st.bags pos }

/-- `MoveItemData::StoreItem` along a plan. -/
def Endpoint.storeItem (st : Holdings) (ep : Endpoint) (dest : List (Pos × ℕ)) (item : Item) :
    Holdings :=
  match ep with
  | .bank tabId _ =>
    if tabId < G.purchasedTabs then
      let r := bankStoreItem G tabId item st.next st.bank dest
      { st with next := r.1, bank := r.2 }
    else st
  | .player _ =>
    let r := Storage.storeItem G.world item st.next st.bags dest
    { st with next := r.1, bags := r.2 }

/-! ### The move -/

/-- `Guild::_DoItemsMove`: of `item` (the item of `src`, which has `srcCount` units, or a clone with
`splitedAmount` of them) to `dst`, swapping it with `dstItem`. The flag says whether it was done. -/
def doItemsMove (st : Holdings) (src dst : Endpoint) (srcCount : ℕ)
    (dstItem : Option (Item × ℕ)) (item : Item × ℕ) (splitedAmount : ℕ) : Bool × Holdings :=
  match dst.canStore G st item.1 item.2 dstItem.isSome with
  | .error _ => (false, st)
  | .ok dest =>
    match dstItem with
    | none =>
      let st := src.removeItem G st dst srcCount splitedAmount
      (true, dst.storeItem G st dest item.1)
    | some (dItem, dCount) =>
      match src.canStore G st dItem dCount true with
      | .error _ => (false, st)
      | .ok dest' =>
        let st := src.removeItem G st dst srcCount splitedAmount
        let st := dst.removeItem G st src dCount 0
        let st := dst.storeItem G st dest item.1
        (true, src.storeItem G st dest' dItem)

/-- `Guild::_MoveItems`. -/
def moveItems (st : Holdings) (src dst : Endpoint) (splitedAmount : ℕ) : Bool × Holdings :=
  match src.initItem G st with
  | none => (false, st)
  | some (item, count) =>
    if count < splitedAmount then (false, st)
    else
      let splitedAmount := if splitedAmount = count then 0 else splitedAmount
      if !dst.hasStoreRights G st src then (false, st)
      else if !src.hasWithdrawRights G st dst then (false, st)
      else if splitedAmount ≠ 0 then
        match cloneItem G.world item splitedAmount st.next with
        | none => (false, st)
        | some clone =>
          doItemsMove G { st with next := st.next + 1 } src dst count none clone splitedAmount
      else
        let merge := doItemsMove G st src dst count none (item, count) 0
        if merge.1 then merge
        else
          match dst.initItem G st with
          | none => (false, st)
          | some (dItem, dCount) =>
            if !src.hasStoreRights G st dst then (false, st)
            else if !dst.hasWithdrawRights G st src then (false, st)
            else doItemsMove G st src dst count (some (dItem, dCount)) (item, count) 0

/-- A call of one of the two functions. -/
inductive Call
  | swapItems (tabId slotId destTabId destSlotId splitedAmount : ℕ)
  | swapItemsWithInventory (toChar : Bool) (tabId slotId : ℕ) (playerPos : Pos)
    (splitedAmount : ℕ)

/-- `Guild::SwapItems`. -/
def swapItems (st : Holdings) (tabId slotId destTabId destSlotId splitedAmount : ℕ) :
    Bool × Holdings :=
  if G.purchasedTabs ≤ tabId ∨ guildBankMaxSlots ≤ slotId ∨ G.purchasedTabs ≤ destTabId ∨
      guildBankMaxSlots ≤ destSlotId then (false, st)
  else if tabId = destTabId ∧ slotId = destSlotId then (false, st)
  else moveItems G st (.bank tabId slotId) (.bank destTabId destSlotId) splitedAmount

/-- `Guild::SwapItemsWithInventory`. -/
def swapItemsWithInventory (st : Holdings) (toChar : Bool) (tabId slotId : ℕ) (playerPos : Pos)
    (splitedAmount : ℕ) : Bool × Holdings :=
  if (guildBankMaxSlots ≤ slotId ∧ slotId ≠ nullSlot) ∨ G.purchasedTabs ≤ tabId then (false, st)
  else if toChar then moveItems G st (.bank tabId slotId) (.player playerPos) splitedAmount
  else moveItems G st (.player playerPos) (.bank tabId slotId) splitedAmount

/-- A call; the flag says whether items were moved. -/
def step (st : Holdings) : Call → Bool × Holdings
  | .swapItems tabId slotId destTabId destSlotId splitedAmount =>
    swapItems G st tabId slotId destTabId destSlotId splitedAmount
  | .swapItemsWithInventory toChar tabId slotId playerPos splitedAmount =>
    swapItemsWithInventory G st toChar tabId slotId playerPos splitedAmount

end FaceCore.Storage.GuildItems
