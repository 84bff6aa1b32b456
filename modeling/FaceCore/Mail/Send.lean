import FaceCore.Mail.Draft
import FaceCore.Player.Money

/-!
# Sending a mail

`WorldSession::HandleSendMail`: the early returns in the order of the source, then the debit, the
attachments and the mail. The amount that the sender needs is `cost + money` in 32 bits, compared
with his balance as an unsigned number and debited as a signed one.

* `handleSendMail`: the handler, with the checks of the attachments in `collectAttachments`;
* `mailSend_conserves_iff`: exactly when the sender pays what the mail costs and carries.
-/

namespace FaceCore.MailSend

open Inventory

/-- `MAX_MAIL_ITEMS`. -/
def maxMailItems : ℕ := 12

/-- `EQUIP_ERR_CAN_ONLY_DO_WITH_EMPTY_BAGS`, `EQUIP_ERR_MAIL_BOUND_ITEM` and
`EQUIP_ERR_ARTEFACTS_ONLY_FOR_OWN_CHARACTERS`. -/
def equipErrCanOnlyDoWithEmptyBags : UInt8 := 31
def equipErrMailBoundItem : UInt8 := 72
def equipErrArtefactsOnlyForOwnCharacters : UInt8 := 82

/-- `CMSG_SEND_MAIL`. -/
structure SendPacket where
  receiverName : String
  subject : String
  body : String
  itemGUIDs : List UInt64
  money : UInt32
  cod : UInt32

/-- The sender. -/
structure Sender where
  guid : UInt64
  level : UInt8
  team : UInt32
  accountId : UInt32
  isGameMaster : Bool
  /-- `RBAC_PERM_TWO_SIDE_INTERACTION_MAIL`. -/
  twoSideInteraction : Bool
  money : UInt32
  inventory : Inventory

/-- What the handler asks of the rest of the server; the receiver's data come from the player or,
when he is offline, from the database. -/
structure SendEnv where
  /-- `GetGameObjectIfCanInteractWith` or `GetNPCIfCanInteractWith` finds the mailbox. -/
  canInteract : Bool
  /-- `CONFIG_MAIL_LEVEL_REQ`. -/
  mailLevelReq : UInt32
  /-- `normalizePlayerName` and `GetPlayerGUIDByName`, zero when one of them fails. -/
  receiverGuid : String → UInt64
  receiverTeam : UInt64 → UInt32
  receiverMails : UInt64 → ℕ
  receiverLevel : UInt64 → UInt8
  receiverAccountId : UInt64 → UInt32
  /-- `CONFIG_MAIL_DELIVERY_DELAY`. -/
  deliveryDelay : ℕ
  /-- `ObjectMgr::GenerateMailID`. -/
  mailId : UInt32
  /-- `time(NULL)`. -/
  time : ℕ

/-- How the handler ends: without a reply, with a notification of the level that is required of the
sender or of the receiver, with an error, or with a mail. -/
inductive SendResult
  | dropped
  | senderLevel
  | receiverLevel
  | error (response : MailResponse)
  | sent (m : Mail)

/-- `cost`. -/
def cost (pkt : SendPacket) : UInt32 :=
  if pkt.itemGUIDs.length ≠ 0 then 30 * UInt32.ofNat pkt.itemGUIDs.length else 30

/-- `reqmoney`. -/
def reqmoney (pkt : SendPacket) : UInt32 := cost pkt + pkt.money

/-- `accountBound`: there are attachments, and each one that is found binds to the account. -/
def accountBound (pkt : SendPacket) (p : Sender) : Bool :=
  pkt.itemGUIDs.length ≠ 0 && pkt.itemGUIDs.all fun guid =>
    match p.inventory.getItemByGuid guid with
    | some it => it.boundAccountWide
    | none => true

/-- The checks of one attachment that is found; `none` when it may be sent. -/
def attachmentError (pkt : SendPacket) (p : Sender) (receiverAccountId : UInt32) (it : Item) :
    Option MailResponse :=
  if !it.canBeTraded true false then some (.equipError equipErrMailBoundItem)
  else if it.boundAccountWide && it.soulBound && p.accountId ≠ receiverAccountId then
    some (.equipError equipErrArtefactsOnlyForOwnCharacters)
  else if it.conjured || it.duration ≠ 0 then some (.equipError equipErrMailBoundItem)
  else if pkt.cod ≠ 0 && it.wrapped then some .cantSendWrappedCod
  else if it.isNotEmptyBag then some (.equipError equipErrCanOnlyDoWithEmptyBags)
  else none

/-- The loop over the attachments. -/
def collectAttachments (pkt : SendPacket) (p : Sender) (receiverAccountId : UInt32) :
    List UInt64 → Except MailResponse (List Item)
  | [] => .ok []
  | guid :: guids =>
    if guid = 0 then .error .mailAttachmentInvalid
    else
      match p.inventory.getItemByGuid guid with
      | none => .error .mailAttachmentInvalid
      | some it =>
        match attachmentError pkt p receiverAccountId it with
        | some e => .error e
        | none =>
          match collectAttachments pkt p receiverAccountId guids with
          | .ok its => .ok (it :: its)
          | .error e => .error e

/-- The checks of the handler: how it stops, or the receiver and the attachments. -/
def checkSend (env : SendEnv) (pkt : SendPacket) (p : Sender) :
    Except SendResult (UInt64 × List Item) :=
  if pkt.itemGUIDs.length > maxMailItems then .error (.error .tooManyAttachments)
  else if !env.canInteract then .error .dropped
  else if pkt.receiverName.isEmpty then .error .dropped
  else if p.level.toUInt32 < env.mailLevelReq then .error .senderLevel
  else
    let receiver := env.receiverGuid pkt.receiverName
    if receiver = 0 then .error (.error .recipientNotFound)
    else if p.guid = receiver then .error (.error .cannotSendToSelf)
    else if !hasEnoughMoney p.money (reqmoney pkt) && !p.isGameMaster then
      .error (.error .notEnoughMoney)
    -- `mailsCount` is a `uint8`
    else if UInt8.ofNat (env.receiverMails receiver) > 100 then .error (.error .recipientCapReached)
    else if !accountBound pkt p && p.team ≠ env.receiverTeam receiver && !p.twoSideInteraction then
      .error (.error .notYourTeam)
    else if (env.receiverLevel receiver).toUInt32 < env.mailLevelReq then .error .receiverLevel
    else
      match collectAttachments pkt p (env.receiverAccountId receiver) pkt.itemGUIDs with
      | .error e => .error (.error e)
      | .ok items => .ok (receiver, items)

/-- The handler after its checks. -/
def sendMail (env : SendEnv) (pkt : SendPacket) (p : Sender) (receiver : UInt64)
    (items : List Item) : Sender × SendResult :=
  let draft := items.foldl MailDraft.addItem (MailDraft.new pkt.subject pkt.body)
  let needItemDelay :=
    pkt.itemGUIDs.length > 0 && p.accountId ≠ env.receiverAccountId receiver
  let checked := if pkt.body.isEmpty then mailCheckMaskCopied else mailCheckMaskHasBody
  ({ p with
      money := (modifyMoney p.money (-(reqmoney pkt).toInt32)).1
      inventory := items.foldl (fun inv it => inv.moveItemFromInventory it.guid) p.inventory },
    .sent (((draft.addMoney pkt.money).addCOD pkt.cod).sendMailTo env.mailId (guidLoPart receiver)
      (guidLoPart p.guid) checked env.time (if needItemDelay then env.deliveryDelay else 0)))

/-- `WorldSession::HandleSendMail`. -/
def handleSendMail (env : SendEnv) (pkt : SendPacket) (p : Sender) : Sender × SendResult :=
  match checkSend env pkt p with
  | .error r => (p, r)
  | .ok (receiver, items) => sendMail env pkt p receiver items

/-! ### What is required and when it holds -/

/-- The postage, as a natural number. -/
def postage (pkt : SendPacket) : ℕ := 30 * max 1 pkt.itemGUIDs.length

/-- The sender is charged the postage and the money, and the mail carries the money. -/
def Charged (pkt : SendPacket) (p p' : Sender) (m : Mail) : Prop :=
  p'.money.toNat + (postage pkt + pkt.money.toNat) = p.money.toNat ∧ m.money = pkt.money

/-- The balance covers what the mail costs and carries, as natural numbers, and the signed debit
can take it. The second part follows from the first for every balance up to `2^31`. -/
def Affordable (pkt : SendPacket) (p : Sender) : Prop :=
  postage pkt + pkt.money.toNat ≤ p.money.toNat ∧
    (postage pkt + pkt.money.toNat ≤ 2 ^ 31 ∨
      postage pkt + pkt.money.toNat = 2 ^ 31 + 1 ∧ p.money.toNat < 2 ^ 32 - 1)

theorem cost_toNat {pkt : SendPacket} (h : pkt.itemGUIDs.length ≤ maxMailItems) :
    (cost pkt).toNat = postage pkt := by
  unfold cost postage
  unfold maxMailItems at h
  split_ifs with h0
  · have hn : (UInt32.ofNat pkt.itemGUIDs.length).toNat = pkt.itemGUIDs.length :=
      UInt32.toNat_ofNat_of_lt' (by simp only [UInt32.size]; omega)
    rw [UInt32.toNat_mul, hn, show (30 : UInt32).toNat = 30 from rfl]
    omega
  · rw [show (30 : UInt32).toNat = 30 from rfl]
    omega

/-- The debit of `reqmoney` is a debit of `postage + money` exactly when this is affordable. -/
theorem debit_iff {pkt : SendPacket} (p : Sender) (h : pkt.itemGUIDs.length ≤ maxMailItems) :
    (modifyMoney p.money (-(reqmoney pkt).toInt32)).1.toNat + (postage pkt + pkt.money.toNat) =
      p.money.toNat ↔ Affordable pkt p := by
  have hm := p.money.toNat_lt
  have hpos : 0 < postage pkt := by
    unfold postage
    omega
  unfold Affordable
  by_cases hwrap : postage pkt + pkt.money.toNat < 2 ^ 32
  · have hreq : (reqmoney pkt).toNat = postage pkt + pkt.money.toNat := by
      rw [reqmoney, FixedWidth.toNat_add_of_lt (by rw [cost_toNat h]; exact hwrap), cost_toNat h]
    rw [← hreq]
    exact modifyMoney_debit_iff (by omega)
  · -- a sum of more than 32 bits exceeds every balance, whatever the wrapped debit does
    exact iff_of_false (by omega) (by omega)

theorem checkSend_ne_sent (env : SendEnv) (pkt : SendPacket) (p : Sender) (m : Mail) :
    checkSend env pkt p ≠ .error (.sent m) := by
  have step : ∀ {c : Prop} [Decidable c] {x y : Except SendResult (UInt64 × List Item)},
      x ≠ .error (.sent m) → y ≠ .error (.sent m) → (if c then x else y) ≠ .error (.sent m) := by
    intro c _ x y hx hy
    split_ifs
    exacts [hx, hy]
  unfold checkSend
  iterate 10 refine step nofun ?_
  split <;> simp

theorem checkSend_ok {env : SendEnv} {pkt : SendPacket} {p : Sender} {found : UInt64 × List Item}
    (h : checkSend env pkt p = .ok found) : pkt.itemGUIDs.length ≤ maxMailItems := by
  by_contra hlen
  rw [checkSend, if_pos (by omega)] at h
  simp at h

/-- **Main result.** Without a mail the sender is as he was. With a mail, he is charged exactly the
postage and the money, and the mail carries the money, when and only when he can afford them. -/
theorem mailSend_conserves_iff (env : SendEnv) (pkt : SendPacket) (p : Sender) :
    ((∀ m, (handleSendMail env pkt p).2 ≠ .sent m) → (handleSendMail env pkt p).1 = p) ∧
      ∀ m, (handleSendMail env pkt p).2 = .sent m →
        (Charged pkt p (handleSendMail env pkt p).1 m ↔ Affordable pkt p) := by
  rcases hk : checkSend env pkt p with r | ⟨receiver, items⟩
  · have heq : handleSendMail env pkt p = (p, r) := by rw [handleSendMail, hk]
    rw [heq]
    exact ⟨fun _ => rfl, fun m hm => absurd (hm ▸ hk) (checkSend_ne_sent env pkt p m)⟩
  · have heq : handleSendMail env pkt p = sendMail env pkt p receiver items := by
      rw [handleSendMail, hk]
    refine ⟨fun h => absurd (by rw [heq]; rfl) (h _), fun m hm => ?_⟩
    rw [heq] at hm ⊢
    have hmoney : m.money = pkt.money := by
      rw [← SendResult.sent.inj hm]
      rfl
    rw [Charged, and_iff_left hmoney]
    exact debit_iff p (checkSend_ok hk)

/-- A sender with the given balance and nothing else. -/
def sampleSender (money : UInt32) : Sender where
  guid := 1
  level := 80
  team := 469
  accountId := 1
  isGameMaster := false
  twoSideInteraction := false
  money := money
  inventory := ⟨[], by simp⟩

/-- A server that knows one receiver, of the same team. -/
def sampleEnv : SendEnv where
  canInteract := true
  mailLevelReq := 1
  receiverGuid _ := 2
  receiverTeam _ := 469
  receiverMails _ := 0
  receiverLevel _ := 80
  receiverAccountId _ := 2
  deliveryDelay := 3600
  mailId := 1
  time := 0

/-- A letter with the given money. -/
def sampleLetter (money : UInt32) : SendPacket := ⟨"Anna", "", "", [], money, 0⟩

theorem mailSend_conserves_letter : ∃ m,
    (handleSendMail sampleEnv (sampleLetter 500) (sampleSender 1000)).2 = .sent m ∧
      Charged (sampleLetter 500) (sampleSender 1000)
        (handleSendMail sampleEnv (sampleLetter 500) (sampleSender 1000)).1 m := by
  refine ⟨_, rfl, ((mailSend_conserves_iff _ _ _).2 _ rfl).2 ?_⟩
  unfold Affordable
  decide

/-- With `2^32 - 30` copper the required amount wraps to zero: the letter goes out with the money
and the sender, who has nothing, pays nothing. -/
theorem mailSend_wraps : ∃ m,
    (handleSendMail sampleEnv (sampleLetter 4294967266) (sampleSender 0)).2 = .sent m ∧
      m.money = 4294967266 ∧
      ¬Charged (sampleLetter 4294967266) (sampleSender 0)
        (handleSendMail sampleEnv (sampleLetter 4294967266) (sampleSender 0)).1 m := by
  refine ⟨_, rfl, rfl, fun h => ?_⟩
  exact absurd h.1 (by decide)

end FaceCore.MailSend
