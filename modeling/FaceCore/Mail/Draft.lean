import FaceCore.Player.Inventory

/-!
# Mails and mail drafts

`Mail`, `MailDraft` and `MailDraft::SendMailTo`, with the fields that the mail handlers read. The
attachments of a draft are a map from low guids to items, so an item that is added twice is
attached once.
-/

namespace FaceCore

/-- `MailItemInfo`. -/
structure MailItemInfo where
  itemGuid : UInt32
  itemTemplate : UInt32
  deriving DecidableEq

/-- `MailState`. -/
inductive MailState
  | unchanged
  | changed
  | deleted
  deriving DecidableEq

/-- `Mail`. -/
structure Mail where
  messageID : UInt32
  sender : UInt32
  receiver : UInt32
  subject : String
  body : String
  items : List MailItemInfo
  removedItems : List UInt32
  deliverTime : ℕ
  money : UInt32
  cod : UInt32
  checked : UInt32
  state : MailState
  deriving DecidableEq

/-- `Mail::RemoveItem`: the first entry with the given guid. -/
def Mail.removeItem (m : Mail) (itemGuid : UInt32) : Mail :=
  { m with items := m.items.eraseP (·.itemGuid == itemGuid) }

/-- The codes that `Player::SendMailResult` reports; an equip error comes with its own code. -/
inductive MailResponse
  | ok
  | equipError (msg : UInt8)
  | cannotSendToSelf
  | notEnoughMoney
  | recipientNotFound
  | notYourTeam
  | internalError
  | recipientCapReached
  | cantSendWrappedCod
  | tooManyAttachments
  | mailAttachmentInvalid
  deriving DecidableEq

/-- `MAIL_CHECK_MASK_COPIED`, `MAIL_CHECK_MASK_COD_PAYMENT` and `MAIL_CHECK_MASK_HAS_BODY`. -/
def mailCheckMaskCopied : UInt32 := 0x04
def mailCheckMaskCodPayment : UInt32 := 0x08
def mailCheckMaskHasBody : UInt32 := 0x10

/-- `MailDraft`. The items are in the order of their low guids. -/
structure MailDraft where
  subject : String
  body : String
  items : List Item
  money : UInt32
  cod : UInt32

namespace MailDraft

/-- `MailDraft::MailDraft`. -/
def new (subject body : String) : MailDraft := ⟨subject, body, [], 0, 0⟩

/-- `m_items[item->GetGUIDLow()] = item`. -/
def insertItem (it : Item) : List Item → List Item
  | [] => [it]
  | x :: xs =>
    if guidLoPart it.guid < guidLoPart x.guid then it :: x :: xs
    else if guidLoPart it.guid = guidLoPart x.guid then it :: xs
    else x :: insertItem it xs

/-- `MailDraft::AddItem`. -/
def addItem (d : MailDraft) (it : Item) : MailDraft := { d with items := insertItem it d.items }

/-- `MailDraft::AddMoney`. -/
def addMoney (d : MailDraft) (money : UInt32) : MailDraft := { d with money := money }

/-- `MailDraft::AddCOD`. -/
def addCOD (d : MailDraft) (cod : UInt32) : MailDraft := { d with cod := cod }

/-- `MailDraft::SendMailTo`: the mail that is written to the database and, for a receiver who is
online with his mails loaded, put into his mail list. -/
def sendMailTo (d : MailDraft) (mailId receiver sender checked : UInt32) (time deliverDelay : ℕ) :
    Mail where
  messageID := mailId
  sender := sender
  receiver := receiver
  subject := d.subject
  body := d.body
  items := d.items.map fun it => ⟨guidLoPart it.guid, it.entry⟩
  removedItems := []
  deliverTime := time + deliverDelay
  money := d.money
  cod := d.cod
  checked := checked
  state := .unchanged

end MailDraft

end FaceCore
