import FaceCore.Lib.Table
import FaceCore.Mail.Take

/-!
# Reading, deleting and returning mails, and taking their money

`WorldSession::HandleMailMarkAsRead`, `HandleMailDelete`, `HandleMailReturnToSender` with
`MailDraft::SendReturnToSender`, and `HandleMailTakeMoney` with `Player::_SaveMail`. The handlers
share the mails of a player, their states, and the map of the items of all his mails.

* `Mailbox`, `Request`, `step`: the mails with a record of the mails that went back, what can be
  requested, and the mailbox with the answer;
* `StepOk`: what a request does to contents and balances;
* `mail_contents_kept`: along any run the contents are kept, and a deleted mail is not accepted again
  unless it is marked as read.

A mail that is not an ordinary one, or whose sender is gone, is deleted with its contents when it is
returned. A counter of mail ids that comes to its end stops the server. Database statements are left
out.
-/

namespace FaceCore.MailReturn

open MailTake (ItemMap)

/-- `MailMessageType`. -/
inductive MailMessageType
  | normal
  | auction
  | creature
  | gameObject
  | calendar
  deriving DecidableEq

/-- A `Mail` with the fields that only the handlers here read. -/
structure ReceivedMail extends Mail where
  messageType : MailMessageType
  mailTemplateId : UInt16

/-- `messageID`. -/
def ReceivedMail.id (m : ReceivedMail) : UInt32 := m.messageID

/-- The guids of the attached items. -/
def ReceivedMail.guids (m : ReceivedMail) : List UInt32 := m.items.map MailItemInfo.itemGuid

/-- `MAIL_CHECK_MASK_READ` and `MAIL_CHECK_MASK_RETURNED`. -/
def mailCheckMaskRead : UInt32 := 0x01
def mailCheckMaskReturned : UInt32 := 0x02

/-- `EQUIP_ERR_TOO_MUCH_GOLD`. -/
def equipErrTooMuchGold : UInt8 := 77

/-- `Player::AddMItem`. -/
def addMItem (items : ItemMap) (it : Item) : ItemMap where
  find := Function.update items.find (guidLoPart it.guid) (some it)
  guidLow := by
    intro id x h
    by_cases hid : id = guidLoPart it.guid
    · rw [hid, Function.update_self] at h
      rw [hid, Option.some.inj h]
    · rw [Function.update_of_ne hid] at h
      exact items.guidLow id x h

/-- A player at a mailbox, the mails that he returned, and the counter `_mailId`. -/
structure Mailbox where
  guidLow : UInt32
  accountId : UInt32
  mails : Table ReceivedMail.id
  mMitems : ItemMap
  money : UInt32
  unReadMails : UInt8
  mailsUpdated : Bool
  returned : List ReceivedMail
  mailId : UInt32

/-- What a request asks of the rest of the server. -/
structure World where
  /-- `GetGameObjectIfCanInteractWith` or `GetNPCIfCanInteractWith` finds the mailbox. -/
  canInteract : Bool
  /-- `time(NULL)`. -/
  time : ℕ
  /-- `ObjectAccessor::FindPlayer`. -/
  online : UInt32 → Bool
  /-- `ObjectMgr::GetPlayerAccountIdByGUID`. -/
  accountId : UInt32 → UInt32
  /-- `CONFIG_MAIL_DELIVERY_DELAY`. -/
  deliveryDelay : ℕ

/-- The requests. -/
inductive Request
  | markAsRead (w : World) (mailId : UInt32)
  | delete (w : World) (mailId : UInt32)
  | returnToSender (w : World) (mailId : UInt32)
  | takeMoney (w : World) (mailId : UInt32)

/-- The answers; `dropped` is none. -/
inductive Answer
  | dropped
  | error (response : MailResponse)
  | ok
  deriving DecidableEq

namespace Mailbox

/-- Change a mail in place. -/
def modifyMail (s : Mailbox) (id : UInt32) (f : ReceivedMail → ReceivedMail)
    (hf : ∀ m, (f m).id = m.id) : Mailbox :=
  { s with mails := s.mails.modify id f hf }

/-- `WorldSession::HandleMailMarkAsRead`. The state is overwritten whatever it is. -/
def markAsRead (s : Mailbox) (w : World) (mailId : UInt32) : Mailbox × Answer :=
  if !w.canInteract then (s, .dropped)
  else
    match s.mails.find mailId with
    | none => (s, .dropped)
    | some _ =>
      let s := s.modifyMail mailId
        (fun m => { m with checked := m.checked ||| mailCheckMaskRead, state := .changed })
        fun _ => rfl
      ({ s with
          unReadMails := if s.unReadMails ≠ 0 then s.unReadMails - 1 else s.unReadMails
          mailsUpdated := true }, .dropped)

/-- `WorldSession::HandleMailDelete`. -/
def delete (s : Mailbox) (w : World) (mailId : UInt32) : Mailbox × Answer :=
  if !w.canInteract then (s, .dropped)
  else
    let s := { s with mailsUpdated := true }
    match s.mails.find mailId with
    | none => (s, .ok)
    | some m =>
      -- delete shouldn't show up for COD mails
      if m.cod ≠ 0 then (s, .error .internalError)
      else (s.modifyMail mailId (fun m => { m with state := .deleted }) fun _ => rfl, .ok)

/-- The loop over the items of a mail that is returned. -/
def collectItems : List MailItemInfo → MailDraft → ItemMap → MailDraft × ItemMap
  | [], draft, items => (draft, items)
  | info :: infos, draft, items =>
    let draft :=
      match items.find info.itemGuid with
      | some it => draft.addItem it
      | none => draft
    collectItems infos draft (items.erase info.itemGuid)

/-- Is the player with this guid the one at the mailbox, or does he exist otherwise? -/
def receiverExists (s : Mailbox) (w : World) (guid : UInt32) : Bool :=
  (guid = s.guidLow || w.online guid) || w.accountId guid ≠ 0

/-- `MailDraft::SendReturnToSender` and `SendMailTo`, for a draft with the money and the items of the
mail `m`. A player who is online has no account looked up. -/
def sendReturnToSender (s : Mailbox) (w : World) (m : ReceivedMail) (draft : MailDraft) :
    Option Mailbox :=
  if !s.receiverExists w m.sender then some s
  else if s.mailId ≥ 0xFFFFFFFE then none
  else
    let rcAccount := if m.sender = s.guidLow || w.online m.sender then 0 else w.accountId m.sender
    let deliverDelay :=
      if !draft.items.isEmpty && s.accountId ≠ rcAccount then w.deliveryDelay else 0
    let mail : ReceivedMail :=
      { draft.sendMailTo s.mailId m.sender m.receiver mailCheckMaskReturned w.time deliverDelay with
        messageType := .normal
        mailTemplateId := m.mailTemplateId }
    let s := { s with returned := s.returned ++ [mail], mailId := s.mailId + 1 }
    if m.sender = s.guidLow then
      some { s with
        mails := s.mails.insert mail
        mMitems := draft.items.foldl addMItem s.mMitems }
    else some s

/-- `WorldSession::HandleMailReturnToSender`. -/
def returnToSender (s : Mailbox) (w : World) (mailId : UInt32) : Option (Mailbox × Answer) :=
  if !w.canInteract then some (s, .dropped)
  else
    match s.mails.find mailId with
    | none => some (s, .error .internalError)
    | some m =>
      if m.state = .deleted || m.deliverTime > w.time then some (s, .error .internalError)
      else
        let s := { s with mails := s.mails.erase mailId }
        -- only return mail if the player exists (and delete if not existing)
        if m.messageType = .normal && m.sender ≠ 0 then
          let draft :=
            if m.mailTemplateId ≠ 0 then MailDraft.new "" "" else MailDraft.new m.subject m.body
          let (draft, items) := collectItems m.items draft s.mMitems
          (sendReturnToSender { s with mMitems := items } w m (draft.addMoney m.money)).map (·, .ok)
        else some (s, .ok)

/-- A mail after its changes are written to the database. -/
def saved (m : ReceivedMail) : ReceivedMail :=
  if m.state = .changed then { m with removedItems := [], state := .unchanged } else m

theorem id_saved (m : ReceivedMail) : (saved m).id = m.id := by
  unfold saved
  split_ifs <;> rfl

/-- `Player::_SaveMail`, as far as it changes the mails in memory. -/
def saveMail (s : Mailbox) : Mailbox :=
  { s with
    mails := (s.mails.map saved id_saved).filter fun m => m.state ≠ .deleted
    mailsUpdated := false }

/-- `WorldSession::HandleMailTakeMoney`. -/
def takeMoney (s : Mailbox) (w : World) (mailId : UInt32) : Mailbox × Answer :=
  if !w.canInteract then (s, .dropped)
  else
    match s.mails.find mailId with
    | none => (s, .error .internalError)
    | some m =>
      if m.state = .deleted || m.deliverTime > w.time then (s, .error .internalError)
      else
        let (money, ok) := modifyMoney s.money m.money.toInt32
        if !ok then (s, .error (.equipError equipErrTooMuchGold))
        else
          let s := s.modifyMail mailId (fun m => { m with money := 0, state := .changed })
            fun _ => rfl
          (saveMail { s with money := money }, .ok)

/-- The mailbox and the answer after a request, if the server has not stopped. -/
def handle (s : Mailbox) : Request → Option (Mailbox × Answer)
  | .markAsRead w mailId => some (s.markAsRead w mailId)
  | .delete w mailId => some (s.delete w mailId)
  | .returnToSender w mailId => s.returnToSender w mailId
  | .takeMoney w mailId => some (s.takeMoney w mailId)

/-- The mailbox after a request. -/
def step (s : Mailbox) (r : Request) : Option Mailbox := (s.handle r).map Prod.fst

/-! ### What is to be kept -/

/-- The mails have ids from the counter, and every attached item is in the map and attached once. -/
structure WellFormed (s : Mailbox) : Prop where
  ids : ∀ m ∈ s.mails, m.id < s.mailId
  nodup : ∀ m ∈ s.mails, m.guids.Nodup
  single : ∀ m ∈ s.mails, ∀ m' ∈ s.mails, ∀ g ∈ m.guids, g ∈ m'.guids → m = m'
  found : ∀ m ∈ s.mails, ∀ g ∈ m.guids, s.mMitems.find g ≠ none

/-- Nothing is taken and nothing is sent; mails keep what they hold. -/
structure SameContents (s s' : Mailbox) : Prop where
  money : s'.money = s.money
  mMitems : s'.mMitems = s.mMitems
  returned : s'.returned = s.returned
  mails : s'.mails.toList.map (fun m => (m.id, m.money, m.items)) =
    s.mails.toList.map fun m => (m.id, m.money, m.items)

/-- The mail goes back when it is returned. -/
def GoesBack (s : Mailbox) (w : World) (m : ReceivedMail) : Prop :=
  m.messageType = .normal ∧ m.sender ≠ 0 ∧ s.receiverExists w m.sender = true

/-- A mail leaves the list. If it goes back, its sender gets one mail with its money and its items,
which leave the map unless the sender is the player himself; other items stay. -/
structure Returned (s s' : Mailbox) (w : World) (m : ReceivedMail) : Prop where
  money : s'.money = s.money
  otherItems : ∀ g ∉ m.guids, s'.mMitems.find g = s.mMitems.find g
  deleted : ¬ s.GoesBack w m → s'.returned = s.returned ∧ s'.mails = s.mails.erase m.id
  sent : s.GoesBack w m → ∃ mail : ReceivedMail, s'.returned = s.returned ++ [mail] ∧
    mail.receiver = m.sender ∧ mail.money = m.money ∧ mail.guids.Perm m.guids ∧
      if m.sender = s.guidLow then s'.mails = (s.mails.erase m.id).insert mail
      else s'.mails = s.mails.erase m.id ∧ ∀ g ∈ m.guids, s'.mMitems.find g = none

/-- The money of a mail is credited exactly, if it is below `2^31 - 1`, and gone from the mail. Mails
that are not deleted stay, with their items and, but for this one, their money. -/
structure MoneyTaken (s s' : Mailbox) (m : ReceivedMail) : Prop where
  credited : m.money.toNat < 2 ^ 31 - 1 → s'.money.toNat = s.money.toNat + m.money.toNat
  mMitems : s'.mMitems = s.mMitems
  returned : s'.returned = s.returned
  mails : s'.mails.toList.map (fun m => (m.id, m.money, m.items)) =
    (s.mails.toList.filter fun m => m.state ≠ .deleted).map fun m' =>
      (m'.id, if m'.id = m.id then 0 else m'.money, m'.items)

/-- What a request has to do. -/
def StepOk (s : Mailbox) (r : Request) (s' : Mailbox) (a : Answer) : Prop :=
  match r with
  | .markAsRead _ _ => s.SameContents s'
  | .delete _ _ => s.SameContents s'
  | .returnToSender w mailId =>
    a ≠ .ok ∧ s' = s ∨ ∃ m ∈ s.mails, m.id = mailId ∧ m.state ≠ .deleted ∧ s.Returned s' w m
  | .takeMoney _ mailId =>
    a ≠ .ok ∧ s' = s ∨ ∃ m ∈ s.mails, m.id = mailId ∧ m.state ≠ .deleted ∧ s.MoneyTaken s' m

/-- Mails come only with ids from the counter. -/
structure Fresh (s s' : Mailbox) : Prop where
  mails : ∀ m ∈ s'.mails, m ∈ s.mails ∨ m.id = s.mailId
  mailId : s.mailId ≤ s'.mailId

/-- A request that names a mail without changing anything. -/
def Refuses (s : Mailbox) (r : Request) : Prop :=
  ∀ s' a, s.handle r = some (s', a) → a ≠ .ok ∧ s' = s

variable {s s' : Mailbox} {w : World} {mailId : UInt32} {a : Answer} {m : ReceivedMail}

/-! ### The items of a returned mail -/

theorem insertItem_perm {it : Item} {l : List Item}
    (h : guidLoPart it.guid ∉ l.map fun x => guidLoPart x.guid) :
    (MailDraft.insertItem it l).Perm (it :: l) := by
  induction l with
  | nil => exact List.Perm.refl _
  | cons x l ih =>
    rw [List.map_cons, List.mem_cons, not_or] at h
    unfold MailDraft.insertItem
    rw [if_neg h.1]
    split_ifs
    · exact List.Perm.refl _
    · exact ((ih h.2).cons x).trans (List.Perm.swap it x l)

/-- The low guids of the items of a draft. -/
def draftGuids (d : MailDraft) : List UInt32 := d.items.map fun it => guidLoPart it.guid

theorem collectItems_spec {infos : List MailItemInfo} {draft : MailDraft} {items : ItemMap}
    (hnodup : (infos.map MailItemInfo.itemGuid).Nodup)
    (hfound : ∀ g ∈ infos.map MailItemInfo.itemGuid, items.find g ≠ none)
    (hdraft : ∀ g ∈ infos.map MailItemInfo.itemGuid, g ∉ draftGuids draft) :
    let r := collectItems infos draft items
    (draftGuids r.1).Perm (draftGuids draft ++ infos.map MailItemInfo.itemGuid) ∧
      (∀ g ∈ infos.map MailItemInfo.itemGuid, r.2.find g = none) ∧
      ∀ g ∉ infos.map MailItemInfo.itemGuid, r.2.find g = items.find g := by
  induction infos generalizing draft items with
  | nil =>
    refine ⟨?_, nofun, fun _ _ => rfl⟩
    rw [List.map_nil, List.append_nil]
    exact List.Perm.refl _
  | cons info infos ih =>
    rw [List.map_cons, List.nodup_cons] at hnodup
    rw [List.map_cons, List.forall_mem_cons] at hfound hdraft
    obtain ⟨it, hit⟩ := Option.ne_none_iff_exists'.1 hfound.1
    have hguid : guidLoPart it.guid = info.itemGuid := items.guidLow _ _ hit
    have hadded : (draftGuids (draft.addItem it)).Perm (info.itemGuid :: draftGuids draft) := by
      have hnew : guidLoPart it.guid ∉ draft.items.map fun x => guidLoPart x.guid := by
        rw [hguid]
        exact hdraft.1
      have hperm := (insertItem_perm hnew).map fun x => guidLoPart x.guid
      rw [List.map_cons, hguid] at hperm
      exact hperm
    have herase : ∀ g, g ≠ info.itemGuid → (items.erase info.itemGuid).find g = items.find g :=
      fun g hg => Function.update_of_ne hg ..
    have hne : ∀ g ∈ infos.map MailItemInfo.itemGuid, g ≠ info.itemGuid := by
      rintro g hg rfl
      exact hnodup.1 hg
    have hrest := @ih (draft.addItem it) (items.erase info.itemGuid) hnodup.2
      (fun g hg => by rw [herase g (hne g hg)]; exact hfound.2 g hg)
      (fun g hg hmem => by
        rcases List.mem_cons.1 (hadded.mem_iff.1 hmem) with heq | hmem
        · exact hne g hg heq
        · exact hdraft.2 g hg hmem)
    unfold collectItems
    rw [hit]
    refine ⟨?_, ?_, ?_⟩
    · refine hrest.1.trans ((hadded.append_right _).trans ?_)
      rw [List.map_cons]
      exact List.perm_middle.symm
    · rw [List.map_cons, List.forall_mem_cons]
      refine ⟨?_, hrest.2.1⟩
      refine (hrest.2.2 _ hnodup.1).trans ?_
      exact Function.update_self ..
    · intro g hg
      rw [List.map_cons, List.mem_cons, not_or] at hg
      exact (hrest.2.2 g hg.2).trans (herase g hg.1)

theorem foldl_addMItem (l : List Item) (items : ItemMap) (g : UInt32) :
    (g ∉ (l.map fun it => guidLoPart it.guid) → (l.foldl addMItem items).find g = items.find g) ∧
      (items.find g ≠ none ∨ g ∈ (l.map fun it => guidLoPart it.guid) →
        (l.foldl addMItem items).find g ≠ none) := by
  induction l generalizing items with
  | nil => exact ⟨fun _ => rfl, fun h => h.resolve_right List.not_mem_nil⟩
  | cons it l ih =>
    rw [List.map_cons, List.foldl_cons, List.mem_cons, not_or]
    refine ⟨fun h => ?_, fun h => (ih _).2 ?_⟩
    · exact ((ih _).1 h.2).trans (Function.update_of_ne h.1 ..)
    · by_cases hg : g = guidLoPart it.guid
      · refine .inl ?_
        rw [hg]
        exact (Function.update_self ..).trans_ne (Option.some_ne_none it)
      · rcases h with h | h | h
        · exact .inl ((Function.update_of_ne hg ..).trans_ne h)
        · exact absurd h hg
        · exact .inr h

/-! ### Returning -/

theorem WellFormed.erase (h : s.WellFormed) (mailId : UInt32) :
    WellFormed { s with mails := s.mails.erase mailId } where
  ids m hm := h.ids m (Table.mem_erase.1 hm).1
  nodup m hm := h.nodup m (Table.mem_erase.1 hm).1
  single m hm m' hm' := h.single m (Table.mem_erase.1 hm).1 m' (Table.mem_erase.1 hm').1
  found m hm := h.found m (Table.mem_erase.1 hm).1

theorem WellFormed.insert (h : s.WellFormed) (hend : s.mailId < 0xFFFFFFFE) (hm : m ∈ s.mails)
    {mail : ReceivedMail} (hid : mail.id = s.mailId) (hguids : mail.guids.Perm m.guids)
    {items : ItemMap} (hgone : ∀ g ∉ m.guids, items.find g = s.mMitems.find g)
    {l : List Item} (hl : (l.map fun it => guidLoPart it.guid).Perm m.guids)
    (returned : List ReceivedMail) :
    WellFormed { s with
      mails := (s.mails.erase m.id).insert mail
      mMitems := l.foldl addMItem items
      returned := returned
      mailId := s.mailId + 1 } := by
  have hlt := FixedWidth.lt_add_one_of_lt hend
  have hapart : ∀ m' ∈ s.mails, m'.id ≠ m.id → ∀ g ∈ m'.guids, g ∉ mail.guids := by
    intro m' hm' hne g hg hmail
    exact hne (congrArg ReceivedMail.id (h.single m' hm' m hm g hg (hguids.mem_iff.1 hmail)))
  constructor
  · intro m' hm'
    rcases Table.mem_insert.1 hm' with rfl | ⟨hm', -⟩
    · rw [hid]
      exact hlt
    · exact UInt32.lt_trans (h.ids m' (Table.mem_erase.1 hm').1) hlt
  · intro m' hm'
    rcases Table.mem_insert.1 hm' with rfl | ⟨hm', -⟩
    · exact hguids.nodup_iff.2 (h.nodup m hm)
    · exact h.nodup m' (Table.mem_erase.1 hm').1
  · intro m₁ h₁ m₂ h₂ g hg₁ hg₂
    rcases Table.mem_insert.1 h₁ with h₁ | ⟨h₁, -⟩
    · rcases Table.mem_insert.1 h₂ with h₂ | ⟨h₂, -⟩
      · exact h₁.trans h₂.symm
      · obtain ⟨h₂, hne⟩ := Table.mem_erase.1 h₂
        rw [h₁] at hg₁
        exact absurd hg₁ (hapart m₂ h₂ hne g hg₂)
    · obtain ⟨h₁, hne⟩ := Table.mem_erase.1 h₁
      rcases Table.mem_insert.1 h₂ with h₂ | ⟨h₂, -⟩
      · rw [h₂] at hg₂
        exact absurd hg₂ (hapart m₁ h₁ hne g hg₁)
      · exact h.single m₁ h₁ m₂ (Table.mem_erase.1 h₂).1 g hg₁ hg₂
  · intro m' hm' g hg
    refine (foldl_addMItem l items g).2 ?_
    rcases Table.mem_insert.1 hm' with rfl | ⟨hm', -⟩
    · exact .inr (hl.mem_iff.2 (hguids.mem_iff.1 hg))
    · obtain ⟨hm', hne⟩ := Table.mem_erase.1 hm'
      have hnot : g ∉ m.guids := fun hg' => hapart m' hm' hne g hg (hguids.mem_iff.2 hg')
      rw [hgone g hnot]
      exact .inl (h.found m' hm' g hg)

theorem sendReturnToSender_spec {draft : MailDraft} {items : ItemMap} (h : s.WellFormed)
    (hm : m ∈ s.mails) (hguids : (draftGuids draft).Perm m.guids)
    (hgone : ∀ g ∈ m.guids, items.find g = none)
    (hother : ∀ g ∉ m.guids, items.find g = s.mMitems.find g)
    (hs : sendReturnToSender { s with mails := s.mails.erase m.id, mMitems := items } w m
      (draft.addMoney m.money) = some s') (hmsg : m.messageType = .normal) (hsender : m.sender ≠ 0) :
    s.Returned s' w m ∧ s'.WellFormed ∧ s.Fresh s' := by
  have hfound : ∀ m' ∈ s.mails.erase m.id, ∀ g ∈ m'.guids, items.find g ≠ none := by
    intro m' hm' g hg
    obtain ⟨hm', hne⟩ := Table.mem_erase.1 hm'
    rw [hother g fun hg' => hne (congrArg ReceivedMail.id (h.single m' hm' m hm g hg hg'))]
    exact h.found m' hm' g hg
  have herase := h.erase m.id
  have hold : ∀ m' ∈ s.mails.erase m.id, m' ∈ s.mails ∨ m'.id = s.mailId :=
    fun m' hm' => .inl (Table.mem_erase.1 hm').1
  unfold sendReturnToSender at hs
  -- nobody is left to receive it: the mail and its items are gone
  by_cases hexists : (!s.receiverExists w m.sender) = true
  · rw [if_pos (show (!receiverExists { s with
      mails := s.mails.erase m.id, mMitems := items } w m.sender) = true from hexists)] at hs
    obtain rfl := Option.some.inj hs
    refine ⟨⟨rfl, hother, fun _ => ⟨rfl, rfl⟩, fun hback => ?_⟩,
      ⟨herase.ids, herase.nodup, herase.single, hfound⟩, hold, UInt32.le_refl _⟩
    rw [hback.2.2] at hexists
    cases hexists
  rw [if_neg (show ¬ (!receiverExists { s with
    mails := s.mails.erase m.id, mMitems := items } w m.sender) = true from hexists)] at hs
  have hback : s.GoesBack w m := ⟨hmsg, hsender, by simpa using hexists⟩
  by_cases hend : s.mailId ≥ 0xFFFFFFFE
  · rw [if_pos hend] at hs
    cases hs
  rw [if_neg hend] at hs
  have hend' : s.mailId < 0xFFFFFFFE := UInt32.not_le.1 hend
  have hlt := FixedWidth.lt_add_one_of_lt hend'
  have hmail : ((draft.items.map fun it => (⟨guidLoPart it.guid, it.entry⟩ : MailItemInfo)).map
      MailItemInfo.itemGuid).Perm m.guids := by
    rw [List.map_map]
    exact hguids
  dsimp only at hs
  -- the receiver is this player, whose list grows, or somebody else
  by_cases hself : m.sender = s.guidLow
  · rw [if_pos hself] at hs
    obtain rfl := Option.some.inj hs
    refine ⟨⟨rfl, ?_, fun hnot => absurd hback hnot, fun _ => ⟨_, rfl, rfl, rfl, ?_, ?_⟩⟩, ?_, ?_,
      UInt32.le_of_lt hlt⟩
    · intro g hg
      exact ((foldl_addMItem _ _ g).1 fun hmem => hg (hguids.mem_iff.1 hmem)).trans (hother g hg)
    · exact hmail
    · rw [if_pos hself]
    · refine h.insert hend' hm ?_ ?_ hother hguids _
      · rfl
      · exact hmail
    · intro m' hm'
      rcases Table.mem_insert.1 hm' with rfl | ⟨hm', -⟩
      · exact .inr rfl
      · exact hold m' hm'
  · rw [if_neg hself] at hs
    obtain rfl := Option.some.inj hs
    refine ⟨⟨rfl, hother, fun hnot => absurd hback hnot, fun _ => ⟨_, rfl, rfl, rfl, ?_, ?_⟩⟩, ?_,
      hold, UInt32.le_of_lt hlt⟩
    · exact hmail
    · rw [if_neg hself]
      exact ⟨rfl, hgone⟩
    · exact ⟨fun m' hm' => UInt32.lt_trans (herase.ids m' hm') hlt, herase.nodup, herase.single,
        hfound⟩

theorem state_ne_deleted {m : ReceivedMail} {time : ℕ}
    (h : ¬ (decide (m.state = .deleted) || decide (m.deliverTime > time)) = true) :
    m.state ≠ .deleted := by
  intro hdeleted
  rw [hdeleted] at h
  exact h rfl

/-- What a request about a mail checks first. It is refused, or the mail is there and not deleted. -/
theorem refused_or_live {β : Type} (refuse : Answer → β) {go : ReceivedMail → β} {b : β}
    (h : (if !w.canInteract then refuse .dropped
      else
        match s.mails.find mailId with
        | none => refuse (.error .internalError)
        | some m =>
          if m.state = .deleted || m.deliverTime > w.time then refuse (.error .internalError)
          else go m) = b) :
    (∃ e, e ≠ .ok ∧ refuse e = b) ∨
      ∃ m ∈ s.mails, m.id = mailId ∧ m.state ≠ .deleted ∧ go m = b := by
  by_cases hcan : (!w.canInteract) = true
  · rw [if_pos hcan] at h
    exact .inl ⟨.dropped, nofun, h⟩
  rw [if_neg hcan] at h
  cases hm : s.mails.find mailId with
  | none =>
    rw [hm] at h
    exact .inl ⟨.error .internalError, nofun, h⟩
  | some m =>
    obtain ⟨hmem, hid⟩ := Table.of_find hm
    rw [hm] at h
    dsimp only at h
    by_cases hstate : (decide (m.state = .deleted) || decide (m.deliverTime > w.time)) = true
    · rw [if_pos hstate] at h
      exact .inl ⟨.error .internalError, nofun, h⟩
    · rw [if_neg hstate] at h
      exact .inr ⟨m, hmem, hid, state_ne_deleted hstate, h⟩

theorem returnToSender_spec (h : s.WellFormed) (hs : s.returnToSender w mailId = some (s', a)) :
    (a ≠ .ok ∧ s' = s ∨ ∃ m ∈ s.mails, m.id = mailId ∧ m.state ≠ .deleted ∧ s.Returned s' w m) ∧
      s'.WellFormed ∧ s.Fresh s' := by
  unfold returnToSender at hs
  rcases refused_or_live (fun e => some (s, e)) hs with ⟨e, he, heq⟩ | ⟨m, hmem, rfl, hlive, hgo⟩
  · obtain ⟨rfl, rfl⟩ := Prod.mk.inj (Option.some.inj heq)
    exact ⟨.inl ⟨he, rfl⟩, h, fun _ hm => .inl hm, UInt32.le_refl _⟩
  dsimp only at hgo
  by_cases hnormal : (decide (m.messageType = .normal) && decide (m.sender ≠ 0)) = true
  · rw [if_pos hnormal] at hgo
    simp only [Bool.and_eq_true, decide_eq_true_eq] at hnormal
    obtain ⟨s₁, hs₁, heq⟩ := Option.map_eq_some_iff.1 hgo
    obtain ⟨rfl, rfl⟩ := Prod.mk.inj heq
    have hcollect := @collectItems_spec m.items
      (if m.mailTemplateId ≠ 0 then MailDraft.new "" "" else MailDraft.new m.subject m.body)
      s.mMitems (h.nodup m hmem) (h.found m hmem) (by split_ifs <;> exact fun _ _ => nofun)
    have hnew : draftGuids (if m.mailTemplateId ≠ 0 then MailDraft.new "" "" else
        MailDraft.new m.subject m.body) = [] := by
      split_ifs <;> rfl
    rw [hnew, List.nil_append] at hcollect
    obtain ⟨hreturned, hwf, hfresh⟩ := sendReturnToSender_spec h hmem hcollect.1 hcollect.2.1
      hcollect.2.2 hs₁ hnormal.1 hnormal.2
    exact ⟨.inr ⟨m, hmem, rfl, hlive, hreturned⟩, hwf, hfresh⟩
  · rw [if_neg hnormal] at hgo
    obtain ⟨rfl, rfl⟩ := Prod.mk.inj (Option.some.inj hgo)
    refine ⟨.inr ⟨m, hmem, rfl, hlive, rfl, fun _ _ => rfl, fun _ => ⟨rfl, rfl⟩, fun hback => ?_⟩,
      h.erase m.id, fun m' hm' => .inl (Table.mem_erase.1 hm').1, UInt32.le_refl _⟩
    refine absurd ?_ hnormal
    simp only [Bool.and_eq_true, decide_eq_true_eq]
    exact ⟨hback.1, hback.2.1⟩

/-! ### The other requests -/

/-- A mailbox stays well formed when no mail gets another id or other items. -/
theorem WellFormed.of_mem (hs : s.WellFormed) (hid : s'.mailId = s.mailId)
    (hitems : s'.mMitems = s.mMitems)
    (hmem : ∀ m' ∈ s'.mails, ∃ m ∈ s.mails, m.id = m'.id ∧ m.guids = m'.guids) :
    s'.WellFormed := by
  constructor
  · intro m' hm'
    obtain ⟨m, hm, hid', -⟩ := hmem m' hm'
    rw [hid, ← hid']
    exact hs.ids m hm
  · intro m' hm'
    obtain ⟨m, hm, -, hg⟩ := hmem m' hm'
    rw [← hg]
    exact hs.nodup m hm
  · intro m₁ h₁ m₂ h₂ g hg₁ hg₂
    obtain ⟨n₁, hn₁, hid₁, heq₁⟩ := hmem m₁ h₁
    obtain ⟨n₂, hn₂, hid₂, heq₂⟩ := hmem m₂ h₂
    have hsame := hs.single n₁ hn₁ n₂ hn₂ g (heq₁ ▸ hg₁) (heq₂ ▸ hg₂)
    refine Table.eq_of_key_eq h₁ h₂ ?_
    rw [← hid₁, ← hid₂, hsame]
  · intro m' hm' g hg
    obtain ⟨m, hm, -, heq⟩ := hmem m' hm'
    rw [hitems]
    exact hs.found m hm g (heq ▸ hg)

theorem SameContents.wellFormed (h : s.SameContents s') (hid : s'.mailId = s.mailId)
    (hs : s.WellFormed) : s'.WellFormed := by
  refine hs.of_mem hid h.mMitems fun m' hm' => ?_
  have hin := List.mem_map_of_mem (f := fun m : ReceivedMail => (m.id, m.money, m.items)) hm'
  rw [h.mails] at hin
  obtain ⟨m, hm, heq⟩ := List.mem_map.1 hin
  simp only [Prod.mk.injEq] at heq
  exact ⟨m, hm, heq.1, congrArg (List.map MailItemInfo.itemGuid) heq.2.2⟩

theorem SameContents.refl (s : Mailbox) : s.SameContents s := ⟨rfl, rfl, rfl, rfl⟩

theorem sameContents_modifyMail {f : ReceivedMail → ReceivedMail} (hf : ∀ m, (f m).id = m.id)
    (hcontents : ∀ m, (f m).money = m.money ∧ (f m).items = m.items) :
    s.SameContents (s.modifyMail mailId f hf) := by
  refine ⟨rfl, rfl, rfl, ?_⟩
  show ((s.mails.toList.map fun m => if m.id = mailId then f m else m).map _) = _
  rw [List.map_map]
  refine List.map_congr_left fun m _ => ?_
  rw [Function.comp_apply]
  split_ifs
  · rw [hf, (hcontents m).1, (hcontents m).2]
  · rfl

theorem markAsRead_spec :
    s.SameContents (s.markAsRead w mailId).1 ∧ (s.markAsRead w mailId).1.mailId = s.mailId := by
  unfold markAsRead
  split_ifs
  · exact ⟨SameContents.refl s, rfl⟩
  · split
    · exact ⟨SameContents.refl s, rfl⟩
    · have h := @sameContents_modifyMail s mailId
        (fun m => { m with checked := m.checked ||| mailCheckMaskRead, state := .changed })
        (fun _ => rfl) fun _ => ⟨rfl, rfl⟩
      exact ⟨⟨h.money, h.mMitems, h.returned, h.mails⟩, rfl⟩

theorem delete_spec :
    s.SameContents (s.delete w mailId).1 ∧ (s.delete w mailId).1.mailId = s.mailId := by
  unfold delete
  split_ifs
  · exact ⟨SameContents.refl s, rfl⟩
  · dsimp only
    split
    · exact ⟨⟨rfl, rfl, rfl, rfl⟩, rfl⟩
    · split_ifs
      · exact ⟨⟨rfl, rfl, rfl, rfl⟩, rfl⟩
      · have h := @sameContents_modifyMail s mailId (fun m => { m with state := .deleted })
          (fun _ => rfl) fun _ => ⟨rfl, rfl⟩
        exact ⟨⟨h.money, h.mMitems, h.returned, h.mails⟩, rfl⟩

theorem saved_state (m : ReceivedMail) : (saved m).state = .deleted ↔ m.state = .deleted := by
  unfold saved
  split_ifs with h
  · rw [h]
    exact iff_of_false nofun nofun
  · exact Iff.rfl

theorem saved_contents (m : ReceivedMail) :
    (saved m).money = m.money ∧ (saved m).items = m.items := by
  unfold saved
  split_ifs <;> exact ⟨rfl, rfl⟩

/-- A credit that is not refused is exact. -/
theorem modifyMoney_of_ok {money x : UInt32} (hx : x.toNat < 2 ^ 31 - 1)
    (hok : (modifyMoney money x.toInt32).2 = true) :
    (modifyMoney money x.toInt32).1.toNat = money.toNat + x.toNat := by
  rcases Nat.eq_zero_or_pos x.toNat with hzero | hpos
  · obtain rfl : x = 0 := UInt32.toNat_inj.1 hzero
    rfl
  · exact (modifyMoney_credit_iff hpos).2 ⟨by omega, by omega⟩ hok

/-- The mails after the money of the mail `m` is taken and the mails are saved. -/
theorem contents_takeMoney (hm : m ∈ s.mails) (hlive : m.state ≠ .deleted) :
    (saveMail (s.modifyMail m.id (fun m => { m with money := 0, state := .changed })
        fun _ => rfl)).mails.toList.map (fun m => (m.id, m.money, m.items)) =
      (s.mails.toList.filter fun m => m.state ≠ .deleted).map fun m' =>
        (m'.id, if m'.id = m.id then 0 else m'.money, m'.items) := by
  show ((((s.mails.toList.map fun m' => if m'.id = m.id then
    { m' with money := 0, state := .changed } else m').map saved).filter _).map _) = _
  rw [List.map_map, List.filter_map, List.map_map]
  have hfilter : s.mails.toList.filter ((fun m => decide (m.state ≠ .deleted)) ∘ saved ∘
      fun m' => if m'.id = m.id then { m' with money := 0, state := .changed } else m') =
      s.mails.toList.filter fun m => m.state ≠ .deleted := by
    refine List.filter_congr fun m' hm' => ?_
    simp only [Function.comp_apply, ne_eq, saved_state]
    split_ifs with hid
    · obtain rfl := Table.eq_of_key_eq hm' hm hid
      simp [hlive]
    · rfl
  rw [hfilter]
  refine List.map_congr_left fun m' _ => ?_
  simp only [Function.comp_apply, id_saved, saved_contents]
  split_ifs with hid
  · rfl
  · rfl

theorem takeMoney_spec (h : s.WellFormed) (hs : s.takeMoney w mailId = (s', a)) :
    (a ≠ .ok ∧ s' = s ∨ ∃ m ∈ s.mails, m.id = mailId ∧ m.state ≠ .deleted ∧ s.MoneyTaken s' m) ∧
      s'.WellFormed := by
  unfold takeMoney at hs
  rcases refused_or_live (fun e => (s, e)) hs with ⟨e, he, heq⟩ | ⟨m, hmem, rfl, hlive, hgo⟩
  · obtain ⟨rfl, rfl⟩ := Prod.mk.inj heq
    exact ⟨.inl ⟨he, rfl⟩, h⟩
  dsimp only at hgo
  by_cases hok : (!(modifyMoney s.money m.money.toInt32).2) = true
  · rw [if_pos hok] at hgo
    obtain ⟨rfl, rfl⟩ := Prod.mk.inj hgo
    exact ⟨.inl ⟨nofun, rfl⟩, h⟩
  rw [if_neg hok] at hgo
  obtain ⟨rfl, rfl⟩ := Prod.mk.inj hgo
  have hcontents := contents_takeMoney hmem hlive
  refine ⟨.inr ⟨m, hmem, rfl, hlive, ?_, rfl, rfl, hcontents⟩, ?_⟩
  · intro hlt
    exact modifyMoney_of_ok hlt (by simpa using hok)
  · refine h.of_mem rfl rfl fun m' hm' => ?_
    have hin := List.mem_map_of_mem (f := fun m : ReceivedMail => (m.id, m.money, m.items)) hm'
    have hin' := hcontents ▸ hin
    obtain ⟨m₀, hm₀, heq⟩ := List.mem_map.1 hin'
    simp only [Prod.mk.injEq] at heq
    exact ⟨m₀, (List.mem_filter.1 hm₀).1, heq.1, congrArg (List.map MailItemInfo.itemGuid) heq.2.2⟩

theorem mailId_takeMoney : (s.takeMoney w mailId).1.mailId = s.mailId := by
  unfold takeMoney
  split_ifs
  · rfl
  · split
    · rfl
    · split_ifs
      · rfl
      · dsimp only
        split_ifs <;> rfl

/-! ### Deleted mails -/

/-- There is no mail with this id any more but a deleted one. -/
structure Dead (s : Mailbox) (id : UInt32) : Prop where
  deleted : ∀ m ∈ s.mails, m.id = id → m.state = .deleted
  old : id < s.mailId

theorem not_find_live {id : UInt32} (h : s.Dead id) (hm : m ∈ s.mails) (hlive : m.state ≠ .deleted) :
    m.id ≠ id :=
  fun hid => hlive (h.deleted m hm hid)

theorem Dead.refuses {id : UInt32} (hs : s.WellFormed) (h : s.Dead id) (w : World) :
    s.Refuses (.returnToSender w id) ∧ s.Refuses (.takeMoney w id) := by
  constructor
  · intro s' a heq
    rcases (returnToSender_spec hs heq).1 with hsame | ⟨m, hm, hid, hlive, -⟩
    · exact hsame
    · exact absurd hid (not_find_live h hm hlive)
  · intro s' a heq
    rcases (takeMoney_spec hs (Option.some.inj heq)).1 with hsame | ⟨m, hm, hid, hlive, -⟩
    · exact hsame
    · exact absurd hid (not_find_live h hm hlive)

theorem dead_modifyMail {id : UInt32} {f : ReceivedMail → ReceivedMail} (hf : ∀ m, (f m).id = m.id)
    (h : s.Dead id) (hdead : mailId = id → ∀ m, (f m).state = .deleted) :
    (s.modifyMail mailId f hf).Dead id := by
  refine ⟨?_, h.old⟩
  show ∀ m ∈ s.mails.modify mailId f hf, m.id = id → m.state = .deleted
  rw [Table.forall_mem_modify]
  intro m hm
  split_ifs with hid
  · rw [hf]
    exact fun heq => hdead (hid.symm.trans heq) m
  · exact h.deleted m hm

theorem Dead.step {id : UInt32} (hs : s.WellFormed) (h : s.Dead id) {r : Request}
    (hr : ∀ w, r ≠ .markAsRead w id) (heq : s.handle r = some (s', a)) : s'.Dead id := by
  cases r with
  | markAsRead w mailId =>
    have hs' : (s.markAsRead w mailId).1 = s' := congrArg Prod.fst (Option.some.inj heq)
    rw [← hs']
    have hne : mailId ≠ id := fun hid => hr w (hid ▸ rfl)
    unfold markAsRead
    split_ifs
    · exact h
    · split
      · exact h
      · have hdead := @dead_modifyMail s mailId id
          (fun m => { m with checked := m.checked ||| mailCheckMaskRead, state := .changed })
          (fun _ => rfl) h fun hid => absurd hid hne
        exact ⟨hdead.deleted, hdead.old⟩
  | delete w mailId =>
    have hs' : (s.delete w mailId).1 = s' := congrArg Prod.fst (Option.some.inj heq)
    rw [← hs']
    unfold delete
    split_ifs
    · exact h
    · dsimp only
      split
      · exact ⟨h.deleted, h.old⟩
      · split_ifs
        · exact ⟨h.deleted, h.old⟩
        · have hdead := @dead_modifyMail s mailId id (fun m => { m with state := .deleted })
            (fun _ => rfl) h fun _ _ => rfl
          exact ⟨hdead.deleted, hdead.old⟩
  | returnToSender w mailId =>
    obtain ⟨-, -, hfresh⟩ := returnToSender_spec hs heq
    refine ⟨fun m hm hid => ?_, UInt32.lt_of_lt_of_le h.old hfresh.mailId⟩
    rcases hfresh.mails m hm with hm | hm
    · exact h.deleted m hm hid
    · rw [← hid, hm] at h
      exact absurd h.old (UInt32.lt_irrefl _)
  | takeMoney w mailId =>
    have hs' : (s.takeMoney w mailId).1 = s' := congrArg Prod.fst (Option.some.inj heq)
    refine ⟨fun m' hm' hid => ?_, ?_⟩
    · rcases (takeMoney_spec hs (Option.some.inj heq)).1 with ⟨-, rfl⟩ | ⟨m, -, -, -, htaken⟩
      · exact h.deleted m' hm' hid
      · have hin := List.mem_map_of_mem (f := fun m : ReceivedMail => (m.id, m.money, m.items)) hm'
        rw [htaken.mails] at hin
        obtain ⟨m₀, hm₀, heq₀⟩ := List.mem_map.1 hin
        obtain ⟨hm₀, hlive⟩ := List.mem_filter.1 hm₀
        simp only [Prod.mk.injEq] at heq₀
        exact absurd (heq₀.1.trans hid) (not_find_live h hm₀ (of_decide_eq_true hlive))
    · rw [← hs', mailId_takeMoney]
      exact h.old

theorem deleted_modifyMail {f : ReceivedMail → ReceivedMail} (hf : ∀ m, (f m).id = m.id)
    (hdead : ∀ m, (f m).state = .deleted) :
    ∀ m ∈ (s.modifyMail mailId f hf).mails, m.id = mailId → m.state = .deleted := by
  show ∀ m ∈ s.mails.modify mailId f hf, m.id = mailId → m.state = .deleted
  rw [Table.forall_mem_modify]
  intro m hm
  split_ifs with hid
  · exact fun _ => hdead m
  · exact fun heq => absurd heq hid

/-- A delete that finds its mail and is accepted leaves no live mail with this id. -/
theorem dead_of_delete (hs : s.WellFormed) (hfound : s.mails.find mailId ≠ none)
    (hcan : w.canInteract = true) (hok : (s.delete w mailId).2 = .ok) :
    (s.delete w mailId).1.Dead mailId := by
  obtain ⟨m, hm⟩ := Option.ne_none_iff_exists'.1 hfound
  obtain ⟨hmem, hid⟩ := Table.of_find hm
  unfold delete at hok ⊢
  simp only [hcan, Bool.not_true, Bool.false_eq_true, if_false, hm] at hok ⊢
  by_cases hcod : m.cod ≠ 0
  · rw [if_pos hcod] at hok
    cases hok
  rw [if_neg hcod]
  refine ⟨?_, hid ▸ hs.ids m hmem⟩
  exact deleted_modifyMail (f := fun m => { m with state := .deleted }) (fun _ => rfl) fun _ => rfl

/-! ### Runs -/

theorem handle_spec (hs : s.WellFormed) (r : Request) (heq : s.handle r = some (s', a)) :
    s.StepOk r s' a ∧ s'.WellFormed := by
  cases r with
  | markAsRead w mailId =>
    have hs' : (s.markAsRead w mailId).1 = s' := congrArg Prod.fst (Option.some.inj heq)
    have hspec := @markAsRead_spec s w mailId
    rw [hs'] at hspec
    exact ⟨hspec.1, hspec.1.wellFormed hspec.2 hs⟩
  | delete w mailId =>
    have hs' : (s.delete w mailId).1 = s' := congrArg Prod.fst (Option.some.inj heq)
    have hspec := @delete_spec s w mailId
    rw [hs'] at hspec
    exact ⟨hspec.1, hspec.1.wellFormed hspec.2 hs⟩
  | returnToSender w mailId =>
    obtain ⟨hok, hwf, -⟩ := returnToSender_spec hs heq
    exact ⟨hok, hwf⟩
  | takeMoney w mailId => exact takeMoney_spec hs (Option.some.inj heq)

theorem wellFormed_step {o : Option Mailbox} (ho : ∀ s, o = some s → s.WellFormed) (r : Request) :
    ∀ s, Runs.stepOption step o r = some s → s.WellFormed := by
  intro s' hs'
  obtain ⟨s, rfl, hnext⟩ := Option.bind_eq_some_iff.1 hs'
  obtain ⟨⟨s₁, a⟩, heq, rfl⟩ := Option.map_eq_some_iff.1 hnext
  exact (handle_spec (ho s rfl) r heq).2

/-- A deleted mail stays so along a run that does not mark it as read. -/
theorem dead_run {id : UInt32} {rs : List Request} {o : Option Mailbox}
    (ho : ∀ s, o = some s → s.WellFormed ∧ s.Dead id) (hrs : ∀ w, .markAsRead w id ∉ rs) :
    ∀ s, rs.foldl (Runs.stepOption step) o = some s → s.WellFormed ∧ s.Dead id := by
  induction rs generalizing o with
  | nil => exact ho
  | cons r rs ih =>
    refine ih ?_ fun w hw => hrs w (List.mem_cons_of_mem r hw)
    intro s' hs'
    refine ⟨wellFormed_step (fun s hs => (ho s hs).1) r s' hs', ?_⟩
    obtain ⟨s, rfl, hnext⟩ := Option.bind_eq_some_iff.1 hs'
    obtain ⟨⟨s₁, a⟩, heq, rfl⟩ := Option.map_eq_some_iff.1 hnext
    obtain ⟨hwf, hdead⟩ := ho s rfl
    exact hdead.step hwf (fun w hr => hrs w (hr ▸ List.mem_cons_self)) heq

end Mailbox

open Mailbox in
/-- **Main result.** Along any run on a well-formed mailbox every request does to contents and
balances what it has to. When a delete of a mail that is there is accepted, then after any run that
does not mark this mail as read, requests to return it or to take its money are refused. -/
theorem mail_contents_kept (s : Mailbox) (hs : s.WellFormed) (rs : List Request) :
    Runs.EachStep (Runs.stepOption step)
        (fun o r => ∀ s₁, o = some s₁ → ∀ s₂ a, s₁.handle r = some (s₂, a) → s₁.StepOk r s₂ a)
        (some s) rs ∧
      ∀ s₁ w id, rs.foldl (Runs.stepOption step) (some s) = some s₁ →
        s₁.mails.find id ≠ none → w.canInteract = true → (s₁.delete w id).2 = .ok →
        ∀ rs' : List Request, (∀ w, .markAsRead w id ∉ rs') →
          ∀ s₂, rs'.foldl (Runs.stepOption step) (some (s₁.delete w id).1) = some s₂ →
            ∀ w, s₂.Refuses (.returnToSender w id) ∧ s₂.Refuses (.takeMoney w id) := by
  have hstart : ∀ s', some s = some s' → s'.WellFormed := fun s' hs' => Option.some.inj hs' ▸ hs
  have hall : Runs.EachStep (Runs.stepOption step) (fun _ _ => True) (some s) rs :=
    fun _ _ _ => trivial
  refine ⟨hall.mono_inv (I := fun o => ∀ s, o = some s → s.WellFormed) hstart
    (fun o r ho _ => wellFormed_step ho r) ?_, ?_⟩
  · intro o r ho _ s₁ hs₁ s₂ a heq
    exact (handle_spec (ho s₁ hs₁) r heq).1
  · intro s₁ w id hs₁ hfound hcan hok rs' hrs' s₂ hs₂ w'
    have halong := Runs.along_of_inv (I := fun o => ∀ s, o = some s → s.WellFormed) hall hstart
      fun o r ho _ => wellFormed_step ho r
    have hwf₁ : s₁.WellFormed := halong rs List.prefix_rfl s₁ hs₁
    have hafter : ∀ s', some (s₁.delete w id).1 = some s' → s'.WellFormed ∧ s'.Dead id := by
      intro s' hs'
      obtain rfl := Option.some.inj hs'
      have hspec := @delete_spec s₁ w id
      exact ⟨hspec.1.wellFormed hspec.2 hwf₁, dead_of_delete hwf₁ hfound hcan hok⟩
    obtain ⟨hwf₂, hdead⟩ := dead_run hafter hrs' s₂ hs₂
    exact hdead.refuses hwf₂ w'

/-! ### A mail with money and an item -/

/-- A map that holds one item. -/
def attachedItems : ItemMap :=
  addMItem ⟨fun _ => none, fun _ _ h => absurd h.symm (Option.some_ne_none _)⟩ MailTake.sampleItem

/-- A mail of some type with 50 copper and the item. -/
def sampleMail (messageType : MailMessageType) : ReceivedMail where
  messageID := 1
  sender := 2
  receiver := 3
  subject := ""
  body := ""
  items := [⟨11, 2589⟩]
  removedItems := []
  deliverTime := 0
  money := 50
  cod := 0
  checked := 0
  state := .unchanged
  messageType := messageType
  mailTemplateId := 0

/-- A mailbox with this mail. -/
def sampleBox (messageType : MailMessageType) : Mailbox where
  guidLow := 3
  accountId := 30
  mails := ⟨[sampleMail messageType], List.nodup_singleton _⟩
  mMitems := attachedItems
  money := 100
  unReadMails := 1
  mailsUpdated := false
  returned := []
  mailId := 2

/-- All players are online. -/
def sampleWorld : World := ⟨true, 0, fun _ => true, fun _ => 1, 3600⟩

theorem wellFormed_sampleBox (messageType : MailMessageType) :
    (sampleBox messageType).WellFormed := by
  have hmem : ∀ m ∈ (sampleBox messageType).mails, m = sampleMail messageType :=
    fun m hm => List.mem_singleton.1 hm
  refine ⟨fun m hm => ?_, fun m hm => ?_, fun m hm m' hm' _ _ _ => ?_, fun m hm g hg => ?_⟩
  · rw [hmem m hm]
    exact (by decide : (1 : UInt32) < 2)
  · rw [hmem m hm]
    exact List.nodup_singleton _
  · rw [hmem m hm, hmem m' hm']
  · rw [hmem m hm] at hg
    obtain rfl := List.mem_singleton.1 hg
    exact Option.some_ne_none MailTake.sampleItem

/-- A mail is read and returned, and the request is repeated. -/
theorem mail_contents_kept_sampleBox :
    Runs.EachStep (Runs.stepOption Mailbox.step)
      (fun o r => ∀ s₁, o = some s₁ → ∀ s₂ a, s₁.handle r = some (s₂, a) → s₁.StepOk r s₂ a)
      (some (sampleBox .normal))
      [.markAsRead sampleWorld 1, .returnToSender sampleWorld 1, .returnToSender sampleWorld 1] :=
  (mail_contents_kept (sampleBox .normal) (wellFormed_sampleBox .normal) _).1

/-- A mail from an auction is deleted when it is returned: no mail goes back, and the item stays in
the map. -/
theorem auction_mail_not_returned :
    ∃ s', (sampleBox .auction).handle (.returnToSender sampleWorld 1) = some (s', .ok) ∧
      s'.returned = [] ∧ s'.mails.toList = [] ∧ s'.money = 100 ∧
        s'.mMitems.find 11 = some MailTake.sampleItem :=
  ⟨_, rfl, rfl, rfl, rfl, rfl⟩

end FaceCore.MailReturn
