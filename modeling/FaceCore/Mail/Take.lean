import FaceCore.Lib.Runs
import FaceCore.Mail.Draft
import FaceCore.Player.Money

/-!
# Taking an item out of a mail

`WorldSession::HandleMailTakeItem`. The request names a mail and an item. The mail is looked up by
its id and decides the cash on delivery; the item is looked up in `mMitems`, the map of the items
of all mails of the player. Nothing compares the two.

* `handleMailTakeItem`: the handler, with the checks in `checkTake` and the rest in `takeItem`;
* `CodEnforced`: what one request must do for the senders to be paid;
* `AsMailed`: the requests a client sends, an item named with the mail that carries it;
* `mailTake_enforces_cod`: along every run of such requests, the cash on delivery is enforced.
-/

namespace FaceCore.MailTake

variable {Inv : Type*}

/-- A map from low guids to the items of the mails, `Player::mMitems`. An item is stored under its
own guid. -/
structure ItemMap where
  find : UInt32 → Option Item
  guidLow : ∀ id it, find id = some it → guidLoPart it.guid = id

/-- `Player::RemoveMItem`. -/
def ItemMap.erase (items : ItemMap) (id : UInt32) : ItemMap where
  find := Function.update items.find id none
  guidLow := by
    intro id' it h
    by_cases hid : id' = id
    · rw [hid, Function.update_self] at h
      exact absurd h (by simp)
    · rw [Function.update_of_ne hid] at h
      exact items.guidLow id' it h

/-- How the inventory stores items: `Player::CanStoreItem`, zero for `EQUIP_ERR_OK`, and
`Player::MoveItemToInventory`. -/
structure Storage (Inv : Type*) where
  canStoreItem : Inv → Item → UInt8
  moveItemToInventory : Inv → Item → Inv

/-- A player at a mailbox. -/
structure Mailbox (Inv : Type*) where
  guidLow : UInt32
  mails : List Mail
  mMitems : ItemMap
  money : UInt32
  inventory : Inv

/-- `CMSG_MAIL_TAKE_ITEM`, with the answers of the rest of the server. -/
structure TakeRequest where
  mailId : UInt32
  itemId : UInt32
  /-- `GetGameObjectIfCanInteractWith` or `GetNPCIfCanInteractWith` finds the mailbox. -/
  canInteract : Bool
  /-- `time(NULL)`. -/
  time : ℕ
  /-- A player is online or has an account, by his low guid. -/
  playerExists : UInt32 → Bool
  /-- `ObjectMgr::GenerateMailID`. -/
  newMailId : UInt32

/-- How a request ends: without a reply, with an error, or with the item taken and, for cash on
delivery, the payment that was mailed. -/
inductive TakeResult
  | dropped
  | error (response : MailResponse)
  | taken (it : Item) (payment : Option Mail)

/-- `EQUIP_ERR_ITEM_NOT_FOUND`, the answer of `CanStoreItem` without an item. -/
def equipErrItemNotFound : UInt8 := 23

/-- `Player::GetMail`. -/
def getMail (mails : List Mail) (id : UInt32) : Option Mail := mails.find? (·.messageID == id)

/-- Change the mail that `getMail` finds. -/
def updateMail (id : UInt32) (f : Mail → Mail) : List Mail → List Mail
  | [] => []
  | m :: ms => if m.messageID = id then f m :: ms else m :: updateMail id f ms

/-- The checks of the handler, up to `CanStoreItem`. -/
def checkTake (st : Storage Inv) (s : Mailbox Inv) (q : TakeRequest) :
    Except TakeResult (Mail × Item) :=
  if !q.canInteract then .error .dropped
  else
    match getMail s.mails q.mailId with
    | none => .error (.error .internalError)
    | some m =>
      if m.state = .deleted || m.deliverTime > q.time then .error (.error .internalError)
      else if !hasEnoughMoney s.money m.cod then .error (.error .notEnoughMoney)
      else
        match s.mMitems.find q.itemId with
        | none => .error (.error (.equipError equipErrItemNotFound))
        | some it =>
          if st.canStoreItem s.inventory it = 0 then .ok (m, it)
          else .error (.error (.equipError (st.canStoreItem s.inventory it)))

/-- The payment of the mail `m`, when it has cash on delivery and its sender still exists. -/
def codPayment (q : TakeRequest) (m : Mail) : Option Mail :=
  if m.cod > 0 && q.playerExists m.sender then
    some (((MailDraft.new m.subject "").addMoney m.cod).sendMailTo q.newMailId m.sender m.receiver
      mailCheckMaskCodPayment q.time 0)
  else none

/-- The changes of the named mail. -/
def detachItem (itemId : UInt32) (m : Mail) : Mail :=
  { m.removeItem itemId with
    removedItems := m.removedItems ++ [itemId]
    cod := 0
    state := .changed }

/-- A mail after its changes are written to the database. -/
def saved (m : Mail) : Mail :=
  if m.state = .changed then { m with removedItems := [], state := .unchanged } else m

/-- `Player::_SaveMail`, as far as it changes the mails in memory. -/
def saveMail (mails : List Mail) : List Mail :=
  (mails.map saved).filter fun m => m.state ≠ .deleted

/-- `Player::AddMail` for a payment that the player owes himself. -/
def addMail (guidLow : UInt32) (payment : Option Mail) (mails : List Mail) : List Mail :=
  match payment with
  | some m => if m.receiver = guidLow then m :: mails else mails
  | none => mails

/-- The handler after its checks. -/
def takeItem (st : Storage Inv) (s : Mailbox Inv) (q : TakeRequest) (m : Mail) (it : Item) :
    Mailbox Inv × TakeResult :=
  let payment := codPayment q m
  ({ s with
      money := if m.cod > 0 then (modifyMoney s.money (-m.cod.toInt32)).1 else s.money
      mails := saveMail (addMail s.guidLow payment
        (updateMail q.mailId (detachItem q.itemId) s.mails))
      mMitems := s.mMitems.erase (guidLoPart it.guid)
      inventory := st.moveItemToInventory s.inventory it },
    .taken it payment)

/-- `WorldSession::HandleMailTakeItem`. -/
def handleMailTakeItem (st : Storage Inv) (s : Mailbox Inv) (q : TakeRequest) :
    Mailbox Inv × TakeResult :=
  match checkTake st s q with
  | .error r => (s, r)
  | .ok (m, it) => takeItem st s q m it

/-- The mailbox after a request. -/
def takeStep (st : Storage Inv) (s : Mailbox Inv) (q : TakeRequest) : Mailbox Inv :=
  (handleMailTakeItem st s q).1

/-! ### What is required and when it holds -/

/-- The item `id` is attached to the mail. -/
def Carries (m : Mail) (id : UInt32) : Prop := ∃ info ∈ m.items, info.itemGuid = id

/-- How often the item `id` is attached to the mails. -/
def attached (mails : List Mail) (id : UInt32) : ℕ :=
  (mails.map fun m => m.items.countP (·.itemGuid == id)).sum

/-- A payment of `c` to `sender`. -/
def IsPayment (payment : Option Mail) (sender c : UInt32) : Prop :=
  ∃ p, payment = some p ∧ p.receiver = sender ∧ p.money = c

/-- What one request has to do. An item enters the inventory only with the debit and the payment
of every mail with cash on delivery that carries it, and an item that leaves the map is not listed
by a mail any more. -/
structure CodEnforced (st : Storage Inv) (s : Mailbox Inv) (q : TakeRequest) : Prop where
  paid : ∀ it payment, (handleMailTakeItem st s q).2 = .taken it payment →
    ∀ m ∈ s.mails, Carries m (guidLoPart it.guid) → 0 < m.cod →
      (takeStep st s q).money.toNat + m.cod.toNat = s.money.toNat ∧ IsPayment payment m.sender m.cod
  kept : (∀ it payment, (handleMailTakeItem st s q).2 ≠ .taken it payment) →
    (takeStep st s q).inventory = s.inventory
  detached : ∀ id, (s.mMitems.find id).isSome → (takeStep st s q).mMitems.find id = none →
    ∀ m ∈ (takeStep st s q).mails, ¬Carries m id

/-- The requests that meet the requirement. A request that passes the checks names an item that is
attached once in the mailbox, to the mail it names; and when that mail has cash on delivery, its
sender exists and the amount fits a signed number. -/
def AsMailed (st : Storage Inv) (s : Mailbox Inv) (q : TakeRequest) : Prop :=
  ∀ m it, checkTake st s q = .ok (m, it) →
    Carries m q.itemId ∧ attached s.mails q.itemId = 1 ∧
      (0 < m.cod → q.playerExists m.sender = true ∧ m.cod.toNat ≤ 2 ^ 31)

/-! ### Attachments -/

section Attachments

variable {mails : List Mail} {m m' : Mail} {id mailId : UInt32}

theorem countP_pos_iff : 0 < m.items.countP (·.itemGuid == id) ↔ Carries m id := by
  simp [List.countP_pos_iff, Carries]

theorem attached_cons :
    attached (m :: mails) id = m.items.countP (·.itemGuid == id) + attached mails id := by
  simp [attached]

theorem attached_pos_of_carries (hm : m ∈ mails) (hc : Carries m id) : 0 < attached mails id := by
  have hle := List.single_le_sum (fun x _ => Nat.zero_le x) _
    (List.mem_map_of_mem (f := fun m => m.items.countP (·.itemGuid == id)) hm)
  exact lt_of_lt_of_le (countP_pos_iff.2 hc) hle

/-- An item that is attached once is attached to one mail. -/
theorem eq_of_carries (h : attached mails id = 1) (hm : m ∈ mails) (hm' : m' ∈ mails)
    (hc : Carries m id) (hc' : Carries m' id) : m = m' := by
  induction mails with
  | nil => simp at hm
  | cons x mails ih =>
    rw [attached_cons] at h
    have hx := @countP_pos_iff x id
    rcases List.mem_cons.1 hm with rfl | hms
    · rcases List.mem_cons.1 hm' with rfl | hms'
      · rfl
      · have := attached_pos_of_carries hms' hc'
        have := hx.2 hc
        omega
    · have := attached_pos_of_carries hms hc
      rcases List.mem_cons.1 hm' with rfl | hms'
      · have := hx.2 hc'
        omega
      · exact ih (by omega) hms hms'

theorem attached_saveMail_le : attached (saveMail mails) id ≤ attached mails id := by
  induction mails with
  | nil => simp [saveMail]
  | cons x mails ih =>
    have hx : (saved x).items = x.items := by
      unfold saved
      split_ifs <;> rfl
    unfold saveMail at ih ⊢
    rw [List.map_cons, List.filter_cons, attached_cons]
    split_ifs
    · rw [attached_cons, hx]
      omega
    · omega

/-- Taking an attached item out of the mail that `getMail` finds. -/
theorem attached_updateMail (hm : getMail mails mailId = some m) (hc : Carries m id) :
    attached (updateMail mailId (detachItem id) mails) id + 1 = attached mails id := by
  induction mails with
  | nil => simp [getMail] at hm
  | cons x mails ih =>
    rw [attached_cons, updateMail]
    by_cases hx : x.messageID = mailId
    · obtain rfl : x = m := by simpa [getMail, hx] using hm
      obtain ⟨info, hinfo, hid⟩ := hc
      obtain ⟨a, l₁, l₂, -, ha, hl, herase⟩ :=
        List.exists_of_eraseP (p := (·.itemGuid == id)) hinfo (beq_iff_eq.2 hid)
      rw [if_pos hx, attached_cons, detachItem, Mail.removeItem, herase, hl, List.countP_append,
        List.countP_append, List.countP_cons, if_pos ha]
      omega
    · have hm' : getMail mails mailId = some m := by simpa [getMail, hx] using hm
      rw [if_neg hx, attached_cons]
      have := ih hm'
      omega

end Attachments

/-! ### One request -/

variable {st : Storage Inv} {s : Mailbox Inv} {q : TakeRequest}

theorem checkTake_ok {m : Mail} {it : Item} (h : checkTake st s q = .ok (m, it)) :
    getMail s.mails q.mailId = some m ∧ m.cod.toNat ≤ s.money.toNat ∧
      s.mMitems.find q.itemId = some it := by
  unfold checkTake at h
  split_ifs at h
  rcases hm : getMail s.mails q.mailId with _ | m'
  · simp [hm] at h
  simp only [hm] at h
  split_ifs at h with hstate hmoney
  rcases hi : s.mMitems.find q.itemId with _ | it'
  · simp [hi] at h
  simp only [hi] at h
  split_ifs at h
  obtain ⟨rfl, rfl⟩ : m' = m ∧ it' = it := by simpa using h
  exact ⟨rfl, hasEnoughMoney_iff.1 (by simpa using hmoney), rfl⟩

theorem checkTake_error {r : TakeResult} (h : checkTake st s q = .error r) (it : Item)
    (payment : Option Mail) : r ≠ .taken it payment := by
  unfold checkTake at h
  split_ifs at h
  · obtain rfl : TakeResult.dropped = r := by simpa using h
    nofun
  rcases hm : getMail s.mails q.mailId with _ | m
  · obtain rfl : TakeResult.error .internalError = r := by simpa [hm] using h
    nofun
  simp only [hm] at h
  split_ifs at h
  · obtain rfl : TakeResult.error .internalError = r := by simpa using h
    nofun
  · obtain rfl : TakeResult.error .notEnoughMoney = r := by simpa using h
    nofun
  rcases hi : s.mMitems.find q.itemId with _ | it'
  · simp only [hi, Except.error.injEq] at h
    simp [← h]
  · simp only [hi] at h
    split_ifs at h
    simp only [Except.error.injEq] at h
    simp [← h]

/-- The mails after a take list the item one time less. -/
theorem attached_takeItem {m : Mail} {it : Item} (hm : getMail s.mails q.mailId = some m)
    (hc : Carries m q.itemId) :
    attached (takeItem st s q m it).1.mails q.itemId + 1 ≤ attached s.mails q.itemId := by
  have hadd : ∀ mails, attached (addMail s.guidLow (codPayment q m) mails) q.itemId =
      attached mails q.itemId := by
    intro mails
    unfold codPayment addMail
    split_ifs
    · -- the payment carries no item
      dsimp only
      split_ifs
      · rw [attached_cons]
        simp [MailDraft.sendMailTo, MailDraft.addMoney, MailDraft.new]
      · rfl
    · rfl
  have hsave := @attached_saveMail_le (addMail s.guidLow (codPayment q m)
    (updateMail q.mailId (detachItem q.itemId) s.mails)) q.itemId
  rw [hadd] at hsave
  have hupd := attached_updateMail hm hc
  simp only [takeItem]
  omega

theorem codEnforced_of_asMailed (h : AsMailed st s q) : CodEnforced st s q := by
  rcases hk : checkTake st s q with r | ⟨m, it⟩
  · have hstep : handleMailTakeItem st s q = (s, r) := by simp [handleMailTakeItem, hk]
    refine ⟨fun it payment ht => ?_, fun _ => ?_, fun id hs hn => ?_⟩
    · rw [hstep] at ht
      exact absurd ht (checkTake_error hk it payment)
    · rw [takeStep, hstep]
    · rw [takeStep, hstep] at hn
      rw [hn] at hs
      exact absurd hs (by simp)
  · have hstep : handleMailTakeItem st s q = takeItem st s q m it := by
      simp [handleMailTakeItem, hk]
    obtain ⟨hcar, hone, hcod⟩ := h m it hk
    obtain ⟨hget, hmoney, hfind⟩ := checkTake_ok hk
    have hguid : guidLoPart it.guid = q.itemId := s.mMitems.guidLow _ _ hfind
    have hmem : m ∈ s.mails := List.mem_of_find?_eq_some hget
    refine ⟨fun it' payment ht m' hm' hcar' hpos => ?_, fun hn => ?_, fun id hs hn => ?_⟩
    · -- the only mail that carries the item is the one that was charged
      rw [hstep] at ht
      obtain ⟨rfl, rfl⟩ : it = it' ∧ codPayment q m = payment := by simpa [takeItem] using ht
      rw [hguid] at hcar'
      obtain rfl := eq_of_carries hone hmem hm' hcar hcar'
      obtain ⟨hex, hle⟩ := hcod hpos
      constructor
      · have := (modifyMoney_debit hle hmoney).1
        simp only [takeStep, hstep, takeItem, gt_iff_lt, if_pos hpos]
        omega
      · have hpay : (decide (m.cod > 0) && q.playerExists m.sender) = true := by simp [hpos, hex]
        exact ⟨_, by rw [codPayment, if_pos hpay], rfl, rfl⟩
    · exact absurd (by rw [hstep]; rfl) (hn it (codPayment q m))
    · -- only the requested item leaves the map
      have hid : id = q.itemId := by
        by_contra hne
        rw [takeStep, hstep] at hn
        simp only [takeItem, ItemMap.erase, hguid, Function.update_of_ne hne] at hn
        simp [hn] at hs
      subst hid
      intro m' hm' hcar'
      rw [takeStep, hstep] at hm'
      have := attached_pos_of_carries hm' hcar'
      have := @attached_takeItem _ st s q m it hget hcar
      omega

/-- **Main result.** Along every run of requests that name an item with the mail that carries it,
from any mailbox, the cash on delivery is enforced at every request. -/
theorem mailTake_enforces_cod (st : Storage Inv) (s : Mailbox Inv) (is : List TakeRequest)
    (h : Runs.EachStep (takeStep st) (AsMailed st) s is) :
    Runs.EachStep (takeStep st) (CodEnforced st) s is :=
  h.mono_inv (I := fun _ => True) trivial (fun _ _ _ _ => trivial)
    fun _ _ _ hq => codEnforced_of_asMailed hq

/-- An item with the guid 11. -/
def sampleItem : Item where
  guid := 11
  entry := 2589
  count := 1
  maxStackCount := 20
  stored := false
  lootGenerated := false
  soulBound := false
  bopTradeable := false
  wrapped := false
  boundAccountWide := false
  conjured := false
  duration := 0
  isBag := false
  inBagPos := false
  notEmptyBag := false
  canUnequip := true
  beingLooted := false
  boundByEnchant := false

/-- A mail from the player 5 to the player 1. -/
def sampleMail (id cod : UInt32) (items : List MailItemInfo) : Mail :=
  ⟨id, 5, 1, "", "", items, [], 0, 0, cod, 0, .unchanged⟩

/-- The item 11 waits in the mail 1 for a payment of 300; the mail 2 is empty. -/
def sampleMailbox : Mailbox (List Item) where
  guidLow := 1
  mails := [sampleMail 1 300 [⟨11, 2589⟩], sampleMail 2 0 []]
  mMitems :=
    { find id := if id = 11 then some sampleItem else none
      guidLow := by
        intro id it h
        split_ifs at h with hid
        obtain rfl : sampleItem = it := by simpa using h
        exact hid.symm }
  money := 1000
  inventory := []

/-- An inventory that takes everything. -/
def sampleStorage : Storage (List Item) := ⟨fun _ _ => 0, fun inv it => it :: inv⟩

/-- Take the item 11 out of the given mail. -/
def sampleTake (mailId : UInt32) : TakeRequest := ⟨mailId, 11, true, 0, fun _ => true, 3⟩

/-- Taken under the mail that carries it, the item costs 300. -/
theorem mailTake_enforces_cod_sample :
    (takeStep sampleStorage sampleMailbox (sampleTake 1)).money = 700 ∧
      Runs.EachStep (takeStep sampleStorage) (CodEnforced sampleStorage) sampleMailbox
        [sampleTake 1] := by
  refine ⟨by decide, mailTake_enforces_cod _ _ _ (Runs.eachStep_cons.2 ⟨?_, Runs.EachStep.nil _⟩)⟩
  intro m it h
  obtain ⟨hget, -, -⟩ := checkTake_ok h
  obtain rfl : sampleMail 1 300 [⟨11, 2589⟩] = m := by
    simpa [getMail, sampleMailbox, sampleMail, sampleTake] using hget
  exact ⟨⟨_, List.mem_singleton_self _, rfl⟩, by decide, fun _ => ⟨rfl, by decide⟩⟩

/-- Asked for under the other mail, the item enters the inventory for nothing. -/
theorem mailTake_evades_cod :
    (takeStep sampleStorage sampleMailbox (sampleTake 2)).inventory = [sampleItem] ∧
      (takeStep sampleStorage sampleMailbox (sampleTake 2)).money = 1000 ∧
      ¬Runs.EachStep (takeStep sampleStorage) (CodEnforced sampleStorage) sampleMailbox
        [sampleTake 2] := by
  refine ⟨by decide, by decide, fun h => ?_⟩
  have hpaid := (Runs.eachStep_cons.1 h).1.paid sampleItem none rfl
    (sampleMail 1 300 [⟨11, 2589⟩]) (by simp [sampleMailbox])
    ⟨_, List.mem_singleton_self _, rfl⟩ (by decide)
  exact absurd hpaid.1 (by decide)

end FaceCore.MailTake
