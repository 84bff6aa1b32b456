import FaceCore.Lib.Runs
import FaceCore.Player.Money
import Mathlib.Algebra.BigOperators.Fin

/-!
# The money of a guild bank

`WorldSession::HandleGuildBankDepositMoney`, `HandleGuildBankWithdrawMoney` and what they call:
`Guild::HandleMemberDepositMoney`, `HandleMemberWithdrawMoney` (for a withdrawal that is not a
repair), `_ModifyBankMoney`, `_GetMemberRemainingMoney` and `Member::UpdateBankWithdrawValue`. The
bank holds a 64-bit amount; the members' coinages are 32-bit; the amount of a request is whatever
32-bit number the client sent, and `Player::ModifyMoney` takes it as a signed number.

No script of the repository changes the amount of a deposit or a withdrawal. The event log, the
broadcasts and the statements sent to the database do not feed back into the state and are left
out.
-/

namespace FaceCore.GuildBank

open FixedWidth

/-- `GR_GUILDMASTER`. -/
def grGuildMaster : UInt8 := 0

/-- `GR_RIGHT_WITHDRAW_REPAIR`. -/
def grRightWithdrawRepair : UInt32 := 0x00040000

/-- `GR_RIGHT_WITHDRAW_GOLD`. -/
def grRightWithdrawGold : UInt32 := 0x00080000

/-- `GUILD_WITHDRAW_MONEY_UNLIMITED`. -/
def withdrawMoneyUnlimited : UInt32 := 0xFFFFFFFF

/-- The fields of `RankInfo` that a withdrawal reads. -/
structure RankInfo where
  rights : UInt32
  bankMoneyPerDay : UInt32

/-- A member: his coinage, his rank and `m_bankWithdraw[GUILD_BANK_MAX_TABS]`, the money he took
out today. -/
structure Member where
  money : UInt32
  rankId : UInt8
  bankWithdraw : Int32

/-- A guild with `n` members. -/
structure Guild (n : ℕ) where
  bankMoney : UInt64
  ranks : List RankInfo
  members : Fin n → Member

variable {n : ℕ}

/-- `Guild::_GetRankRights`. -/
def getRankRights (g : Guild n) (rankId : UInt8) : UInt32 :=
  ((g.ranks[rankId.toNat]?).map RankInfo.rights).getD 0

/-- `Guild::_GetRankBankMoneyPerDay`. -/
def getRankBankMoneyPerDay (g : Guild n) (rankId : UInt8) : Int32 :=
  ((g.ranks[rankId.toNat]?).map fun r => r.bankMoneyPerDay.toInt32).getD 0

/-- `Guild::_GetMemberRemainingMoney`. -/
def getMemberRemainingMoney (g : Guild n) (m : Member) : Int32 :=
  if m.rankId = grGuildMaster then withdrawMoneyUnlimited.toInt32
  else if getRankRights g m.rankId &&& (grRightWithdrawRepair ||| grRightWithdrawGold) ≠ 0 then
    let remaining := getRankBankMoneyPerDay g m.rankId - m.bankWithdraw
    if remaining > 0 then remaining else 0
  else 0

/-- `Guild::_ModifyBankMoney`: the new amount and the returned flag. -/
def modifyBankMoney (bankMoney amount : UInt64) (add : Bool) : UInt64 × Bool :=
  if add then (bankMoney + amount, true)
  else if bankMoney < amount then (bankMoney, false)
  else (bankMoney - amount, true)

/-- `Guild::HandleMemberDepositMoney`. -/
def handleMemberDepositMoney (g : Guild n) (i : Fin n) (amount : UInt32) : Guild n :=
  let bank := (modifyBankMoney g.bankMoney amount.toUInt64 true).1
  let money := (modifyMoney (g.members i).money (-amount.toInt32)).1
  { g with
    bankMoney := bank
    members := Function.update g.members i { g.members i with money := money } }

/-- `Guild::HandleMemberWithdrawMoney` with `repair` false. -/
def handleMemberWithdrawMoney (g : Guild n) (i : Fin n) (amount : UInt32) : Guild n :=
  let m := g.members i
  if g.bankMoney < amount.toUInt64 then g
  else if (getMemberRemainingMoney g m).toUInt32 < amount then g
  else
    let credit := modifyMoney m.money amount.toInt32
    if !credit.2 then g
    else
      { g with
        bankMoney := (modifyBankMoney g.bankMoney amount.toUInt64 false).1
        members := Function.update g.members i
          { m with money := credit.1, bankWithdraw := m.bankWithdraw + amount.toInt32 } }

/-- A request of the member `i`; `canInteract` is the answer of
`GetGameObjectIfCanInteractWith` for the guild bank object that the packet names. -/
inductive Request (n : ℕ)
  | deposit (i : Fin n) (canInteract : Bool) (money : UInt32)
  | withdraw (i : Fin n) (canInteract : Bool) (money : UInt32)

/-- `WorldSession::HandleGuildBankDepositMoney`. -/
def handleGuildBankDepositMoney (g : Guild n) (i : Fin n) (canInteract : Bool) (money : UInt32) :
    Guild n :=
  if canInteract then
    if money ≠ 0 ∧ hasEnoughMoney (g.members i).money money then
      handleMemberDepositMoney g i money
    else g
  else g

/-- `WorldSession::HandleGuildBankWithdrawMoney`. -/
def handleGuildBankWithdrawMoney (g : Guild n) (i : Fin n) (canInteract : Bool) (money : UInt32) :
    Guild n :=
  if money ≠ 0 ∧ canInteract then handleMemberWithdrawMoney g i money else g

/-- One request. -/
def bankStep (g : Guild n) : Request n → Guild n
  | .deposit i ok money => handleGuildBankDepositMoney g i ok money
  | .withdraw i ok money => handleGuildBankWithdrawMoney g i ok money

/-- The money of the bank and of all members. -/
def total (g : Guild n) : ℕ := g.bankMoney.toNat + ∑ i, (g.members i).money.toNat

/-- `amount` moves from the member `i` to the bank, exactly, and nothing else moves. -/
def Deposited (g g' : Guild n) (i : Fin n) (amount : ℕ) : Prop :=
  amount ≤ (g.members i).money.toNat ∧ g'.bankMoney.toNat = g.bankMoney.toNat + amount ∧
    (g'.members i).money.toNat = (g.members i).money.toNat - amount ∧
    ∀ j, j ≠ i → (g'.members j).money = (g.members j).money

/-- `amount` moves from the bank to the member `i`, exactly, and nothing else moves. -/
def Withdrawn (g g' : Guild n) (i : Fin n) (amount : ℕ) : Prop :=
  amount ≤ g.bankMoney.toNat ∧ g'.bankMoney.toNat = g.bankMoney.toNat - amount ∧
    (g'.members i).money.toNat = (g.members i).money.toNat + amount ∧
    ∀ j, j ≠ i → (g'.members j).money = (g.members j).money

/-- No balance changes. -/
def Unmoved (g g' : Guild n) : Prop :=
  g'.bankMoney = g.bankMoney ∧ ∀ j, (g'.members j).money = (g.members j).money

/-- What a request may do to the money: the sum stays, a deposit moves exactly its amount or
nothing, a withdrawal likewise, and no balance wraps. -/
def Conserves (g : Guild n) (q : Request n) : Prop :=
  total (bankStep g q) = total g ∧
    match q with
    | .deposit i _ money => Unmoved g (bankStep g q) ∨ Deposited g (bankStep g q) i money.toNat
    | .withdraw i _ money => Unmoved g (bankStep g q) ∨ Withdrawn g (bankStep g q) i money.toNat

/-- When the arithmetic of a request stays in range. A deposit that is carried out is at most `2^31`
(or `2^31 + 1`, where a credit that wraps comes to the same as the debit) and does not take the bank
over 64 bits. A withdrawal that passes the checks of the guild is below `2^31`, and one of exactly
`2^31 - 1`, for which the cap of `ModifyMoney` wraps, does not take the member over 32 bits or is
refused. -/
def InRange (g : Guild n) : Request n → Prop
  | .deposit i ok money =>
    ok = true → money.toNat ≤ (g.members i).money.toNat →
      (money.toNat ≤ 2 ^ 31 ∨
        money.toNat = 2 ^ 31 + 1 ∧ (g.members i).money.toNat < 2 ^ 32 - 1) ∧
      g.bankMoney.toNat + money.toNat < 2 ^ 64
  | .withdraw i ok money =>
    ok = true → money.toNat ≤ g.bankMoney.toNat →
      money ≤ (getMemberRemainingMoney g (g.members i)).toUInt32 →
      money.toNat < 2 ^ 31 ∧
        (money.toNat = 2 ^ 31 - 1 → (g.members i).money.toNat + money.toNat < 2 ^ 32 ∨
          (g.members i).money.toNat = 2 ^ 32 - 1)

/-! ### Conservation -/

theorem total_split (g : Guild n) (i : Fin n) :
    total g = g.bankMoney.toNat + ((g.members i).money.toNat +
      ∑ j ∈ Finset.univ.erase i, (g.members j).money.toNat) := by
  unfold total
  rw [Finset.add_sum_erase _ (fun j => (g.members j).money.toNat) (Finset.mem_univ i)]

theorem sum_erase_eq {g g' : Guild n} {i : Fin n}
    (h : ∀ j, j ≠ i → (g'.members j).money = (g.members j).money) :
    ∑ j ∈ Finset.univ.erase i, (g'.members j).money.toNat =
      ∑ j ∈ Finset.univ.erase i, (g.members j).money.toNat :=
  Finset.sum_congr rfl fun j hj => by rw [h j (Finset.ne_of_mem_erase hj)]

/-- Where the money of one member changes, the sum stays if his money and the bank's do. -/
theorem total_eq_iff {g g' : Guild n} {i : Fin n}
    (h : ∀ j, j ≠ i → (g'.members j).money = (g.members j).money) :
    total g' = total g ↔ g'.bankMoney.toNat + (g'.members i).money.toNat =
      g.bankMoney.toNat + (g.members i).money.toNat := by
  rw [total_split g' i, total_split g i, sum_erase_eq h]
  omega

theorem Unmoved.refl (g : Guild n) : Unmoved g g := ⟨rfl, fun _ => rfl⟩

/-- A deposit that is carried out conserves the money exactly when it is in range. -/
theorem handleMemberDepositMoney_iff {g : Guild n} {i : Fin n} {amount : UInt32}
    (hpos : 0 < amount.toNat) (hle : amount.toNat ≤ (g.members i).money.toNat) :
    (total (handleMemberDepositMoney g i amount) = total g ∧
      (Unmoved g (handleMemberDepositMoney g i amount) ∨
        Deposited g (handleMemberDepositMoney g i amount) i amount.toNat)) ↔
    (amount.toNat ≤ 2 ^ 31 ∨
        amount.toNat = 2 ^ 31 + 1 ∧ (g.members i).money.toNat < 2 ^ 32 - 1) ∧
      g.bankMoney.toNat + amount.toNat < 2 ^ 64 := by
  have hother : ∀ j, j ≠ i →
      ((handleMemberDepositMoney g i amount).members j).money = (g.members j).money := by
    intro j hj
    simp only [handleMemberDepositMoney, Function.update_of_ne hj]
  have hbank : (handleMemberDepositMoney g i amount).bankMoney.toNat =
      (g.bankMoney.toNat + amount.toNat) % 2 ^ 64 := by
    simp only [handleMemberDepositMoney, modifyBankMoney, if_true, UInt64.toNat_add,
      UInt32.toNat_toUInt64]
  have hmember : ((handleMemberDepositMoney g i amount).members i).money =
      (modifyMoney (g.members i).money (-amount.toInt32)).1 := by
    simp only [handleMemberDepositMoney, Function.update_self]
  have hdebit := @modifyMoney_debit_iff (g.members i).money amount hpos
  rw [← hmember, and_iff_right hle] at hdebit
  have hm := ((handleMemberDepositMoney g i amount).members i).money.toNat_lt
  have hg := g.bankMoney.toNat_lt
  constructor
  · rintro ⟨htotal, -⟩
    rw [total_eq_iff hother, hbank] at htotal
    -- a sum that wraps would have to be made up by a member's money, which has 32 bits
    have hb : g.bankMoney.toNat + amount.toNat < 2 ^ 64 := by omega
    rw [Nat.mod_eq_of_lt hb] at htotal
    exact ⟨hdebit.1 (by omega), hb⟩
  · rintro ⟨hr, hb⟩
    have hexact := hdebit.2 hr
    rw [Nat.mod_eq_of_lt hb] at hbank
    refine ⟨(total_eq_iff hother).2 (by omega), Or.inr ⟨hle, hbank, by omega, hother⟩⟩

theorem handleMemberWithdrawMoney_iff {g : Guild n} {i : Fin n} {amount : UInt32}
    (hpos : 0 < amount.toNat) :
    (total (handleMemberWithdrawMoney g i amount) = total g ∧
      (Unmoved g (handleMemberWithdrawMoney g i amount) ∨
        Withdrawn g (handleMemberWithdrawMoney g i amount) i amount.toNat)) ↔
    (amount.toNat ≤ g.bankMoney.toNat →
      amount ≤ (getMemberRemainingMoney g (g.members i)).toUInt32 →
      amount.toNat < 2 ^ 31 ∧
        (amount.toNat = 2 ^ 31 - 1 → (g.members i).money.toNat + amount.toNat < 2 ^ 32 ∨
          (g.members i).money.toNat = 2 ^ 32 - 1)) := by
  have keep : total g = total g ∧ (Unmoved g g ∨ Withdrawn g g i amount.toNat) :=
    ⟨rfl, Or.inl (Unmoved.refl g)⟩
  rw [← modifyMoney_credit_iff hpos]
  unfold handleMemberWithdrawMoney
  dsimp only
  by_cases hb : g.bankMoney < amount.toUInt64
  · rw [if_pos hb]
    rw [UInt64.lt_iff_toNat_lt, UInt32.toNat_toUInt64] at hb
    exact iff_of_true keep fun hle => by omega
  have hle : amount.toNat ≤ g.bankMoney.toNat := by
    rwa [UInt64.lt_iff_toNat_lt, UInt32.toNat_toUInt64, not_lt] at hb
  rw [if_neg hb, imp_iff_right hle]
  by_cases hq : (getMemberRemainingMoney g (g.members i)).toUInt32 < amount
  · rw [if_pos hq]
    exact iff_of_true keep fun hle => absurd hq (UInt32.not_lt.2 hle)
  rw [if_neg hq, imp_iff_right (UInt32.not_lt.1 hq)]
  rcases hcredit : (modifyMoney (g.members i).money amount.toInt32).2 with _ | _
  · exact iff_of_true keep nofun
  rw [if_neg (by decide), imp_iff_right rfl]
  have hbank : (modifyBankMoney g.bankMoney amount.toUInt64 false).1.toNat =
      g.bankMoney.toNat - amount.toNat := by
    simp only [modifyBankMoney, Bool.false_eq_true, if_false, if_neg hb]
    rw [UInt64.toNat_sub_of_le _ _ (UInt64.not_lt.1 hb), UInt32.toNat_toUInt64]
  rw [@total_eq_iff n g _ i fun j hj => by simp only [Function.update_of_ne hj]]
  simp only [Function.update_self, hbank]
  constructor
  · rintro ⟨htotal, -⟩
    omega
  · intro hexact
    refine ⟨by omega, Or.inr ⟨hle, hbank, ?_, fun j hj => ?_⟩⟩
    · simp only [Function.update_self, hexact]
    · simp only [Function.update_of_ne hj]

/-- A request conserves the money exactly when its arithmetic stays in range. -/
theorem bankStep_conserves_iff {g : Guild n} {q : Request n} : Conserves g q ↔ InRange g q := by
  cases q with
  | deposit i ok money =>
    simp only [Conserves, InRange, bankStep, handleGuildBankDepositMoney]
    split_ifs with hok hmoney
    · have hle := hasEnoughMoney_iff.1 hmoney.2
      have hpos : 0 < money.toNat :=
        Nat.pos_of_ne_zero fun h0 => hmoney.1 (UInt32.toNat_inj.1 h0)
      rw [handleMemberDepositMoney_iff hpos hle]
      exact ⟨fun h _ _ => h, fun h => h hok hle⟩
    · refine iff_of_true ⟨rfl, Or.inl (Unmoved.refl g)⟩ fun _ hle => ?_
      -- a deposit that is covered and not carried out is one of nothing
      obtain rfl : money = 0 := by
        by_contra h0
        exact hmoney ⟨h0, hasEnoughMoney_iff.2 hle⟩
      have := g.bankMoney.toNat_lt
      exact ⟨.inl (by decide), by simpa using this⟩
    · exact iff_of_true ⟨rfl, Or.inl (Unmoved.refl g)⟩ fun h => absurd h hok
  | withdraw i ok money =>
    simp only [Conserves, InRange, bankStep, handleGuildBankWithdrawMoney]
    split_ifs with h
    · have hpos : 0 < money.toNat := Nat.pos_of_ne_zero fun h0 => h.1 (UInt32.toNat_inj.1 h0)
      rw [handleMemberWithdrawMoney_iff hpos]
      exact ⟨fun hr _ => hr, fun hr => hr h.2⟩
    · refine iff_of_true ⟨rfl, Or.inl (Unmoved.refl g)⟩ fun hok _ _ => ?_
      obtain rfl : money = 0 := by
        by_contra h0
        exact h ⟨h0, hok⟩
      exact ⟨by decide, fun h0 => absurd h0 (by decide)⟩

/-- **Guild bank money is conserved** along a sequence of deposits and withdrawals, whoever makes
them, exactly when their amounts stay in range: then the sum of the bank's and the members' money is
unchanged by every request, every request moves exactly its amount or nothing, and no balance
wraps. -/
theorem guildBank_conserves_iff (g : Guild n) (is : List (Request n)) :
    Runs.EachStep bankStep Conserves g is ↔ Runs.EachStep bankStep InRange g is :=
  Runs.eachStep_iff (I := fun _ => True) trivial (fun _ _ _ _ => trivial)
    fun _ _ _ => bankStep_conserves_iff

/-- A guild of one guild master with `money` copper and a bank with `bank`. -/
def soloGuild (bank : UInt64) (money : UInt32) : Guild 1 :=
  ⟨bank, [⟨0xFFFFFFFF, 0xFFFFFFFF⟩], fun _ => ⟨money, grGuildMaster, 0⟩⟩

/-- The guild master takes `2^31` copper out of a bank that holds as much: read as a signed
number the amount is negative, so `ModifyMoney` debits him, and the withdrawal is lost. -/
theorem guildBank_withdraw_loses :
    ((soloGuild 2147483648 100).members 0).money < maxMoneyAmount.toUInt32 ∧
      total (bankStep (soloGuild 2147483648 100) (.withdraw 0 true 2147483648)) = 0 ∧
      ¬ Runs.EachStep bankStep Conserves (soloGuild 2147483648 100)
        [.withdraw 0 true 2147483648] := by
  have hlost : total (bankStep (soloGuild 2147483648 100) (.withdraw 0 true 2147483648)) = 0 := by
    decide
  refine ⟨by decide, hlost, fun h => ?_⟩
  have hsum := (Runs.eachStep_cons.1 h).1.1
  rw [hlost] at hsum
  revert hsum
  decide

end FaceCore.GuildBank
