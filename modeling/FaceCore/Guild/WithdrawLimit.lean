import FaceCore.Guild.BankMoney

/-!
# The daily limit of gold withdrawals

What a member who is not the guild master can take out of the guild bank between two calls of
`Guild::ResetTimes`. `_GetMemberRemainingMoney` computes what is left of the money per day of his
rank, in signed numbers, if the rank has one of the rights `GR_RIGHT_WITHDRAW_REPAIR` and
`GR_RIGHT_WITHDRAW_GOLD`; `HandleMemberWithdrawMoney` asks it the same way for repairs and for
gold. So the right to repair is enough to take gold.

* `withdrawnBy`: what a member takes out along a sequence of calls;
* `withdrawnBy_le`: it stays within the money per day;
* `guild_withdraw_limit`: the limit, the right and the exactness of every call.
-/

namespace FaceCore.GuildBank

open FixedWidth

variable {n : ℕ}

/-- `Guild::ResetTimes`, on the money withdrawn today. -/
def resetTimes (g : Guild n) : Guild n :=
  { g with members := fun i => { g.members i with bankWithdraw := 0 } }

/-- The value that `Guild::HandleMemberWithdrawMoney` returns, with `repair` false. -/
def withdrawSucceeds (g : Guild n) (i : Fin n) (amount : UInt32) : Bool :=
  !(g.bankMoney < amount.toUInt64) &&
    !((getMemberRemainingMoney g (g.members i)).toUInt32 < amount) &&
      (modifyMoney (g.members i).money amount.toInt32).2

/-- A call of `HandleMemberWithdrawMoney`, by whom and for how much. -/
abbrev Call (n : ℕ) := Fin n × UInt32

/-- The guild after a call. -/
def withdrawStep (g : Guild n) (q : Call n) : Guild n := handleMemberWithdrawMoney g q.1 q.2

/-- What the member `i` takes out along a sequence of calls: the amounts of his calls that
succeed. -/
def withdrawnBy (i : Fin n) : Guild n → List (Call n) → ℕ
  | _, [] => 0
  | g, q :: qs =>
    (if q.1 = i ∧ withdrawSucceeds g q.1 q.2 = true then q.2.toNat else 0) +
      withdrawnBy i (withdrawStep g q) qs

/-- The money per day of the rank of the member `i`, as it is stored. -/
def moneyPerDay (g : Guild n) (i : Fin n) : UInt32 :=
  ((g.ranks[(g.members i).rankId.toNat]?).map RankInfo.bankMoneyPerDay).getD 0

/-- Whether the rank of the member `i` has a right. -/
def hasRight (g : Guild n) (i : Fin n) (right : UInt32) : Bool :=
  getRankRights g (g.members i).rankId &&& right ≠ 0

/-- A call moves exactly its amount from the bank to the member if it succeeds, and changes nothing
if it fails. -/
def MovesExactly (g : Guild n) (q : Call n) : Prop :=
  if withdrawSucceeds g q.1 q.2 then Withdrawn g (withdrawStep g q) q.1 q.2.toNat
  else withdrawStep g q = g

/-- A call of exactly `2^31 - 1` copper, for which the cap of `ModifyMoney` wraps, is refused or does
not take the member's money over 32 bits. -/
def CreditFits (g : Guild n) (q : Call n) : Prop :=
  q.2.toNat = 2 ^ 31 - 1 → q.2.toNat ≤ g.bankMoney.toNat →
    q.2 ≤ (getMemberRemainingMoney g (g.members q.1)).toUInt32 →
      (g.members q.1).money.toNat + q.2.toNat < 2 ^ 32 ∨
        (g.members q.1).money.toNat = 2 ^ 32 - 1

/-! ### One call -/

theorem withdrawSucceeds_iff {g : Guild n} {i : Fin n} {amount : UInt32} :
    withdrawSucceeds g i amount = true ↔ amount.toNat ≤ g.bankMoney.toNat ∧
      amount ≤ (getMemberRemainingMoney g (g.members i)).toUInt32 ∧
        (modifyMoney (g.members i).money amount.toInt32).2 = true := by
  simp only [withdrawSucceeds, Bool.and_eq_true, Bool.not_eq_true', decide_eq_false_iff_not,
    UInt64.lt_iff_toNat_lt, UInt32.toNat_toUInt64, not_lt, UInt32.not_lt, and_assoc]

theorem withdrawStep_of_fails {g : Guild n} {q : Call n}
    (h : withdrawSucceeds g q.1 q.2 = false) : withdrawStep g q = g := by
  simp only [withdrawStep, handleMemberWithdrawMoney]
  split_ifs with h1 h2 h3
  · rfl
  · rfl
  · rfl
  · simp [withdrawSucceeds, h1, h2] at h
    simp [h] at h3

theorem withdrawStep_of_succeeds {g : Guild n} {q : Call n}
    (h : withdrawSucceeds g q.1 q.2 = true) :
    withdrawStep g q =
      { g with
        bankMoney := g.bankMoney - q.2.toUInt64
        members := Function.update g.members q.1
          { g.members q.1 with
            money := (modifyMoney (g.members q.1).money q.2.toInt32).1
            bankWithdraw := (g.members q.1).bankWithdraw + q.2.toInt32 } } := by
  simp only [withdrawSucceeds, Bool.and_eq_true, Bool.not_eq_true', decide_eq_false_iff_not] at h
  simp [withdrawStep, handleMemberWithdrawMoney, modifyBankMoney, h]

/-- What a member who is not the guild master may still take out: nothing without one of the two
rights, else the difference between the limit and what he took, if it is positive as a signed
number. -/
theorem toUInt32_getMemberRemainingMoney {g : Guild n} {i : Fin n}
    (hrank : (g.members i).rankId ≠ grGuildMaster) :
    (getMemberRemainingMoney g (g.members i)).toUInt32 =
      if hasRight g i (grRightWithdrawRepair ||| grRightWithdrawGold) = true ∧
          0 < (moneyPerDay g i - (g.members i).bankWithdraw.toUInt32).toNat ∧
          (moneyPerDay g i - (g.members i).bankWithdraw.toUInt32).toNat < 2 ^ 31 then
        moneyPerDay g i - (g.members i).bankWithdraw.toUInt32
      else 0 := by
  have hday : getRankBankMoneyPerDay g (g.members i).rankId = (moneyPerDay g i).toInt32 := by
    unfold getRankBankMoneyPerDay moneyPerDay
    cases g.ranks[(g.members i).rankId.toNat]? <;> rfl
  have hdiff : (moneyPerDay g i).toInt32 - (g.members i).bankWithdraw =
      (moneyPerDay g i - (g.members i).bankWithdraw.toUInt32).toInt32 :=
    (UInt32.toInt32_sub _ _).symm
  unfold getMemberRemainingMoney hasRight
  rw [if_neg hrank]
  dsimp only
  rw [hday, hdiff]
  simp only [gt_iff_lt, toInt32_pos_iff, decide_eq_true_eq]
  by_cases hright : getRankRights g (g.members i).rankId &&&
      (grRightWithdrawRepair ||| grRightWithdrawGold) ≠ 0
  · simp only [if_pos hright, and_iff_right hright]
    split_ifs <;> rfl
  · rw [if_neg hright, if_neg fun h => hright h.1]
    rfl

/-! ### The limit over a sequence of calls -/

/-- What can be taken out in a day: a limit of `2^31` or more is negative as a signed number. -/
def dayCap (limit : UInt32) : ℕ := if limit.toNat < 2 ^ 31 then limit.toNat else 0

theorem dayCap_lt (limit : UInt32) : dayCap limit < 2 ^ 31 := by
  unfold dayCap
  split_ifs with h
  · exact h
  · decide

theorem dayCap_le (limit : UInt32) : dayCap limit ≤ limit.toNat := by
  unfold dayCap
  split_ifs
  · exact le_rfl
  · exact Nat.zero_le _

/-- An amount that passes the check of what is left is within the limit. -/
theorem le_dayCap_sub {limit used amount : UInt32} {ok : Bool}
    (hused : used.toNat ≤ dayCap limit)
    (h : amount ≤ if ok = true ∧ 0 < (limit - used).toNat ∧ (limit - used).toNat < 2 ^ 31 then
      limit - used else 0) : amount.toNat ≤ dayCap limit - used.toNat := by
  unfold dayCap at hused ⊢
  rw [UInt32.le_iff_toNat_le] at h
  by_cases hlimit : limit.toNat < 2 ^ 31
  · rw [if_pos hlimit] at hused ⊢
    have hsub : (limit - used).toNat = limit.toNat - used.toNat :=
      UInt32.toNat_sub_of_le _ _ (UInt32.le_iff_toNat_le.2 hused)
    split_ifs at h
    · omega
    · rw [UInt32.toNat_zero] at h
      omega
  · rw [if_neg hlimit] at hused ⊢
    obtain rfl : used = 0 := UInt32.toNat_inj.1 (Nat.le_zero.1 hused)
    rw [UInt32.sub_zero] at h
    rw [if_neg (fun hc => hlimit hc.2.2)] at h
    simpa using h

theorem withdrawStep_ranks (g : Guild n) (q : Call n) (i : Fin n) :
    (withdrawStep g q).ranks = g.ranks ∧
      ((withdrawStep g q).members i).rankId = (g.members i).rankId := by
  cases h : withdrawSucceeds g q.1 q.2 with
  | false =>
    rw [withdrawStep_of_fails h]
    exact ⟨rfl, rfl⟩
  | true =>
    rw [withdrawStep_of_succeeds h]
    refine ⟨rfl, ?_⟩
    by_cases hi : i = q.1
    · subst hi
      simp only [Function.update_self]
    · simp only [Function.update_of_ne hi]

/-- A call by the member adds its amount to what he took today, within what the limit allows. -/
theorem withdrawStep_used {g : Guild n} {q : Call n} (i : Fin n)
    (hrank : (g.members i).rankId ≠ grGuildMaster)
    (hused : (g.members i).bankWithdraw.toUInt32.toNat ≤ dayCap (moneyPerDay g i)) :
    ((withdrawStep g q).members i).bankWithdraw.toUInt32.toNat =
        (g.members i).bankWithdraw.toUInt32.toNat +
          (if q.1 = i ∧ withdrawSucceeds g q.1 q.2 = true then q.2.toNat else 0) ∧
      ((withdrawStep g q).members i).bankWithdraw.toUInt32.toNat ≤ dayCap (moneyPerDay g i) := by
  cases h : withdrawSucceeds g q.1 q.2 with
  | false =>
    rw [withdrawStep_of_fails h]
    simpa using hused
  | true =>
    rw [withdrawStep_of_succeeds h]
    by_cases hi : q.1 = i
    · subst hi
      obtain ⟨-, hle, -⟩ := withdrawSucceeds_iff.1 h
      rw [toUInt32_getMemberRemainingMoney hrank] at hle
      simp only [Function.update_self, and_self, if_true]
      have hsum : ((g.members q.1).bankWithdraw + q.2.toInt32).toUInt32 =
          (g.members q.1).bankWithdraw.toUInt32 + q.2 := rfl
      have hcap : q.2.toNat ≤
          dayCap (moneyPerDay g q.1) - (g.members q.1).bankWithdraw.toUInt32.toNat :=
        le_dayCap_sub hused hle
      have hmax : dayCap (moneyPerDay g q.1) < 2 ^ 31 := dayCap_lt _
      rw [hsum, toNat_add_of_lt (by omega)]
      exact ⟨rfl, by omega⟩
    · simp only [Function.update_of_ne (Ne.symm hi)]
      simpa [hi] using hused

theorem withdrawnBy_le {g : Guild n} {i : Fin n} (qs : List (Call n))
    (hrank : (g.members i).rankId ≠ grGuildMaster)
    (hused : (g.members i).bankWithdraw.toUInt32.toNat ≤ dayCap (moneyPerDay g i)) :
    withdrawnBy i g qs + (g.members i).bankWithdraw.toUInt32.toNat ≤ dayCap (moneyPerDay g i) := by
  induction qs generalizing g with
  | nil => simpa [withdrawnBy] using hused
  | cons q qs ih =>
    obtain ⟨hranks, hid⟩ := withdrawStep_ranks g q i
    obtain ⟨hadd, hle⟩ := @withdrawStep_used n g q i hrank hused
    have hday : moneyPerDay (withdrawStep g q) i = moneyPerDay g i := by
      unfold moneyPerDay
      rw [hranks, hid]
    have := ih (by rwa [hid]) (by rwa [hday])
    rw [hday] at this
    simp only [withdrawnBy]
    omega

theorem withdrawnBy_eq_zero {g : Guild n} {i : Fin n} (qs : List (Call n))
    (hrank : (g.members i).rankId ≠ grGuildMaster)
    (hno : hasRight g i (grRightWithdrawRepair ||| grRightWithdrawGold) = false) :
    withdrawnBy i g qs = 0 := by
  induction qs generalizing g with
  | nil => rfl
  | cons q qs ih =>
    obtain ⟨hranks, hid⟩ := withdrawStep_ranks g q i
    have hright : hasRight (withdrawStep g q) i (grRightWithdrawRepair ||| grRightWithdrawGold) =
        false := by
      rw [← hno]
      unfold hasRight getRankRights
      rw [hranks, hid]
    rw [withdrawnBy, ih (by rwa [hid]) hright, Nat.add_zero]
    split_ifs with h
    · obtain ⟨rfl, h⟩ := h
      obtain ⟨-, hle, -⟩ := withdrawSucceeds_iff.1 h
      rw [toUInt32_getMemberRemainingMoney hrank, hno, if_neg (by simp), UInt32.le_iff_toNat_le]
        at hle
      simpa using hle
    · rfl

/-- A call by a member who is not the guild master is exact, unless the cap of `ModifyMoney`
wraps. -/
theorem movesExactly_of_creditFits {g : Guild n} {q : Call n}
    (hrank : (g.members q.1).rankId ≠ grGuildMaster) (hfits : CreditFits g q) :
    MovesExactly g q := by
  unfold MovesExactly
  cases h : withdrawSucceeds g q.1 q.2 with
  | false => exact withdrawStep_of_fails h
  | true =>
    obtain ⟨hbank, hle, hcredit⟩ := withdrawSucceeds_iff.1 h
    have hlt : q.2.toNat < 2 ^ 31 := by
      rw [toUInt32_getMemberRemainingMoney hrank, UInt32.le_iff_toNat_le] at hle
      split_ifs at hle with hrem
      · omega
      · rw [UInt32.toNat_zero] at hle
        omega
    have hmoney : (modifyMoney (g.members q.1).money q.2.toInt32).1.toNat =
        (g.members q.1).money.toNat + q.2.toNat := by
      by_cases hpos : 0 < q.2.toNat
      · exact (modifyMoney_credit_iff hpos).2 ⟨hlt, fun hmax => hfits hmax hbank hle⟩ hcredit
      · obtain h0 : q.2 = 0 := UInt32.toNat_inj.1 (Nat.eq_zero_of_not_pos hpos)
        rw [h0]
        rfl
    have hbank' : (g.bankMoney - q.2.toUInt64).toNat = g.bankMoney.toNat - q.2.toNat := by
      rw [UInt64.toNat_sub_of_le _ _ (by rwa [UInt64.le_iff_toNat_le, UInt32.toNat_toUInt64]),
        UInt32.toNat_toUInt64]
    rw [if_pos rfl, withdrawStep_of_succeeds h]
    refine ⟨hbank, hbank', ?_, fun j hj => ?_⟩
    · simp only [Function.update_self, hmoney]
    · simp only [Function.update_of_ne hj]

/-- **The daily limit of gold.** Between two `ResetTimes` a member who is not the guild master takes
out at most the money per day of his rank, nothing if the rank has no right to withdraw gold, and
each of his calls moves exactly its amount or changes nothing; provided that the rank does not have
the right to repair alone with a limit that a signed number can hold, and that no call is one of
`2^31 - 1` copper that overflows his money. -/
theorem guild_withdraw_limit (g : Guild n) (i : Fin n) (qs : List (Call n))
    (hrank : (g.members i).rankId ≠ grGuildMaster)
    (hright : hasRight g i grRightWithdrawGold = true ∨
      hasRight g i grRightWithdrawRepair = false ∨ dayCap (moneyPerDay g i) = 0)
    (hfits : Runs.EachStep withdrawStep (fun g q => q.1 = i → CreditFits g q) (resetTimes g) qs) :
    withdrawnBy i (resetTimes g) qs ≤ (moneyPerDay g i).toNat ∧
      (hasRight g i grRightWithdrawGold = false → withdrawnBy i (resetTimes g) qs = 0) ∧
      Runs.EachStep withdrawStep (fun g q => q.1 = i → MovesExactly g q) (resetTimes g) qs := by
  have hrank' : ((resetTimes g).members i).rankId ≠ grGuildMaster := hrank
  have hcap : withdrawnBy i (resetTimes g) qs ≤ dayCap (moneyPerDay g i) :=
    withdrawnBy_le qs hrank' (Nat.zero_le _)
  refine ⟨le_trans hcap (dayCap_le _), fun hgold => ?_, ?_⟩
  · rcases hright with hyes | hrepair | hzero
    · simp [hgold] at hyes
    · refine withdrawnBy_eq_zero qs hrank' ?_
      simp only [hasRight, ne_eq, decide_eq_false_iff_not, not_not] at hgold hrepair ⊢
      exact and_or_eq_zero hrepair hgold
    · omega
  · refine hfits.mono_inv (I := fun g => (g.members i).rankId ≠ grGuildMaster) hrank'
      (fun g q h _ => ?_) fun g q h hq hi => ?_
    · rwa [(withdrawStep_ranks g q i).2]
    · subst hi
      exact movesExactly_of_creditFits h (hq rfl)

/-- A guild whose second rank has the right to repair, a limit of 1000 copper, and one member of
that rank. -/
def repairGuild : Guild 1 :=
  ⟨500, [⟨0xFFFFFFFF, 0xFFFFFFFF⟩, ⟨grRightWithdrawRepair, 1000⟩], fun _ => ⟨0, 1, 0⟩⟩

/-- A member whose rank has the right to repair, but not to withdraw gold, takes 100 copper. -/
theorem guild_withdraw_without_right :
    (repairGuild.members 0).rankId ≠ grGuildMaster ∧
      withdrawnBy 0 (resetTimes repairGuild) [(0, 100)] = 100 ∧
      ((withdrawStep (resetTimes repairGuild) (0, 100)).members 0).money = 100 ∧
      ¬ (hasRight repairGuild 0 grRightWithdrawGold = false →
        withdrawnBy 0 (resetTimes repairGuild) [(0, 100)] = 0) := by
  decide

/-- A guild as above whose second rank has the right to withdraw gold. -/
def goldGuild : Guild 1 :=
  { repairGuild with ranks := [⟨0xFFFFFFFF, 0xFFFFFFFF⟩, ⟨grRightWithdrawGold, 1000⟩] }

/-- The limit at work: 400 copper and then 100 leave nothing in the bank for a third call. -/
theorem guild_withdraw_limit_three_calls :
    withdrawnBy 0 (resetTimes goldGuild) [(0, 400), (0, 100), (0, 1)] = 500 ∧
      withdrawnBy 0 (resetTimes goldGuild) [(0, 400), (0, 100), (0, 1)] ≤
        (moneyPerDay goldGuild 0).toNat := by
  refine ⟨by decide, ?_⟩
  refine (guild_withdraw_limit goldGuild 0 _ (by decide) (.inl (by decide)) ?_).1
  simp only [Runs.eachStep_cons]
  refine ⟨fun _ h => absurd h (by decide), fun _ h => absurd h (by decide),
    fun _ h => absurd h (by decide), Runs.EachStep.nil _⟩

end FaceCore.GuildBank
