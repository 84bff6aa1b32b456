import FaceCore.Lib.FixedWidth

/-!
# A player's coinage

`Player::ModifyMoney`, `Player::HasEnoughMoney` and `Player::SetMoney`. The coinage is the
unsigned update field `PLAYER_FIELD_COINAGE`; `ModifyMoney` takes a signed amount. A debit never
fails, it stops at zero; a credit is refused when it would reach `MAX_MONEY_AMOUNT`. No script of
the repository overrides the hook `OnPlayerMoneyChanged`, so the amount reaches the update as the
caller gave it.
-/

namespace FaceCore

open FixedWidth

/-- `MAX_MONEY_AMOUNT`, the macro `(0x7FFFFFFF-1)`. -/
def maxMoneyAmount : Int32 := 0x7FFFFFFF - 1

/-- `Player::HasEnoughMoney(uint32)`. -/
def hasEnoughMoney (money amount : UInt32) : Bool := money ≥ amount

/-- `Player::ModifyMoney`: the new coinage and the returned flag. -/
def modifyMoney (money : UInt32) (amount : Int32) : UInt32 × Bool :=
  if amount = 0 then (money, true)
  else if amount < 0 then
    (if money > (-amount).toUInt32 then money + amount.toUInt32 else 0, true)
  else if money < (maxMoneyAmount - amount).toUInt32 then
    (money + amount.toUInt32, true)
  else
    -- EQUIP_ERR_TOO_MUCH_GOLD
    (money, false)

theorem hasEnoughMoney_iff {money amount : UInt32} :
    hasEnoughMoney money amount = true ↔ amount.toNat ≤ money.toNat := by
  simp [hasEnoughMoney, UInt32.le_iff_toNat_le]

theorem toNat_maxMoneyAmount : maxMoneyAmount.toUInt32.toNat = 2147483646 := rfl

theorem toNat_maxMoneyAmount_sub {x : UInt32} (h : x.toNat ≤ 2147483646) :
    (maxMoneyAmount.toUInt32 - x).toNat = 2147483646 - x.toNat := by
  rw [UInt32.toNat_sub_of_le _ _ (by rw [UInt32.le_iff_toNat_le, toNat_maxMoneyAmount]; exact h),
    toNat_maxMoneyAmount]

/-- `ModifyMoney` read on the unsigned value of its amount. -/
theorem modifyMoney_toInt32 (money y : UInt32) :
    modifyMoney money y.toInt32 =
      if y = 0 then (money, true)
      else if 2 ^ 31 ≤ y.toNat then (if money > -y then money + y else 0, true)
      else if money < maxMoneyAmount.toUInt32 - y then (money + y, true)
      else (money, false) := by
  simp only [modifyMoney, toInt32_eq_zero_iff, toInt32_lt_zero_iff]
  rfl

theorem modifyMoney_debit {money x : UInt32} (hx : x.toNat ≤ 2 ^ 31)
    (h : x.toNat ≤ money.toNat) :
    (modifyMoney money (-x.toInt32)).1.toNat = money.toNat - x.toNat ∧
      (modifyMoney money (-x.toInt32)).2 = true := by
  rw [← UInt32.toInt32_neg, modifyMoney_toInt32]
  by_cases h0 : x = 0
  · subst h0
    exact ⟨(Nat.sub_zero _).symm, rfl⟩
  · have hpos : 0 < x.toNat := Nat.pos_of_ne_zero fun hz => h0 (UInt32.toNat_inj.1 hz)
    have hneg := toNat_neg_of_pos hpos
    rw [if_neg (by rw [← UInt32.toNat_inj, hneg, UInt32.toNat_zero]; omega),
      if_pos (by rw [hneg]; omega), UInt32.neg_neg]
    refine ⟨?_, rfl⟩
    split_ifs with hlt
    · exact toNat_add_neg_of_le h
    · rw [gt_iff_lt, UInt32.lt_iff_toNat_lt] at hlt
      rw [UInt32.toNat_zero]
      omega

/-- When a debit of a positive unsigned amount is exact. Above `2^31` the signed amount is a credit,
which the maximum refuses, except for the one amount for which the cap wraps. -/
theorem modifyMoney_debit_iff {money x : UInt32} (hx : 0 < x.toNat) :
    (modifyMoney money (-x.toInt32)).1.toNat + x.toNat = money.toNat ↔
      x.toNat ≤ money.toNat ∧
        (x.toNat ≤ 2 ^ 31 ∨ x.toNat = 2 ^ 31 + 1 ∧ money.toNat < 2 ^ 32 - 1) := by
  have hm := money.toNat_lt
  by_cases hle : x.toNat ≤ money.toNat
  swap
  · omega
  by_cases h31 : x.toNat ≤ 2 ^ 31
  · have := (modifyMoney_debit h31 hle).1
    omega
  have hneg := toNat_neg_of_pos hx
  have hlt := x.toNat_lt
  rw [← UInt32.toInt32_neg, modifyMoney_toInt32,
    if_neg (by rw [← UInt32.toNat_inj, hneg, UInt32.toNat_zero]; omega),
    if_neg (by rw [hneg]; omega)]
  by_cases hcap : x.toNat = 2 ^ 31 + 1
  · -- `MAX_MONEY_AMOUNT` minus this one amount is `2^32 - 1` as an unsigned number
    have hx' : x = 2147483649 := UInt32.toNat_inj.1 hcap
    have hcap' : (maxMoneyAmount.toUInt32 - -x).toNat = 2 ^ 32 - 1 := by
      rw [hx']
      rfl
    split_ifs with h <;> rw [UInt32.lt_iff_toNat_lt, hcap'] at h
    · have hadd := toNat_add_neg_of_le hle
      dsimp only
      omega
    · dsimp only
      omega
  · rw [if_neg (by
      rw [UInt32.lt_iff_toNat_lt, toNat_maxMoneyAmount_sub (by rw [hneg]; omega), hneg]
      omega)]
    dsimp only
    omega

/-- When a debit that the balance covers changes nothing: it is zero, or the signed amount is a credit
that is refused. -/
theorem modifyMoney_debit_self_iff {money x : UInt32} (h : x.toNat ≤ money.toNat) :
    (modifyMoney money (-x.toInt32)).1 = money ↔
      x = 0 ∨ 2 ^ 31 < x.toNat ∧ ¬ (x.toNat = 2 ^ 31 + 1 ∧ money.toNat < 2 ^ 32 - 1) := by
  by_cases h0 : x = 0
  · subst h0
    exact iff_of_true rfl (.inl rfl)
  have hpos : 0 < x.toNat := Nat.pos_of_ne_zero fun hz => h0 (UInt32.toNat_inj.1 hz)
  rw [or_iff_right h0]
  by_cases hexact : (modifyMoney money (-x.toInt32)).1.toNat + x.toNat = money.toNat
  · -- an exact debit of a positive amount changes the balance
    have hcases := (modifyMoney_debit_iff hpos).1 hexact
    refine iff_of_false (fun heq => ?_) (by omega)
    rw [heq] at hexact
    omega
  · have hcases := mt (modifyMoney_debit_iff hpos).2 hexact
    have hlt := x.toNat_lt
    have hneg := toNat_neg_of_pos hpos
    have hm := money.toNat_lt
    refine iff_of_true ?_ (by omega)
    rw [← UInt32.toInt32_neg, modifyMoney_toInt32,
      if_neg (by rw [← UInt32.toNat_inj, hneg, UInt32.toNat_zero]; omega),
      if_neg (by rw [hneg]; omega), if_neg]
    rw [UInt32.lt_iff_toNat_lt]
    by_cases hcap : x.toNat = 2 ^ 31 + 1
    · have hx' : x = 2147483649 := UInt32.toNat_inj.1 hcap
      have hcap' : (maxMoneyAmount.toUInt32 - -x).toNat = 2 ^ 32 - 1 := by
        rw [hx']
        rfl
      omega
    · rw [toNat_maxMoneyAmount_sub (by rw [hneg]; omega), hneg]
      omega

theorem modifyMoney_credit {money x : UInt32} (h : money.toNat + x.toNat < 2147483646) :
    (modifyMoney money x.toInt32).1.toNat = money.toNat + x.toNat ∧
      (modifyMoney money x.toInt32).2 = true := by
  rw [modifyMoney_toInt32]
  by_cases h0 : x = 0
  · subst h0
    exact ⟨rfl, rfl⟩
  · rw [if_neg h0, if_neg (by omega),
      if_pos (by rw [UInt32.lt_iff_toNat_lt, toNat_maxMoneyAmount_sub (by omega)]; omega)]
    exact ⟨toNat_add_of_lt (by omega), rfl⟩

/-- An amount from `2^31` on is taken for a debit, and the balance does not grow by it. -/
theorem gain_ne_of_le {money x : UInt32} (hx : 0 < x.toNat) (h31 : 2 ^ 31 ≤ x.toNat) :
    (if money > -x then money + x else 0).toNat ≠ money.toNat + x.toNat := by
  have hlt := x.toNat_lt
  have hneg := toNat_neg_of_pos hx
  intro hexact
  split_ifs at hexact with hgt
  · rw [gt_iff_lt, UInt32.lt_iff_toNat_lt, hneg] at hgt
    rw [UInt32.toNat_add] at hexact
    omega
  · rw [UInt32.toNat_zero] at hexact
    omega

/-- A credit of a positive unsigned amount. From `2^31` on the signed amount is a debit. The cap is
computed as `MAX_MONEY_AMOUNT - amount`, which wraps for the one amount `2^31 - 1` above the
maximum. -/
theorem modifyMoney_of_pos {money x : UInt32} (hx : 0 < x.toNat) :
    modifyMoney money x.toInt32 =
      if 2 ^ 31 ≤ x.toNat then (if money > -x then money + x else 0, true)
      else if money.toNat + x.toNat < 2147483646 ∨ x.toNat = 2 ^ 31 - 1 ∧ money.toNat < 2 ^ 32 - 1
        then (money + x, true)
      else (money, false) := by
  have hne : x ≠ 0 := fun h0 => by simp [h0] at hx
  rw [modifyMoney_toInt32, if_neg hne]
  refine if_ctx_congr Iff.rfl (fun _ => rfl) fun h31 => if_congr ?_ rfl rfl
  rw [UInt32.lt_iff_toNat_lt]
  by_cases hmax : x.toNat = 2 ^ 31 - 1
  · have hx' : x = 2147483647 := UInt32.toNat_inj.1 hmax
    have hcap : (maxMoneyAmount.toUInt32 - x).toNat = 2 ^ 32 - 1 := by
      rw [hx']
      rfl
    omega
  · rw [toNat_maxMoneyAmount_sub (show x.toNat ≤ 2147483646 by omega)]
    omega

/-- When a credit of a positive unsigned amount is exact or refused: for the amount `2^31 - 1` only
the size of the balance keeps the sum in range. -/
theorem modifyMoney_credit_iff {money x : UInt32} (hx : 0 < x.toNat) :
    ((modifyMoney money x.toInt32).2 = true →
        (modifyMoney money x.toInt32).1.toNat = money.toNat + x.toNat) ↔
      x.toNat < 2 ^ 31 ∧
        (x.toNat = 2 ^ 31 - 1 → money.toNat + x.toNat < 2 ^ 32 ∨ money.toNat = 2 ^ 32 - 1) := by
  have hm := money.toNat_lt
  rw [modifyMoney_of_pos hx]
  by_cases h31 : 2 ^ 31 ≤ x.toNat
  · rw [if_pos h31]
    exact iff_of_false (fun h => gain_ne_of_le hx h31 (h rfl)) (by omega)
  rw [if_neg h31]
  split_ifs
  · rw [imp_iff_right rfl, UInt32.toNat_add]
    omega
  · exact iff_of_true nofun (by omega)

/-- When a credit of a positive unsigned amount is exact. -/
theorem modifyMoney_gain_iff {money x : UInt32} (hx : 0 < x.toNat) :
    (modifyMoney money x.toInt32).1.toNat = money.toNat + x.toNat ↔
      money.toNat + x.toNat < 2147483646 ∨
        x.toNat = 2 ^ 31 - 1 ∧ money.toNat + x.toNat < 2 ^ 32 := by
  have hm := money.toNat_lt
  rw [modifyMoney_of_pos hx]
  by_cases h31 : 2 ^ 31 ≤ x.toNat
  · rw [if_pos h31]
    exact iff_of_false (gain_ne_of_le hx h31) (by omega)
  rw [if_neg h31]
  split_ifs
  · rw [UInt32.toNat_add]
    omega
  · dsimp only
    omega

end FaceCore
