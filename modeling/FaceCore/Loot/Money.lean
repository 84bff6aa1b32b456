import FaceCore.Loot.Loot
import FaceCore.Player.Money
import Mathlib.Logic.Function.Basic

/-!
# The money of a loot

`WorldSession::HandleLootMoneyOpcode`: the gold of a loot goes to the players of the group who are
near the one who loots, in equal shares, or as a whole to him alone. Then the gold is set to zero.

* `lootOf`: which loot the request reaches, and whether its money is shared;
* `handleLootMoney`: the request;
* `lootMoney_conserved_iff`: no share is lost and no balance too large exactly if every share can be
  credited.

The group, distances and what stands behind the guid of the loot are parameters. Achievements and
the notices to others who have the loot open are left out.
-/

namespace FaceCore.LootMoney

open LootMgr

/-- A game object: does it belong to the player, and is it within `INTERACTION_DISTANCE`? -/
structure GameObject where
  owned : Bool
  inDistance : Bool

/-- A creature or a vehicle. -/
structure Creature where
  alive : Bool
  lootForPickPocketed : Bool
  inDistance : Bool

/-- `GetLootGUID`, with what is found under it: nothing, or an object that may not be there, bones
by their distance. -/
inductive LootGuid
  | zero
  | gameObject (go : Option GameObject)
  | corpse (bones : Option Bool)
  | item (found : Bool)
  | unit (creature : Option Creature)
  | other

/-- `IS_ITEM_GUID`. -/
def LootGuid.isItem : LootGuid → Bool
  | .item _ => true
  | _ => false

/-- The loot that the request reaches, if any: is its money shared? -/
def lootOf (isRogue : Bool) : LootGuid → Option Bool
  | .zero => none
  | .gameObject go => if go.any fun go => go.owned || go.inDistance then some true else none
  | .corpse bones => if bones.any id then some false else none
  | .item found => if found then some false else none
  | .unit creature =>
    match creature with
    | none => none
    | some creature =>
      let lootAllowed := creature.alive == (isRogue && creature.lootForPickPocketed)
      if lootAllowed && creature.inDistance then some !creature.alive else none
  | .other => none

/-- The group of `player`: the sources of its references in order, and who is within
`CONFIG_GROUP_XP_DISTANCE` of him. A player has one reference, and is near himself. -/
structure Group (player : ℕ) where
  members : List (Option ℕ)
  near : ℕ → Bool
  nodup : members.reduceOption.Nodup
  player_mem : some player ∈ members
  player_near : near player = true

/-- `playersNear`. -/
def Group.playersNear {player : ℕ} (g : Group player) : List ℕ :=
  g.members.reduceOption.filter g.near

/-- The session that sends the request. -/
structure Session where
  player : ℕ
  isRogue : Bool
  lootGuid : LootGuid
  group : Option (Group player)

/-- The balances, the loot with the record of its money in the database, the notices
`SMSG_LOOT_MONEY_NOTIFY` and whether the loot has been released. -/
structure State where
  money : ℕ → UInt32
  loot : Loot
  containerId : ℕ
  moneyRecord : Bool
  notified : List (ℕ × UInt32 × Bool)
  released : Bool

/-- The credit of one player, and his notice. -/
def pay (gold : UInt32) (alone : Bool) (st : State) (p : ℕ) : State :=
  { st with
    money := Function.update st.money p (modifyMoney (st.money p) gold.toInt32).1
    notified := st.notified ++ [(p, gold, alone)] }

/-- The end of the request. -/
def clear (isItem : Bool) (st : State) : State :=
  let loot := { st.loot with gold := 0 }
  { st with
    loot := loot
    moneyRecord := if st.containerId > 0 then false else st.moneyRecord
    released := st.released || (loot.isLooted && isItem) }

/-- `WorldSession::HandleLootMoneyOpcode`; `none` is a division by zero. -/
def handleLootMoney (s : Session) (st : State) : Option State :=
  match lootOf s.isRogue s.lootGuid with
  | none => some st
  | some shareMoney =>
    match shareMoney, s.group with
    | true, some group =>
      let playersNear := group.playersNear
      if playersNear.length = 0 then none
      else
        let goldPerPlayer := UInt32.ofNat (st.loot.gold.toNat / playersNear.length)
        some (clear s.lootGuid.isItem
          (playersNear.foldl (pay goldPerPlayer (playersNear.length ≤ 1)) st))
    | _, _ => some (clear s.lootGuid.isItem (pay st.loot.gold true st s.player))

/-! ### What is to be conserved -/

/-- The players who get a share. -/
def recipients (s : Session) : List ℕ :=
  match lootOf s.isRogue s.lootGuid, s.group with
  | some true, some group => group.playersNear
  | _, _ => [s.player]

/-- The share of each of them. -/
def goldPerPlayer (s : Session) (st : State) : UInt32 :=
  UInt32.ofNat (st.loot.gold.toNat / (recipients s).length)

/-- The gold is divided into equal shares, the balances stay within the maximum, and the gold of the
loot is gone only if every share has arrived. -/
structure Conserved (s : Session) (st st' : State) : Prop where
  divided : (goldPerPlayer s st).toNat * (recipients s).length ≤ st.loot.gold.toNat ∧
    st.loot.gold.toNat <
      (goldPerPlayer s st).toNat * (recipients s).length + (recipients s).length
  capped : ∀ p ∈ recipients s, (st'.money p).toNat ≤ maxMoneyAmount.toUInt32.toNat
  credited : st'.loot.gold = 0 → ∀ p ∈ recipients s,
    (st'.money p).toNat = (st.money p).toNat + (goldPerPlayer s st).toNat
  others : ∀ p ∉ recipients s, st'.money p = st.money p

/-- A balance can take a share: the sum is below the maximum, or there is nothing to add. -/
def Creditable (money share : UInt32) : Prop :=
  money.toNat + share.toNat < maxMoneyAmount.toUInt32.toNat ∨
    share = 0 ∧ money.toNat ≤ maxMoneyAmount.toUInt32.toNat

instance (money share : UInt32) : Decidable (Creditable money share) :=
  inferInstanceAs (Decidable (_ ∨ _))

/-- A credit arrives and leaves the balance within the maximum exactly if it is `Creditable`. -/
theorem modifyMoney_exact_iff (money share : UInt32) :
    ((modifyMoney money share.toInt32).1.toNat = money.toNat + share.toNat ∧
        (modifyMoney money share.toInt32).1.toNat ≤ maxMoneyAmount.toUInt32.toNat) ↔
      Creditable money share := by
  unfold Creditable
  rw [toNat_maxMoneyAmount]
  constructor
  · rintro ⟨hexact, hcap⟩
    by_cases hzero : share = 0
    · subst hzero
      exact .inr ⟨rfl, hcap⟩
    have hpos : 0 < share.toNat := Nat.pos_of_ne_zero fun hz => hzero (UInt32.toNat_inj.1 hz)
    rw [hexact] at hcap
    rw [modifyMoney_toInt32, if_neg hzero, if_neg (by omega)] at hexact
    -- at the maximum itself the credit is refused
    split_ifs at hexact with hlt
    · rw [UInt32.lt_iff_toNat_lt, toNat_maxMoneyAmount_sub (by omega)] at hlt
      exact .inl (by omega)
    · dsimp only at hexact
      omega
  · rintro (hlt | ⟨rfl, hle⟩)
    · have hcredit := (modifyMoney_credit hlt).1
      omega
    · exact ⟨rfl, hle⟩

/-! ### The request -/

theorem Group.player_mem_playersNear {player : ℕ} (g : Group player) : player ∈ g.playersNear :=
  List.mem_filter.2 ⟨List.mem_filterMap.2 ⟨some player, g.player_mem, rfl⟩, g.player_near⟩

theorem player_mem_recipients (s : Session) : s.player ∈ recipients s := by
  unfold recipients
  split
  · exact Group.player_mem_playersNear _
  · exact List.mem_singleton_self _

theorem length_recipients_pos (s : Session) : 0 < (recipients s).length :=
  List.length_pos_of_mem (player_mem_recipients s)

theorem nodup_recipients (s : Session) : (recipients s).Nodup := by
  unfold recipients
  split
  · exact (Group.nodup _).filter _
  · exact List.nodup_singleton _

/-- Players are paid one after the other, each once. -/
theorem foldl_pay_money {l : List ℕ} (hl : l.Nodup) (gold : UInt32) (alone : Bool) (st : State)
    (p : ℕ) :
    (l.foldl (pay gold alone) st).money p =
      if p ∈ l then (modifyMoney (st.money p) gold.toInt32).1 else st.money p := by
  induction l generalizing st with
  | nil => rfl
  | cons q l ih =>
    obtain ⟨hq, hl⟩ := List.nodup_cons.1 hl
    rw [List.foldl_cons, ih hl]
    by_cases hpq : p = q
    · subst hpq
      rw [if_neg hq, if_pos List.mem_cons_self]
      exact Function.update_self ..
    · have hsame : (pay gold alone st q).money p = st.money p := Function.update_of_ne hpq ..
      rw [hsame]
      simp only [List.mem_cons, hpq, false_or]

/-- A request that reaches a loot pays everyone his share and takes the gold from the loot. -/
theorem handleLootMoney_eq {s : Session} (st : State) {shareMoney : Bool}
    (h : lootOf s.isRogue s.lootGuid = some shareMoney) :
    ∃ alone, handleLootMoney s st =
      some (clear s.lootGuid.isItem
        ((recipients s).foldl (pay (goldPerPlayer s st) alone) st)) := by
  have hpos := length_recipients_pos s
  unfold handleLootMoney goldPerPlayer
  unfold recipients at hpos ⊢
  rw [h] at hpos ⊢
  cases shareMoney with
  | false => exact ⟨true, by simp⟩
  | true =>
    cases hgroup : s.group with
    | none => exact ⟨true, by simp⟩
    | some group =>
      rw [hgroup] at hpos
      exact ⟨_, if_neg (Nat.ne_of_gt hpos)⟩

theorem handleLootMoney_of_loot {s : Session} (st : State) {shareMoney : Bool}
    (h : lootOf s.isRogue s.lootGuid = some shareMoney) :
    ∃ st', handleLootMoney s st = some st' ∧ st'.loot.gold = 0 ∧ ∀ p, st'.money p =
      if p ∈ recipients s then (modifyMoney (st.money p) (goldPerPlayer s st).toInt32).1
      else st.money p := by
  obtain ⟨alone, heq⟩ := handleLootMoney_eq st h
  refine ⟨_, heq, rfl, fun p => ?_⟩
  exact foldl_pay_money (nodup_recipients s) (goldPerPlayer s st) alone st p

/-- The share, times the number of the recipients, is the gold up to a remainder that is smaller
than their number. -/
theorem goldPerPlayer_spec (s : Session) (st : State) :
    (goldPerPlayer s st).toNat * (recipients s).length ≤ st.loot.gold.toNat ∧
      st.loot.gold.toNat <
        (goldPerPlayer s st).toNat * (recipients s).length + (recipients s).length := by
  have hpos := length_recipients_pos s
  have hlt : st.loot.gold.toNat / (recipients s).length < UInt32.size :=
    Nat.lt_of_le_of_lt (Nat.div_le_self _ _) st.loot.gold.toNat_lt
  unfold goldPerPlayer
  rw [UInt32.toNat_ofNat_of_lt' hlt]
  refine ⟨Nat.div_mul_le_self _ _, ?_⟩
  rw [Nat.mul_comm, ← Nat.mul_succ]
  exact Nat.lt_mul_div_succ _ hpos

/-- **Main result.** A request that reaches a loot succeeds, and conserves the money exactly if every
recipient can take his share. -/
theorem lootMoney_conserved_iff (s : Session) (st : State) (shareMoney : Bool)
    (h : lootOf s.isRogue s.lootGuid = some shareMoney) :
    ∃ st', handleLootMoney s st = some st' ∧
      (Conserved s st st' ↔
        ∀ p ∈ recipients s, Creditable (st.money p) (goldPerPlayer s st)) := by
  obtain ⟨st', heq, hgold, hmoney⟩ := handleLootMoney_of_loot st h
  refine ⟨st', heq, ?_⟩
  constructor
  · intro hconserved p hp
    rw [← modifyMoney_exact_iff]
    have hpaid := (hmoney p).trans (if_pos hp)
    rw [← hpaid]
    exact ⟨hconserved.credited hgold p hp, hconserved.capped p hp⟩
  · intro hcreditable
    have hpaid : ∀ p ∈ recipients s,
        (st'.money p).toNat = (st.money p).toNat + (goldPerPlayer s st).toNat ∧
          (st'.money p).toNat ≤ maxMoneyAmount.toUInt32.toNat := by
      intro p hp
      rw [hmoney p, if_pos hp]
      exact (modifyMoney_exact_iff _ _).2 (hcreditable p hp)
    exact
      { divided := goldPerPlayer_spec s st
        capped := fun p hp => (hpaid p hp).2
        credited := fun _ p hp => (hpaid p hp).1
        others := fun p hp => (hmoney p).trans (if_neg hp) }

/-! ### Two of a group -/

/-- Player 1 loots a dead creature; player 2 of his group is near, player 3 is not. -/
def twoNear : Session where
  player := 1
  isRogue := false
  lootGuid := .unit (some ⟨false, false, true⟩)
  group := some
    { members := [some 1, none, some 2, some 3]
      near := fun p => p ≠ 3
      nodup := by decide
      player_mem := by decide
      player_near := by decide }

/-- A loot with some gold, and the balances of players 1 and 2. -/
def withGold (gold money₁ money₂ : UInt32) : State where
  money p := if p = 1 then money₁ else money₂
  loot := Loot.new gold
  containerId := 0
  moneyRecord := false
  notified := []
  released := false

theorem lootMoney_conserved_iff_twoNear :
    ∃ st', handleLootMoney twoNear (withGold 101 5 7) = some st' ∧
      Conserved twoNear (withGold 101 5 7) st' := by
  obtain ⟨st', heq, hiff⟩ := lootMoney_conserved_iff twoNear (withGold 101 5 7) true rfl
  exact ⟨st', heq, hiff.2 (by decide)⟩

/-- A share that would bring player 2 to the maximum is gone. -/
theorem not_conserved_near_maximum :
    ∃ st', handleLootMoney twoNear (withGold 101 5 2147483600) = some st' ∧
      st'.loot.gold = 0 ∧ st'.money 2 = 2147483600 ∧
        ¬ Conserved twoNear (withGold 101 5 2147483600) st' := by
  refine ⟨_, rfl, rfl, by decide, fun hconserved => ?_⟩
  have hcredited := hconserved.credited rfl 2 (by decide)
  revert hcredited
  decide

end FaceCore.LootMoney
