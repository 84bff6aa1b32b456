import FaceCore.Guild.Roster

/-!
# The rights of a rank

`Guild::HandleSetRankInfo` stores a mask of rights for a rank as the client sends it, and
`Guild::_HasRankRight` looks a right up in it. Most constants of `GuildRankRights` contain the bit of
`GR_RIGHT_EMPTY` besides their own one, and the masked rights are compared with `GR_RIGHT_EMPTY`.

* `Right`, `Right.mask`, `Right.bit`: the rights, their constants and their own bits;
* `handleSetRankInfo`: the request, as far as the mask is concerned;
* `and_marked_ne_iff`: what the comparison finds;
* `rank_right_iff`: when the answer is that of the right's own bit.
-/

namespace FaceCore.GuildRoster

open Guild
open GuildBank (grGuildMaster)

/-- `GuildRankRights`: the single rights. -/
inductive Right
  | gChatListen
  | gChatSpeak
  | offChatListen
  | offChatSpeak
  | invite
  | remove
  | promote
  | demote
  | setMotd
  | epNote
  | viewOffNote
  | eOffNote
  | modifyGuildInfo
  | withdrawGoldLock
  | withdrawRepair
  | withdrawGold
  | createGuildEvent
  deriving DecidableEq

/-- The constants. The last four are without `GR_RIGHT_EMPTY`. -/
def Right.mask : Right → UInt32
  | .gChatListen => grRightEmpty ||| 0x00000001
  | .gChatSpeak => grRightEmpty ||| 0x00000002
  | .offChatListen => grRightEmpty ||| 0x00000004
  | .offChatSpeak => grRightEmpty ||| 0x00000008
  | .invite => grRightEmpty ||| 0x00000010
  | .remove => grRightRemove
  | .promote => grRightPromote
  | .demote => grRightDemote
  | .setMotd => grRightEmpty ||| 0x00001000
  | .epNote => grRightEmpty ||| 0x00002000
  | .viewOffNote => grRightEmpty ||| 0x00004000
  | .eOffNote => grRightEmpty ||| 0x00008000
  | .modifyGuildInfo => grRightEmpty ||| 0x00010000
  | .withdrawGoldLock => 0x00020000
  | .withdrawRepair => 0x00040000
  | .withdrawGold => 0x00080000
  | .createGuildEvent => 0x00100000

/-- The right's own bit. -/
def Right.bit (r : Right) : UInt32 := r.mask &&& ~~~grRightEmpty

/-- `Guild::RankInfo::SetRights`: the guild master keeps all rights. -/
def RankInfo.setRights (rankInfo : RankInfo) (rights : UInt32) : RankInfo :=
  { rankInfo with rights := if rankInfo.id = grGuildMaster then grRightAll else rights }

namespace Guild

/-- `Guild::HandleSetRankInfo`; `player` is the player of the session. -/
def handleSetRankInfo (g : Guild) (player : UInt32) (rankId : UInt8) (rights : UInt32) : Guild :=
  if !g.isLeader player then g
  else
    match g.getRankInfo rankId with
    | some rankInfo => { g with ranks := g.ranks.set rankId.toNat (rankInfo.setRights rights) }
    | none => g

variable {g : Guild} {player guid : UInt32} {rankId : UInt8} {rankInfo : RankInfo} {rights : UInt32}
  {member : Member}

theorem getRankRights_handleSetRankInfo (hleader : g.isLeader player = true)
    (hrank : g.getRankInfo rankId = some rankInfo) :
    (g.handleSetRankInfo player rankId rights).getRankRights rankId =
      (rankInfo.setRights rights).rights := by
  have hlt : rankId < g.getRanksSize := getRankInfo_ne_none.1 (by simp [hrank])
  have hget : g.ranks[rankId.toNat]? = some rankInfo := by
    rwa [getRankInfo, if_pos hlt] at hrank
  have hlen : rankId.toNat < g.ranks.length := (List.getElem?_eq_some_iff.1 hget).1
  have hstored : (g.handleSetRankInfo player rankId rights).getRankInfo rankId =
      some (rankInfo.setRights rights) := by
    unfold handleSetRankInfo
    rw [hleader, hrank]
    have hsize : ({ g with ranks := g.ranks.set rankId.toNat (rankInfo.setRights rights) } :
        Guild).getRanksSize = g.getRanksSize := by
      simp [getRanksSize]
    rw [Bool.not_true, if_neg Bool.false_ne_true, getRankInfo, hsize, if_pos hlt]
    simp [hlen]
  rw [getRankRights, hstored]

end Guild

/-! ### The comparison -/

theorem nat_and_bit (x i : ℕ) : x &&& 2 ^ i = if x.testBit i then 2 ^ i else 0 := by
  apply Nat.eq_of_testBit_eq
  intro j
  rw [Nat.testBit_and, Nat.testBit_two_pow]
  split_ifs with h
  · rw [Nat.testBit_two_pow]
    by_cases hij : i = j
    · simp [← hij, h]
    · simp [hij]
  · by_cases hij : i = j
    · simp [← hij, h]
    · simp [hij]

/-- A mask passes the comparison with the bit of the right, or without that of `GR_RIGHT_EMPTY`. -/
theorem and_marked_ne_iff {x bit : UInt32} {i : ℕ} (hbit : bit.toNat = 2 ^ i) (hne : i ≠ 6) :
    x &&& (grRightEmpty ||| bit) ≠ grRightEmpty ↔ x &&& bit ≠ 0 ∨ x &&& grRightEmpty = 0 := by
  have hempty : grRightEmpty.toNat = 2 ^ 6 := rfl
  have hpow : 2 ^ i ≠ 64 := by
    intro h
    have h6 : 2 ^ i = 2 ^ 6 := h
    exact hne (Nat.pow_right_injective (le_refl 2) h6)
  have hor : 64 ||| 2 ^ i ≠ 64 := by
    intro h
    have htest := congrArg (Nat.testBit · i) h
    have h64 : Nat.testBit 64 i = false := Nat.testBit_two_pow_of_ne (n := 6) (Ne.symm hne)
    simp [h64] at htest
  simp only [ne_eq, ← UInt32.toNat_inj, UInt32.toNat_and, UInt32.toNat_or, hbit, hempty,
    Nat.and_or_distrib_left, nat_and_bit, UInt32.toNat_zero]
  split_ifs <;> simp [hpow, hor]

theorem Right.mask_eq (r : Right) : (∃ i < 32, r.bit.toNat = 2 ^ i ∧ i ≠ 6) ∧
    (r.mask = grRightEmpty ||| r.bit ∧ r.mask &&& grRightEmpty ≠ 0 ∨
      r.mask = r.bit ∧ r.mask &&& grRightEmpty = 0) := by
  cases r <;> decide

/-- **Main result.** For a member of the rank, the answer about a right is that of the right's own bit
exactly if this bit is stored, or both the mask and the constant contain `GR_RIGHT_EMPTY`. -/
theorem rank_right_iff {g : Guild} {player guid : UInt32} {rankId : UInt8} {rankInfo : RankInfo}
    {rights : UInt32} {member : Member} (hleader : g.isLeader player = true)
    (hrank : g.getRankInfo rankId = some rankInfo) (hmember : g.getMember guid = some member)
    (hid : member.rankId = rankId) (r : Right) :
    ((g.handleSetRankInfo player rankId rights).hasRankRight guid r.mask = true ↔
        (rankInfo.setRights rights).rights &&& r.bit ≠ 0) ↔
      (rankInfo.setRights rights).rights &&& r.bit ≠ 0 ∨
        (rankInfo.setRights rights).rights &&& grRightEmpty ≠ 0 ∧ r.mask &&& grRightEmpty ≠ 0 := by
  have hmembers : (g.handleSetRankInfo player rankId rights).getMember guid = some member := by
    unfold handleSetRankInfo
    split_ifs
    · exact hmember
    · rw [hrank]
      exact hmember
  have hright : (g.handleSetRankInfo player rankId rights).hasRankRight guid r.mask = true ↔
      (rankInfo.setRights rights).rights &&& r.mask ≠ grRightEmpty := by
    unfold hasRankRight
    rw [hmembers]
    simp only [hid, getRankRights_handleSetRankInfo hleader hrank, decide_eq_true_eq]
  rw [hright]
  generalize (rankInfo.setRights rights).rights = x
  obtain ⟨⟨i, -, hbit, hne⟩, ⟨hmask, hmarked⟩ | ⟨hmask, hplain⟩⟩ := r.mask_eq
  · -- the bit of `GR_RIGHT_EMPTY` is part of the constant
    have hiff := and_marked_ne_iff (x := x) hbit hne
    rw [← hmask] at hiff
    rw [hiff]
    by_cases hx : x &&& r.bit = 0 <;> by_cases he : x &&& grRightEmpty = 0 <;> simp [hx, he, hmarked]
  · -- the masked rights are never `GR_RIGHT_EMPTY`
    have hx : x &&& r.mask ≠ grRightEmpty := by
      intro h
      have hand := congrArg (· &&& grRightEmpty) h
      simp only [UInt32.and_assoc, hplain, UInt32.and_zero] at hand
      exact absurd hand (by decide)
    simp [hx, hplain]

/-- The guild of the player 1, with a second player who has the rank 4. -/
def twoMembers : Guild where
  leaderGuid := 1
  ranks := [⟨0, grRightAll⟩, ⟨1, grRightAll⟩, ⟨2, grRightChat⟩, ⟨3, grRightChat⟩, ⟨4, grRightChat⟩]
  members := ⟨[⟨1, "Jaina", 0⟩, ⟨2, "Thrall", 4⟩], by decide⟩

/-- The rank may remove members after the leader stored this right for it. -/
theorem rank_right_sample :
    (twoMembers.handleSetRankInfo 1 4 grRightRemove).hasRankRight 2 Right.remove.mask = true ↔
      grRightRemove &&& Right.remove.bit ≠ 0 := by
  have hrank : twoMembers.getRankInfo 4 = some ⟨4, grRightChat⟩ := rfl
  have hmember : twoMembers.getMember 2 = some ⟨2, "Thrall", 4⟩ := rfl
  have hleader : twoMembers.isLeader 1 = true := rfl
  exact (rank_right_iff hleader hrank hmember rfl .remove).2 (.inl (by decide))

/-- A rank for which the mask 0 is stored may remove members. -/
theorem empty_mask_removes :
    (twoMembers.handleSetRankInfo 1 4 0).getRankRights 4 = 0 ∧
      ¬ ((twoMembers.handleSetRankInfo 1 4 0).hasRankRight 2 Right.remove.mask = true ↔
        (0 : UInt32) &&& Right.remove.bit ≠ 0) := by
  decide

end FaceCore.GuildRoster
