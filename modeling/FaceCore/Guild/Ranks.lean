import FaceCore.Guild.Roster

/-!
# Every member has a rank that exists

Whether every member's rank id stays below the number of ranks. Two operations can break it:
`HandleRemoveRank` takes the lowest rank away from members who still hold it, and `AddMember` takes
the rank that a caller passes as it is. At loading, `Validate` compares the members' ranks with the
number of ranks by `>`, so a member whose rank id is that number keeps it.

* `exec_allRanks`: what an operation does to the members' ranks, for any property of rank ids;
* `guild_ranks_valid_iff`: a run from a created or loaded guild keeps all ranks valid exactly when
  the loaded data and every step meet their condition.
-/

namespace FaceCore.GuildRoster

open Guild
open GuildBank (grGuildMaster)

/-- Every member's rank id is smaller than the number of ranks, and so `GetRankInfo` finds it. -/
def RanksValid (g : Guild) : Prop :=
  ∀ m ∈ g.members, m.rankId < g.getRanksSize ∧ g.getRankInfo m.rankId ≠ none

/-- Whether `HandleRemoveRank` goes through. -/
def Guild.removesRank (g : Guild) (player : UInt32) (rankId : UInt8) : Prop :=
  ranksMinCount < g.getRanksSize ∧ rankId < g.getRanksSize ∧ g.isLeader player = true

/-- The steps that keep ranks valid: a rank passed to `AddMember` for a player who is admitted
exists, and a rank that is removed is held by no member. -/
def KeepsRanks (g : Guild) : Op → Prop
  | .addMember c rankId => g.admits c = true → rankId = rankNone ∨ rankId < g.getRanksSize
  | .handleRemoveRank player rankId =>
    g.removesRank player rankId → ∀ m ∈ g.members, m.rankId ≠ g.getLowestRankId
  | _ => True

/-- The loaded data that `Validate` makes valid: a member whose rank id is the number of ranks is
the one who leads the guild afterwards. -/
def Start.RanksOk : Start → Prop
  | .create _ => True
  | .load _ g => ∀ m ∈ g.members, m.rankId = g.repairRanks.getRanksSize →
    g.repairRanks.repairMembers.electedLeader = some m.guid

variable {g g' : Guild} {Q : UInt8 → Prop}

theorem ranksValid_iff_lt : RanksValid g ↔ ∀ m ∈ g.members, m.rankId < g.getRanksSize := by
  simp only [RanksValid, getRankInfo_ne_none, and_self]

/-! ### What an operation does to the members' ranks -/

theorem allRanks_changeRank {guid : UInt32} {r : UInt8} (h : ∀ m ∈ g.members, Q m.rankId)
    (hr : Q r) : ∀ m ∈ (g.changeRank guid r).members, Q m.rankId := by
  rw [forall_mem_changeRank]
  intro m hm
  split_ifs
  · exact hr
  · exact h m hm

theorem allRanks_erase {guid : UInt32} (h : ∀ m ∈ g.members, Q m.rankId) :
    ∀ m ∈ g.members.erase guid, Q m.rankId :=
  fun m hm => h m (Table.mem_erase.1 hm).1

theorem allRanks_addMember_iff {c : Candidate} {r : UInt8} (h : ∀ m ∈ g.members, Q m.rankId) :
    (∀ m ∈ (g.addMember c r).1.members, Q m.rankId) ↔ (g.admits c = true → Q (g.rankGiven r)) := by
  rcases addMember_cases g c r with ⟨hno, heq⟩ | ⟨name, hyes, heq⟩ <;> rw [heq]
  · simpa [hno] using h
  · rw [imp_iff_right hyes]
    constructor
    · intro hall
      exact hall _ (Table.mem_insert.2 (.inl rfl))
    · intro hr m hmem
      rcases Table.mem_insert.1 hmem with rfl | ⟨hmem, -⟩
      · exact hr
      · exact h m hmem

/-- An operation keeps a property of rank ids that the ranks it gives have: the guild master's, the
officer's, every existing rank, the rank above one that has it, and the rank given to a new
member. -/
theorem exec_allRanks {op : Op} (he : g.exec op = some g') (h : ∀ m ∈ g.members, Q m.rankId)
    (hmaster : Q grGuildMaster) (hofficer : Q grOfficer)
    (hlow : ∀ r, r ≤ g.getLowestRankId → Q r) (hup : ∀ r, 0 < r → Q r → Q (r - 1))
    (hadd : ∀ c r, op = .addMember c r → g.admits c = true → Q (g.rankGiven r)) :
    ∀ m ∈ g'.members, Q m.rankId := by
  -- if the leader goes, the new one gets the rank of the guild master
  have hdelete : ∀ guid g', g.deleteMember guid = some g' → ∀ m ∈ g'.members, Q m.rankId := by
    intro guid g' hd
    rcases deleteMember_cases hd with ⟨-, rfl⟩ | ⟨n, -, -, rfl⟩
    · exact allRanks_erase h
    · exact @allRanks_erase (g.setLeaderGUID n.guid) Q guid (allRanks_changeRank h hmaster)
  cases op with
  | addMember c r =>
    obtain rfl := Option.some.inj he
    exact (allRanks_addMember_iff h).2 (hadd c r rfl)
  | deleteMember guid => exact hdelete guid g' he
  | changeMemberRank guid newRank =>
    obtain rfl := Option.some.inj he
    rcases changeMemberRank_cases g guid newRank with ⟨-, heq⟩ | ⟨hr, -, heq⟩ <;> rw [heq]
    · exact h
    · exact allRanks_changeRank h (hlow newRank hr)
  | handleSetLeader player name =>
    obtain rfl := Option.some.inj he
    rcases handleSetLeader_cases g player name with ⟨-, heq⟩ | ⟨new, -, -, -, heq⟩ <;> rw [heq]
    · exact h
    · exact @allRanks_changeRank (g.setLeaderGUID new.guid) Q _ _
        (allRanks_changeRank h hmaster) hofficer
  | handleUpdateMemberRank player name demote =>
    obtain rfl := Option.some.inj he
    rcases handleUpdateMemberRank_cases g player name demote with
      heq | ⟨member, me, hm, -, ⟨-, hlt, heq⟩ | ⟨hlt, heq⟩⟩ <;> rw [heq]
    · exact h
    · refine allRanks_changeRank h (hlow _ ?_)
      -- a demotion stops at the lowest rank
      have hlt' := UInt8.lt_iff_toNat_lt.1 hlt
      have hmax := g.getLowestRankId.toNat_lt
      rw [UInt8.le_iff_toNat_le, UInt8.toNat_add, UInt8.toNat_one]
      omega
    · refine allRanks_changeRank h (hup _ ?_ (h member hm))
      rw [UInt8.lt_iff_toNat_lt] at hlt ⊢
      exact Nat.zero_lt_of_lt hlt
  | handleAddNewRank player =>
    obtain rfl := Option.some.inj he
    unfold handleAddNewRank createRank
    split_ifs <;> exact h
  | handleRemoveRank player rankId =>
    obtain rfl := Option.some.inj he
    unfold handleRemoveRank
    split_ifs <;> exact h
  | handleRemoveMember player name =>
    rcases handleRemoveMember_cases g player name with heq | ⟨member, -, -, heq⟩
    · obtain rfl := Option.some.inj (heq.symm.trans he)
      exact h
    · exact hdelete member.guid g' (heq.symm.trans he)
  | handleLeaveMember player =>
    rcases handleLeaveMember_cases g player with heq | heq | ⟨-, heq⟩
    · obtain rfl := Option.some.inj (heq.symm.trans he)
      exact h
    · cases heq.symm.trans he
    · exact hdelete player g' (heq.symm.trans he)
  | rehash order =>
    obtain rfl := Option.some.inj he
    intro m hm
    exact h m (Table.mem_reorder.1 hm)

/-! ### What an operation does to the ranks -/

theorem exec_getRanksSize {op : Op} (he : g.exec op = some g') (hg : WellRanked g) :
    (g'.getRanksSize = g.getRanksSize ∧ ∀ p r, op = .handleRemoveRank p r → ¬ g.removesRank p r) ∨
      (∃ p, op = .handleAddNewRank p ∧ g.getRanksSize < ranksMaxCount ∧
        g'.members = g.members ∧ g'.getRanksSize = g.getRanksSize + 1) ∨
      ∃ p r, op = .handleRemoveRank p r ∧ g.removesRank p r ∧
        g'.members = g.members ∧ g'.getRanksSize = g.getRanksSize - 1 := by
  have hdelete : ∀ guid g', g.deleteMember guid = some g' → g'.getRanksSize = g.getRanksSize := by
    intro guid g' hd
    rcases deleteMember_cases hd with ⟨-, rfl⟩ | ⟨n, -, -, rfl⟩ <;> rfl
  cases op with
  | addMember c r =>
    obtain rfl := Option.some.inj he
    refine .inl ⟨?_, nofun⟩
    rcases addMember_cases g c r with ⟨-, heq⟩ | ⟨name, -, heq⟩ <;> rw [heq]
    rfl
  | deleteMember guid => exact .inl ⟨hdelete guid g' he, nofun⟩
  | changeMemberRank guid newRank =>
    obtain rfl := Option.some.inj he
    refine .inl ⟨?_, nofun⟩
    rcases changeMemberRank_cases g guid newRank with ⟨-, heq⟩ | ⟨-, -, heq⟩ <;> rw [heq]
    rfl
  | handleSetLeader player name =>
    obtain rfl := Option.some.inj he
    refine .inl ⟨?_, nofun⟩
    rcases handleSetLeader_cases g player name with ⟨-, heq⟩ | ⟨new, -, -, -, heq⟩ <;> rw [heq]
    rfl
  | handleUpdateMemberRank player name demote =>
    obtain rfl := Option.some.inj he
    refine .inl ⟨?_, nofun⟩
    rcases handleUpdateMemberRank_cases g player name demote with
      heq | ⟨member, me, -, -, ⟨-, -, heq⟩ | ⟨-, heq⟩⟩ <;> rw [heq] <;> rfl
  | handleAddNewRank player =>
    obtain rfl := Option.some.inj he
    unfold handleAddNewRank createRank
    -- the list is full, the leader asks, or somebody else does
    split_ifs with hmax
    · exact .inl ⟨rfl, nofun⟩
    · exact .inr (.inl ⟨player, rfl, UInt8.not_le.1 hmax, rfl, getRanksSize_push _⟩)
    · exact .inl ⟨rfl, nofun⟩
  | handleRemoveRank player rankId =>
    obtain rfl := Option.some.inj he
    unfold handleRemoveRank
    split_ifs with hno
    · refine .inl ⟨rfl, ?_⟩
      rintro p r ⟨⟩ ⟨hsize, hr, hl⟩
      rcases hno with hno | hno | hno
      · exact UInt8.not_lt.2 hno hsize
      · exact UInt8.not_lt.2 hno hr
      · simp [hl] at hno
    · rw [not_or, not_or, UInt8.not_le, ge_iff_le, UInt8.not_le] at hno
      -- more than the least number of ranks: the last one goes
      have hpos : 0 < g.getRanksSize.toNat := by
        have := hg.min_le
        omega
      exact .inr (.inr ⟨player, rankId, rfl, ⟨hno.1, hno.2.1, by simpa using hno.2.2⟩, rfl,
        getRanksSize_dropLast hpos⟩)
  | handleRemoveMember player name =>
    refine .inl ⟨?_, nofun⟩
    rcases handleRemoveMember_cases g player name with heq | ⟨member, -, -, heq⟩
    · obtain rfl := Option.some.inj (heq.symm.trans he)
      rfl
    · exact hdelete member.guid g' (heq.symm.trans he)
  | handleLeaveMember player =>
    refine .inl ⟨?_, nofun⟩
    rcases handleLeaveMember_cases g player with heq | heq | ⟨-, heq⟩
    · obtain rfl := Option.some.inj (heq.symm.trans he)
      rfl
    · cases heq.symm.trans he
    · exact hdelete player g' (heq.symm.trans he)
  | rehash order =>
    obtain rfl := Option.some.inj he
    exact .inl ⟨rfl, nofun⟩

theorem exec_wellRanked {op : Op} (he : g.exec op = some g') (hg : WellRanked g) :
    WellRanked g' := by
  have hmin := hg.min_le
  have hmax := hg.le_max
  have hlow := hg.lowest
  have hle : ∀ r, r ≤ g.getLowestRankId → r ≠ rankNone := by
    rintro r hr rfl
    rw [UInt8.le_iff_toNat_le, hlow] at hr
    change 255 ≤ _ at hr
    omega
  have hnone : ∀ m ∈ g'.members, m.rankId ≠ rankNone := by
    refine @exec_allRanks g g' (· ≠ rankNone) op he hg.ne_none (by decide) (by decide) hle
      (fun r hpos hr => ?_) fun c r _ _ => ?_
    · intro h
      -- only the rank zero has the rank `255` above it
      obtain rfl : r = 0 := by
        rw [← UInt8.sub_add_cancel r 1, h]
        rfl
      exact absurd hpos (by decide)
    · unfold rankGiven
      split_ifs with h
      · exact hle _ (UInt8.le_refl _)
      · exact h
  rcases exec_getRanksSize he hg with ⟨hsize, -⟩ | ⟨p, -, hlt, -, hsize⟩ | ⟨p, r, -, hrem, -, hsize⟩
  · exact ⟨hsize ▸ hmin, hsize ▸ hmax, hnone⟩
  · rw [UInt8.lt_iff_toNat_lt] at hlt
    change _ < 10 at hlt
    refine ⟨?_, ?_, hnone⟩ <;> rw [hsize, UInt8.toNat_add, UInt8.toNat_one] <;> omega
  · have hlt := UInt8.lt_iff_toNat_lt.1 hrem.1
    change 5 < _ at hlt
    have hpred : (g.getRanksSize - 1).toNat = g.getRanksSize.toNat - 1 := hlow
    refine ⟨?_, ?_, hnone⟩ <;> rw [hsize, hpred] <;> omega

theorem exec_ranksValid_iff {op : Op} (he : g.exec op = some g') (hg : WellRanked g)
    (hv : RanksValid g) : RanksValid g' ↔ KeepsRanks g op := by
  rw [ranksValid_iff_lt] at hv ⊢
  have hmin := hg.min_le
  have hlow := hg.lowest
  have hlt_of_le : ∀ r, r ≤ g.getLowestRankId → r < g.getRanksSize := by
    intro r hr
    rw [UInt8.le_iff_toNat_le, hlow] at hr
    rw [UInt8.lt_iff_toNat_lt]
    omega
  have hup : ∀ r : UInt8, 0 < r → r < g.getRanksSize → r - 1 < g.getRanksSize := by
    intro r hpos hr
    rw [UInt8.lt_iff_toNat_lt] at hpos hr ⊢
    rw [toNat_pred hpos]
    omega
  rcases exec_getRanksSize he hg with ⟨hsize, hno⟩ | ⟨p, rfl, hmax, hmem, hsize⟩ |
    ⟨p, r, rfl, hrem, hmem, hsize⟩
  · rw [hsize]
    have hkeep := @exec_allRanks g g' (· < g.getRanksSize) op he hv (hlt_of_le _ (by
      rw [UInt8.le_iff_toNat_le]; exact Nat.zero_le _)) (hlt_of_le _ (by
      rw [UInt8.le_iff_toNat_le, hlow]; change 1 ≤ _; omega)) hlt_of_le hup
    cases op with
    | addMember c r =>
      obtain rfl := Option.some.inj he
      rw [@allRanks_addMember_iff g (· < g.getRanksSize) c r hv]
      refine imp_congr_right fun _ => ?_
      unfold rankGiven
      split_ifs with hr
      · exact iff_of_true (hlt_of_le _ (UInt8.le_refl _)) (.inl hr)
      · exact (or_iff_right hr).symm
    | handleRemoveRank p r => exact iff_of_true (hkeep nofun) fun hrem => absurd hrem (hno p r rfl)
    | _ => exact iff_of_true (hkeep nofun) trivial
  · rw [hsize, hmem]
    refine iff_of_true (fun m hm => ?_) trivial
    have := UInt8.lt_iff_toNat_lt.1 (hv m hm)
    have hle := hg.le_max
    rw [UInt8.lt_iff_toNat_lt, UInt8.toNat_add, UInt8.toNat_one]
    omega
  · rw [hsize, hmem]
    have hpred : (g.getRanksSize - 1).toNat = g.getRanksSize.toNat - 1 := hlow
    simp only [KeepsRanks, imp_iff_right hrem]
    refine forall₂_congr fun m hm => ?_
    have := UInt8.lt_iff_toNat_lt.1 (hv m hm)
    rw [UInt8.lt_iff_toNat_lt, hpred, ne_eq, ← UInt8.toNat_inj, hlow]
    omega

/-! ### From the start on -/

theorem start_wellRanked {st : Start} (h : st.guild = some g) : WellRanked g := by
  cases st with
  | create c =>
    obtain ⟨name, rfl⟩ := of_create h
    refine ⟨(by decide : 5 ≤ (UInt8.ofNat defaultRanks.length).toNat),
      (by decide : (UInt8.ofNat defaultRanks.length).toNat ≤ 10), fun m hm => ?_⟩
    rcases Table.mem_insert.1 hm with rfl | ⟨hm, -⟩
    · exact (by decide : grGuildMaster ≠ rankNone)
    · exact absurd hm Table.not_mem_empty
  | load allowMultiple g₀ =>
    obtain ⟨leader, -, -, hsize, -, hall⟩ := validate_spec h
    obtain ⟨hmin, hmax, -, -⟩ := repairRanks_spec g₀
    refine ⟨hsize ▸ hmin, hsize ▸ hmax, (hall _).2 fun m _ => ?_⟩
    show validatedRank _ _ _ m ≠ rankNone
    unfold validatedRank
    split_ifs with h1 h2 h3
    · decide
    · intro h255
      have := congrArg UInt8.toNat h255
      rw [toNat_pred (by omega)] at this
      change _ = 255 at this
      omega
    · decide
    · intro h255
      rw [h255, gt_iff_lt, UInt8.lt_iff_toNat_lt] at h2
      change ¬ _ < 255 at h2
      omega

/-- At the start the ranks are valid exactly when the loaded data is as required. -/
theorem start_ranksValid_iff {st : Start} (h : st.guild = some g) : RanksValid g ↔ st.RanksOk := by
  rw [ranksValid_iff_lt]
  cases st with
  | create c =>
    obtain ⟨name, rfl⟩ := of_create h
    refine iff_of_true (fun m hm => ?_) trivial
    rcases Table.mem_insert.1 hm with rfl | ⟨hm, -⟩
    · exact (by decide : grGuildMaster < UInt8.ofNat defaultRanks.length)
    · exact absurd hm Table.not_mem_empty
  | load allowMultiple g₀ =>
    obtain ⟨leader, hleader, -, hsize, -, hall⟩ := validate_spec h
    obtain ⟨hmin, -, -, -⟩ := repairRanks_spec g₀
    rw [hall]
    refine forall₂_congr fun m _ => ?_
    rw [hsize, hleader, Option.some.injEq]
    show validatedRank _ _ _ m < _ ↔ _
    unfold validatedRank
    split_ifs with h1 h2 h3
    · refine iff_of_true ?_ fun _ => h1.symm
      rw [UInt8.lt_iff_toNat_lt]
      exact lt_of_lt_of_le (by decide) hmin
    · refine iff_of_true ?_ fun hn => absurd h2 (hn ▸ UInt8.lt_irrefl _)
      rw [UInt8.lt_iff_toNat_lt, toNat_pred (by omega)]
      omega
    · refine iff_of_true ?_ fun hn => ?_
      · rw [UInt8.lt_iff_toNat_lt]
        exact lt_of_lt_of_le (by decide) hmin
      · rw [← hn, h3.1] at hmin
        exact absurd hmin (by decide)
    · rw [gt_iff_lt, UInt8.not_lt] at h2
      constructor
      · intro hlt hn
        exact absurd hlt (hn ▸ UInt8.lt_irrefl _)
      · intro himp
        rw [UInt8.lt_iff_le_and_ne]
        exact ⟨h2, fun hn => h1 (himp hn).symm⟩

/-- **Every member's rank exists** in every state of a run from a created or a loaded guild, exactly
when the loaded data and the steps meet their conditions. -/
theorem guild_ranks_valid_iff (st : Start) (ops : List Op) :
    Runs.Along step (fun s => ∀ g, s = some g → RanksValid g) st.guild ops ↔
      (st.guild ≠ none → st.RanksOk) ∧
        Runs.EachStep step (fun s op => ∀ g, s = some g → KeepsRanks g op) st.guild ops := by
  have hstart : (∀ g, st.guild = some g → RanksValid g) ↔ (st.guild ≠ none → st.RanksOk) := by
    cases hg : st.guild with
    | none => simp
    | some g => simpa using start_ranksValid_iff hg
  rw [← hstart]
  refine Runs.along_option_iff (I := WellRanked) (fun g => start_wellRanked)
    (fun g op g' => exec_wellRanked) (fun g op g' => exec_ranksValid_iff) fun g op he => ?_
  -- only operations on members can end a guild
  cases op with
  | addMember | handleRemoveRank => cases he
  | _ => trivial

/-- The guild of the player 1, after a rank is added, the player 2 joins at it, and the rank is
removed. -/
def removedRankOps : List Op :=
  [.handleAddNewRank 1, .addMember ⟨2, 0, some "Thrall"⟩ rankNone, .handleRemoveRank 1 5]

/-- A member keeps the lowest rank when it is removed: his rank id is the number of ranks, and
`GetRankInfo` finds nothing. -/
theorem guild_removed_rank_kept :
    ¬ Runs.Along step (fun s => ∀ g, s = some g → RanksValid g)
      (Start.create ⟨1, 0, some "Jaina"⟩).guild removedRankOps := by
  intro h
  obtain ⟨g, hg, hmem, hsize⟩ : ∃ g,
      removedRankOps.foldl step (Start.create ⟨1, 0, some "Jaina"⟩).guild = some g ∧
        ⟨2, "Thrall", 5⟩ ∈ g.members ∧ g.getRanksSize = 5 := ⟨_, rfl, by decide, rfl⟩
  have hlt := (h _ (List.prefix_refl _) g hg _ hmem).1
  rw [hsize] at hlt
  exact absurd hlt (by decide)

end FaceCore.GuildRoster
