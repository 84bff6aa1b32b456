import FaceCore.Guild.Ranks

/-!
# The guild has one master, its leader

Whether the recorded leader is a member with the rank of the guild master, and the only one. The
leader's guid and the members' ranks are changed together by `_SetLeaderGUID`, but
`HandleSetLeader` demotes the old leader after that call, also when the request names himself:
then the guild is left with a leader of officer rank. `AddMember` and `ChangeMemberRank` give any
rank they are asked for, the guild master's included.

* `changeRank_leaderValid_iff`: the effect of one change of rank;
* `guild_leader_valid_iff`: a run from a created or loaded guild keeps the leadership exactly when
  the loaded data and every step meet their condition.
-/

namespace FaceCore.GuildRoster

open Guild
open GuildBank (grGuildMaster)

/-- The recorded leader is a member, he has the rank of the guild master, and no other member
does. -/
def LeaderValid (g : Guild) : Prop :=
  (∃ m ∈ g.members, m.guid = g.leaderGuid ∧ m.rankId = grGuildMaster) ∧
    ∀ m ∈ g.members, m.guid ≠ g.leaderGuid → m.rankId ≠ grGuildMaster

/-- The steps that keep the leadership: a leader names another member as the new leader, a new
member is not admitted as guild master, and a rank that is set is the guild master's exactly for
the leader. -/
def KeepsLeader (g : Guild) : Op → Prop
  | .addMember c rankId => g.admits c = true → rankId ≠ grGuildMaster
  | .changeMemberRank guid newRank =>
    newRank ≤ g.getLowestRankId → (g.getMember guid).isSome →
      (newRank = grGuildMaster ↔ guid = g.leaderGuid)
  | .handleSetLeader player name =>
    g.isLeader player = true → (g.getMember player).isSome →
      ∀ new, g.getMemberByName name = some new → new.guid ≠ player
  | _ => True

/-- The loaded data with one master: where `Guild.AllowMultipleGuildMaster` is set, no member but
the one who leads the guild after `Validate` has the rank of the guild master. -/
def Start.MastersOk : Start → Prop
  | .create _ => True
  | .load allowMultiple g => allowMultiple = true → ∀ m ∈ g.members, m.rankId = grGuildMaster →
    g.repairRanks.repairMembers.electedLeader = some m.guid

variable {g g' : Guild}

/-! ### One step -/

theorem leaderValid_iff : LeaderValid g ↔ (∃ m ∈ g.members, m.guid = g.leaderGuid) ∧
    ∀ m ∈ g.members, (m.rankId = grGuildMaster ↔ m.guid = g.leaderGuid) := by
  constructor
  · rintro ⟨⟨l, hl, hguid, hrank⟩, hother⟩
    refine ⟨⟨l, hl, hguid⟩, fun m hm => ⟨fun h => ?_, fun h => ?_⟩⟩
    · by_contra hne
      exact hother m hm hne h
    · rw [Table.eq_of_key_eq hm hl (h.trans hguid.symm), hrank]
  · rintro ⟨⟨l, hl, hguid⟩, h⟩
    exact ⟨⟨l, hl, hguid, (h l hl).2 hguid⟩, fun m hm hne hrank => hne ((h m hm).1 hrank)⟩

theorem isLeader_iff (h : LeaderValid g) {player : UInt32} :
    g.isLeader player = true ↔ player = g.leaderGuid := by
  unfold isLeader
  split_ifs with hp
  · exact iff_of_true rfl hp
  · refine iff_of_false ?_ hp
    cases hm : g.getMember player with
    | none => simp
    | some m =>
      obtain ⟨hmem, hguid⟩ := Table.of_find hm
      simpa using h.2 m hmem (hguid ▸ hp)

/-- A member's change of rank keeps the leadership exactly if the new rank is the guild master's
for the leader and another one for everybody else. -/
theorem changeRank_leaderValid_iff (h : LeaderValid g) {guid : UInt32} {r : UInt8}
    (hguid : ∃ m ∈ g.members, m.guid = guid) :
    LeaderValid (g.changeRank guid r) ↔ (r = grGuildMaster ↔ guid = g.leaderGuid) := by
  obtain ⟨⟨l, hl, hlead⟩, hall⟩ := leaderValid_iff.1 h
  rw [leaderValid_iff, forall_mem_changeRank, exists_mem_changeRank]
  constructor
  · rintro ⟨-, h⟩
    obtain ⟨m, hm, rfl⟩ := hguid
    simpa [Member.changeRank, Guild.changeRank] using h m hm
  · intro hr
    refine ⟨⟨l, hl, ?_⟩, fun m hm => ?_⟩
    · split_ifs <;> exact hlead
    · split_ifs with hm'
      · subst hm'
        exact hr
      · exact hall m hm

/-- After `_SetLeaderGUID` the new leader is the only guild master besides the old one. -/
theorem setLeaderGUID_masters (h : LeaderValid g) (leader : UInt32) :
    ∀ m ∈ (g.setLeaderGUID leader).members, m.guid ≠ g.leaderGuid →
      (m.rankId = grGuildMaster ↔ m.guid = leader) := by
  have hall := (leaderValid_iff.1 h).2
  refine forall_mem_changeRank.2 fun m hm => ?_
  split_ifs with hm'
  · exact fun _ => iff_of_true rfl hm'
  · exact fun hne => iff_of_false (mt (hall m hm).1 hne) hm'

theorem mem_setLeaderGUID {m : Member} (hm : m ∈ g.members) :
    ∃ a ∈ (g.setLeaderGUID m.guid).members, a.guid = m.guid := by
  refine exists_mem_changeRank.2 ⟨m, hm, ?_⟩
  rw [if_pos rfl]
  rfl

theorem deleteMember_leaderValid {guid : UInt32} (h : LeaderValid g)
    (hd : g.deleteMember guid = some g') : LeaderValid g' := by
  obtain ⟨⟨l, hl, hlead⟩, hall⟩ := leaderValid_iff.1 h
  rw [leaderValid_iff]
  rcases deleteMember_cases hd with ⟨hne, rfl⟩ | ⟨n, hn, rfl, rfl⟩
  · exact ⟨⟨l, Table.mem_erase.2 ⟨hl, fun h => hne (hlead.symm.trans h)⟩, hlead⟩,
      fun m hm => hall m (Table.mem_erase.1 hm).1⟩
  · obtain ⟨hmem, hother⟩ := of_newLeader hn
    obtain ⟨a, ha, hguid⟩ := mem_setLeaderGUID hmem
    refine ⟨⟨a, Table.mem_erase.2 ⟨ha, hguid ▸ hother⟩, hguid⟩, fun m hm => ?_⟩
    obtain ⟨hm, hne⟩ := Table.mem_erase.1 hm
    exact setLeaderGUID_masters h n.guid m hm hne

/-- The leader passes the leadership on, unless he names himself. -/
theorem handleSetLeader_leaderValid_iff (h : LeaderValid g) {new : Member}
    (hnew : new ∈ g.members) :
    LeaderValid ((g.setLeaderGUID new.guid).changeRank g.leaderGuid grOfficer) ↔
      new.guid ≠ g.leaderGuid := by
  obtain ⟨a, ha, hguid⟩ := mem_setLeaderGUID hnew
  have hleader : ((g.setLeaderGUID new.guid).changeRank g.leaderGuid grOfficer).leaderGuid =
      new.guid := rfl
  rw [leaderValid_iff, forall_mem_changeRank, exists_mem_changeRank, hleader]
  constructor
  · rintro ⟨-, hall⟩ heq
    have ha' := hall a ha
    rw [if_pos (hguid.trans heq)] at ha'
    exact absurd (ha'.2 hguid) (by decide : grOfficer ≠ grGuildMaster)
  · intro hne
    refine ⟨⟨a, ha, ?_⟩, fun m hm => ?_⟩
    · rw [if_neg (hguid ▸ hne)]
      exact hguid
    · split_ifs with hm'
      · exact iff_of_false (by decide : grOfficer ≠ grGuildMaster)
          fun hm'' => hne (hm''.symm.trans hm')
      · exact setLeaderGUID_masters h new.guid m hm hm'

theorem addMember_leaderValid_iff {c : Candidate} {r : UInt8} (hg : WellRanked g)
    (h : LeaderValid g) :
    LeaderValid (g.addMember c r).1 ↔ (g.admits c = true → r ≠ grGuildMaster) := by
  obtain ⟨⟨l, hl, hlead⟩, hall⟩ := leaderValid_iff.1 h
  rcases addMember_cases g c r with ⟨hno, heq⟩ | ⟨name, hyes, heq⟩ <;> rw [heq]
  · exact iff_of_true h fun hyes => absurd hyes (by simp [hno])
  -- the leader is a member, so the player who is admitted is somebody else
  have hnew : ∀ m ∈ g.members, m.guid ≠ c.guid := by
    simp only [admits, Bool.and_eq_true, Option.isNone_iff_eq_none] at hyes
    exact Table.find_eq_none.1 hyes.1.1
  have hrank : g.rankGiven r = grGuildMaster ↔ r = grGuildMaster := by
    unfold rankGiven
    split_ifs with hr
    · subst hr
      refine iff_of_false (fun h0 => ?_) (by decide)
      have hmin := hg.min_le
      have hlow := hg.lowest
      rw [h0] at hlow
      change 0 = _ at hlow
      omega
    · exact Iff.rfl
  rw [imp_iff_right hyes, leaderValid_iff]
  constructor
  · rintro ⟨-, hall'⟩ hr
    have := hall' _ (Table.mem_insert.2 (.inl rfl))
    exact hnew l hl (hlead.trans (this.1 (hrank.2 hr)).symm)
  · intro hr
    refine ⟨⟨l, Table.mem_insert.2 (.inr ⟨hl, hnew l hl⟩), hlead⟩, fun m hm => ?_⟩
    rcases Table.mem_insert.1 hm with rfl | ⟨hm, -⟩
    · exact iff_of_false (mt hrank.1 hr) fun hc => hnew l hl (hlead.trans hc.symm)
    · exact hall m hm

/-- A promotion or demotion does not touch the leader and makes nobody guild master. -/
theorem handleUpdateMemberRank_leaderValid (hg : WellRanked g) (h : LeaderValid g)
    (player : UInt32) (name : String) (demote : Bool) :
    LeaderValid (g.handleUpdateMemberRank player name demote) := by
  obtain ⟨-, hall⟩ := leaderValid_iff.1 h
  rcases handleUpdateMemberRank_cases g player name demote with
    heq | ⟨member, me, hm, hme, ⟨hlt, hlow, heq⟩ | ⟨hlt, heq⟩⟩ <;> rw [heq]
  · exact h
  · rw [changeRank_leaderValid_iff h ⟨member, hm, rfl⟩, ← hall member hm]
    rw [UInt8.lt_iff_toNat_lt] at hlt hlow
    have hmax := g.getLowestRankId.toNat_lt
    refine iff_of_false (fun h0 => ?_) (fun h0 => ?_)
    · have := congrArg UInt8.toNat h0
      rw [UInt8.toNat_add, UInt8.toNat_one] at this
      change _ = 0 at this
      omega
    · rw [h0] at hlt
      exact absurd hlt (Nat.not_lt_zero _)
  · rw [changeRank_leaderValid_iff h ⟨member, hm, rfl⟩, ← hall member hm]
    have hone : 1 ≤ (me.rankId + 1).toNat := by
      -- the rank id of the player who promotes is not `255`, so adding one does not wrap
      have hne : me.rankId.toNat ≠ 255 := fun h => hg.ne_none me hme (UInt8.toNat_inj.1 h)
      have hmax := me.rankId.toNat_lt
      rw [UInt8.toNat_add, UInt8.toNat_one]
      omega
    rw [UInt8.lt_iff_toNat_lt] at hlt
    refine iff_of_false (fun h0 => ?_) (fun h0 => ?_)
    · have := congrArg UInt8.toNat h0
      rw [toNat_pred (by omega)] at this
      change _ = 0 at this
      omega
    · rw [h0] at hlt
      exact absurd hlt (Nat.not_lt_zero _)

/-- An operation keeps the leadership exactly when it meets its condition. -/
theorem exec_leaderValid_iff {op : Op} (he : g.exec op = some g') (hg : WellRanked g)
    (h : LeaderValid g) : LeaderValid g' ↔ KeepsLeader g op := by
  cases op with
  | addMember c r =>
    obtain rfl := Option.some.inj he
    exact addMember_leaderValid_iff hg h
  | deleteMember guid => exact iff_of_true (deleteMember_leaderValid h he) trivial
  | changeMemberRank guid newRank =>
    obtain rfl := Option.some.inj he
    rcases changeMemberRank_cases g guid newRank with ⟨hno, heq⟩ | ⟨hr, hsome, heq⟩ <;> rw [heq]
    · exact iff_of_true h fun hr hsome => absurd ⟨hr, hsome⟩ hno
    · obtain ⟨m, hm⟩ := Option.isSome_iff_exists.1 hsome
      rw [changeRank_leaderValid_iff h ⟨m, Table.of_find hm⟩]
      exact ⟨fun h _ _ => h, fun h => h hr hsome⟩
  | handleSetLeader player name =>
    obtain rfl := Option.some.inj he
    rcases handleSetLeader_cases g player name with ⟨hno, heq⟩ | ⟨new, hl, hsome, hnew, heq⟩ <;>
      rw [heq]
    · exact iff_of_true h fun hl hsome new hnew =>
        absurd ⟨hl, hsome, Option.isSome_iff_exists.2 ⟨new, hnew⟩⟩ hno
    · obtain rfl := (isLeader_iff h).1 hl
      rw [handleSetLeader_leaderValid_iff h (of_getMemberByName hnew)]
      constructor
      · rintro hne - - new' hnew'
        rwa [← Option.some.inj (hnew.symm.trans hnew')]
      · intro hkeep
        exact hkeep hl hsome new hnew
  | handleUpdateMemberRank player name demote =>
    obtain rfl := Option.some.inj he
    exact iff_of_true (handleUpdateMemberRank_leaderValid hg h player name demote) trivial
  | handleAddNewRank player =>
    obtain rfl := Option.some.inj he
    refine iff_of_true ?_ trivial
    unfold handleAddNewRank createRank
    split_ifs <;> exact h
  | handleRemoveRank player rankId =>
    obtain rfl := Option.some.inj he
    refine iff_of_true ?_ trivial
    unfold handleRemoveRank
    split_ifs <;> exact h
  | handleRemoveMember player name =>
    refine iff_of_true ?_ trivial
    rcases handleRemoveMember_cases g player name with heq | ⟨member, -, -, heq⟩
    · obtain rfl := Option.some.inj (heq.symm.trans he)
      exact h
    · exact deleteMember_leaderValid h (heq.symm.trans he)
  | handleLeaveMember player =>
    refine iff_of_true ?_ trivial
    rcases handleLeaveMember_cases g player with heq | heq | ⟨-, heq⟩
    · obtain rfl := Option.some.inj (heq.symm.trans he)
      exact h
    · cases heq.symm.trans he
    · exact deleteMember_leaderValid h (heq.symm.trans he)
  | rehash order =>
    obtain rfl := Option.some.inj he
    refine iff_of_true ?_ trivial
    simpa only [LeaderValid, Table.mem_reorder] using h

/-! ### From the start on -/

/-- At the start the leadership is valid exactly when the loaded data has one master. -/
theorem start_leaderValid_iff {st : Start} (h : st.guild = some g) :
    LeaderValid g ↔ st.MastersOk := by
  rw [leaderValid_iff]
  cases st with
  | create c =>
    obtain ⟨name, rfl⟩ := of_create h
    refine iff_of_true ⟨⟨_, Table.mem_insert.2 (.inl rfl), rfl⟩, fun m hm => ?_⟩ trivial
    rcases Table.mem_insert.1 hm with rfl | ⟨hm, -⟩
    · exact iff_of_true rfl rfl
    · exact absurd hm Table.not_mem_empty
  | load allowMultiple g₀ =>
    obtain ⟨leader, hleader, rfl, -, ⟨l, hl, hlead⟩, hall⟩ := validate_spec h
    obtain ⟨hmin, -, -, -⟩ := repairRanks_spec g₀
    have hexists : ∃ m ∈ g.members, m.guid = g.leaderGuid := by
      by_contra hno
      push Not at hno
      exact (hall _).1 hno l hl hlead
    rw [and_iff_right hexists, hall]
    have hrank : ∀ m, (validatedRank allowMultiple g₀.repairRanks.getRanksSize g.leaderGuid m =
        grGuildMaster ↔ m.guid = g.leaderGuid) ↔
          (allowMultiple = true → m.rankId = grGuildMaster → g.leaderGuid = m.guid) := by
      intro m
      unfold validatedRank
      split_ifs with h1 h2 h3
      · exact iff_of_true (iff_of_true rfl h1) fun _ _ => h1.symm
      · refine iff_of_true (iff_of_false (fun h0 => ?_) h1) fun _ h0 => ?_
        · have := congrArg UInt8.toNat h0
          rw [toNat_pred (by omega)] at this
          change _ = 0 at this
          omega
        · rw [h0, gt_iff_lt, UInt8.lt_iff_toNat_lt] at h2
          exact absurd h2 (Nat.not_lt_zero _)
      · exact iff_of_true (iff_of_false (by decide) h1) fun ht => absurd ht (by simp [h3.2])
      · rw [iff_false_right h1]
        constructor
        · exact fun hne _ h0 => absurd h0 hne
        · intro himp h0
          have ht : allowMultiple = true := by
            by_contra hf
            exact h3 ⟨h0, by simpa using hf⟩
          exact h1 (himp ht h0).symm
    simp only [Start.MastersOk, hleader, Option.some.injEq]
    constructor
    · intro hv ht m hm
      exact (hrank m).1 (hv m hm) ht
    · intro hok m hm
      exact (hrank m).2 fun ht => hok ht m hm

/-- **The guild has one master, its recorded leader**, in every state of a run from a created or a
loaded guild, exactly when the loaded data and the steps meet their conditions. -/
theorem guild_leader_valid_iff (st : Start) (ops : List Op) :
    Runs.Along step (fun s => ∀ g, s = some g → LeaderValid g) st.guild ops ↔
      (st.guild ≠ none → st.MastersOk) ∧
        Runs.EachStep step (fun s op => ∀ g, s = some g → KeepsLeader g op) st.guild ops := by
  have hstart : (∀ g, st.guild = some g → LeaderValid g) ↔ (st.guild ≠ none → st.MastersOk) := by
    cases hg : st.guild with
    | none => simp
    | some g => simpa using start_leaderValid_iff hg
  rw [← hstart]
  refine Runs.along_option_iff (I := WellRanked) (fun g => start_wellRanked)
    (fun g op g' => exec_wellRanked) (fun g op g' => exec_leaderValid_iff) fun g op he => ?_
  cases op with
  | addMember | changeMemberRank | handleSetLeader => cases he
  | _ => trivial

/-- The leader of a new guild who names himself as the new leader is left with the rank of an
officer. -/
theorem guild_leader_names_himself :
    ¬ Runs.Along step (fun s => ∀ g, s = some g → LeaderValid g)
      (Start.create ⟨1, 0, some "Jaina"⟩).guild [.handleSetLeader 1 "Jaina"] := by
  intro h
  obtain ⟨g, hg, hlist, hleader⟩ : ∃ g,
      step (Start.create ⟨1, 0, some "Jaina"⟩).guild (.handleSetLeader 1 "Jaina") = some g ∧
        g.members.toList = [⟨1, "Jaina", grOfficer⟩] ∧ g.leaderGuid = 1 := ⟨_, rfl, rfl, rfl⟩
  obtain ⟨⟨m, hm, -, hrank⟩, -⟩ := h _ (List.prefix_refl _) g hg
  rw [Table.mem_def, hlist, List.mem_singleton] at hm
  subst hm
  exact absurd hrank (by decide)

end FaceCore.GuildRoster
