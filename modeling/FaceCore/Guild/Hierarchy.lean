import FaceCore.Guild.Rights

/-!
# The hierarchy of a guild

What a member who is not the guild master can do to the others by `HandleRemoveMember` and
`HandleUpdateMemberRank`. Ranks are numbered downwards: a member is lower than another one if his
rank id is larger.

`_HasRankRight` compares the rights of a rank, masked by `GR_RIGHT_EMPTY` and the bit of the right,
with `GR_RIGHT_EMPTY`: a rank without the bit of `GR_RIGHT_EMPTY`, and a rank that does not exist,
has every right. `HandleRemoveMember` spares members of the guild master's rank, not the recorded
leader; when a leader of another rank is removed, `DeleteMember` makes the highest member that is
left the guild master.

* `Respects`: what the hierarchy demands of a request;
* `InOrder`: when a request respects it;
* `guild_hierarchy_iff`: it does exactly then, along every sequence of requests of one member, and
  nobody of his rank or a higher one is affected.
-/

namespace FaceCore.GuildRoster

open GuildBank (grGuildMaster)

/-- A request of a member about another one. -/
inductive RankRequest
  | removeMember (name : String)
  | updateRank (name : String) (demote : Bool)

/-- The request, made by the member `a`. -/
def RankRequest.op (a : UInt32) : RankRequest → Op
  | .removeMember name => .handleRemoveMember a name
  | .updateRank name demote => .handleUpdateMemberRank a name demote

/-- The member that is named. -/
def RankRequest.name : RankRequest → String
  | .removeMember name => name
  | .updateRank name _ => name

/-- The bit of the right that a request needs, in the masks `GR_RIGHT_REMOVE`, ... -/
def RankRequest.bit : RankRequest → UInt32
  | .removeMember _ => 0x20
  | .updateRank _ false => 0x80
  | .updateRank _ true => 0x100

/-- A request of the member `a` respects the hierarchy: if the guild changes, the rank of `a` has the
right, the other one is lower before and after, and nobody else at or above the rank of `a` is
affected. -/
def Respects (g : Guild) (a : UInt32) (r : RankRequest) : Prop :=
  ∃ g', g.exec (r.op a) = some g' ∧
    (g' ≠ g → ∃ me b, g.getMember a = some me ∧ g.getMemberByName r.name = some b ∧
      g.getRankRights me.rankId &&& r.bit ≠ 0 ∧ me.rankId < b.rankId ∧
      ∀ b', g'.getMember b.guid = some b' → me.rankId < b'.rankId) ∧
    ∀ me, g.getMember a = some me → ∀ m ∈ g.members, m.rankId ≤ me.rankId →
      g'.getMember m.guid = some m

/-- The comparisons of ranks that the handlers make before they act. -/
def Eligible (g : Guild) (me b : Member) : RankRequest → Prop
  | .removeMember _ => b.rankId ≠ grGuildMaster ∧ me.rankId < b.rankId
  | .updateRank _ false => b.guid ≠ me.guid ∧ me.rankId + 1 < b.rankId
  | .updateRank _ true =>
    b.guid ≠ me.guid ∧ me.rankId < b.rankId ∧ b.rankId < g.getLowestRankId

/-- The request removes the recorded leader of a guild in which nobody has the guild master's
rank. -/
def Unseats (g : Guild) (b : Member) : RankRequest → Prop
  | .removeMember _ => b.guid = g.leaderGuid ∧ ∀ m ∈ g.members, m.rankId ≠ grGuildMaster
  | .updateRank _ _ => False

/-- Against an eligible member, the rights of the own rank contain the right or `GR_RIGHT_EMPTY`,
and a member with the right does not remove the leader while nobody is guild master. -/
def InOrder (g : Guild) (a : UInt32) (r : RankRequest) : Prop :=
  ∀ me b, g.getMember a = some me → g.getMemberByName r.name = some b → Eligible g me b r →
    (g.getRankRights me.rankId &&& r.bit ≠ 0 ∨
        g.getRankRights me.rankId &&& grRightEmpty ≠ 0) ∧
      (g.getRankRights me.rankId &&& r.bit ≠ 0 → ¬ Unseats g b r)

/-! ### Rights -/

/-- A rank passes the test of `_HasRankRight` with the bit of the right, or without that of
`GR_RIGHT_EMPTY`. -/
theorem and_ne_grRightEmpty_iff (x : UInt32) (r : RankRequest) :
    x &&& (grRightEmpty ||| r.bit) ≠ grRightEmpty ↔ x &&& r.bit ≠ 0 ∨ x &&& grRightEmpty = 0 := by
  cases r with
  | removeMember name => exact and_marked_ne_iff (i := 5) rfl (by decide)
  | updateRank name demote =>
    cases demote with
    | false => exact and_marked_ne_iff (i := 7) rfl (by decide)
    | true => exact and_marked_ne_iff (i := 8) rfl (by decide)

/-! ### What a request does -/

open Guild

/-- What a request that is granted does to the member `b`. -/
def outcome (g : Guild) (b : Member) : RankRequest → Option Guild
  | .removeMember _ => g.deleteMember b.guid
  | .updateRank _ false => some (g.changeRank b.guid (b.rankId - 1))
  | .updateRank _ true => some (g.changeRank b.guid (b.rankId + 1))

variable {g g' : Guild} {a : UInt32} {r : RankRequest} {me b : Member}

section

variable (hme : g.getMember a = some me) (hb : g.getMemberByName r.name = some b)
include hme hb

theorem exec_op_of_eligible (hel : Eligible g me b r)
    (hpass : g.getRankRights me.rankId &&& (grRightEmpty ||| r.bit) ≠ grRightEmpty) :
    g.exec (r.op a) = outcome g b r := by
  have hguid : me.guid = a := (Table.of_find hme).2
  cases r with
  | removeMember name =>
    simp only [RankRequest.name, RankRequest.bit, Eligible] at hb hel hpass
    simp [RankRequest.op, Guild.exec, handleRemoveMember, hasRankRight, outcome, hb, hme,
      grRightRemove, hpass, hel.1, Member.isRankNotLower, UInt8.not_le.2 hel.2]
  | updateRank name demote =>
    cases demote with
    | false =>
      simp only [RankRequest.name, RankRequest.bit, Eligible, hguid] at hb hel hpass
      simp [RankRequest.op, Guild.exec, handleUpdateMemberRank, hasRankRight, outcome, hb, hme,
        grRightPromote, hpass, hel.1, Member.isRankNotLower, UInt8.not_le.2 hel.2]
    | true =>
      simp only [RankRequest.name, RankRequest.bit, Eligible, hguid] at hb hel hpass
      simp [RankRequest.op, Guild.exec, handleUpdateMemberRank, hasRankRight, outcome, hb, hme,
        grRightDemote, hpass, hel.1, Member.isRankNotLower, UInt8.not_le.2 hel.2.1,
        UInt8.not_le.2 hel.2.2]

theorem exec_op_of_not_eligible (hel : ¬ Eligible g me b r) : g.exec (r.op a) = some g := by
  have hguid : me.guid = a := (Table.of_find hme).2
  cases r with
  | removeMember name =>
    simp only [RankRequest.name, Eligible, not_and, UInt8.not_lt] at hb hel
    simp only [RankRequest.op, Guild.exec, handleRemoveMember, hb, hme, Member.isRankNotLower,
      decide_eq_true_eq]
    split_ifs with _ h0 h1
    · rfl
    · rfl
    · rfl
    · exact absurd (hel h0) h1
  | updateRank name demote =>
    cases demote with
    | false =>
      simp only [RankRequest.name, Eligible, hguid, not_and, UInt8.not_lt] at hb hel
      simp only [RankRequest.op, Guild.exec, handleUpdateMemberRank, hb, hme,
        Member.isRankNotLower, decide_eq_true_eq, Bool.false_eq_true, if_false]
      split_ifs with _ h0 h1
      · rfl
      · rfl
      · rfl
      · exact absurd (hel h0) h1
    | true =>
      simp only [RankRequest.name, Eligible, hguid, not_and, UInt8.not_lt] at hb hel
      simp only [RankRequest.op, Guild.exec, handleUpdateMemberRank, hb, hme,
        Member.isRankNotLower, decide_eq_true_eq, if_true]
      split_ifs with _ h0 h1 h2
      · rfl
      · rfl
      · rfl
      · rfl
      · exact absurd (hel h0 (UInt8.not_le.1 h1)) h2

end

/-- A request whose rights do not pass the test, or whose sender is no member. -/
theorem exec_op_of_rights (h : ∀ me, g.getMember a = some me →
    g.getRankRights me.rankId &&& (grRightEmpty ||| r.bit) = grRightEmpty) :
    g.exec (r.op a) = some g := by
  have hright : g.hasRankRight a (grRightEmpty ||| r.bit) = false := by
    unfold hasRankRight
    cases hme : g.getMember a with
    | none => rfl
    | some me => simp [h me hme]
  cases r with
  | removeMember name =>
    have hremove : g.hasRankRight a grRightRemove = false := hright
    simp [RankRequest.op, Guild.exec, handleRemoveMember, hremove]
  | updateRank name demote =>
    have hupdate : g.hasRankRight a (if demote then grRightDemote else grRightPromote) = false := by
      cases demote <;> exact hright
    simp [RankRequest.op, Guild.exec, handleUpdateMemberRank, hupdate]

theorem exec_op_of_nobody (h : g.getMemberByName r.name = none) : g.exec (r.op a) = some g := by
  cases r with
  | removeMember name =>
    simp only [RankRequest.name] at h
    simp [RankRequest.op, Guild.exec, handleRemoveMember, h]
  | updateRank name demote =>
    simp only [RankRequest.name] at h
    simp [RankRequest.op, Guild.exec, handleUpdateMemberRank, h]

/-! ### The member who becomes the leader -/

theorem le_newLeader_aux {k : UInt32} {l : List Member} {acc : Option Member} :
    (∀ n, l.foldl (nextLeader k) acc = some n →
        (∀ c, acc = some c → n.rankId ≤ c.rankId) ∧
          ∀ m ∈ l, m.guid ≠ k → n.rankId ≤ m.rankId) ∧
      (l.foldl (nextLeader k) acc = none → acc = none ∧ ∀ m ∈ l, m.guid = k) := by
  induction l generalizing acc with
  | nil =>
    refine ⟨?_, ?_⟩
    · rintro n h
      refine ⟨fun c hc => ?_, fun m hm => absurd hm List.not_mem_nil⟩
      rw [List.foldl_nil, hc] at h
      rw [Option.some.inj h]
      exact UInt8.le_refl _
    · intro h
      exact ⟨h, fun m hm => absurd hm List.not_mem_nil⟩
  | cons m l ih =>
    rw [List.foldl_cons]
    obtain ⟨hsome, hnone⟩ := @ih (nextLeader k acc m)
    by_cases hk : m.guid = k
    · have hacc : nextLeader k acc m = acc := if_pos hk
      rw [hacc] at hsome hnone ⊢
      simp only [List.forall_mem_cons, hk, not_true_eq_false, ne_eq, false_implies, true_and]
      exact ⟨hsome, hnone⟩
    · simp only [List.forall_mem_cons, hk, ne_eq, not_false_eq_true, true_implies]
      cases acc with
      | none =>
        have hacc : nextLeader k none m = some m := if_neg hk
        rw [hacc] at hsome hnone ⊢
        refine ⟨fun n hn => ⟨nofun, (hsome n hn).1 m rfl, (hsome n hn).2⟩, fun hn => ?_⟩
        exact absurd (hnone hn).1 nofun
      | some c =>
        have hacc : nextLeader k (some c) m =
            if c.rankId > m.rankId then some m else some c := if_neg hk
        rw [hacc] at hsome hnone ⊢
        split_ifs at hsome hnone ⊢ with hlt
        · refine ⟨fun n hn => ?_, fun hn => absurd (hnone hn).1 nofun⟩
          obtain ⟨hm, hl⟩ := hsome n hn
          refine ⟨?_, hm m rfl, hl⟩
          rintro c' ⟨rfl⟩
          exact UInt8.le_trans (hm m rfl) (UInt8.le_of_lt hlt)
        · refine ⟨fun n hn => ?_, fun hn => absurd (hnone hn).1 nofun⟩
          obtain ⟨hm, hl⟩ := hsome n hn
          exact ⟨hm, UInt8.le_trans (hm c rfl) (UInt8.not_lt.1 hlt), hl⟩

theorem le_newLeader {k : UInt32} {n : Member} (h : g.newLeader k = some n) :
    ∀ m ∈ g.members, m.guid ≠ k → n.rankId ≤ m.rankId :=
  (le_newLeader_aux.1 n h).2

theorem newLeader_ne_none {k : UInt32} {m : Member} (hm : m ∈ g.members) (hk : m.guid ≠ k) :
    g.newLeader k ≠ none :=
  fun h => hk ((le_newLeader_aux.2 h).2 m hm)

/-! ### One request -/

theorem getMember_changeRank {k k' : UInt32} {rank : UInt8} :
    (g.changeRank k rank).getMember k' =
      if k' = k then (g.getMember k).map (·.changeRank rank) else g.getMember k' :=
  Table.find_modify (Member.guid_changeRank rank)

theorem getMember_erase {k k' : UInt32} :
    ({ g with members := g.members.erase k } : Guild).getMember k' =
      if k' = k then none else g.getMember k' :=
  Table.find_erase

/-- A rank with the bit of a right exists, so it is not the last byte. -/
theorem rankId_lt_of_right {rankId : UInt8} (h : g.getRankRights rankId &&& r.bit ≠ 0) :
    rankId.toNat < 255 := by
  have hinfo : g.getRankInfo rankId ≠ none := by
    intro hnone
    rw [getRankRights, hnone, UInt32.zero_and] at h
    exact h rfl
  have hlt := UInt8.lt_iff_toNat_lt.1 (getRankInfo_ne_none.1 hinfo)
  have := g.getRanksSize.toNat_lt
  omega

theorem toNat_succ {x : UInt8} (h : x.toNat < 255) : (x + 1).toNat = x.toNat + 1 := by
  rw [UInt8.toNat_add]
  exact Nat.mod_eq_of_lt (show x.toNat + 1 < 2 ^ 8 by omega)

theorem Eligible.lt (hel : Eligible g me b r)
    (h : g.getRankRights me.rankId &&& r.bit ≠ 0) : me.rankId < b.rankId := by
  cases r with
  | removeMember name => exact hel.2
  | updateRank name demote =>
    cases demote with
    | true => exact hel.2.1
    | false =>
      have hlt := UInt8.lt_iff_toNat_lt.1 hel.2
      rw [toNat_succ (rankId_lt_of_right h)] at hlt
      rw [UInt8.lt_iff_toNat_lt]
      omega

theorem outcome_ne (hb : b ∈ g.members) (h : outcome g b r = some g') : g' ≠ g := by
  have hfind : g.getMember b.guid = some b := Table.find_key hb
  have hchange : ∀ rank, rank ≠ b.rankId → g.changeRank b.guid rank ≠ g := by
    intro rank hne heq
    have := congrArg (·.getMember b.guid) heq
    simp only [getMember_changeRank, if_true, hfind, Option.map_some, Option.some.injEq] at this
    exact hne (congrArg Member.rankId this)
  cases r with
  | removeMember name =>
    rintro rfl
    have hgone : g'.getMember b.guid = none := by
      rcases deleteMember_cases h with ⟨-, heq⟩ | ⟨n, -, -, heq⟩
      · rw [heq]
        exact Table.find_erase.trans (if_pos rfl)
      · rw [heq]
        exact Table.find_erase.trans (if_pos rfl)
    rw [hgone] at hfind
    cases hfind
  | updateRank name demote =>
    cases demote with
    | false =>
      obtain rfl := Option.some.inj h
      apply hchange
      intro heq
      have : (1 : UInt8) = 0 := UInt8.add_eq_left.1 (UInt8.sub_eq_iff_eq_add.1 heq).symm
      exact absurd this (by decide)
    | true =>
      obtain rfl := Option.some.inj h
      apply hchange
      intro heq
      have : (1 : UInt8) = 0 := UInt8.add_eq_left.1 heq
      exact absurd this (by decide)

/-- When a leader goes, the others stay as they are exactly if one of them is guild master. -/
theorem removed_leader_iff (hme : me ∈ g.members) (hb : b ∈ g.members)
    (hlt : me.rankId < b.rankId) (hleader : g.leaderGuid = b.guid) :
    ∃ g', g.deleteMember b.guid = some g' ∧ g'.getMember b.guid = none ∧
      ((∃ m ∈ g.members, m.guid ≠ b.guid ∧ m.rankId = grGuildMaster) ↔
        ∀ m ∈ g.members, m.rankId ≤ me.rankId → g'.getMember m.guid = some m) := by
  have hother : ∀ m ∈ g.members, m.rankId ≤ me.rankId → m.guid ≠ b.guid := by
    intro m hm hle hguid
    rw [Table.eq_of_key_eq hm hb hguid] at hle
    exact UInt8.not_le.2 hlt hle
  have hmeb := hother me hme (UInt8.le_refl _)
  obtain ⟨n, hn⟩ := Option.ne_none_iff_exists'.1 (newLeader_ne_none hme hmeb)
  obtain ⟨hnm, hnb⟩ := of_newLeader hn
  have hmin := le_newLeader hn
  have hget : ∀ m ∈ g.members, (g.setLeaderGUID n.guid).getMember m.guid =
      if m.guid = n.guid then some (n.changeRank grGuildMaster) else some m := by
    intro m hm
    refine (getMember_changeRank (g := g)).trans ?_
    rw [show g.getMember n.guid = some n from Table.find_key hnm,
      show g.getMember m.guid = some m from Table.find_key hm, Option.map_some]
  refine ⟨{ g.setLeaderGUID n.guid with
    members := (g.setLeaderGUID n.guid).members.erase b.guid }, ?_, ?_, ?_⟩
  · simp only [deleteMember, hleader, if_true, hn]
  · rw [getMember_erase, if_pos rfl]
  · constructor
    · rintro ⟨m0, hm0, hm0b, hrank0⟩ m hm hle
      rw [getMember_erase, if_neg (hother m hm hle), hget m hm]
      split_ifs with hmn
      · -- the new leader has the guild master's rank already
        obtain rfl := Table.eq_of_key_eq hm hnm hmn
        have hmaster := hmin m0 hm0 hm0b
        rw [hrank0] at hmaster
        have hrank : m.rankId = grGuildMaster := UInt8.le_antisymm hmaster UInt8.zero_le
        rw [← hrank]
        rfl
      · rfl
    · intro hall
      have hkept := hall n hnm (hmin me hme hmeb)
      rw [getMember_erase, if_neg hnb, hget n hnm, if_pos rfl, Option.some.injEq] at hkept
      exact ⟨n, hnm, hnb, (congrArg Member.rankId hkept).symm⟩

/-- Against an eligible member, with the right: what is left of him is lower, and the others stay as
they are, unless a leader goes while nobody is guild master. -/
theorem outcome_spec (hme : me ∈ g.members) (hb : b ∈ g.members) (hel : Eligible g me b r)
    (h : g.getRankRights me.rankId &&& r.bit ≠ 0) :
    ∃ g', outcome g b r = some g' ∧ (∀ b', g'.getMember b.guid = some b' → me.rankId < b'.rankId) ∧
      (¬ Unseats g b r ↔ ∀ m ∈ g.members, m.rankId ≤ me.rankId → g'.getMember m.guid = some m) := by
  have hlt := hel.lt h
  have hfind : g.getMember b.guid = some b := Table.find_key hb
  have hother : ∀ m ∈ g.members, m.rankId ≤ me.rankId → m.guid ≠ b.guid := by
    intro m hm hle hguid
    rw [Table.eq_of_key_eq hm hb hguid] at hle
    exact UInt8.not_le.2 hlt hle
  have hkeep : ∀ rank, ∀ m ∈ g.members, m.rankId ≤ me.rankId →
      (g.changeRank b.guid rank).getMember m.guid = some m := by
    intro rank m hm hle
    rw [getMember_changeRank, if_neg (hother m hm hle)]
    exact Table.find_key hm
  rw [UInt8.lt_iff_toNat_lt] at hlt
  cases r with
  | removeMember name =>
    by_cases hleader : g.leaderGuid = b.guid
    · obtain ⟨g', hg', hgone, hiff⟩ :=
        removed_leader_iff hme hb (UInt8.lt_iff_toNat_lt.2 hlt) hleader
      refine ⟨g', hg', ?_, ?_⟩
      · rw [hgone]
        nofun
      · rw [← hiff]
        simp only [Unseats, hleader, true_and, not_forall, not_not, exists_prop]
        constructor
        · rintro ⟨m, hm, hrank⟩
          refine ⟨m, hm, fun hguid => ?_, hrank⟩
          exact hel.1 (Table.eq_of_key_eq hm hb hguid ▸ hrank)
        · rintro ⟨m, hm, -, hrank⟩
          exact ⟨m, hm, hrank⟩
    · refine ⟨{ g with members := g.members.erase b.guid }, if_neg hleader, ?_, ?_⟩
      · rw [getMember_erase, if_pos rfl]
        nofun
      · refine iff_of_true (fun hseat => hleader hseat.1.symm) fun m hm hle => ?_
        rw [getMember_erase, if_neg (hother m hm hle)]
        exact Table.find_key hm
  | updateRank name demote =>
    cases demote with
    | false =>
      refine ⟨_, rfl, ?_, iff_of_true not_false (hkeep _)⟩
      intro b' hb'
      rw [getMember_changeRank, if_pos rfl, hfind] at hb'
      obtain rfl := Option.some.inj hb'
      have hpromote := UInt8.lt_iff_toNat_lt.1 hel.2
      rw [toNat_succ (rankId_lt_of_right h)] at hpromote
      show me.rankId < b.rankId - 1
      rw [UInt8.lt_iff_toNat_lt, toNat_pred (by omega)]
      omega
    | true =>
      refine ⟨_, rfl, ?_, iff_of_true not_false (hkeep _)⟩
      intro b' hb'
      rw [getMember_changeRank, if_pos rfl, hfind] at hb'
      obtain rfl := Option.some.inj hb'
      have hdemote := UInt8.lt_iff_toNat_lt.1 hel.2.2
      have hmax := g.getLowestRankId.toNat_lt
      show me.rankId < b.rankId + 1
      rw [UInt8.lt_iff_toNat_lt, toNat_succ (by omega)]
      omega

/-- A request respects the hierarchy exactly when it is in order. -/
theorem respects_iff (g : Guild) (a : UInt32) (r : RankRequest) :
    Respects g a r ↔ InOrder g a r := by
  -- a request that changes nothing affects nobody
  have hquiet : g.exec (r.op a) = some g → Respects g a r := fun h =>
    ⟨g, h, fun hne => absurd rfl hne, fun _ _ _ hm _ => Table.find_key hm⟩
  cases hme : g.getMember a with
  | none =>
    refine iff_of_true (hquiet (exec_op_of_rights ?_)) ?_
    · simp [hme]
    · simp [InOrder, hme]
  | some me =>
    cases hb : g.getMemberByName r.name with
    | none => exact iff_of_true (hquiet (exec_op_of_nobody hb)) (by simp [InOrder, hb])
    | some b =>
      have hmem := (Table.of_find hme).1
      have hbm := of_getMemberByName hb
      by_cases hel : Eligible g me b r
      · have horder : InOrder g a r ↔ (g.getRankRights me.rankId &&& r.bit ≠ 0 ∨
            g.getRankRights me.rankId &&& grRightEmpty ≠ 0) ∧
              (g.getRankRights me.rankId &&& r.bit ≠ 0 → ¬ Unseats g b r) := by
          simp [InOrder, hme, hb, hel]
        rw [horder]
        by_cases hbit : g.getRankRights me.rankId &&& r.bit = 0
        · by_cases hempty : g.getRankRights me.rankId &&& grRightEmpty = 0
          · -- the test is passed without the right
            have hpass := (and_ne_grRightEmpty_iff (g.getRankRights me.rankId) r).2 (.inr hempty)
            refine iff_of_false ?_ (by simp [hbit, hempty])
            rintro ⟨g', hg', hres, -⟩
            rw [exec_op_of_eligible hme hb hel hpass] at hg'
            obtain ⟨me', b', hme', -, hright, -⟩ := hres (outcome_ne hbm hg')
            rw [hme, Option.some.injEq] at hme'
            exact hright (hme' ▸ hbit)
          · refine iff_of_true (hquiet (exec_op_of_rights ?_)) (by simp [hbit, hempty])
            intro me' hme'
            rw [hme, Option.some.injEq] at hme'
            subst hme'
            rw [← not_ne_iff, and_ne_grRightEmpty_iff]
            simp [hbit, hempty]
        · have hpass := (and_ne_grRightEmpty_iff (g.getRankRights me.rankId) r).2 (.inl hbit)
          obtain ⟨g', hg', hafter, hiff⟩ := outcome_spec hmem hbm hel hbit
          have hexec := (exec_op_of_eligible hme hb hel hpass).trans hg'
          simp only [ne_eq, hbit, not_false_eq_true, true_or, true_and, true_implies]
          rw [hiff]
          constructor
          · rintro ⟨g'', hg'', -, hall⟩
            rw [hexec, Option.some.injEq] at hg''
            exact hg'' ▸ hall me hme
          · intro hall
            refine ⟨g', hexec, fun _ => ⟨me, b, hme, hb, hbit, hel.lt hbit, hafter⟩, ?_⟩
            rintro me' hme'
            rw [hme, Option.some.injEq] at hme'
            exact hme' ▸ hall
      · refine iff_of_true (hquiet (exec_op_of_not_eligible hme hb hel)) ?_
        intro me' b' hme' hb' hel'
        rw [hme, Option.some.injEq] at hme'
        rw [hb, Option.some.injEq] at hb'
        subst hme' hb'
        exact absurd hel' hel

/-! ### Requests of one member -/

/-- A guild in which everybody at or above the rank of `me` is as in `g`. -/
def KeepsAbove (g : Guild) (me : Member) (s : Option Guild) : Prop :=
  ∃ g', s = some g' ∧ ∀ m ∈ g.members, m.rankId ≤ me.rankId → g'.getMember m.guid = some m

/-- A request of the member `a`. -/
def request (a : UInt32) (s : Option Guild) (r : RankRequest) : Option Guild := step s (r.op a)

theorem Respects.keepsAbove (h : Respects g' a r) (hme : g.getMember a = some me)
    (hk : KeepsAbove g me (some g')) : KeepsAbove g me (request a (some g') r) := by
  obtain ⟨_, ⟨rfl⟩, hkeep⟩ := hk
  obtain ⟨hmem, hguid⟩ := Table.of_find hme
  obtain ⟨g'', hexec, -, hall⟩ := h
  have hme' : g'.getMember a = some me := hguid ▸ hkeep me hmem (UInt8.le_refl _)
  refine ⟨g'', hexec, fun m hm hle => ?_⟩
  exact hall me hme' m (Table.of_find (hkeep m hm hle)).1 hle

/-- **Main result.** Along every sequence of requests of one member, each request respects the
hierarchy and nobody at or above his rank is affected, exactly when every request is in order. -/
theorem guild_hierarchy_iff (g : Guild) (a : UInt32) (rs : List RankRequest) :
    (Runs.EachStep (request a) (fun s r => ∀ g, s = some g → Respects g a r) (some g) rs ∧
        ∀ me, g.getMember a = some me →
          Runs.Along (request a) (KeepsAbove g me) (some g) rs) ↔
      Runs.EachStep (request a) (fun s r => ∀ g, s = some g → InOrder g a r) (some g) rs := by
  simp only [respects_iff]
  refine and_iff_left_of_imp fun h me hme => ?_
  refine Runs.along_of_inv h ⟨g, rfl, fun m hm _ => Table.find_key hm⟩ ?_
  rintro s r ⟨g', rfl, hkeep⟩ horder
  exact ((respects_iff g' a r).2 (horder g' rfl)).keepsAbove hme ⟨g', rfl, hkeep⟩

/-- Two ranks are added to the guild of the player 1, the players 2 and 3 join at them, and the ranks
are removed. -/
def missingRankOps : List Op :=
  [.handleAddNewRank 1, .addMember ⟨2, 0, some "Thrall"⟩ rankNone, .handleAddNewRank 1,
    .addMember ⟨3, 0, some "Rexxar"⟩ rankNone, .handleRemoveRank 1 6, .handleRemoveRank 1 5]

/-- A member whose rank does not exist any more has every right: he removes one of a lower rank. -/
theorem guild_missing_rank_removes :
    ∃ g, missingRankOps.foldl step (Start.create ⟨1, 0, some "Jaina"⟩).guild = some g ∧
      g.getMember 2 = some ⟨2, "Thrall", 5⟩ ∧
      ¬ (Runs.EachStep (request 2) (fun s r => ∀ g, s = some g → Respects g 2 r) (some g)
          [.removeMember "Rexxar"] ∧
        ∀ me, g.getMember 2 = some me →
          Runs.Along (request 2) (KeepsAbove g me) (some g) [.removeMember "Rexxar"]) := by
  refine ⟨_, rfl, rfl, fun h => ?_⟩
  have horder := (respects_iff _ _ _).1 ((Runs.eachStep_cons.1 h.1).1 _ rfl)
  have heligible : (6 : UInt8) ≠ grGuildMaster ∧ (5 : UInt8) < 6 := by decide
  obtain ⟨hright, -⟩ := horder ⟨2, "Thrall", 5⟩ ⟨3, "Rexxar", 6⟩ rfl rfl heligible
  revert hright
  decide

end FaceCore.GuildRoster
