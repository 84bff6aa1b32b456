import FaceCore.Lib.Runs
import FaceCore.Lib.Table
import FaceCore.Guild.BankMoney

/-!
# The ranks and members of a guild

`Guild::Create`, `Validate`, `AddMember`, `DeleteMember`, `ChangeMemberRank` and the requests
`HandleSetLeader`, `HandleUpdateMemberRank`, `HandleAddNewRank`, `HandleRemoveRank`,
`HandleRemoveMember` and `HandleLeaveMember`. The ranks are a vector, the members a hash table, and
the leader's guid a field of its own; rank ids are bytes.

* `Guild`, `Op`, `step`: the guild, what may happen to it, and what it is afterwards (`none` once it
  is disbanded);
* `Start`: a guild is created, or loaded from the database and then validated;
* `RanksValid`, `LeaderValid`: what a guild should always satisfy;
* `guild_ranks_valid_iff`, `guild_leader_valid_iff`: exactly which runs do.

The guid of a player has the high part `0`, so a guid is its own low part, the key of the table.
Names of ranks, notes, bank tabs, the account number, logs, broadcasts and database statements do
not feed back into ranks and members and are left out.
-/

namespace FaceCore.GuildRoster

open GuildBank (grGuildMaster)

/-- `GR_OFFICER`. -/
def grOfficer : UInt8 := 1

/-- `GUILD_RANKS_MIN_COUNT`. -/
def ranksMinCount : UInt8 := 5

/-- `GUILD_RANKS_MAX_COUNT`. -/
def ranksMaxCount : UInt8 := 10

/-- `GUILD_RANK_NONE`. -/
def rankNone : UInt8 := 0xFF

/-- `GR_RIGHT_EMPTY`. -/
def grRightEmpty : UInt32 := 0x00000040

/-- `GR_RIGHT_GCHATLISTEN | GR_RIGHT_GCHATSPEAK`, the rights of a new rank. -/
def grRightChat : UInt32 := (grRightEmpty ||| 0x00000001) ||| (grRightEmpty ||| 0x00000002)

/-- `GR_RIGHT_REMOVE`. -/
def grRightRemove : UInt32 := grRightEmpty ||| 0x00000020

/-- `GR_RIGHT_PROMOTE`. -/
def grRightPromote : UInt32 := grRightEmpty ||| 0x00000080

/-- `GR_RIGHT_DEMOTE`. -/
def grRightDemote : UInt32 := grRightEmpty ||| 0x00000100

/-- `GR_RIGHT_ALL`. -/
def grRightAll : UInt32 := 0x001DF1FF

/-- The fields of `RankInfo` that the roster reads: `m_rankId` and `m_rights`. -/
structure RankInfo where
  id : UInt8
  rights : UInt32
  deriving DecidableEq

/-- The fields of `Guild::Member` that the roster reads. -/
structure Member where
  guid : UInt32
  name : String
  rankId : UInt8
  deriving DecidableEq

/-- `Guild::Member::ChangeRank`. -/
def Member.changeRank (m : Member) (newRank : UInt8) : Member := { m with rankId := newRank }

theorem Member.guid_changeRank (newRank : UInt8) (m : Member) :
    (m.changeRank newRank).guid = m.guid := rfl

/-- `Guild::Member::IsRankNotLower`. -/
def Member.isRankNotLower (m : Member) (rankId : UInt8) : Bool := m.rankId ≤ rankId

/-- A guild: `m_leaderGuid`, `m_ranks` and `m_members`. -/
structure Guild where
  leaderGuid : UInt32
  ranks : List RankInfo
  members : Table Member.guid

namespace Guild

/-- `Guild::_GetRanksSize`, a byte. -/
def getRanksSize (g : Guild) : UInt8 := UInt8.ofNat g.ranks.length

/-- `Guild::_GetLowestRankId`. -/
def getLowestRankId (g : Guild) : UInt8 := UInt8.ofNat g.ranks.length - 1

/-- `Guild::GetRankInfo`; `none` is the null pointer. -/
def getRankInfo (g : Guild) (rankId : UInt8) : Option RankInfo :=
  if rankId < g.getRanksSize then g.ranks[rankId.toNat]? else none

/-- `Guild::_GetRankRights`. -/
def getRankRights (g : Guild) (rankId : UInt8) : UInt32 :=
  match g.getRankInfo rankId with
  | some rankInfo => rankInfo.rights
  | none => 0

/-- `Guild::GetMember(uint64)`. -/
def getMember (g : Guild) (guid : UInt32) : Option Member := g.members.find guid

/-- `Guild::GetMember(std::string const&)`: the first member of that name in iteration order. -/
def getMemberByName (g : Guild) (name : String) : Option Member :=
  g.members.toList.find? fun m => m.name = name

/-- `Guild::_HasRankRight`. -/
def hasRankRight (g : Guild) (player : UInt32) (right : UInt32) : Bool :=
  match g.getMember player with
  | some member => g.getRankRights member.rankId &&& right ≠ grRightEmpty
  | none => false

/-- `Guild::_IsLeader`. -/
def isLeader (g : Guild) (player : UInt32) : Bool :=
  if player = g.leaderGuid then true
  else
    match g.getMember player with
    | some member => member.rankId = grGuildMaster
    | none => false

/-- `Member::ChangeRank` on the member with the guid `guid`. -/
def changeRank (g : Guild) (guid : UInt32) (newRank : UInt8) : Guild :=
  { g with members := g.members.modify guid (·.changeRank newRank) (Member.guid_changeRank newRank) }

/-- `Guild::_SetLeaderGUID`. -/
def setLeaderGUID (g : Guild) (leader : UInt32) : Guild :=
  { g.changeRank leader grGuildMaster with leaderGuid := leader }

/-- `Guild::_CreateRank`: the guild and the returned flag. -/
def createRank (g : Guild) (rights : UInt32) : Guild × Bool :=
  if g.getRanksSize ≥ ranksMaxCount then (g, false)
  else ({ g with ranks := g.ranks ++ [⟨g.getRanksSize, rights⟩] }, true)

/-- `Guild::_CreateDefaultGuildRanks`. -/
def createDefaultGuildRanks (g : Guild) : Guild :=
  [grRightAll, grRightAll, grRightChat, grRightChat, grRightChat].foldl
    (fun g rights => (g.createRank rights).1) g

/-! ### Members -/

/-- A player whom `AddMember` looks up. `guildId` is what `Player::GetGuildId` (online) or
`Player::GetGuildIdFromDB` (offline) gives while he is not in this guild; `stats` is his name, or
`none` if he is offline and his row is missing or fails `CheckStats`. -/
structure Candidate where
  guid : UInt32
  guildId : UInt32
  stats : Option String

/-- Whether `AddMember` goes through: the player is in no guild, neither this one nor another, and
he exists. -/
def admits (g : Guild) (c : Candidate) : Bool :=
  (g.getMember c.guid).isNone && c.guildId = 0 && c.stats.isSome

/-- The rank that `AddMember` gives: the lowest one if none was passed. -/
def rankGiven (g : Guild) (rankId : UInt8) : UInt8 :=
  if rankId = rankNone then g.getLowestRankId else rankId

/-- `Guild::AddMember`: the guild and the returned flag. -/
def addMember (g : Guild) (c : Candidate) (rankId : UInt8) : Guild × Bool :=
  if (g.getMember c.guid).isSome ∨ c.guildId ≠ 0 then (g, false)
  else
    match c.stats with
    | none => (g, false)
    | some name =>
      ({ g with members := g.members.insert ⟨c.guid, name, g.rankGiven rankId⟩ }, true)

/-- One turn of the loop of `DeleteMember` that looks for a new leader. -/
def nextLeader (lowguid : UInt32) (newLeader : Option Member) (m : Member) : Option Member :=
  if m.guid = lowguid then newLeader
  else
    match newLeader with
    | none => some m
    | some n => if n.rankId > m.rankId then some m else some n

/-- The loop of `DeleteMember`: the first member of the highest rank, the one with the guid
`lowguid` apart. -/
def newLeader (g : Guild) (lowguid : UInt32) : Option Member :=
  g.members.toList.foldl (nextLeader lowguid) none

/-- `Guild::DeleteMember` outside of `Disband`; `none` is a guild that `Disband` has emptied and
removed. -/
def deleteMember (g : Guild) (guid : UInt32) : Option Guild :=
  if g.leaderGuid = guid then
    match g.newLeader guid with
    | none => none
    | some leader =>
      let g' := g.setLeaderGUID leader.guid
      some { g' with members := g'.members.erase guid }
  else some { g with members := g.members.erase guid }

/-- `Guild::ChangeMemberRank`. -/
def changeMemberRank (g : Guild) (guid : UInt32) (newRank : UInt8) : Guild :=
  if newRank ≤ g.getLowestRankId then
    match g.getMember guid with
    | some _ => g.changeRank guid newRank
    | none => g
  else g

/-! ### Requests -/

/-- `Guild::HandleSetLeader`. -/
def handleSetLeader (g : Guild) (player : UInt32) (name : String) : Guild :=
  if !g.isLeader player then g
  else
    match g.getMember player with
    | none => g
    | some oldLeader =>
      match g.getMemberByName name with
      | none => g
      | some newLeader => (g.setLeaderGUID newLeader.guid).changeRank oldLeader.guid grOfficer

/-- `Guild::HandleUpdateMemberRank`. -/
def handleUpdateMemberRank (g : Guild) (player : UInt32) (name : String) (demote : Bool) : Guild :=
  if !g.hasRankRight player (if demote then grRightDemote else grRightPromote) then g
  else
    match g.getMemberByName name with
    | none => g
    | some member =>
      if member.guid = player then g
      else
        match g.getMember player with
        | none => g
        | some memberMe =>
          let rankId := memberMe.rankId
          if demote then
            if member.isRankNotLower rankId then g
            else if member.rankId ≥ g.getLowestRankId then g
            else g.changeRank member.guid (member.rankId + 1)
          else if member.isRankNotLower (rankId + 1) then g
          else g.changeRank member.guid (member.rankId - 1)

/-- `Guild::HandleAddNewRank`. -/
def handleAddNewRank (g : Guild) (player : UInt32) : Guild :=
  if g.getRanksSize ≥ ranksMaxCount then g
  else if g.isLeader player then (g.createRank grRightChat).1
  else g

/-- `Guild::HandleRemoveRank`: whatever rank the request names, the last one goes. -/
def handleRemoveRank (g : Guild) (player : UInt32) (rankId : UInt8) : Guild :=
  if g.getRanksSize ≤ ranksMinCount ∨ rankId ≥ g.getRanksSize ∨ !g.isLeader player then g
  else { g with ranks := g.ranks.dropLast }

/-- `Guild::HandleRemoveMember`. -/
def handleRemoveMember (g : Guild) (player : UInt32) (name : String) : Option Guild :=
  if !g.hasRankRight player grRightRemove then some g
  else
    match g.getMemberByName name with
    | none => some g
    | some member =>
      if member.rankId = grGuildMaster then some g
      else
        match g.getMember player with
        | none => some g
        | some memberMe =>
          if member.isRankNotLower memberMe.rankId then some g
          else g.deleteMember member.guid

/-- `Guild::HandleLeaveMember`. -/
def handleLeaveMember (g : Guild) (player : UInt32) : Option Guild :=
  if g.isLeader player then
    if g.members.toList.length > 1 then some g else none
  else g.deleteMember player

/-! ### Creation and loading -/

/-- `Guild::Create` for the leader `c`; `none` when it returns false. -/
def create (c : Candidate) : Option Guild :=
  let g : Guild := createDefaultGuildRanks ⟨c.guid, [], Table.empty Member.guid⟩
  match g.addMember c grGuildMaster with
  | (g, true) => some g
  | (_, false) => none

/-- Whether `Validate` rejects the loaded ranks: their number is out of range, or they are not
numbered from zero on. -/
def brokenRanks (g : Guild) : Bool :=
  g.getRanksSize < ranksMinCount || g.getRanksSize > ranksMaxCount ||
    (List.range g.getRanksSize.toNat).any fun i =>
      (g.ranks[i]?).map RankInfo.id ≠ some (UInt8.ofNat i)

/-- The part of `Validate` that repairs the ranks. -/
def repairRanks (g : Guild) : Guild :=
  if g.brokenRanks then createDefaultGuildRanks { g with ranks := [] } else g

/-- `Validate` on one member, in a guild of `ranks` ranks of which `lowest` is the last. -/
def repairRank (ranks lowest : UInt8) (m : Member) : Member :=
  if m.rankId > ranks then m.changeRank lowest else m

theorem guid_repairRank (ranks lowest : UInt8) (m : Member) :
    (repairRank ranks lowest m).guid = m.guid := by
  unfold repairRank
  split_ifs <;> rfl

/-- The part of `Validate` that repairs the members' ranks. -/
def repairMembers (g : Guild) : Guild :=
  { g with
    members := g.members.map (repairRank g.getRanksSize g.getLowestRankId) (guid_repairRank _ _) }

/-- The part of `Validate` that repairs the leader; `none` when no members are left. -/
def repairLeader (g : Guild) : Option Guild :=
  match g.getMember g.leaderGuid with
  | none => g.deleteMember g.leaderGuid
  | some leader =>
    if leader.rankId ≠ grGuildMaster then some (g.setLeaderGUID leader.guid) else some g

/-- `Validate` on one member who may be a further guild master. -/
def demoteMaster (leader : UInt32) (m : Member) : Member :=
  if m.rankId = grGuildMaster ∧ m.guid ≠ leader then m.changeRank grOfficer else m

theorem guid_demoteMaster (leader : UInt32) (m : Member) :
    (demoteMaster leader m).guid = m.guid := by
  unfold demoteMaster
  split_ifs <;> rfl

/-- The part of `Validate` that demotes further guild masters. -/
def repairMasters (g : Guild) : Guild :=
  { g with members := g.members.map (demoteMaster g.leaderGuid) (guid_demoteMaster _) }

/-- `Guild::Validate`; `none` when it returns false. The flag is the configuration option
`Guild.AllowMultipleGuildMaster`. -/
def validate (allowMultiple : Bool) (g : Guild) : Option Guild :=
  (g.repairRanks.repairMembers.repairLeader).map fun g =>
    if allowMultiple then g else g.repairMasters

end Guild

open Guild

/-- What may happen to a guild. `rehash` is a change of the order in which the table of the members
is iterated over. -/
inductive Op
  | addMember (c : Candidate) (rankId : UInt8)
  | deleteMember (guid : UInt32)
  | changeMemberRank (guid : UInt32) (newRank : UInt8)
  | handleSetLeader (player : UInt32) (name : String)
  | handleUpdateMemberRank (player : UInt32) (name : String) (demote : Bool)
  | handleAddNewRank (player : UInt32)
  | handleRemoveRank (player : UInt32) (rankId : UInt8)
  | handleRemoveMember (player : UInt32) (name : String)
  | handleLeaveMember (player : UInt32)
  | rehash (order : List Member)

/-- The guild after an operation. -/
def Guild.exec (g : Guild) : Op → Option Guild
  | .addMember c rankId => some (g.addMember c rankId).1
  | .deleteMember guid => g.deleteMember guid
  | .changeMemberRank guid newRank => some (g.changeMemberRank guid newRank)
  | .handleSetLeader player name => some (g.handleSetLeader player name)
  | .handleUpdateMemberRank player name demote =>
    some (g.handleUpdateMemberRank player name demote)
  | .handleAddNewRank player => some (g.handleAddNewRank player)
  | .handleRemoveRank player rankId => some (g.handleRemoveRank player rankId)
  | .handleRemoveMember player name => g.handleRemoveMember player name
  | .handleLeaveMember player => g.handleLeaveMember player
  | .rehash order => some { g with members := g.members.reorder order }

/-- One operation; nothing happens to a guild that is disbanded. -/
def step : Option Guild → Op → Option Guild := Runs.stepOption Guild.exec

/-- How a guild comes into being. -/
inductive Start
  | create (c : Candidate)
  | load (allowMultiple : Bool) (g : Guild)

/-- The guild at the start; `none` when it is not created or not kept. -/
def Start.guild : Start → Option Guild
  | .create c => Guild.create c
  | .load allowMultiple g => g.validate allowMultiple

/-! ### The number of ranks -/

namespace Guild

variable {g g' : Guild}

theorem getRanksSize_le_length (g : Guild) : g.getRanksSize.toNat ≤ g.ranks.length := by
  rw [getRanksSize, UInt8.toNat_ofNat']
  exact Nat.mod_le _ _

theorem getRankInfo_ne_none {rankId : UInt8} :
    g.getRankInfo rankId ≠ none ↔ rankId < g.getRanksSize := by
  unfold getRankInfo
  split_ifs with h
  · have hlen := g.getRanksSize_le_length
    rw [UInt8.lt_iff_toNat_lt] at h
    rw [List.getElem?_eq_getElem (by omega)]
    simp [UInt8.lt_iff_toNat_lt, h]
  · simp [h]

/-- What holds of every guild, whatever happens to it: the number of ranks is within its bounds, and
no member has the rank id that stands for no rank. -/
structure WellRanked (g : Guild) : Prop where
  min_le : 5 ≤ g.getRanksSize.toNat
  le_max : g.getRanksSize.toNat ≤ 10
  ne_none : ∀ m ∈ g.members, m.rankId ≠ rankNone

theorem toNat_pred {n : UInt8} (h : 1 ≤ n.toNat) : (n - 1).toNat = n.toNat - 1 :=
  UInt8.toNat_sub_of_le n 1 (UInt8.le_iff_toNat_le.2 h)

theorem WellRanked.lowest (h : WellRanked g) :
    g.getLowestRankId.toNat = g.getRanksSize.toNat - 1 :=
  toNat_pred (le_trans (by decide) h.min_le)

theorem getRanksSize_push (r : RankInfo) :
    getRanksSize { g with ranks := g.ranks ++ [r] } = g.getRanksSize + 1 := by
  simp [getRanksSize, UInt8.ofNat_add]

theorem getRanksSize_dropLast (h : 0 < g.getRanksSize.toNat) :
    getRanksSize { g with ranks := g.ranks.dropLast } = g.getRanksSize - 1 := by
  have hlen : 1 ≤ g.ranks.length := by
    have := g.getRanksSize_le_length
    omega
  simp only [getRanksSize, List.length_dropLast]
  rw [UInt8.ofNat_sub hlen]
  rfl

/-! ### The members after a change of rank -/

theorem forall_mem_changeRank {P : Member → Prop} {guid : UInt32} {r : UInt8} :
    (∀ m ∈ (g.changeRank guid r).members, P m) ↔
      ∀ m ∈ g.members, P (if m.guid = guid then m.changeRank r else m) :=
  Table.forall_mem_modify (Member.guid_changeRank r)

theorem exists_mem_changeRank {P : Member → Prop} {guid : UInt32} {r : UInt8} :
    (∃ m ∈ (g.changeRank guid r).members, P m) ↔
      ∃ m ∈ g.members, P (if m.guid = guid then m.changeRank r else m) :=
  Table.exists_mem_modify (Member.guid_changeRank r)

theorem changeRank_eq_self {m : Member} (hm : m ∈ g.members) :
    g.changeRank m.guid m.rankId = g := by
  unfold changeRank
  rw [Table.modify_eq_self]
  intro a ha hk
  rw [Table.eq_of_key_eq ha hm hk]
  rfl

theorem of_getMemberByName {name : String} {m : Member} (h : g.getMemberByName name = some m) :
    m ∈ g.members :=
  List.mem_of_find?_eq_some h

theorem newLeader_aux {k : UInt32} {l : List Member} {acc : Option Member} {n : Member}
    (h : l.foldl (nextLeader k) acc = some n) : acc = some n ∨ n ∈ l ∧ n.guid ≠ k := by
  induction l generalizing acc with
  | nil => exact .inl h
  | cons m l ih =>
    rcases ih h with hm | ⟨hn, hk⟩
    · unfold nextLeader at hm
      split_ifs at hm with hmk
      · exact .inl hm
      · cases acc with
        | none =>
          obtain rfl : m = n := by simpa using hm
          exact .inr ⟨List.mem_cons_self, hmk⟩
        | some a =>
          dsimp only at hm
          split_ifs at hm
          · obtain rfl : m = n := by simpa using hm
            exact .inr ⟨List.mem_cons_self, hmk⟩
          · exact .inl hm
    · exact .inr ⟨List.mem_cons_of_mem _ hn, hk⟩

theorem of_newLeader {k : UInt32} {n : Member} (h : g.newLeader k = some n) :
    n ∈ g.members ∧ n.guid ≠ k := by
  rcases newLeader_aux h with h | h
  · cases h
  · exact h

/-! ### What each request can do -/

theorem addMember_cases (g : Guild) (c : Candidate) (rankId : UInt8) :
    (g.admits c = false ∧ g.addMember c rankId = (g, false)) ∨
      ∃ name, g.admits c = true ∧ g.addMember c rankId =
        ({ g with members := g.members.insert ⟨c.guid, name, g.rankGiven rankId⟩ }, true) := by
  unfold addMember admits
  cases g.getMember c.guid with
  | some m => simp
  | none =>
    by_cases hid : c.guildId = 0
    · cases c.stats with
      | none => simp
      | some name => exact .inr ⟨name, by simp [hid]⟩
    · simp [hid]

theorem deleteMember_cases {guid : UInt32} (h : g.deleteMember guid = some g') :
    (g.leaderGuid ≠ guid ∧ g' = { g with members := g.members.erase guid }) ∨
      ∃ n, g.newLeader guid = some n ∧ g.leaderGuid = guid ∧
        g' = { g.setLeaderGUID n.guid with
          members := (g.setLeaderGUID n.guid).members.erase guid } := by
  unfold deleteMember at h
  split_ifs at h with hl
  · cases hn : g.newLeader guid with
    | none =>
      rw [hn] at h
      cases h
    | some n =>
      rw [hn] at h
      exact .inr ⟨n, rfl, hl, (Option.some.inj h).symm⟩
  · exact .inl ⟨hl, (Option.some.inj h).symm⟩

theorem changeMemberRank_cases (g : Guild) (guid : UInt32) (newRank : UInt8) :
    (¬ (newRank ≤ g.getLowestRankId ∧ (g.getMember guid).isSome) ∧
        g.changeMemberRank guid newRank = g) ∨
      newRank ≤ g.getLowestRankId ∧ (g.getMember guid).isSome ∧
        g.changeMemberRank guid newRank = g.changeRank guid newRank := by
  unfold changeMemberRank
  split_ifs with hr
  · cases g.getMember guid with
    | none => simp
    | some m => simp [hr]
  · simp [hr]

theorem handleSetLeader_cases (g : Guild) (player : UInt32) (name : String) :
    (¬ (g.isLeader player = true ∧ (g.getMember player).isSome ∧
        (g.getMemberByName name).isSome) ∧ g.handleSetLeader player name = g) ∨
      ∃ new, g.isLeader player = true ∧ (g.getMember player).isSome ∧
        g.getMemberByName name = some new ∧
        g.handleSetLeader player name =
          (g.setLeaderGUID new.guid).changeRank player grOfficer := by
  unfold handleSetLeader
  cases hl : g.isLeader player with
  | false => simp
  | true =>
    cases hold : g.getMember player with
    | none => simp
    | some old =>
      obtain rfl := (Table.of_find hold).2
      cases g.getMemberByName name with
      | none => simp
      | some new => simp

theorem handleUpdateMemberRank_cases (g : Guild) (player : UInt32) (name : String)
    (demote : Bool) :
    g.handleUpdateMemberRank player name demote = g ∨
      ∃ member me, member ∈ g.members ∧ me ∈ g.members ∧
        ((me.rankId < member.rankId ∧ member.rankId < g.getLowestRankId ∧
            g.handleUpdateMemberRank player name demote =
              g.changeRank member.guid (member.rankId + 1)) ∨
          me.rankId + 1 < member.rankId ∧
            g.handleUpdateMemberRank player name demote =
              g.changeRank member.guid (member.rankId - 1)) := by
  unfold handleUpdateMemberRank
  cases hn : g.getMemberByName name with
  | none => simp
  | some member =>
    cases hme : g.getMember player with
    | none => simp
    | some me =>
      by_cases hright : g.hasRankRight player (if demote then grRightDemote else grRightPromote)
      · by_cases hself : member.guid = player
        · simp [hself]
        · have hmem := of_getMemberByName hn
          have hmem' := (Table.of_find hme).1
          simp only [hright, hself, Bool.not_true, Bool.false_eq_true, if_false]
          cases demote with
          | true =>
            simp only [if_true, Member.isRankNotLower, decide_eq_true_eq]
            split_ifs with h1 h2
            · exact .inl rfl
            · exact .inl rfl
            · rw [UInt8.not_le] at h1 h2
              exact .inr ⟨member, me, hmem, hmem', .inl ⟨h1, h2, rfl⟩⟩
          | false =>
            simp only [Bool.false_eq_true, if_false, Member.isRankNotLower, decide_eq_true_eq]
            split_ifs with h1
            · exact .inl rfl
            · rw [UInt8.not_le] at h1
              exact .inr ⟨member, me, hmem, hmem', .inr ⟨h1, rfl⟩⟩
      · simp [hright]

theorem handleRemoveMember_cases (g : Guild) (player : UInt32) (name : String) :
    g.handleRemoveMember player name = some g ∨
      ∃ member ∈ g.members, member.rankId ≠ grGuildMaster ∧
        g.handleRemoveMember player name = g.deleteMember member.guid := by
  unfold handleRemoveMember
  split_ifs
  · exact .inl rfl
  · cases hn : g.getMemberByName name with
    | none => exact .inl rfl
    | some member =>
      dsimp only
      split_ifs with hmaster
      · exact .inl rfl
      · cases g.getMember player with
        | none => exact .inl rfl
        | some me =>
          dsimp only
          split_ifs
          · exact .inl rfl
          · exact .inr ⟨member, of_getMemberByName hn, hmaster, rfl⟩

theorem handleLeaveMember_cases (g : Guild) (player : UInt32) :
    g.handleLeaveMember player = some g ∨ g.handleLeaveMember player = none ∨
      g.isLeader player = false ∧ g.handleLeaveMember player = g.deleteMember player := by
  unfold handleLeaveMember
  split_ifs with hl
  · exact .inl rfl
  · exact .inr (.inl rfl)
  · exact .inr (.inr ⟨by simpa using hl, rfl⟩)

/-! ### Creation and loading -/

/-- The ranks of a new guild. -/
def defaultRanks : List RankInfo :=
  [⟨0, grRightAll⟩, ⟨1, grRightAll⟩, ⟨2, grRightChat⟩, ⟨3, grRightChat⟩, ⟨4, grRightChat⟩]

theorem createDefaultGuildRanks_eq (leader : UInt32) (members : Table Member.guid) :
    createDefaultGuildRanks ⟨leader, [], members⟩ = ⟨leader, defaultRanks, members⟩ := rfl

theorem of_create {c : Candidate} (h : create c = some g) :
    ∃ name, g = ⟨c.guid, defaultRanks,
      (Table.empty Member.guid).insert ⟨c.guid, name, grGuildMaster⟩⟩ := by
  simp only [create, createDefaultGuildRanks_eq] at h
  rcases addMember_cases ⟨c.guid, defaultRanks, Table.empty Member.guid⟩ c grGuildMaster with
    ⟨-, heq⟩ | ⟨name, -, heq⟩
  · simp [heq] at h
  · rw [heq] at h
    exact ⟨name, (Option.some.inj h).symm⟩

theorem repairRanks_spec (g : Guild) :
    5 ≤ g.repairRanks.getRanksSize.toNat ∧ g.repairRanks.getRanksSize.toNat ≤ 10 ∧
      g.repairRanks.members = g.members ∧ g.repairRanks.leaderGuid = g.leaderGuid := by
  unfold repairRanks
  split_ifs with h
  · rw [createDefaultGuildRanks_eq]
    exact ⟨(by decide : 5 ≤ (UInt8.ofNat defaultRanks.length).toNat),
      (by decide : (UInt8.ofNat defaultRanks.length).toNat ≤ 10), rfl, rfl⟩
  · simp only [brokenRanks, Bool.or_eq_true, decide_eq_true_eq, not_or, UInt8.not_lt,
      gt_iff_lt] at h
    exact ⟨UInt8.le_iff_toNat_le.1 h.1.1, UInt8.le_iff_toNat_le.1 h.1.2, rfl, rfl⟩

/-- The member who leads the guild after `Validate`: the recorded leader, or if he is not a member
the one that `DeleteMember` chooses. -/
def electedLeader (g : Guild) : Option UInt32 :=
  match g.getMember g.leaderGuid with
  | some _ => some g.leaderGuid
  | none => (g.newLeader g.leaderGuid).map Member.guid

/-- The repair of the leader gives the elected leader the rank of the guild master, and changes
nothing else. -/
theorem repairLeader_spec (h : g.repairLeader = some g') :
    ∃ leader, g.electedLeader = some leader ∧ g'.leaderGuid = leader ∧ g'.ranks = g.ranks ∧
      (∃ m ∈ g.members, m.guid = leader) ∧
      ∀ m, m ∈ g'.members ↔ m ∈ (g.changeRank leader grGuildMaster).members := by
  unfold repairLeader at h
  unfold electedLeader
  cases hl : g.getMember g.leaderGuid with
  | none =>
    rw [hl] at h
    rcases deleteMember_cases h with ⟨hne, -⟩ | ⟨n, hn, -, rfl⟩
    · exact absurd rfl hne
    · refine ⟨n.guid, by simp [hn], rfl, rfl, ⟨n, (of_newLeader hn).1, rfl⟩, fun m => ?_⟩
      -- the recorded leader is not in the table, so removing him changes nothing
      have hgone : ∀ m ∈ (g.changeRank n.guid grGuildMaster).members, m.guid ≠ g.leaderGuid := by
        rw [forall_mem_changeRank]
        intro m hm
        have := Table.find_eq_none.1 hl m hm
        split_ifs <;> exact this
      rw [Table.mem_erase]
      exact and_iff_left_of_imp (hgone m)
  | some leader =>
    obtain ⟨hmem, hguid⟩ := Table.of_find hl
    rw [hl] at h
    dsimp only at h
    split_ifs at h with hrank
    · obtain rfl := Option.some.inj h
      exact ⟨leader.guid, by simp [hguid], rfl, rfl, ⟨leader, hmem, rfl⟩, fun m => Iff.rfl⟩
    · obtain rfl := Option.some.inj h
      refine ⟨g.leaderGuid, rfl, rfl, rfl, ⟨leader, hmem, hguid⟩, fun m => ?_⟩
      rw [← hguid, ← not_ne_iff.1 hrank, changeRank_eq_self hmem]

/-- The rank of a member after `Validate`, in a guild of `n` ranks led by `leader`. -/
def validatedRank (allowMultiple : Bool) (n : UInt8) (leader : UInt32) (m : Member) : UInt8 :=
  if m.guid = leader then grGuildMaster
  else if m.rankId > n then n - 1
  else if m.rankId = grGuildMaster ∧ allowMultiple = false then grOfficer
  else m.rankId

/-- What `Validate` makes of a loaded guild that it keeps. -/
theorem validate_spec {allowMultiple : Bool} (h : g.validate allowMultiple = some g') :
    ∃ leader, g.repairRanks.repairMembers.electedLeader = some leader ∧ g'.leaderGuid = leader ∧
      g'.getRanksSize = g.repairRanks.getRanksSize ∧ (∃ m ∈ g.members, m.guid = leader) ∧
      ∀ P : Member → Prop, (∀ m ∈ g'.members, P m) ↔ ∀ m ∈ g.members,
        P (m.changeRank (validatedRank allowMultiple g.repairRanks.getRanksSize leader m)) := by
  obtain ⟨hmin, -, hmembers, -⟩ := repairRanks_spec g
  simp only [validate, Option.map_eq_some_iff] at h
  obtain ⟨g₁, hrepair, rfl⟩ := h
  obtain ⟨leader, hl, hleader, hranks, ⟨a, ha, hguid⟩, hmem⟩ := repairLeader_spec hrepair
  have hsize : g₁.getRanksSize = g.repairRanks.getRanksSize := by
    unfold getRanksSize
    rw [hranks]
    rfl
  have hlow : g.repairRanks.getLowestRankId ≠ grGuildMaster := by
    intro h0
    have h1 : g.repairRanks.getRanksSize = 1 := by
      rw [← UInt8.sub_add_cancel g.repairRanks.getRanksSize 1]
      exact congrArg (· + 1) h0
    rw [h1] at hmin
    exact absurd hmin (by decide)
  refine ⟨leader, hl, ?_, ?_, ?_, fun P => ?_⟩
  · split_ifs <;> exact hleader
  · split_ifs <;> exact hsize
  · have hexists : ∃ m ∈ g.repairRanks.repairMembers.members, m.guid = leader := ⟨a, ha, hguid⟩
    obtain ⟨m, hm, hmg⟩ := (Table.exists_mem_map (guid_repairRank _ _)).1 hexists
    exact ⟨m, hmembers ▸ hm, (guid_repairRank _ _ m).symm.trans hmg⟩
  · -- through the repairs of the masters, the leader and the members, back to the loaded ones
    have hloaded : ∀ R : Member → Prop, (∀ m ∈ g₁.members, R m) ↔ ∀ m ∈ g.members,
        R (if m.guid = leader then m.changeRank grGuildMaster
          else repairRank g.repairRanks.getRanksSize g.repairRanks.getLowestRankId m) := by
      intro R
      simp only [hmem]
      rw [forall_mem_changeRank, ← hmembers]
      refine (Table.forall_mem_map (guid_repairRank _ _)).trans (forall₂_congr fun m _ => ?_)
      rw [guid_repairRank]
      split_ifs with hm
      · unfold repairRank
        split_ifs <;> rfl
      · rfl
    cases allowMultiple with
    | true =>
      simp only [if_true]
      rw [hloaded]
      refine forall₂_congr fun m _ => iff_of_eq (congrArg P ?_)
      unfold validatedRank repairRank
      split_ifs <;> simp_all [Member.changeRank, getLowestRankId, getRanksSize]
    | false =>
      simp only [Bool.false_eq_true, if_false]
      refine (Table.forall_mem_map (guid_demoteMaster _)).trans ((hloaded _).trans ?_)
      refine forall₂_congr fun m _ => iff_of_eq (congrArg P ?_)
      unfold validatedRank repairRank demoteMaster
      rw [hleader]
      split_ifs <;> simp_all [Member.changeRank, getLowestRankId, getRanksSize]

end Guild

end FaceCore.GuildRoster
