import FaceCore.DungeonFinding.Mgr

/-!
# Votes on a kick

`InitBoot` starts a vote in a group of the dungeon finder, `UpdateBoot` takes an answer. The vote
ends with the third answer of a kind, or in `LFGMgr::Update` when its time is over.

* `initBoot`, `updateBoot`, `updateKicks`;
* `leaveLfg`, `onRemoveMember`, `onDisband`: what the removal of a member does to the manager.

The group itself is not part of the manager: what becomes of it is an argument (`Removal`).
-/

namespace FaceCore.DungeonFinding

def lfgGroupKickVotesNeeded : ℕ := 3

def lfgTimeBoot : ℕ := 120

/-- `LfgGroupData()`. -/
def LfgGroupData.empty : LfgGroupData := ⟨.none, .none, 0, lfgGroupMaxKicks, 0, []⟩

/-- What becomes of the group when a member is removed: it may not be found, it may have a new
leader, or it may be disbanded. -/
inductive Removal
  | noGroup
  | removed (leader : ℕ)
  | disbanded
deriving DecidableEq

namespace Parties

/-- The members of a group, as `GetPlayers` has them. -/
def getPlayers (P : Parties) (gguid : ℕ) : List ℕ := (P.groups gguid).players

def setGroup (P : Parties) (guid group : ℕ) : Parties :=
  P.updatePlayer guid fun d => { d with group := group }

def setLeader (P : Parties) (gguid leader : ℕ) : Parties :=
  P.updateGroup gguid fun d => { d with leader := leader }

def removePlayerFromGroup (P : Parties) (gguid guid : ℕ) : Parties :=
  P.updateGroup gguid fun d => { d with players := d.players.filter (· ≠ guid) }

def decreaseKicksLeft (P : Parties) (gguid : ℕ) : Parties :=
  P.updateGroup gguid fun d => { d with kicksLeft := d.kicksLeft - 1 }

end Parties

namespace LFGMgr

/-! ### The removal of a member -/

/-- `UpdateRoleCheck` without a player: the role check is aborted. -/
def abortRoleCheck (m : LFGMgr) (gguid : ℕ) : LFGMgr :=
  match m.roleChecksStore.find gguid with
  | none => m
  | some roleCheck =>
    let roleCheck := { roleCheck with state := .aborted }
    let m := roleCheck.roles.entries.foldl (fun m e =>
      let m := m.send e.1 (.roleCheckUpdate roleCheck)
      let m := if roleCheck.leader = e.1 then m.send e.1 (.joinResult .failed .aborted) else m
      (m.send e.1 (.updateParty ⟨.roleCheckFailed, ∅, ""⟩)).restoreState e.1) m
    { m.restoreState gguid with roleChecksStore := m.roleChecksStore.erase gguid }

/-- The player leaves the first proposal that he is in. -/
def leaveProposal (m : LFGMgr) (pguid : ℕ) : LFGMgr :=
  match m.proposalsStore.entries.find? fun e => (e.2.players.find pguid).isSome with
  | none => m
  | some (id, proposal) =>
    m.removeProposal id { proposal with
      players := proposal.players.mapEntries fun guid player =>
        if guid = pguid then { player with accept := .deny } else player } .proposalDeclined

/-- `LeaveLfg`. -/
def leaveLfg (m : LFGMgr) (guid : ℕ) : LFGMgr :=
  let gguid := if isGroupGuid guid then guid else m.parties.getGroup guid
  match m.parties.getState guid with
  | .queued =>
    let removed : LfgUpdateData := ⟨.removedFromQueue, ∅, ""⟩
    if gguid ≠ 0 then
      let queueId := m.parties.getQueue gguid
      let m := (m.setQueue queueId ((m.queue queueId).removeFromQueue gguid)).setState gguid .none
      (m.parties.getPlayers gguid).foldl
        (fun m player => (m.setState player .none).send player (.updateParty removed)) m
    else
      let queueId := m.parties.getQueue guid
      ((m.setQueue queueId ((m.queue queueId).removeFromQueue guid)).send guid
        (.updatePlayer removed)).setState guid .none
  | .rolecheck => if gguid ≠ 0 then m.abortRoleCheck gguid else m
  | .proposal => m.leaveProposal (if gguid = guid then (m.parties.groups gguid).leader else guid)
  | .none | .raidbrowser => m
  | .dungeon | .finishedDungeon | .boot => if guid ≠ gguid then m.setState guid .none else m

/-- `OnRemoveMember`, for a member who has been voted out. -/
def onRemoveMember (m : LFGMgr) (gguid guid : ℕ) : LFGMgr :=
  let m := m.leaveLfg guid
  { m with parties := (m.parties.setGroup guid 0).removePlayerFromGroup gguid guid }

/-- What a member of a group loses that is disbanded in the given state. -/
def disbandMember (state : LfgState) (m : LFGMgr) (guid : ℕ) : LFGMgr :=
  let m := { m with parties := m.parties.setGroup guid 0 }
  if state ≠ .proposal then
    (m.setState guid .none).send guid (.updateParty ⟨.removedFromQueue, ∅, ""⟩)
  else m

/-- `OnDisband`: `RemoveGroupData`. -/
def onDisband (m : LFGMgr) (gguid : ℕ) : LFGMgr :=
  let m := (m.parties.getPlayers gguid).foldl (disbandMember (m.parties.getState gguid)) m
  { m with parties := m.parties.updateGroup gguid fun _ => .empty }

/-- `OnChangeLeader`. -/
def onChangeLeader (m : LFGMgr) (gguid leader : ℕ) : LFGMgr :=
  { m with parties := m.parties.setLeader gguid leader }

/-- `Player::RemoveFromGroup`, as far as the manager hears of it. -/
def removeFromGroup (m : LFGMgr) (gguid victim : ℕ) (removal : Removal) : LFGMgr :=
  if m.options &&& lfgOptionsEnabled = 0 then m
  else
    match removal with
    | .noGroup => m
    | .removed leader => (m.onRemoveMember gguid victim).onChangeLeader gguid leader
    | .disbanded => (m.onRemoveMember gguid victim).onDisband gguid

/-! ### The vote -/

/-- The vote that `InitBoot` starts; the kicker agrees, the victim denies. Votes of one that runs
already stay. -/
def newBoot (m : LFGMgr) (now gguid kicker victim : ℕ) (reason : String) : LfgPlayerBoot :=
  let votes := match m.bootsStore.find gguid with
    | some boot => boot.votes
    | none => .empty
  let votes := (m.parties.getPlayers gguid).foldl
    (fun votes guid => votes.insert guid LfgAnswer.pending) votes
  { cancelTime := now + lfgTimeBoot
    inProgress := true
    votes := (votes.insert victim .deny).insert kicker .agree
    victim := victim
    reason := reason }

/-- `InitBoot`. -/
def initBoot (m : LFGMgr) (now gguid kicker victim : ℕ) (reason : String) : LFGMgr :=
  let boot := m.newBoot now gguid kicker victim reason
  let players := m.parties.getPlayers gguid
  let m := players.foldl (fun m guid => m.setState guid .boot) (m.setState gguid .boot)
  players.foldl (fun m guid => m.send guid (.bootProposalUpdate boot))
    { m with bootsStore := m.bootsStore.insert gguid boot }

/-- The numbers of answers and of agreements, of eight bits. -/
def countVotes (votes : SortedMap ℕ LfgAnswer) : UInt8 × UInt8 :=
  (.ofNat (votes.count (· ≠ .pending)), .ofNat (votes.count (· = .agree)))

/-- Neither enough agree nor enough deny. -/
def undecided (votes : SortedMap ℕ LfgAnswer) : Bool :=
  let n := countVotes votes
  n.2.toNat < lfgGroupKickVotesNeeded ∧
    (n.1.toNat : ℤ) - (n.2.toNat : ℤ) < (lfgGroupKickVotesNeeded : ℤ)

/-- When a vote ends, all but the victim are told, and are in the dungeon again. -/
def endVote (m : LFGMgr) (gguid : ℕ) (boot : LfgPlayerBoot) : LFGMgr :=
  (boot.votes.entries.foldl (fun m e =>
    if e.1 ≠ boot.victim then (m.setState e.1 .dungeon).send e.1 (.bootProposalUpdate boot)
    else m) m).setState gguid .dungeon

def decreaseKicksLeft (m : LFGMgr) (gguid : ℕ) : LFGMgr :=
  { m with parties := m.parties.decreaseKicksLeft gguid }

/-- The end of `UpdateBoot`. -/
def closeBoot (m : LFGMgr) (gguid : ℕ) (boot : LfgPlayerBoot) (removal : Removal) : LFGMgr :=
  let m := m.endVote gguid { boot with inProgress := false }
  let m := if (countVotes boot.votes).2.toNat = lfgGroupKickVotesNeeded then
      (m.removeFromGroup gguid boot.victim removal).decreaseKicksLeft gguid
    else m
  { m with bootsStore := m.bootsStore.erase gguid }

/-- The answer to a vote. A guid that has no vote gets one: looking it up makes a denial. -/
def answerBoot (m : LFGMgr) (gguid : ℕ) (boot : LfgPlayerBoot) (guid : ℕ) (accept : Bool)
    (removal : Removal) : LFGMgr :=
  match boot.votes.find guid with
  | none =>
    { m with bootsStore :=
        m.bootsStore.insert gguid { boot with votes := boot.votes.insert guid .deny } }
  | some .pending =>
    let boot := { boot with votes := boot.votes.insert guid (if accept then .agree else .deny) }
    let m := { m with bootsStore := m.bootsStore.insert gguid boot }
    if undecided boot.votes then m else m.closeBoot gguid boot removal
  | some _ => m

/-- `UpdateBoot`. -/
def updateBoot (m : LFGMgr) (guid : ℕ) (accept : Bool) (removal : Removal) : LFGMgr :=
  let gguid := m.parties.getGroup guid
  if gguid = 0 then m
  else
    match m.bootsStore.find gguid with
    | none => m
    | some boot => m.answerBoot gguid boot guid accept removal

/-- The part of `LFGMgr::Update` about votes. -/
def updateKicks (now : ℕ) (m : LFGMgr) : LFGMgr :=
  if m.options &&& lfgOptionsEnabled = 0 then m else removeObsoleteKicks now m

end LFGMgr

end FaceCore.DungeonFinding
