import FaceCore.DungeonFinding.Queue
import Mathlib.Data.Fin.Basic
import Mathlib.Order.Fin.Basic

/-!
# The manager of the dungeon finder

`LFGMgr` keeps the states of players and groups, and what is open: role checks, proposals and votes
on a kick. `LFGMgr::Update` ends what has become obsolete, lets the queues look for groups, and
announces the proposals that come of it.

* `Parties`: the data of players and groups;
* `LFGMgr`: the manager, with the messages of the present call;
* `removeRoleCheck`, `removeProposal`, `removeKick`: what ends when its time is over;
* `addProposal`, `updateProposal`, `announce`, `update`.

Groups themselves are not part of the manager: what `MakeNewGroup` does to the data of players and
groups is a parameter.
-/

namespace FaceCore.DungeonFinding

/-- `LFG_OPTION_ENABLE_DUNGEON_FINDER` and `LFG_OPTION_ENABLE_RAID_BROWSER`. -/
def lfgOptionsEnabled : UInt32 := 0x01 ||| 0x02

def lfgGroupMaxKicks : ℕ := 3

inductive LfgUpdateType
  | roleCheckFailed | removedFromQueue | proposalFailed | proposalDeclined | groupFound
  | addedToQueue | proposalBegin
deriving DecidableEq

inductive LfgRoleCheckState
  | default | finished | initialiting | missingRole | wrongRoles | aborted | noRole
deriving DecidableEq

inductive LfgJoinResult
  | ok | failed
deriving DecidableEq

/-! ### Players and groups -/

structure LfgPlayerData where
  state : LfgState
  oldState : LfgState
  team : ℕ
  group : ℕ
  roles : UInt8
  selectedDungeons : Finset ℕ
  comment : String

structure LfgGroupData where
  state : LfgState
  oldState : LfgState
  dungeon : ℕ
  kicksLeft : ℕ
  leader : ℕ
  players : List ℕ

/-- `LfgPlayerData::SetState`. -/
def LfgPlayerData.setState (d : LfgPlayerData) (state : LfgState) : LfgPlayerData :=
  match state with
  | .none | .finishedDungeon =>
    { d with state := state, oldState := state, roles := 0, selectedDungeons := ∅, comment := "" }
  | .dungeon => { d with state := state, oldState := state }
  | _ => { d with state := state }

/-- `LfgPlayerData::RestoreState`. -/
def LfgPlayerData.restoreState (d : LfgPlayerData) : LfgPlayerData :=
  if d.oldState = .none then { d with state := d.oldState, selectedDungeons := ∅, roles := 0 }
  else { d with state := d.oldState }

/-- `LfgGroupData::SetState`. -/
def LfgGroupData.setState (d : LfgGroupData) (state : LfgState) : LfgGroupData :=
  match state with
  | .none => { d with state := state, oldState := state, dungeon := 0, kicksLeft := lfgGroupMaxKicks }
  | .finishedDungeon | .dungeon => { d with state := state, oldState := state }
  | _ => { d with state := state }

/-- `LfgGroupData::RestoreState`. -/
def LfgGroupData.restoreState (d : LfgGroupData) : LfgGroupData := { d with state := d.oldState }

/-- The data of the players (`PlayersStore`) and of the groups (`GroupsStore`); what is not stored
has the default values. -/
structure Parties where
  players : ℕ → LfgPlayerData
  groups : ℕ → LfgGroupData

namespace Parties

def getState (P : Parties) (guid : ℕ) : LfgState :=
  if isGroupGuid guid then (P.groups guid).state else (P.players guid).state

def getOldState (P : Parties) (guid : ℕ) : LfgState :=
  if isGroupGuid guid then (P.groups guid).oldState else (P.players guid).oldState

/-- `IsLfgGroup`. -/
def isLfgGroup (P : Parties) (guid : ℕ) : Bool :=
  guid ≠ 0 ∧ isGroupGuid guid ∧ (P.groups guid).oldState ≠ .none

def updatePlayer (P : Parties) (guid : ℕ) (f : LfgPlayerData → LfgPlayerData) : Parties :=
  { P with players := fun other => if other = guid then f (P.players guid) else P.players other }

def updateGroup (P : Parties) (gguid : ℕ) (f : LfgGroupData → LfgGroupData) : Parties :=
  { P with groups := fun other => if other = gguid then f (P.groups gguid) else P.groups other }

def setState (P : Parties) (guid : ℕ) (state : LfgState) : Parties :=
  if isGroupGuid guid then P.updateGroup guid (·.setState state)
  else P.updatePlayer guid (·.setState state)

def restoreState (P : Parties) (guid : ℕ) : Parties :=
  if isGroupGuid guid then P.updateGroup guid (·.restoreState)
  else P.updatePlayer guid (·.restoreState)

def getGroup (P : Parties) (guid : ℕ) : ℕ := (P.players guid).group

/-- `GetQueue`: the id of the queue. -/
def getQueue (P : Parties) (guid : ℕ) : ℕ :=
  if isGroupGuid guid then
    let pguid := (P.groups guid).players.headD 0
    if pguid ≠ 0 then (P.players pguid).team else 0
  else (P.players guid).team

end Parties

/-! ### What is open -/

structure LfgRoleCheck where
  cancelTime : ℕ
  roles : LfgRolesMap
  state : LfgRoleCheckState
  leader : ℕ

structure LfgPlayerBoot where
  cancelTime : ℕ
  inProgress : Bool
  votes : SortedMap ℕ LfgAnswer
  victim : ℕ
  reason : String

structure LfgUpdateData where
  updateType : LfgUpdateType
  dungeons : Finset ℕ
  comment : String

/-- The ids of proposals, of 32 bits. -/
abbrev ProposalId : Type := Fin (2 ^ 32)

/-- What is sent to a player. -/
inductive LfgMessage
  | roleCheckUpdate (roleCheck : LfgRoleCheck)
  | joinResult (result : LfgJoinResult) (state : LfgRoleCheckState)
  | updatePlayer (data : LfgUpdateData)
  | updateParty (data : LfgUpdateData)
  | updateProposal (id : ProposalId) (proposal : LfgProposal)
  | bootProposalUpdate (boot : LfgPlayerBoot)

/-- The manager, with what the present call has sent, and to whom. -/
structure LFGMgr where
  options : UInt32
  parties : Parties
  roleChecksStore : SortedMap ℕ LfgRoleCheck
  proposalsStore : SortedMap ProposalId LfgProposal
  bootsStore : SortedMap ℕ LfgPlayerBoot
  queuesStore : SortedMap ℕ LFGQueue
  lfgProposalId : ProposalId
  sent : List (ℕ × LfgMessage)

namespace LFGMgr

def setState (m : LFGMgr) (guid : ℕ) (state : LfgState) : LFGMgr :=
  { m with parties := m.parties.setState guid state }

def restoreState (m : LFGMgr) (guid : ℕ) : LFGMgr :=
  { m with parties := m.parties.restoreState guid }

def send (m : LFGMgr) (guid : ℕ) (message : LfgMessage) : LFGMgr :=
  { m with sent := m.sent ++ [(guid, message)] }

/-- The queue with the id `queueId`, which is made if it is not there. -/
def queue (m : LFGMgr) (queueId : ℕ) : LFGQueue := (m.queuesStore.find queueId).getD .empty

def setQueue (m : LFGMgr) (queueId : ℕ) (q : LFGQueue) : LFGMgr :=
  { m with queuesStore := m.queuesStore.insert queueId q }

/-- The data of an update for a player, with the dungeons and the comment of the player. -/
def updateData (m : LFGMgr) (updateType : LfgUpdateType) (guid : ℕ) : LfgUpdateData :=
  ⟨updateType, (m.parties.players guid).selectedDungeons, (m.parties.players guid).comment⟩

/-! ### The end of what is obsolete -/

/-- A role check ends without all roles. -/
def removeRoleCheck (m : LFGMgr) (gguid : ℕ) (roleCheck : LfgRoleCheck) : LFGMgr :=
  let roleCheck := { roleCheck with state := .missingRole }
  let m := roleCheck.roles.entries.foldl (fun m e =>
    let m := (m.restoreState e.1).send e.1 (.roleCheckUpdate roleCheck)
    if e.1 = roleCheck.leader then m.send e.1 (.joinResult .failed .missingRole) else m) m
  { m.restoreState gguid with roleChecksStore := m.roleChecksStore.erase gguid }

/-- The guid under which a player of a proposal has queued. -/
def queuedAs (e : ℕ × LfgProposalPlayer) : ℕ := if e.2.group ≠ 0 then e.2.group else e.1

/-- Who has not agreed in time, or has denied, is removed, with the own group: the answers, and the
guids to remove. -/
def markRemoved (players : SortedMap ℕ LfgProposalPlayer) (type : LfgUpdateType) :
    SortedMap ℕ LfgProposalPlayer × SortedMap ℕ Unit :=
  let players := players.mapEntries fun _ player =>
    if type = .proposalFailed ∧ player.accept = .pending then { player with accept := .deny }
    else player
  let leaves (player : LfgProposalPlayer) : Bool :=
    player.accept ≠ .agree ∧ (player.accept = .deny ∨ type = .proposalFailed)
  (players.mapEntries fun _ player =>
      if leaves player then { player with accept := .deny } else player,
    players.entries.foldl
      (fun toRemove e => if leaves e.2 then toRemove.insert (queuedAs e) () else toRemove) .empty)

/-- What a player of a proposal that is removed is told. -/
def notifyRemoved (id : ProposalId) (proposal : LfgProposal) (type : LfgUpdateType)
    (toRemove : SortedMap ℕ Unit) (m : LFGMgr) (e : ℕ × LfgProposalPlayer) : LFGMgr :=
  let guid := e.1
  let gguid := queuedAs e
  let m := m.send guid (.updateProposal id proposal)
  if (toRemove.find gguid).isSome then
    let data : LfgUpdateData :=
      ⟨if e.2.accept = .deny then type else .removedFromQueue, ∅, ""⟩
    let m := m.restoreState guid
    if gguid ≠ guid then (m.restoreState e.2.group).send guid (.updateParty data)
    else m.send guid (.updatePlayer data)
  else
    let m := m.setState guid .queued
    if gguid ≠ guid then
      let m := m.setState gguid .queued
      m.send guid (.updateParty (m.updateData .addedToQueue guid))
    else m.send guid (.updatePlayer (m.updateData .addedToQueue guid))

/-- `RemoveProposal`. -/
def removeProposal (m : LFGMgr) (id : ProposalId) (proposal : LfgProposal) (type : LfgUpdateType) :
    LFGMgr :=
  let marked := markRemoved proposal.players type
  let proposal := { proposal with state := .failed, players := marked.1 }
  let m := proposal.players.entries.foldl (notifyRemoved id proposal type marked.2) m
  let queueId := m.parties.getQueue ((proposal.players.entries.map Prod.fst).headD 0)
  let q := marked.2.entries.foldl (fun q e => q.removeFromQueue e.1) (m.queue queueId)
  let again := proposal.queues.filter fun guid => (marked.2.find guid).isNone
  { m.setQueue queueId (again.foldl (fun q guid => q.addToQueue guid) q) with
    proposalsStore := m.proposalsStore.erase id }

/-- A vote on a kick ends without a kick when its time is over. -/
def removeKick (m : LFGMgr) (gguid : ℕ) (boot : LfgPlayerBoot) : LFGMgr :=
  let boot := { boot with inProgress := false }
  let m := boot.votes.entries.foldl (fun m e =>
    (if e.1 ≠ boot.victim then m.send e.1 (.bootProposalUpdate boot) else m).setState e.1 .dungeon) m
  { m.setState gguid .dungeon with bootsStore := m.bootsStore.erase gguid }

def removeObsoleteRoleChecks (now : ℕ) (m : LFGMgr) : LFGMgr :=
  m.roleChecksStore.entries.foldl
    (fun m e => if now < e.2.cancelTime then m else m.removeRoleCheck e.1 e.2) m

def removeObsoleteProposals (now : ℕ) (m : LFGMgr) : LFGMgr :=
  m.proposalsStore.entries.foldl
    (fun m e => if e.2.cancelTime < now then m.removeProposal e.1 e.2 .proposalFailed else m) m

def removeObsoleteKicks (now : ℕ) (m : LFGMgr) : LFGMgr :=
  m.bootsStore.entries.foldl
    (fun m e => if e.2.cancelTime < now then m.removeKick e.1 e.2 else m) m

/-! ### Proposals -/

/-- `AddProposal`. -/
def addProposal (m : LFGMgr) (proposal : LfgProposal) : LFGMgr :=
  { m with
    lfgProposalId := m.lfgProposalId + 1
    proposalsStore := m.proposalsStore.insert (m.lfgProposalId + 1) proposal }

/-- `m_lfgProposalId` of a new manager. -/
def firstProposalId : ProposalId := 1

/-- The id that comes `n` after `c`. -/
def idAfter (c : ProposalId) (n : ℕ) : ProposalId := c + Fin.ofNat (2 ^ 32) n

/-- What a player of a proposal with which everybody agrees is told; the first one is told that a
group is found. -/
def notifyFound (id : ProposalId) (proposal : LfgProposal) (sendUpdate : Bool)
    (s : LFGMgr × LfgUpdateType) (e : ℕ × LfgProposalPlayer) : LFGMgr × LfgUpdateType :=
  let m := if sendUpdate then s.1.send e.1 (.updateProposal id proposal) else s.1
  let found : LfgUpdateData := ⟨s.2, ∅, ""⟩
  let removed : LfgUpdateData := ⟨.removedFromQueue, ∅, ""⟩
  let m := if e.2.group ≠ 0 then m.send e.1 (.updateParty found) else m.send e.1 (.updatePlayer found)
  (((m.send e.1 (.updatePlayer removed)).send e.1 (.updateParty removed)).setState e.1 .dungeon,
    .removedFromQueue)

/-- The end of `UpdateProposal`, when everybody agrees; the queue's times of waiting are left
out. -/
def finishProposal (makeNewGroup : Parties → LfgProposal → Parties) (m : LFGMgr) (id : ProposalId)
    (proposal : LfgProposal) (guid : ℕ) : LFGMgr :=
  let sendUpdate : Bool := proposal.state ≠ .success
  let proposal := { proposal with state := .success }
  let queueId := m.parties.getQueue guid
  let m := (proposal.players.entries.foldl (notifyFound id proposal sendUpdate) (m, .groupFound)).1
  let m := m.setQueue queueId
    (proposal.queues.foldl (fun q guid => q.removeFromQueue guid) (m.queue queueId))
  { m with
    parties := makeNewGroup m.parties proposal
    proposalsStore := m.proposalsStore.erase id }

/-- `UpdateProposal`. -/
def updateProposal (makeNewGroup : Parties → LfgProposal → Parties) (m : LFGMgr) (id : ProposalId)
    (guid : ℕ) (accept : Bool) : LFGMgr :=
  match m.proposalsStore.find id with
  | none => m
  | some proposal =>
    match proposal.players.find guid with
    | none => m
    | some player =>
      let proposal := { proposal with
        players := proposal.players.insert guid
          { player with accept := if accept then .agree else .deny } }
      let m := { m with proposalsStore := m.proposalsStore.insert id proposal }
      if !accept then m.removeProposal id proposal .proposalDeclined
      else if proposal.players.entries.any fun e => e.2.accept ≠ .agree then
        proposal.players.entries.foldl (fun m e => m.send e.1 (.updateProposal id proposal)) m
      else m.finishProposal makeNewGroup id proposal guid

/-! ### The update -/

/-- What the queues ask. -/
def view (P : Parties) (ignores : ℕ → Option (ℕ → Bool)) : MgrView :=
  ⟨P.getState, P.getOldState, P.isLfgGroup, ignores⟩

/-- `FindGroups` for one of the queues; the second component counts the random numbers drawn. -/
def findGroupsIn (ignores : ℕ → Option (ℕ → Bool)) (rnd : ℕ → ℕ) (now : ℕ) (s : LFGMgr × ℕ)
    (e : ℕ × LFGQueue) : LFGMgr × ℕ :=
  let found := findGroups (view s.1.parties ignores) rnd now ⟨e.2, [], s.2⟩
  (found.added.foldl addProposal (s.1.setQueue e.1 found.queue), found.draws)

/-- `FindGroups` for all queues. -/
def findNewProposals (ignores : ℕ → Option (ℕ → Bool)) (rnd : ℕ → ℕ) (now : ℕ) (m : LFGMgr) :
    LFGMgr :=
  (m.queuesStore.entries.foldl (findGroupsIn ignores rnd now) (m, 0)).1

/-- A proposal is announced to one of its players. -/
def announceTo (id : ProposalId) (proposal : LfgProposal) (m : LFGMgr) (guid : ℕ) : LFGMgr :=
  let m := m.setState guid .proposal
  let gguid := m.parties.getGroup guid
  let m := if gguid ≠ 0 then
      let m := m.setState gguid .proposal
      m.send guid (.updateParty (m.updateData .proposalBegin guid))
    else m.send guid (.updatePlayer (m.updateData .proposalBegin guid))
  m.send guid (.updateProposal id proposal)

/-- A proposal is announced, and accepted by its last player if it has succeeded already. -/
def announceProposal (makeNewGroup : Parties → LfgProposal → Parties) (m : LFGMgr)
    (e : ProposalId × LfgProposal) : LFGMgr :=
  let guids := e.2.players.entries.map Prod.fst
  let m := guids.foldl (announceTo e.1 e.2) m
  if e.2.state = .success then m.updateProposal makeNewGroup e.1 (guids.getLastD 0) true else m

/-- The loop from `ProposalsStore.find(m_lfgProposalId)` on. -/
def announce (makeNewGroup : Parties → LfgProposal → Parties) (m : LFGMgr) : LFGMgr :=
  if (m.proposalsStore.find m.lfgProposalId).isNone then m
  else (m.proposalsStore.entries.filter fun e => m.lfgProposalId ≤ e.1).foldl
    (announceProposal makeNewGroup) m

/-- What `Update` does before it looks for groups. -/
def removeObsolete (now : ℕ) (m : LFGMgr) : LFGMgr :=
  removeObsoleteKicks now (removeObsoleteProposals now (removeObsoleteRoleChecks now m))

/-- `LFGMgr::Update`, without the status of the queues at the end. -/
def update (makeNewGroup : Parties → LfgProposal → Parties) (ignores : ℕ → Option (ℕ → Bool))
    (rnd : ℕ → ℕ) (now : ℕ) (m : LFGMgr) : LFGMgr :=
  let m := { m with sent := [] }
  if m.options &&& lfgOptionsEnabled = 0 then m
  else
    let m := removeObsolete now m
    let m' := findNewProposals ignores rnd now m
    if m.lfgProposalId ≠ m'.lfgProposalId then m'.announce makeNewGroup else m'

end LFGMgr

end FaceCore.DungeonFinding
