import FaceCore.DungeonFinding.Roles
import FaceCore.Lib.Joined
import FaceCore.Lib.Picking
import FaceCore.Lib.SortedMap
import Mathlib.Data.Char
import Mathlib.Data.List.Lex

/-!
# The queue of the dungeon finder

`LFGQueue` keeps the players and groups that wait for a dungeon, and looks for some of them that
make a full group. A player or group is a guid; a set of guids is the key of a cache of what is
known about it.

* `LfgQueueData`, `LFGQueue`: what is queued;
* `judge`: what `CheckCompatibility` finds out about a list of guids, without its child;
* `checkCompatibility`, `findNewGroups`, `findGroups`: the search, and the proposals that come of it.

The search asks `LFGMgr` for the states of players and groups (`MgrView`). Random numbers are a
sequence that is drawn from.
-/

namespace FaceCore.DungeonFinding

/-- `MAXGROUPSIZE`. -/
def maxGroupSize : ℕ := 5

def lfgTimeProposal : ℕ := 45

/-- `IS_GROUP_GUID`: the high part of the guid is `HIGHGUID_GROUP`. -/
def isGroupGuid (guid : ℕ) : Bool := guid / 2 ^ 48 % 2 ^ 16 = 0x1F50

inductive LfgState
  | none | rolecheck | queued | proposal | boot | dungeon | finishedDungeon | raidbrowser
deriving DecidableEq

inductive LfgAnswer
  | pending | deny | agree
deriving DecidableEq

inductive LfgProposalState
  | initiating | failed | success
deriving DecidableEq

inductive LfgCompatibility
  | pending | wrongGroupSize | tooMuchPlayers | multipleLfgGroups | hasIgnores | noRoles
  | noDungeons | withLessPlayers | badStates | matched
deriving DecidableEq

/-- The value of the enumeration; what is below `LFG_COMPATIBLES_WITH_LESS_PLAYERS` is not
compatible. -/
def LfgCompatibility.toNat : LfgCompatibility → ℕ
  | pending => 0
  | wrongGroupSize => 1
  | tooMuchPlayers => 2
  | multipleLfgGroups => 3
  | hasIgnores => 4
  | noRoles => 5
  | noDungeons => 6
  | withLessPlayers => 7
  | badStates => 8
  | matched => 9

/-- `LfgRolesMap`: the masks of players. -/
abbrev LfgRolesMap := SortedMap ℕ UInt8

/-- `CheckGroupRoles`, with the masks put back. -/
def LfgRolesMap.checkGroupRoles (groles : LfgRolesMap) : Bool × LfgRolesMap :=
  let found := DungeonFinding.checkGroupRoles (groles.entries.map Prod.snd)
  (found.1, groles.mapEntries fun guid mask =>
    ((groles.entries.map Prod.fst).zip found.2).lookup guid |>.getD mask)

structure LfgCompatibilityData where
  compatibility : LfgCompatibility
  roles : LfgRolesMap

structure LfgQueueData where
  joinTime : ℕ
  tanks : UInt8
  healers : UInt8
  dps : UInt8
  dungeons : Finset ℕ
  roles : LfgRolesMap
  bestCompatible : List Char

/-- `LfgQueueData(joinTime, dungeons, roles)`. -/
def LfgQueueData.new (joinTime : ℕ) (dungeons : Finset ℕ) (roles : LfgRolesMap) : LfgQueueData :=
  ⟨joinTime, .ofNat lfgTanksNeeded, .ofNat lfgHealersNeeded, .ofNat lfgDpsNeeded, dungeons, roles,
    []⟩

structure LfgProposalPlayer where
  role : UInt8
  accept : LfgAnswer
  group : ℕ

structure LfgProposal where
  dungeonId : ℕ
  state : LfgProposalState
  group : ℕ
  leader : ℕ
  cancelTime : ℕ
  isNew : Bool
  queues : List ℕ
  players : SortedMap ℕ LfgProposalPlayer

structure LFGQueue where
  queueDataStore : SortedMap ℕ LfgQueueData
  compatibleMapStore : SortedMap (List Char) LfgCompatibilityData
  currentQueueStore : List ℕ
  newToQueueStore : List ℕ

/-- What the queue asks `LFGMgr` for; `ignores` is empty for players that are not found. -/
structure MgrView where
  getState : ℕ → LfgState
  getOldState : ℕ → LfgState
  isLfgGroup : ℕ → Bool
  ignores : ℕ → Option (ℕ → Bool)

namespace MgrView

/-- `LFGMgr::HasIgnore`. -/
def hasIgnore (mgr : MgrView) (guid1 guid2 : ℕ) : Bool :=
  match mgr.ignores guid1, mgr.ignores guid2 with
  | some ignores1, some ignores2 => ignores1 guid2 || ignores2 guid1
  | _, _ => false

/-- `LFGMgr::AllQueued`. -/
def allQueued (mgr : MgrView) (check : List ℕ) : Bool :=
  !check.isEmpty && check.all fun guid => mgr.getState guid = .queued

end MgrView

/-! ### The queue -/

/-- `ConcatenateGuids`. -/
def concatenateGuids (check : List ℕ) : List Char := Joined.joined '|' check

/-- Whether a text contains the numeral of a guid. -/
def contains (text : List Char) (guid : ℕ) : Bool := Joined.decimal guid <:+: text

/-- The number of guids in a key, in the eight bits of the source. -/
def keySize (key : List Char) : UInt8 := .ofNat (key.count '|') + 1

/-- `UpdateBestCompatibleInQueue`, for the data of an entry. -/
def LfgQueueData.updateBestCompatible (data : LfgQueueData) (key : List Char)
    (roles : LfgRolesMap) : LfgQueueData :=
  let storedSize := if data.bestCompatible = [] then 0 else keySize data.bestCompatible
  if keySize key ≤ storedSize then data
  else
    roles.entries.foldl (fun data e =>
        if e.2 &&& playerRoleTank ≠ 0 then { data with tanks := data.tanks - 1 }
        else if e.2 &&& playerRoleHealer ≠ 0 then { data with healers := data.healers - 1 }
        else { data with dps := data.dps - 1 })
      { data with
        bestCompatible := key
        tanks := .ofNat lfgTanksNeeded
        healers := .ofNat lfgHealersNeeded
        dps := .ofNat lfgDpsNeeded }

namespace LFGQueue

/-- An empty queue. -/
def empty : LFGQueue := ⟨.empty, .empty, [], []⟩

/-- `FindBestCompatibleInQueue`. -/
def findBestCompatible (q : LFGQueue) (guid : ℕ) (data : LfgQueueData) : LfgQueueData :=
  q.compatibleMapStore.entries.foldl (fun data e =>
    if e.2.compatibility = .withLessPlayers ∧ contains e.1 guid then
      data.updateBestCompatible e.1 e.2.roles
    else data) data

def addToNewQueue (q : LFGQueue) (guid : ℕ) : LFGQueue :=
  { q with newToQueueStore := q.newToQueueStore ++ [guid] }

def removeFromNewQueue (q : LFGQueue) (guid : ℕ) : LFGQueue :=
  { q with newToQueueStore := q.newToQueueStore.filter (· ≠ guid) }

def addToCurrentQueue (q : LFGQueue) (guid : ℕ) : LFGQueue :=
  { q with currentQueueStore := q.currentQueueStore ++ [guid] }

def removeFromCurrentQueue (q : LFGQueue) (guid : ℕ) : LFGQueue :=
  { q with currentQueueStore := q.currentQueueStore.filter (· ≠ guid) }

/-- `RemoveFromCompatibles`. -/
def removeFromCompatibles (q : LFGQueue) (guid : ℕ) : LFGQueue :=
  { q with compatibleMapStore := q.compatibleMapStore.filterKeys fun key => !contains key guid }

/-- `AddToQueue`. -/
def addToQueue (q : LFGQueue) (guid : ℕ) : LFGQueue :=
  if (q.queueDataStore.find guid).isSome then q.addToNewQueue guid else q

/-- `RemoveFromQueue`. -/
def removeFromQueue (q : LFGQueue) (guid : ℕ) : LFGQueue :=
  let q := ((q.removeFromNewQueue guid).removeFromCurrentQueue guid).removeFromCompatibles guid
  let store := q.queueDataStore.mapEntries fun other data =>
    if other ≠ guid ∧ contains data.bestCompatible guid then
      q.findBestCompatible other { data with bestCompatible := [] }
    else data
  { q with queueDataStore := store.erase guid }

/-- `AddQueueData`. -/
def addQueueData (q : LFGQueue) (guid joinTime : ℕ) (dungeons : Finset ℕ) (roles : LfgRolesMap) :
    LFGQueue :=
  { q with
    queueDataStore := q.queueDataStore.insert guid (.new joinTime dungeons roles) }.addToQueue guid

/-- `GetCompatibles`. -/
def getCompatibles (q : LFGQueue) (key : List Char) : LfgCompatibility :=
  match q.compatibleMapStore.find key with
  | some data => data.compatibility
  | none => .pending

/-- `SetCompatibilityData`. -/
def setCompatibilityData (q : LFGQueue) (key : List Char) (data : LfgCompatibilityData) :
    LFGQueue :=
  { q with compatibleMapStore := q.compatibleMapStore.insert key data }

/-- `SetCompatibles`: an entry that is there keeps its roles. -/
def setCompatibles (q : LFGQueue) (key : List Char) (compatibles : LfgCompatibility) : LFGQueue :=
  q.setCompatibilityData key ⟨compatibles,
    match q.compatibleMapStore.find key with
    | some data => data.roles
    | none => .empty⟩

end LFGQueue

/-! ### A list of guids -/

/-- What the loop over the guids in `CheckCompatibility` counts: the players and the groups of the
dungeon finder, the first of these, and the group of each player. -/
structure Tally where
  numPlayers : ℕ
  numLfgGroups : ℕ
  group : ℕ
  proposalGroups : SortedMap ℕ ℕ

/-- The loop over the guids; a guid without data ends it. -/
def tally (mgr : MgrView) (store : SortedMap ℕ LfgQueueData) : List ℕ → Tally → Except ℕ Tally
  | [], t => .ok t
  | guid :: check, t =>
    if t.numLfgGroups < 2 ∧ t.numPlayers ≤ maxGroupSize then
      match store.find guid with
      | none => .error guid
      | some data => tally mgr store check
        { numPlayers := (t.numPlayers + data.roles.entries.length) % 2 ^ 8
          numLfgGroups := if mgr.isLfgGroup guid then t.numLfgGroups + 1 else t.numLfgGroups
          group := if mgr.isLfgGroup guid ∧ t.numLfgGroups = 0 then guid else t.group
          proposalGroups := data.roles.entries.foldl
            (fun groups e => groups.insert e.1 (if isGroupGuid guid then guid else 0))
            t.proposalGroups }
    else .ok t

/-- The roles of a guid that has data. -/
def rolesOf (store : SortedMap ℕ LfgQueueData) (guid : ℕ) : LfgRolesMap :=
  match store.find guid with
  | some data => data.roles
  | none => .empty

/-- The dungeons of a guid that has data. -/
def dungeonsOf (store : SortedMap ℕ LfgQueueData) (guid : ℕ) : Finset ℕ :=
  match store.find guid with
  | some data => data.dungeons
  | none => ∅

/-- A player joins the others of a proposal, unless one of them ignores him or he ignores one. -/
def addRole (mgr : MgrView) (proposalRoles : LfgRolesMap) (e : ℕ × UInt8) : LfgRolesMap :=
  if proposalRoles.entries.any fun other => e.1 ≠ other.1 && mgr.hasIgnore e.1 other.1 then
    proposalRoles
  else proposalRoles.insert e.1 e.2

/-- The players of a list of guids, as far as they do not ignore each other. -/
def proposalRoles (mgr : MgrView) (store : SortedMap ℕ LfgQueueData) (check : List ℕ) :
    LfgRolesMap :=
  (check.flatMap fun guid => (rolesOf store guid).entries).foldl (addRole mgr) .empty

/-- The dungeons that all guids of a list want. -/
def proposalDungeons (store : SortedMap ℕ LfgQueueData) : List ℕ → Finset ℕ
  | [] => ∅
  | guid :: check => check.foldl (fun dungeons guid => dungeons ∩ dungeonsOf store guid)
    (dungeonsOf store guid)

/-- What `CheckCompatibility` finds out about a list of guids. -/
inductive Judgement
  | notQueued (guid : ℕ)
  | incompatible (compatibles : LfgCompatibility)
  | lessPlayers (roles : LfgRolesMap)
  | full (t : Tally) (roles : LfgRolesMap) (dungeons : Finset ℕ)

/-- The part of `CheckCompatibility` between the check of the child and the proposal. -/
def judge (mgr : MgrView) (store : SortedMap ℕ LfgQueueData) (check : List ℕ) : Judgement :=
  match tally mgr store check ⟨0, 0, 0, .empty⟩ with
  | .error guid => .notQueued guid
  | .ok t =>
    let enough roles := if t.numPlayers ≠ maxGroupSize then .lessPlayers roles
      else .full t roles (proposalDungeons store check)
    if check.length = 1 ∧ t.numPlayers ≠ maxGroupSize then
      .lessPlayers (rolesOf store (check.headD 0)).checkGroupRoles.2
    else if t.numLfgGroups > 1 then .incompatible .multipleLfgGroups
    else if t.numPlayers > maxGroupSize then .incompatible .tooMuchPlayers
    else if check.length > 1 then
      let roles := proposalRoles mgr store check
      if ((t.numPlayers : ℤ) - roles.entries.length) % 2 ^ 8 ≠ 0 then .incompatible .hasIgnores
      else if !roles.checkGroupRoles.1 then .incompatible .noRoles
      else if proposalDungeons store check = ∅ then .incompatible .noDungeons
      else enough roles.checkGroupRoles.2
    -- a group that is full has been checked before it joined
    else enough (rolesOf store (check.headD 0)).checkGroupRoles.2

/-! ### Proposals -/

/-- A queue while groups are looked for: with the proposals that are added, and the number of
random numbers that are drawn. -/
structure Search where
  queue : LFGQueue
  added : List LfgProposal
  draws : ℕ

namespace Search

def setCompatibles (s : Search) (key : List Char) (compatibles : LfgCompatibility) : Search :=
  { s with queue := s.queue.setCompatibles key compatibles }

end Search

/-- The loop that looks for a leader: the flag `leader`, the leader, and the draws. -/
def chooseLeader (rnd : ℕ → ℕ) : List (ℕ × UInt8) → Bool → ℕ → ℕ → ℕ × ℕ
  | [], _, leader, draws => (leader, draws)
  | e :: es, hasLeader, leader, draws =>
    if e.2 &&& playerRoleLeader ≠ 0 then
      if !hasLeader || leader = 0 then chooseLeader rnd es true e.1 draws
      else chooseLeader rnd es true (if rnd draws % 2 ≠ 0 then e.1 else leader) (draws + 1)
    else if !hasLeader then
      if leader = 0 then chooseLeader rnd es hasLeader e.1 draws
      else chooseLeader rnd es hasLeader (if rnd draws % 2 ≠ 0 then e.1 else leader) (draws + 1)
    else chooseLeader rnd es hasLeader leader draws

/-- A new proposal for a full list of guids. -/
def createProposal (mgr : MgrView) (rnd : ℕ → ℕ) (now : ℕ) (check : List ℕ) (t : Tally)
    (roles : LfgRolesMap) (dungeons : Finset ℕ) (s : Search) : Search :=
  let isNew := t.numLfgGroups ≠ 1 ∨ mgr.getOldState (check.headD 0) ≠ .dungeon
  let dungeonId := Picking.pick dungeons 0 (rnd s.draws)
  let chosen := chooseLeader rnd roles.entries false 0 (s.draws + 1)
  let players := roles.mapEntries fun guid role =>
    let group := (t.proposalGroups.find guid).getD 0
    { role := role
      accept := if !isNew ∧ group ≠ 0 ∧ group = t.group then .agree else .pending
      group := group : LfgProposalPlayer }
  let proposal : LfgProposal :=
    ⟨dungeonId, .initiating, t.group, chosen.1, now + lfgTimeProposal, isNew, check, players⟩
  { queue := check.foldl (fun q guid => (q.removeFromNewQueue guid).removeFromCurrentQueue guid)
      s.queue
    added := s.added ++ [proposal]
    draws := chosen.2 }

/-! ### The search -/

/-- The part of `CheckCompatibility` after the check of the child. -/
def checkJudged (mgr : MgrView) (rnd : ℕ → ℕ) (now : ℕ) (check : List ℕ) (s : Search) :
    LfgCompatibility × Search :=
  let strGuids := concatenateGuids check
  match judge mgr s.queue.queueDataStore check with
  | .notQueued guid => (.pending, { s with queue := s.queue.removeFromQueue guid })
  | .incompatible compatibles => (compatibles, s.setCompatibles strGuids compatibles)
  | .lessPlayers roles =>
    let q := { s.queue with queueDataStore := s.queue.queueDataStore.mapEntries fun guid data =>
      if guid ∈ check then data.updateBestCompatible strGuids roles else data }
    (.withLessPlayers,
      { s with queue := q.setCompatibilityData strGuids ⟨.withLessPlayers, roles⟩ })
  | .full t roles dungeons =>
    if !mgr.allQueued check then (.badStates, s.setCompatibles strGuids .badStates)
    else
      let s := createProposal mgr rnd now check t roles dungeons s
      (.matched, s.setCompatibles strGuids .matched)

/-- `CheckCompatibility`. -/
def checkCompatibility (mgr : MgrView) (rnd : ℕ → ℕ) (now : ℕ) :
    List ℕ → Search → LfgCompatibility × Search
  | [], s => (.wrongGroupSize, s)
  | guid :: check, s =>
    if (guid :: check).length > maxGroupSize then (.wrongGroupSize, s)
    else if (guid :: check).length > 2 then
      -- all but the new one
      let child := checkCompatibility mgr rnd now check s
      if child.1.toNat < LfgCompatibility.withLessPlayers.toNat then
        (child.1, child.2.setCompatibles (concatenateGuids (guid :: check)) child.1)
      else checkJudged mgr rnd now (guid :: check) child.2
    else checkJudged mgr rnd now (guid :: check) s

/-- The part of `FindNewGroups` before its loop: the compatibility of `check`, from the cache if it
is known. -/
def lookUp (mgr : MgrView) (rnd : ℕ → ℕ) (now : ℕ) (check : List ℕ) (s : Search) :
    LfgCompatibility × Search :=
  let strGuids := concatenateGuids check
  let compatibles := s.queue.getCompatibles strGuids
  let r := if compatibles = .pending then checkCompatibility mgr rnd now check s
    else (compatibles, s)
  if r.1 = .badStates ∧ mgr.allQueued check then (.matched, r.2.setCompatibles strGuids .matched)
  else r

/-- The loop of `FindNewGroups`; `find` is the recursive call, which takes guids from `all`. -/
def matchWith (find : List ℕ → List ℕ → Search → LfgCompatibility × List ℕ × Search) :
    ℕ → List ℕ → List ℕ → Search → LfgCompatibility × List ℕ × Search
  | 0, _, all, s => (.withLessPlayers, all, s)
  | _ + 1, _, [], s => (.withLessPlayers, [], s)
  | turns + 1, check, guid :: all, s =>
    let r := find (check ++ [guid]) all s
    if r.1 = .matched then r else matchWith find turns check r.2.1 r.2.2

/-- `FindNewGroups`, with the depth of the recursion: its result, what is left of `all`, and the
queue. -/
def findNewGroups (mgr : MgrView) (rnd : ℕ → ℕ) (now : ℕ) :
    ℕ → List ℕ → List ℕ → Search → LfgCompatibility × List ℕ × Search
  | 0, _, all, s => (.pending, all, s)
  | depth + 1, check, all, s =>
    let r := lookUp mgr rnd now check s
    if r.1 ≠ .withLessPlayers then (r.1, all, r.2)
    else matchWith (findNewGroups mgr rnd now depth) (all.length + 1) check all r.2

/-- One turn of the loop of `FindGroups`, for the first new guid. -/
def findGroupsTurn (mgr : MgrView) (rnd : ℕ → ℕ) (now : ℕ) (s : Search) : Search :=
  match s.queue.newToQueueStore with
  | [] => s
  | frontguid :: _ =>
    let s := { s with queue := s.queue.removeFromNewQueue frontguid }
    let all := s.queue.currentQueueStore
    let r := findNewGroups mgr rnd now (all.length + 1) [frontguid] all s
    if r.1 = .matched then r.2.2
    else { r.2.2 with queue := r.2.2.queue.addToCurrentQueue frontguid }

/-- `FindGroups`: a turn for each new guid. -/
def findGroups (mgr : MgrView) (rnd : ℕ → ℕ) (now : ℕ) (s : Search) : Search :=
  (findGroupsTurn mgr rnd now)^[s.queue.newToQueueStore.length] s

end FaceCore.DungeonFinding
