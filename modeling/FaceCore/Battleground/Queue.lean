import FaceCore.Lib.Runs
import FaceCore.Lib.SortedMap
import Mathlib.Data.Finset.Sort

/-!
# The battleground queue

`BattlegroundQueue`: the players that are queued with the groups they joined in, and the groups in
lists, four for each bracket: premade and normal groups of the two factions. A group is a pointer
with the `GroupQueueInfo` behind it; the lists hold the pointers.

* `addGroup`, `removePlayer`: groups come, players go;
* `checkPremadeMatch`, `checkSkirmishForSameFaction`, `ratedArena`: the three places that move a
  group from one list to another one, the last two with a change of its faction;
* `inviteGroupToBG`: the invitation of a group.

A position in a list is the group that stands there; that an erasure invalidates the other iterators
of a `std::deque` is not modelled. Announcements, packets, waiting times, the ratings that a lost
match is scored with and the numbers of the invited players of a battleground are left out.
-/

namespace FaceCore.Battlegrounds

inductive Team
  | alliance | horde
deriving DecidableEq

def Team.other : Team → Team
  | alliance => horde
  | horde => alliance

theorem Team.eq_other {t side : Team} (h : t ≠ side) : t = side.other := by
  cases t <;> cases side <;> first | rfl | exact absurd rfl h

/-- `BattlegroundQueueGroupTypes`. -/
inductive GroupType
  | premadeAlliance | premadeHorde | normalAlliance | normalHorde
deriving DecidableEq

namespace GroupType

def premade : Team → GroupType
  | .alliance => premadeAlliance
  | .horde => premadeHorde

def normal : Team → GroupType
  | .alliance => normalAlliance
  | .horde => normalHorde

/-- The faction whose groups a list is for. -/
def team : GroupType → Team
  | premadeAlliance | normalAlliance => .alliance
  | premadeHorde | normalHorde => .horde

@[simp] theorem team_premade (t : Team) : (premade t).team = t := by cases t <;> rfl

@[simp] theorem team_normal (t : Team) : (normal t).team = t := by cases t <;> rfl

theorem eq_premade_or_normal (j : GroupType) : j = premade j.team ∨ j = normal j.team := by
  cases j <;> decide

theorem premade_ne_normal (t t' : Team) : premade t ≠ normal t' := by
  cases t <;> cases t' <;> decide

theorem normal_ne_normal_other (t : Team) : normal t ≠ normal t.other := by cases t <;> decide

theorem premade_ne_premade_other (t : Team) : premade t ≠ premade t.other := by cases t <;> decide

end GroupType

def MAX_BATTLEGROUND_BRACKETS : ℕ := 16

/-- `BattlegroundBracketId`. -/
abbrev BracketId := Fin MAX_BATTLEGROUND_BRACKETS

/-- `GroupQueueInfo`; `players` are the keys of `Players`, whose values point to the entries of the
same keys in `m_QueuedPlayers`. -/
structure GroupQueueInfo where
  players : Finset ℕ
  team : Team
  isRated : Bool
  arenaTeamId : ℕ
  joinTime : ℕ
  isInvitedToBGInstanceGUID : ℕ
  arenaMatchmakerRating : ℕ

/-- `PlayerQueueInfo`; `groupInfo` is a pointer. -/
structure PlayerQueueInfo where
  lastOnlineTime : ℕ
  groupInfo : ℕ
deriving DecidableEq

/-- `BattlegroundQueue`: `groups` are the `GroupQueueInfo`s behind the pointers, and `fresh` is the
pointer that `new` gives next. -/
structure Queue where
  queuedPlayers : SortedMap ℕ PlayerQueueInfo
  queuedGroups : BracketId → GroupType → List ℕ
  groups : ℕ → Option GroupQueueInfo
  fresh : ℕ

namespace Queue

/-- `BattlegroundQueue::BattlegroundQueue`. -/
def empty : Queue := ⟨SortedMap.empty, fun _ _ => [], fun _ => none, 0⟩

/-- Put a list in the place of `m_QueuedGroups[b][j]`. -/
def setList (q : Queue) (b : BracketId) (j : GroupType) (l : List ℕ) : Queue :=
  { q with queuedGroups := fun b' j' => if b' = b ∧ j' = j then l else q.queuedGroups b' j' }

/-- Write through the pointer `gid`. -/
def modifyGroup (q : Queue) (gid : ℕ) (f : GroupQueueInfo → GroupQueueInfo) : Queue :=
  { q with groups := fun g => if g = gid then (q.groups gid).map f else q.groups g }

/-- `push_front` on the list `j'`, and `erase` of the group from the list `j`. -/
def moveGroup (q : Queue) (gid : ℕ) (b : BracketId) (j j' : GroupType) : Queue :=
  let q := q.setList b j' (gid :: q.queuedGroups b j')
  q.setList b j ((q.queuedGroups b j).erase gid)

/-! ### Groups come -/

/-- The part of `AddGroup` that enters one player. -/
def addPlayer (lastOnlineTime gid : ℕ) (q : Queue) (guid : ℕ) : Queue :=
  { q with queuedPlayers := q.queuedPlayers.insert guid ⟨lastOnlineTime, gid⟩ }.modifyGroup gid
    fun ginfo => { ginfo with players := insert guid ginfo.players }

/-- The list that `AddGroup` computes. -/
def groupIndex (team : Team) (isRated isPremade : Bool) : GroupType :=
  if !isRated && !isPremade then .normal team else .premade team

/-- `BattlegroundQueue::AddGroup` at the time `now`; `members` are the members of the group, the
leader alone when he joins without one. -/
def addGroup (q : Queue) (now : ℕ) (team : Team) (members : List ℕ) (b : BracketId)
    (isRated isPremade : Bool) (matchmakerRating arenaTeamId : ℕ) : Queue :=
  let gid := q.fresh
  let ginfo : GroupQueueInfo := ⟨∅, team, isRated, arenaTeamId, now, 0, matchmakerRating⟩
  let q := { q with
    groups := fun g => if g = gid then some ginfo else q.groups g
    fresh := q.fresh + 1 }
  let q := members.foldl (addPlayer now gid) q
  let index := groupIndex team isRated isPremade
  q.setList b index (q.queuedGroups b index ++ [gid])

/-! ### Players go -/

/-- The lists of a bracket in which `RemovePlayer` looks for a group; the last match counts. -/
def findInBracket (q : Queue) (team : Team) (gid : ℕ) (b : BracketId) :
    Option (BracketId × GroupType) :=
  if gid ∈ q.queuedGroups b (.normal team) then some (b, .normal team)
  else if gid ∈ q.queuedGroups b (.premade team) then some (b, .premade team)
  else none

/-- The search of `RemovePlayer` for a group, from the last bracket to the first. -/
def findGroup (q : Queue) (team : Team) (gid : ℕ) : Option (BracketId × GroupType) :=
  (List.finRange MAX_BATTLEGROUND_BRACKETS).reverse.findSome? (q.findInBracket team gid)

/-- The part of `RemovePlayer` that takes the player out of his group and of the queue. -/
def takeOut (q : Queue) (guid gid : ℕ) : Queue :=
  let q := q.modifyGroup gid fun ginfo => { ginfo with players := ginfo.players.erase guid }
  { q with queuedPlayers := q.queuedPlayers.erase guid }

/-- The part of `RemovePlayer` that deletes an empty group. -/
def deleteGroup (q : Queue) (gid : ℕ) (b : BracketId) (j : GroupType) : Queue :=
  { q.setList b j ((q.queuedGroups b j).erase gid) with
    groups := fun g => if g = gid then none else q.groups g }

/-- `BattlegroundQueue::RemovePlayer`, with fuel for its recursion: the queue, and whether no call
reports that it cannot find the group of a player. -/
def removePlayerFuel : ℕ → Queue → ℕ → Queue × Bool
  | 0, q, _ => (q, false)
  | fuel + 1, q, guid =>
    match q.queuedPlayers.find guid with
    | none => (q, true)
    | some info =>
      match q.groups info.groupInfo with
      | none => (q, false)
      | some group =>
        match q.findGroup group.team info.groupInfo with
        | none => (q, false)
        | some (b, j) =>
          let q := q.takeOut guid info.groupInfo
          let rest := group.players.erase guid
          match rest.sort.head? with
          | none => (q.deleteGroup info.groupInfo b j, true)
          | some next =>
            if group.isInvitedToBGInstanceGUID = 0 ∧ group.isRated then
              removePlayerFuel fuel q next
            else (q, true)

/-- `BattlegroundQueue::RemovePlayer`: every call takes one player out. -/
def removePlayer (q : Queue) (guid : ℕ) : Queue × Bool :=
  removePlayerFuel (q.queuedPlayers.entries.length + 1) q guid

/-! ### Groups are moved and invited -/

/-- Whether a group is not invited; what a pointer to nothing points to is not read. -/
def isWaiting (q : Queue) (gid : ℕ) : Bool :=
  (q.groups gid).any fun ginfo => ginfo.isInvitedToBGInstanceGUID = 0

/-- `BattlegroundQueue::InviteGroupToBG`; a side of 0 keeps the faction. -/
def inviteGroupToBG (q : Queue) (gid instanceId : ℕ) (side : Option Team) : Queue :=
  q.modifyGroup gid fun ginfo =>
    { ginfo with
      team := side.getD ginfo.team
      isInvitedToBGInstanceGUID :=
        if ginfo.isInvitedToBGInstanceGUID = 0 then instanceId
        else ginfo.isInvitedToBGInstanceGUID }

/-- The move of `CheckPremadeMatch` for one faction: the first premade group that has waited too
long, or is too small, goes to the normal groups. -/
def releasePremade (b : BracketId) (timeBefore minPlayersPerTeam : ℕ) (q : Queue) (team : Team) :
    Queue :=
  match (q.queuedGroups b (.premade team)).head? with
  | none => q
  | some gid =>
    match q.groups gid with
    | none => q
    | some ginfo =>
      if ginfo.isInvitedToBGInstanceGUID = 0 ∧
          (ginfo.joinTime < timeBefore ∨ ginfo.players.card < minPlayersPerTeam) then
        q.moveGroup gid b (.premade team) (.normal team)
      else q

/-- `BattlegroundQueue::CheckPremadeMatch`: nothing is moved when both factions have a premade group
that waits. -/
def checkPremadeMatch (q : Queue) (b : BracketId) (timeBefore minPlayersPerTeam : ℕ) : Queue :=
  if (q.queuedGroups b .premadeAlliance).any q.isWaiting &&
      (q.queuedGroups b .premadeHorde).any q.isWaiting then q
  else [Team.alliance, Team.horde].foldl (releasePremade b timeBefore minPlayersPerTeam) q

/-- `BattlegroundQueue::SelectionPool`. -/
structure SelectionPool where
  selectedGroups : List ℕ
  playerCount : ℕ

/-- `SelectionPool::Init`. -/
def SelectionPool.init : SelectionPool := ⟨[], 0⟩

/-- `SelectionPool::AddGroup`. -/
def SelectionPool.addGroup (pool : SelectionPool) (gid : ℕ) (ginfo : GroupQueueInfo)
    (desiredCount : ℕ) : SelectionPool × Bool :=
  if ginfo.isInvitedToBGInstanceGUID = 0 ∧
      desiredCount ≥ pool.playerCount + ginfo.players.card then
    (⟨pool.selectedGroups ++ [gid], pool.playerCount + ginfo.players.card⟩, true)
  else (pool, pool.playerCount < desiredCount)

/-- The loop of `CheckSkirmishForSameFaction` that fills the pool of the other faction. -/
def fillPool (q : Queue) (minPlayersPerTeam : ℕ) : List ℕ → SelectionPool → SelectionPool
  | [], pool => pool
  | gid :: gids, pool =>
    match q.groups gid with
    | none => fillPool q minPlayersPerTeam gids pool
    | some ginfo =>
      if ginfo.isInvitedToBGInstanceGUID = 0 then
        let added := pool.addGroup gid ginfo minPlayersPerTeam
        if added.2 then fillPool q minPlayersPerTeam gids added.1 else added.1
      else fillPool q minPlayersPerTeam gids pool

/-- The groups behind `ginfo` in a list. -/
def behind (ginfo : ℕ) (l : List ℕ) : List ℕ := (l.dropWhile (· ≠ ginfo)).tail

/-- Erase the first `gid` behind `ginfo`. -/
def eraseBehind (ginfo gid : ℕ) (l : List ℕ) : List ℕ :=
  l.takeWhile (· ≠ ginfo) ++ (l.dropWhile (· ≠ ginfo)).take 1 ++ (behind ginfo l).erase gid

/-- The part of `CheckSkirmishForSameFaction` that moves a group to the other faction. -/
def switchFaction (b : BracketId) (team : Team) (ginfo : ℕ) (q : Queue) (gid : ℕ) : Queue :=
  let q := q.modifyGroup gid fun info => { info with team := team.other }
  let q := q.setList b (.normal team.other) (gid :: q.queuedGroups b (.normal team.other))
  q.setList b (.normal team) (eraseBehind ginfo gid (q.queuedGroups b (.normal team)))

/-- `BattlegroundQueue::CheckSkirmishForSameFaction` with the selection pools `pools`. -/
def checkSkirmishForSameFaction (q : Queue) (b : BracketId) (minPlayersPerTeam : ℕ)
    (pools : Team → SelectionPool) : Queue :=
  if (pools .alliance).playerCount < minPlayersPerTeam ∧
      (pools .horde).playerCount < minPlayersPerTeam then q
  else
    let team := if (pools .horde).playerCount = minPlayersPerTeam then Team.horde else Team.alliance
    match (pools team).selectedGroups.getLast? with
    | none => q
    | some ginfo =>
      let l := q.queuedGroups b (.normal team)
      if ginfo ∉ l then q
      else
        let pool := q.fillPool minPlayersPerTeam (behind ginfo l) SelectionPool.init
        if pool.playerCount ≠ minPlayersPerTeam then q
        else pool.selectedGroups.foldl (switchFaction b team ginfo) q

/-- The groups that a rated match is looked for: ratings in a range, or a long time in the queue. -/
structure Search where
  arenaMinRating : ℕ
  arenaMaxRating : ℕ
  discardTime : ℕ

/-- Whether a group waits and fits the search. -/
def fits (q : Queue) (s : Search) (gid : ℕ) : Bool :=
  (q.groups gid).any fun ginfo =>
    ginfo.isInvitedToBGInstanceGUID = 0 ∧
      ((s.arenaMinRating ≤ ginfo.arenaMatchmakerRating ∧
        ginfo.arenaMatchmakerRating ≤ s.arenaMaxRating) ∨ ginfo.joinTime < s.discardTime)

/-- `ArenaTeamId` of a group. -/
def arenaTeamId (q : Queue) (gid : ℕ) : ℕ := ((q.groups gid).map (·.arenaTeamId)).getD 0

/-- The two groups of the next rated match, each with the list it stands in. -/
def findOpponents (q : Queue) (b : BracketId) (s : Search) : Option (ℕ × ℕ) :=
  let first := fun team => (q.queuedGroups b (.premade team)).find? (q.fits s)
  let second := fun team gid => ((q.queuedGroups b (.premade team)).dropWhile (· ≠ gid)).find?
    fun gid' => q.fits s gid' ∧ q.arenaTeamId gid ≠ q.arenaTeamId gid'
  match first .alliance, first .horde with
  | some aTeam, some hTeam => some (aTeam, hTeam)
  | some gid, none => (second .alliance gid).map fun gid' => (gid, gid')
  | none, some gid => (second .horde gid).map fun gid' => (gid, gid')
  | none, none => none

/-- A group whose faction is not the side of the match goes to the list of that side. -/
def changeSide (q : Queue) (b : BracketId) (gid : ℕ) (side : Team) : Queue :=
  if (q.groups gid).any fun ginfo => ginfo.team ≠ side then
    q.moveGroup gid b (.premade side.other) (.premade side)
  else q

/-- The rated arenas of `BattlegroundQueueUpdate`; `instanceId` is the new battleground, if
`CreateNewBattleground` makes one. -/
def ratedArena (q : Queue) (b : BracketId) (s : Search) (instanceId : Option ℕ) : Queue :=
  match q.findOpponents b s, instanceId with
  | some (aTeam, hTeam), some arena =>
    let q := (q.changeSide b aTeam .alliance).changeSide b hTeam .horde
    (q.inviteGroupToBG aTeam arena (some .alliance)).inviteGroupToBG hTeam arena (some .horde)
  | _, _ => q

end Queue

/-- What may happen to the queue. -/
inductive Op
  | addGroup (now : ℕ) (team : Team) (members : List ℕ) (b : BracketId) (isRated isPremade : Bool)
      (matchmakerRating arenaTeamId : ℕ)
  | removePlayer (guid : ℕ)
  | checkPremadeMatch (b : BracketId) (timeBefore minPlayersPerTeam : ℕ)
  | checkSkirmishForSameFaction (b : BracketId) (minPlayersPerTeam : ℕ)
      (pools : Team → Queue.SelectionPool)
  | ratedArena (b : BracketId) (s : Queue.Search) (instanceId : Option ℕ)
  | inviteGroupToBG (gid instanceId : ℕ)

/-- The queue after an operation. -/
def Queue.exec (q : Queue) : Op → Queue
  | .addGroup now team members b isRated isPremade rating arenaTeamId =>
    q.addGroup now team members b isRated isPremade rating arenaTeamId
  | .removePlayer guid => (q.removePlayer guid).1
  | .checkPremadeMatch b timeBefore minPlayers => q.checkPremadeMatch b timeBefore minPlayers
  | .checkSkirmishForSameFaction b minPlayers pools =>
    q.checkSkirmishForSameFaction b minPlayers pools
  | .ratedArena b s instanceId => q.ratedArena b s instanceId
  | .inviteGroupToBG gid instanceId => q.inviteGroupToBG gid instanceId none

/-- Nobody who is added is queued already. -/
def Op.Unqueued (q : Queue) : Op → Prop
  | .addGroup _ _ members _ _ _ _ _ => ∀ guid ∈ members, q.queuedPlayers.find guid = none
  | _ => True

end FaceCore.Battlegrounds
