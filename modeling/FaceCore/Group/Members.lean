import FaceCore.Lib.Runs
import FaceCore.Lib.Table
import Mathlib.Data.List.Dedup

/-!
# The members of a group

The slots of a group with its leader and the flags of its members: `Group::Create`, `AddMember`,
`RemoveMember`, `ChangeLeader`, `Disband`, `ConvertToLFG`, `ConvertToRaid`, `SetGroupMemberFlag` and
`RemoveUniqueGroupMemberFlag`, with the rows of `group_member` that they write.

* `World`: the players that `ObjectAccessor::FindPlayer` finds, and what else the group asks for;
* `Group`, `Op`, `exec`: the group, what may happen to it, and the group afterwards (`none` once it
  is disbanded).

`m_memberMgr` links the members that are online, so its size is computed from the slots and the
world. Loot, invites, instances, difficulties and broadcasts do not feed back into the slots and are
left out.
-/

namespace FaceCore.Groups

/-- `MEMBER_FLAG_ASSISTANT`. -/
def memberFlagAssistant : UInt8 := 0x01

/-- `MEMBER_FLAG_MAINTANK`. -/
def memberFlagMainTank : UInt8 := 0x02

/-- `MEMBER_FLAG_MAINASSIST`. -/
def memberFlagMainAssist : UInt8 := 0x04

/-- `GROUPTYPE_RAID`. -/
def groupTypeRaid : UInt8 := 0x02

/-- `GROUPTYPE_BGRAID`. -/
def groupTypeBGRaid : UInt8 := 0x03

/-- `GROUPTYPE_UNK1`. -/
def groupTypeUnk1 : UInt8 := 0x04

/-- `GROUPTYPE_LFG`. -/
def groupTypeLFG : UInt8 := 0x08

/-- `MAXGROUPSIZE`. -/
def maxGroupSize : UInt8 := 5

/-- `MAX_RAID_SUBGROUPS`. -/
def maxRaidSubgroups : ℕ := 8

/-- `GUID_LOPART`. -/
def lowPart (guid : UInt64) : UInt32 := guid.toUInt32

/-- The methods of `RemoveMember`. -/
inductive RemoveMethod
  | default
  | kick
  | leave
  | kickLFG
  deriving DecidableEq

/-- `Group::MemberSlot`. -/
structure MemberSlot where
  guid : UInt64
  name : String
  group : UInt8
  flags : UInt8
  roles : UInt8
  deriving DecidableEq

/-- A row of `group_member`. -/
structure MemberRow where
  guid : UInt32
  memberGuid : UInt32
  memberFlags : UInt8
  subgroup : UInt8
  roles : UInt8
  deriving DecidableEq

/-- A player who is online. -/
structure Player where
  guid : UInt64
  name : String
  isAlive : Bool
  mapId : UInt32

/-- What a group asks the server for: the players who are online, and the map of its dungeon. -/
structure World where
  players : Table Player.guid
  dungeonMapId : UInt32

/-- `ObjectAccessor::FindPlayer`. -/
def World.findPlayer (w : World) (guid : UInt64) : Option Player := w.players.find guid

/-- A group, with the table of the rows of all groups. -/
structure Group where
  dbStoreId : UInt32
  leaderGuid : UInt64
  leaderName : String
  groupType : UInt8
  isBGGroup : Bool
  isBFGroup : Bool
  memberSlots : List MemberSlot
  subGroupsCounts : Option (List UInt8)
  rows : Table MemberRow.memberGuid

namespace Group

/-- `Group::isLFGGroup`. -/
def isLFGGroup (g : Group) : Bool := g.groupType &&& groupTypeLFG ≠ 0

/-- `Group::isRaidGroup`. -/
def isRaidGroup (g : Group) : Bool := g.groupType &&& groupTypeRaid ≠ 0

/-- `Group::_getMemberWSlot`: the first slot of a player. -/
def getMemberWSlot (g : Group) (guid : UInt64) : Option MemberSlot :=
  g.memberSlots.find? fun s => s.guid = guid

/-- The number of references in `m_memberMgr`: one for each member who is online. -/
def memberMgrSize (g : Group) (w : World) : ℕ :=
  ((g.memberSlots.map MemberSlot.guid).dedup.filter fun guid => (w.findPlayer guid).isSome).length

/-- Write to the first slot of a player. -/
def modifySlot (guid : UInt64) (f : MemberSlot → MemberSlot) : List MemberSlot → List MemberSlot
  | [] => []
  | s :: slots => if s.guid = guid then f s :: slots else s :: modifySlot guid f slots

/-! ### Members -/

/-- `Group::_initRaidSubGroupsCounter`. -/
def initRaidSubGroupsCounter (g : Group) : Group :=
  { g with
    subGroupsCounts := some (g.memberSlots.foldl
      (fun counts s => counts.modify s.group.toNat (· + 1))
      (List.replicate maxRaidSubgroups 0)) }

/-- `Group::SubGroupCounterIncrease`. -/
def subGroupCounterIncrease (g : Group) (subgroup : UInt8) : Group :=
  { g with subGroupsCounts := g.subGroupsCounts.map (·.modify subgroup.toNat (· + 1)) }

/-- `Group::SubGroupCounterDecrease`. -/
def subGroupCounterDecrease (g : Group) (subgroup : UInt8) : Group :=
  { g with subGroupsCounts := g.subGroupsCounts.map (·.modify subgroup.toNat (· - 1)) }

/-- The first subgroup with a free place; without counters every member is in the first one. -/
def freeSubGroup (g : Group) : Option UInt8 :=
  match g.subGroupsCounts with
  | none => some 0
  | some counts =>
    ((List.range maxRaidSubgroups).find? fun i => counts.getD i 0 < maxGroupSize).map UInt8.ofNat

/-- `CHAR_INS_GROUP_MEMBER`: a player who has a row already gets no second one. -/
def insGroupMember (g : Group) (member : MemberSlot) : Group :=
  if (g.rows.find (lowPart member.guid)).isSome then g
  else
    { g with
      rows := g.rows.insert
        ⟨g.dbStoreId, lowPart member.guid, member.flags, member.group, member.roles⟩ }

/-- `Group::AddMember`: the group and the returned flag. -/
def addMember (g : Group) (player : Player) : Group × Bool :=
  match g.freeSubGroup with
  | none => (g, false)
  | some subGroup =>
    let member : MemberSlot := ⟨player.guid, player.name, subGroup, 0, 0⟩
    let g := { g with memberSlots := g.memberSlots ++ [member] }.subGroupCounterIncrease subGroup
    (if g.isBGGroup || g.isBFGroup then g else g.insGroupMember member, true)

/-- `Group::ToggleGroupMemberFlag`. -/
def toggleGroupMemberFlag (flag : UInt8) (apply : Bool) (slot : MemberSlot) : MemberSlot :=
  { slot with flags := if apply then slot.flags ||| flag else slot.flags &&& ~~~flag }

/-- Switch a flag of a player in his first slot. -/
def switchFlag (g : Group) (guid : UInt64) (flag : UInt8) (apply : Bool) : Group :=
  { g with memberSlots := modifySlot guid (toggleGroupMemberFlag flag apply) g.memberSlots }

/-- `Group::ChangeLeader`. -/
def changeLeader (g : Group) (w : World) (guid : UInt64) : Group :=
  match g.getMemberWSlot guid with
  | none => g
  | some slot =>
    match w.findPlayer slot.guid with
    | none => g
    | some player =>
      { g with leaderGuid := player.guid, leaderName := player.name }.switchFlag guid
        memberFlagAssistant false

/-- The part of `RemoveMember` that takes the slot out. -/
def eraseSlot (g : Group) (guid : UInt64) : Group :=
  match g.getMemberWSlot guid with
  | none => g
  | some slot =>
    { g with memberSlots := g.memberSlots.eraseP (·.guid = guid) }.subGroupCounterDecrease
      slot.group

/-- The part of `RemoveMember` that picks a new leader: the first member who is online. -/
def pickLeader (g : Group) (w : World) (guid : UInt64) : Group :=
  if g.leaderGuid = guid then
    match g.memberSlots.find? fun s => (w.findPlayer s.guid).isSome with
    | some s => g.changeLeader w s.guid
    | none => g
  else g

/-- Whether the last member of a dungeon group is left alone, so that the group goes. -/
def dungeonLeft (g : Group) (w : World) : Bool :=
  g.isLFGGroup && g.memberSlots.length = 1 &&
    match w.findPlayer g.leaderGuid with
    | none => true
    | some leader => w.dungeonMapId = 0 || (leader.isAlive && leader.mapId ≠ w.dungeonMapId)

/-- A group of at most this many members is disbanded when one leaves. -/
def smallCount (g : Group) : ℕ := if g.isBGGroup || g.isLFGGroup || g.isBFGroup then 1 else 2

/-- A group of fewer references is disbanded after a member has left. -/
def minReferences (g : Group) : ℕ := if g.isLFGGroup || g.isBGGroup then 1 else 2

/-- The part of `RemoveMember` that edits the row, the slots and the leader. -/
def takeOut (g : Group) (w : World) (guid : UInt64) : Group :=
  let g := if g.isBGGroup || g.isBFGroup then g
    else { g with rows := g.rows.erase (lowPart guid) }
  (g.eraseSlot guid).pickLeader w guid

/-- `Group::RemoveMember`; `none` is a group that is disbanded. -/
def removeMember (g : Group) (w : World) (guid : UInt64) (method : RemoveMethod) : Option Group :=
  if g.isLFGGroup ∧ method = .kick then some g
  else if g.memberSlots.length > g.smallCount then
    let g := g.takeOut w guid
    if g.dungeonLeft w ∨ g.memberMgrSize w < g.minReferences then none else some g
  else none

/-! ### Kinds and flags -/

/-- `Group::ConvertToLFG`. -/
def convertToLFG (g : Group) : Group :=
  { g with groupType := g.groupType ||| groupTypeLFG ||| groupTypeUnk1 }

/-- `Group::ConvertToRaid`. -/
def convertToRaid (g : Group) : Group :=
  { g with groupType := g.groupType ||| groupTypeRaid }.initRaidSubGroupsCounter

/-- `Group::RemoveUniqueGroupMemberFlag`. -/
def removeUniqueGroupMemberFlag (g : Group) (flag : UInt8) : Group :=
  { g with
    memberSlots := g.memberSlots.map fun s =>
      if s.flags &&& flag ≠ 0 then { s with flags := s.flags &&& ~~~flag } else s }

/-- `CHAR_UPD_GROUP_MEMBER_FLAG`. -/
def updGroupMemberFlag (g : Group) (guid : UInt64) (flags : UInt8) : Group :=
  { g with
    rows := g.rows.modify (lowPart guid) (fun row => { row with memberFlags := flags })
      fun _ => rfl }

/-- The part of `SetGroupMemberFlag` after its checks: the flag in the slot, then in the row. -/
def writeMemberFlag (g : Group) (guid : UInt64) (apply : Bool) (flag : UInt8) : Group :=
  let g := g.switchFlag guid flag apply
  match g.getMemberWSlot guid with
  | none => g
  | some slot => g.updGroupMemberFlag guid slot.flags

/-- `Group::SetGroupMemberFlag`. -/
def setGroupMemberFlag (g : Group) (guid : UInt64) (apply : Bool) (flag : UInt8) : Group :=
  if !g.isRaidGroup then g
  else
    match g.getMemberWSlot guid with
    | none => g
    | some _ =>
      if flag = memberFlagMainAssist then
        (g.removeUniqueGroupMemberFlag memberFlagMainAssist).writeMemberFlag guid apply flag
      else if flag = memberFlagMainTank then
        (g.removeUniqueGroupMemberFlag memberFlagMainTank).writeMemberFlag guid apply flag
      else if flag = memberFlagAssistant then g.writeMemberFlag guid apply flag
      else g

/-! ### Creation -/

/-- A group before `Create`: its kind, and the rows that other groups have. -/
structure Blank where
  dbStoreId : UInt32
  groupType : UInt8
  isBGGroup : Bool
  isBFGroup : Bool
  rows : Table MemberRow.memberGuid

/-- `Group::Create`; `none` when it returns false. -/
def create (b : Blank) (leader : Player) : Option Group :=
  let groupType := if b.isBGGroup || b.isBFGroup then groupTypeBGRaid else b.groupType
  let g : Group :=
    ⟨b.dbStoreId, leader.guid, leader.name, groupType, b.isBGGroup, b.isBFGroup, [], none, b.rows⟩
  let g := if g.isRaidGroup then g.initRaidSubGroupsCounter else g
  match g.addMember leader with
  | (g, true) => some g
  | (_, false) => none

end Group

/-- What may happen to a group. -/
inductive Op
  | addMember (player : Player)
  | removeMember (w : World) (guid : UInt64) (method : RemoveMethod)
  | changeLeader (w : World) (guid : UInt64)
  | disband
  | convertToLFG
  | convertToRaid
  | setGroupMemberFlag (guid : UInt64) (apply : Bool) (flag : UInt8)
  | removeUniqueGroupMemberFlag (flag : UInt8)

/-- The group after an operation. -/
def Group.exec (g : Group) : Op → Option Group
  | .addMember player => some (g.addMember player).1
  | .removeMember w guid method => g.removeMember w guid method
  | .changeLeader w guid => some (g.changeLeader w guid)
  | .disband => none
  | .convertToLFG => some g.convertToLFG
  | .convertToRaid => some g.convertToRaid
  | .setGroupMemberFlag guid apply flag => some (g.setGroupMemberFlag guid apply flag)
  | .removeUniqueGroupMemberFlag flag => some (g.removeUniqueGroupMemberFlag flag)

/-- One operation; nothing happens to a group that is disbanded. -/
def step : Option Group → Op → Option Group := Runs.stepOption Group.exec

end FaceCore.Groups
