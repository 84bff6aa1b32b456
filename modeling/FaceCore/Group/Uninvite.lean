import FaceCore.DungeonFinding.Queue
import FaceCore.Group.Leadership

/-!
# Uninviting by name and by guid

A member is kicked, or an invitation taken back, by `HandleGroupUninviteOpcode` with a name or by
`HandleGroupUninviteGuidOpcode` with a guid.

* `normalizePlayerName`: names as they are compared;
* `Party`, `Call`: the group with its invitees and its votes, and what a request asks of it;
* `handleGroupUninviteGuidOpcode`, `handleGroupUninviteOpcode`: the two requests;
* `Agree`: they have the same effect, and leave the leader alone;
* `uninvite_agree_iff`: they do not for the leader, whom the second one kicks.

`LFGGroupScript::OnRemoveMember` is followed for the vote that it starts in a group of the dungeon
finder, and left out where it takes a leaver off the queues.
-/

namespace FaceCore.Groups

open DungeonFinding (LfgState LfgAnswer)

/-! ### Names -/

/-- `MAX_INTERNAL_PLAYER_NAME`. -/
def maxInternalPlayerName : ℕ := 15

def wcharToUpper (wchar : UInt16) : UInt16 :=
  if 0x61 ≤ wchar ∧ wchar ≤ 0x7A then wchar - 0x20
  else if wchar = 0xDF then 0x1E9E
  else if 0xE0 ≤ wchar ∧ wchar ≤ 0xF6 then wchar - 0x20
  else if 0xF8 ≤ wchar ∧ wchar ≤ 0xFE then wchar - 0x20
  else if 0x101 ≤ wchar ∧ wchar ≤ 0x12F ∧ wchar % 2 = 1 then wchar - 1
  else if 0x430 ≤ wchar ∧ wchar ≤ 0x44F then wchar - 0x20
  else if wchar = 0x451 then 0x401
  else wchar

def wcharToLower (wchar : UInt16) : UInt16 :=
  if 0x41 ≤ wchar ∧ wchar ≤ 0x5A then wchar + 0x20
  else if 0xC0 ≤ wchar ∧ wchar ≤ 0xD6 then wchar + 0x20
  else if 0xD8 ≤ wchar ∧ wchar ≤ 0xDE then wchar + 0x20
  else if 0x100 ≤ wchar ∧ wchar ≤ 0x12E ∧ wchar % 2 = 0 then wchar + 1
  else if wchar = 0x1E9E then 0xDF
  else if wchar = 0x401 then 0x451
  else if 0x410 ≤ wchar ∧ wchar ≤ 0x42F then wchar + 0x20
  else wchar

/-- `utf8::utf8to16` for one character. -/
def utf16Units (c : Char) : List UInt16 :=
  if c.toNat > 0xFFFF then
    [.ofNat (c.toNat / 2 ^ 10 + 0xD7C0), .ofNat (c.toNat % 2 ^ 10 + 0xDC00)]
  else [.ofNat c.toNat]

/-- `utf8::internal::is_lead_surrogate`. -/
def isLeadSurrogate (u : UInt16) : Bool := 0xD800 ≤ u ∧ u ≤ 0xDBFF

/-- `utf8::internal::is_trail_surrogate`. -/
def isTrailSurrogate (u : UInt16) : Bool := 0xDC00 ≤ u ∧ u ≤ 0xDFFF

/-- `utf8::utf16to8`; `none` where it throws. -/
def utf16Chars : List UInt16 → Option (List Char)
  | [] => some []
  | [u] => if isLeadSurrogate u ∨ isTrailSurrogate u then none else some [.ofNat u.toNat]
  | u :: v :: us =>
    if isLeadSurrogate u then
      if isTrailSurrogate v then
        (utf16Chars us).map
          (.ofNat ((u.toNat - 0xD800) * 2 ^ 10 + (v.toNat - 0xDC00) + 0x10000) :: ·)
      else none
    else if isTrailSurrogate u then none
    else (utf16Chars (v :: us)).map (.ofNat u.toNat :: ·)

/-- `normalizePlayerName`: the first letter upper case, the others lower case. The number of
characters is taken for the number of units. -/
def normalizePlayerName (name : String) : Option String :=
  if name.isEmpty ∨ name.length > maxInternalPlayerName then none
  else
    match (name.toList.flatMap utf16Units).take name.length with
    | [] => none
    | u :: us => (utf16Chars (wcharToUpper u :: us.map wcharToLower)).map .ofList

example : normalizePlayerName "aLICE" = some "Alice" := by decide +kernel

/-! ### The group -/

/-- `LFG_TIME_BOOT`. -/
def lfgTimeBoot : ℕ := 120

/-- `LFG_GROUP_KICK_VOTES_NEEDED`. -/
def lfgGroupKickVotesNeeded : ℕ := 3

/-- `LfgPlayerBoot`: a vote on a kick. -/
structure LfgPlayerBoot where
  cancelTime : ℕ
  inProgress : Bool
  votes : UInt64 → Option LfgAnswer
  victim : UInt64
  reason : String

/-- What `LFGMgr` stores for a group and its players. -/
structure LfgData where
  state : LfgState
  kicksLeft : UInt8
  players : List UInt64
  playerState : UInt64 → LfgState
  boot : Option LfgPlayerBoot

/-- `LFGMgr::InitBoot`. -/
def LfgData.initBoot (d : LfgData) (now : ℕ) (kicker victim : UInt64) (reason : String) : LfgData :=
  let votes : UInt64 → Option LfgAnswer := fun guid =>
    if guid = kicker then some .agree
    else if guid = victim then some .deny
    else if guid ∈ d.players then some .pending
    else d.boot.bind fun boot => boot.votes guid
  { d with
    state := .boot
    playerState := fun guid => if guid ∈ d.players then .boot else d.playerState guid
    boot := some ⟨now + lfgTimeBoot, true, votes, victim, reason⟩ }

/-- A group with `m_invitees`, and what the dungeon finder stores for it. -/
structure Party where
  group : Group
  invitees : Table Player.guid
  lfg : LfgData

/-- What else a request meets: the players who are online and those of them in combat, whether the
dungeon finder or the raid browser is enabled, whether loot is rolled for in the group, and whether
the player who asks is in a battleground. -/
structure Scene where
  world : World
  inCombat : UInt64 → Bool
  finderEnabled : Bool
  rollLootActive : Bool
  inBattleground : Bool
  now : ℕ

/-- The results that are sent when a member is uninvited. -/
inductive PartyResult
  | ok
  | targetNotInGroup
  | notLeader
  | inviteRestricted
  | lfgBootLimit
  | lfgBootInProgress
  | lfgBootTooFewPlayers
  | lfgBootInCombat
  | lfgBootDungeonComplete
  | lfgBootLootRolls
  deriving DecidableEq

/-- What a request asks of a group. -/
inductive Call
  | nothing
  | removeMember (guid kicker : UInt64) (reason : String)
  | uninvite (player : Player)

namespace Party

/-- `Group::IsMember`. -/
def isMember (p : Party) (guid : UInt64) : Bool := (p.group.getMemberWSlot guid).isSome

/-- `Group::IsAssistant`. -/
def isAssistant (p : Party) (guid : UInt64) : Bool :=
  match p.group.getMemberWSlot guid with
  | none => false
  | some slot => slot.flags &&& memberFlagAssistant ≠ 0

/-- `Group::GetMemberGUID`. -/
def getMemberGUID (p : Party) (name : String) : UInt64 :=
  match p.group.memberSlots.find? fun s => s.name = name with
  | none => 0
  | some slot => slot.guid

/-- `Group::GetInvited` with a name. -/
def getInvited (p : Party) (name : String) : Option Player :=
  p.invitees.toList.find? fun player => player.name = name

/-- `Player::CanUninviteFromGroup` for a player in the group. -/
def canUninviteFromGroup (p : Party) (sc : Scene) (requester : Player) : PartyResult :=
  if p.group.isLFGGroup then
    if p.lfg.kicksLeft = 0 then .lfgBootLimit
    else if p.lfg.state = .boot then .lfgBootInProgress
    else if p.group.memberSlots.length ≤ lfgGroupKickVotesNeeded then .lfgBootTooFewPlayers
    else if p.lfg.state = .finishedDungeon then .lfgBootDungeonComplete
    else if sc.rollLootActive then .lfgBootLootRolls
    else if p.group.memberSlots.any fun s =>
        (sc.world.findPlayer s.guid).isSome && sc.inCombat s.guid then .lfgBootInCombat
    else .ok
  else if p.group.leaderGuid ≠ requester.guid ∧ !p.isAssistant requester.guid then .notLeader
  else if sc.inBattleground then .inviteRestricted
  else .ok

/-- `Group::RemoveMember` of a member who is kicked, with the vote that `OnRemoveMember` starts
instead in a group of the dungeon finder; `none` is a group that is disbanded. -/
def removeMember (p : Party) (sc : Scene) (guid kicker : UInt64) (reason : String) : Option Party :=
  let lfg := if p.group.isLFGGroup && sc.finderEnabled then p.lfg.initBoot sc.now kicker guid reason
    else p.lfg
  (p.group.removeMember sc.world guid .kick).map fun group => { p with group := group, lfg := lfg }

/-- `Player::UninviteFromGroup`. -/
def uninviteFromGroup (p : Party) (player : Player) : Option Party :=
  let p := { p with invitees := p.invitees.erase player.guid }
  if p.group.memberSlots.length ≤ 1 then none else some p

/-- The group after a request. -/
def run (p : Party) (sc : Scene) : Call → Option Party
  | .nothing => some p
  | .removeMember guid kicker reason => p.removeMember sc guid kicker reason
  | .uninvite player => p.uninviteFromGroup player

/-! ### The requests -/

/-- `HandleGroupUninviteGuidOpcode`: the result that is sent with a name, and the call. -/
def handleGroupUninviteGuidOpcode (p : Party) (sc : Scene) (requester : Player) (guid : UInt64)
    (reason : String) : Option (String × PartyResult) × Call :=
  if guid = requester.guid then (none, .nothing)
  else if p.canUninviteFromGroup sc requester ≠ .ok then
    (some ("", p.canUninviteFromGroup sc requester), .nothing)
  else if p.group.leaderGuid = guid then (some ("", .notLeader), .nothing)
  else if p.isMember guid then (none, .removeMember guid requester.guid reason)
  else
    match p.invitees.find guid with
    | some player => (none, .uninvite player)
    | none => (some ("", .targetNotInGroup), .nothing)

/-- `HandleGroupUninviteOpcode`. -/
def handleGroupUninviteOpcode (p : Party) (sc : Scene) (requester : Player) (membername : String) :
    Option (String × PartyResult) × Call :=
  match normalizePlayerName membername with
  | none => (none, .nothing)
  | some membername =>
    if requester.name = membername then (none, .nothing)
    else if p.canUninviteFromGroup sc requester ≠ .ok then
      (some ("", p.canUninviteFromGroup sc requester), .nothing)
    else if p.getMemberGUID membername ≠ 0 then
      (none, .removeMember (p.getMemberGUID membername) requester.guid "")
    else
      match p.getInvited membername with
      | some player => (none, .uninvite player)
      | none => (some (membername, .targetNotInGroup), .nothing)

/-! ### Effects -/

/-- What becomes of a player. -/
inductive Effect
  | none
  | removed (guid : UInt64)
  | vote (victim : UInt64)
  | uninvited (guid : UInt64)
  deriving DecidableEq

/-- Whether a kick does nothing: in a group of the dungeon finder it starts a vote, if this is
enabled. -/
def idle (p : Party) (sc : Scene) : Bool := p.group.isLFGGroup && !sc.finderEnabled

/-- The effect of a request. -/
def effect (p : Party) (sc : Scene) : Call → Effect
  | .nothing => .none
  | .removeMember guid _ _ =>
    if p.idle sc then .none else if p.group.isLFGGroup then .vote guid else .removed guid
  | .uninvite player => .uninvited player.guid

/-- A group without the text that goes with a vote. -/
def withoutReason (p : Party) : Party :=
  { p with lfg := { p.lfg with boot := p.lfg.boot.map fun boot => { boot with reason := "" } } }

/-- The leader stays: he is not removed, and if there is a group afterwards, he still leads it. -/
structure LeaderStays (p : Party) (sc : Scene) (call : Call) : Prop where
  effect : p.effect sc call ≠ .removed p.group.leaderGuid
  leader : ∀ p', p.run sc call = some p' → p'.group.leaderGuid = p.group.leaderGuid
  member : ∀ p', p.run sc call = some p' → p.group.LeaderIsMember → p'.group.LeaderIsMember

section

variable {p p' : Party} {sc : Scene} {requester player : Player} {guid kicker : UInt64}
  {reason reason' name : String} {call : Call}

theorem leaderGuid_removeMember {g g' : Group} {w : World} {method : RemoveMethod}
    (hne : g.leaderGuid ≠ guid) (h : g.removeMember w guid method = some g') :
    g'.leaderGuid = g.leaderGuid := by
  have htake : (g.takeOut w guid).leaderGuid = g.leaderGuid := by
    unfold Group.takeOut
    dsimp only
    split_ifs with hrows
    all_goals
      rw [Group.pickLeader, if_neg]
      · exact Group.leaderGuid_eraseSlot
      · rwa [Group.leaderGuid_eraseSlot]
  unfold Group.removeMember at h
  dsimp only at h
  split_ifs at h
  · exact congrArg Group.leaderGuid (Option.some.inj h).symm
  · exact Option.some.inj h ▸ htake

theorem run_of_effect_none (h : p.effect sc call = .none) : p.run sc call = some p := by
  cases call with
  | nothing => rfl
  | removeMember guid kicker reason =>
    by_cases hidle : p.idle sc
    · obtain ⟨hlfg, hoff⟩ := Bool.and_eq_true_iff.1 hidle
      rw [Bool.not_eq_true'] at hoff
      simp [run, removeMember, Group.removeMember, hlfg, hoff]
    · simp only [effect, if_neg hidle] at h
      split_ifs at h
  | uninvite player => cases h

theorem effect_removeMember_eq_none :
    p.effect sc (.removeMember guid kicker reason) = .none ↔ p.idle sc = true := by
  simp only [effect]
  split_ifs with hidle hlfg <;> simp [hidle]

theorem effect_removeMember_ne_uninvited (guid' : UInt64) :
    p.effect sc (.removeMember guid kicker reason) ≠ .uninvited guid' := by
  simp only [effect]
  split_ifs <;> exact nofun

/-- A kick has an effect of its own on each player, unless kicks do nothing. -/
theorem effect_removeMember_eq_iff {guid' : UInt64} :
    p.effect sc (.removeMember guid kicker reason) =
        p.effect sc (.removeMember guid' kicker reason') ↔ p.idle sc = true ∨ guid = guid' := by
  simp only [effect]
  split_ifs with hidle hlfg
  · simp [hidle]
  · simp [hidle]
  · simp [hidle]

theorem map_withoutReason_removeMember :
    (p.removeMember sc guid kicker reason).map withoutReason =
      (p.removeMember sc guid kicker reason').map withoutReason := by
  simp only [removeMember, Option.map_map]
  congr 1
  funext group
  simp only [Function.comp_apply, withoutReason]
  split_ifs
  · rfl
  · rfl

/-- A leader who is not removed stays. -/
theorem leaderStays_of_effect (h : p.effect sc call ≠ .removed p.group.leaderGuid) :
    p.LeaderStays sc call := by
  refine ⟨h, fun p' hrun => ?_, fun p' hrun hmember => ?_⟩
  · cases call with
    | nothing =>
      obtain rfl := Option.some.inj hrun
      rfl
    | removeMember guid kicker reason =>
      obtain ⟨group, hgroup, rfl⟩ := Option.map_eq_some_iff.1 hrun
      by_cases hlfg : p.group.isLFGGroup
      · rw [Group.removeMember, if_pos ⟨hlfg, rfl⟩] at hgroup
        exact congrArg Group.leaderGuid (Option.some.inj hgroup).symm
      · -- outside the dungeon finder the member leaves, who is not the leader
        have hne : p.group.leaderGuid ≠ guid := by
          simp only [effect, idle, hlfg, Bool.false_and, Bool.false_eq_true, if_false] at h
          exact fun heq => h (heq ▸ rfl)
        exact leaderGuid_removeMember hne hgroup
    | uninvite player =>
      simp only [run, uninviteFromGroup] at hrun
      split_ifs at hrun
      obtain rfl := Option.some.inj hrun
      rfl
  · cases call with
    | nothing => exact Option.some.inj hrun ▸ hmember
    | removeMember guid kicker reason =>
      obtain ⟨group, hgroup, rfl⟩ := Option.map_eq_some_iff.1 hrun
      exact hmember.removeMember hgroup
    | uninvite player =>
      simp only [run, uninviteFromGroup] at hrun
      split_ifs at hrun
      obtain rfl := Option.some.inj hrun
      exact hmember

end

/-! ### Whom a request is about -/

/-- Whom a name or a guid leads to. -/
inductive Target
  | nobody
  | member (guid : UInt64)
  | invitee (player : Player)

/-- What is asked of the group about a target. -/
def Target.call (requester : Player) (reason : String) : Target → Call
  | .nobody => .nothing
  | .member guid => .removeMember guid requester.guid reason
  | .invitee player => .uninvite player

/-- Whom a name leads to: the first member with this name, or else the first invitee; nobody if it
is the name of the player who asks. -/
def named (p : Party) (requester : Player) (name : String) : Target :=
  match normalizePlayerName name with
  | none => .nobody
  | some name =>
    if requester.name = name then .nobody
    else if p.getMemberGUID name ≠ 0 then .member (p.getMemberGUID name)
    else
      match p.getInvited name with
      | some player => .invitee player
      | none => .nobody

/-- The member, or else the invitee, with a guid. -/
def withGuid (p : Party) (guid : UInt64) : Target :=
  if p.isMember guid then .member guid
  else
    match p.invitees.find guid with
    | some player => .invitee player
    | none => .nobody

/-- A member or an invitee with his name, other than the player who asks. -/
structure Uninvitee (p : Party) (requester : Player) where
  guid : UInt64
  name : String
  known : (∃ slot ∈ p.group.memberSlots, slot.guid = guid ∧ slot.name = name) ∨
    ∃ player ∈ p.invitees, player.guid = guid ∧ player.name = name
  other : guid ≠ requester.guid

section

variable {p : Party} {sc : Scene} {requester : Player} {guid : UInt64} {name reason : String}

theorem call_handleGroupUninviteGuidOpcode (hother : guid ≠ requester.guid) :
    (p.handleGroupUninviteGuidOpcode sc requester guid reason).2 =
      if p.canUninviteFromGroup sc requester ≠ .ok ∨ p.group.leaderGuid = guid then .nothing
      else (p.withGuid guid).call requester reason := by
  unfold handleGroupUninviteGuidOpcode withGuid
  rw [if_neg hother]
  by_cases hrefused : p.canUninviteFromGroup sc requester ≠ .ok
  · rw [if_pos hrefused, if_pos (.inl hrefused)]
  by_cases hleader : p.group.leaderGuid = guid
  · rw [if_neg hrefused, if_pos hleader, if_pos (.inr hleader)]
  rw [if_neg hrefused, if_neg hleader, if_neg (not_or.2 ⟨hrefused, hleader⟩)]
  split_ifs
  · rfl
  · cases p.invitees.find guid <;> rfl

theorem call_handleGroupUninviteOpcode :
    (p.handleGroupUninviteOpcode sc requester name).2 =
      if p.canUninviteFromGroup sc requester ≠ .ok then .nothing
      else (p.named requester name).call requester "" := by
  unfold handleGroupUninviteOpcode named
  cases normalizePlayerName name with
  | none => exact (ite_self _).symm
  | some name =>
    dsimp only
    split_ifs
    · rfl
    · rfl
    · rfl
    · rfl
    · cases p.getInvited name <;> rfl

theorem mem_of_named {player : Player} (h : p.named requester name = .invitee player) :
    player ∈ p.invitees := by
  unfold named at h
  cases hname : normalizePlayerName name with
  | none =>
    rw [hname] at h
    cases h
  | some name =>
    rw [hname] at h
    dsimp only at h
    split_ifs at h
    cases hinvited : p.getInvited name with
    | none =>
      rw [hinvited] at h
      cases h
    | some player' =>
      rw [hinvited] at h
      cases h
      exact List.mem_of_find?_eq_some hinvited

theorem Uninvitee.withGuid_cases (t : Uninvitee p requester) :
    (p.isMember t.guid = true ∧ p.withGuid t.guid = .member t.guid) ∨
      ∃ player ∈ p.invitees, player.guid = t.guid ∧ p.isMember t.guid = false ∧
        p.withGuid t.guid = .invitee player := by
  unfold withGuid
  cases hmember : p.isMember t.guid with
  | true => exact .inl ⟨rfl, rfl⟩
  | false =>
    obtain ⟨slot, hslot, hguid, -⟩ | ⟨player, hplayer, hguid, -⟩ := t.known
    · have hnone : p.group.getMemberWSlot t.guid = none := Option.not_isSome_iff_eq_none.1 fun h => by
        rw [isMember, h] at hmember
        cases hmember
      exact absurd (decide_eq_true hguid) (List.find?_eq_none.1 hnone slot hslot)
    · refine .inr ⟨player, hplayer, hguid, rfl, ?_⟩
      rw [← hguid, Table.find_key hplayer]
      rfl

/-- Two targets about whom the same is asked with the same effect leave the same group. -/
theorem run_congr {t t' : Target} {reason' : String}
    (h : p.effect sc (t.call requester reason) = p.effect sc (t'.call requester reason')) :
    (p.run sc (t.call requester reason)).map withoutReason =
      (p.run sc (t'.call requester reason')).map withoutReason := by
  by_cases hnone : p.effect sc (t.call requester reason) = .none
  · rw [run_of_effect_none hnone, run_of_effect_none (h ▸ hnone)]
  cases t with
  | nobody => exact absurd rfl hnone
  | member guid =>
    cases t' with
    | nobody => exact absurd h hnone
    | member guid' =>
      have hidle : ¬ p.idle sc = true := fun hidle => hnone (effect_removeMember_eq_none.2 hidle)
      obtain rfl := (effect_removeMember_eq_iff.1 h).resolve_left hidle
      exact map_withoutReason_removeMember
    | invitee player => exact absurd h (effect_removeMember_ne_uninvited _)
  | invitee player =>
    cases t' with
    | nobody => exact absurd h hnone
    | member guid' => exact absurd h.symm (effect_removeMember_ne_uninvited _)
    | invitee player' =>
      simp only [Target.call, effect, Effect.uninvited.injEq] at h
      simp only [Target.call, run, uninviteFromGroup, h]

end

/-! ### The two requests -/

/-- The call for a member or invitee by his name. -/
def callByName (p : Party) (sc : Scene) (requester : Player) (t : Uninvitee p requester) : Call :=
  (p.handleGroupUninviteOpcode sc requester t.name).2

/-- The call for him by his guid. -/
def callByGuid (p : Party) (sc : Scene) (requester : Player) (t : Uninvitee p requester)
    (reason : String) : Call :=
  (p.handleGroupUninviteGuidOpcode sc requester t.guid reason).2

/-- Both requests have the same effect, they leave the same group but for the text that goes with a
vote, and in both the leader stays. -/
structure Agree (p : Party) (sc : Scene) (requester : Player) (t : Uninvitee p requester)
    (reason : String) : Prop where
  effect : p.effect sc (p.callByName sc requester t) =
    p.effect sc (p.callByGuid sc requester t reason)
  run : (p.run sc (p.callByName sc requester t)).map withoutReason =
    (p.run sc (p.callByGuid sc requester t reason)).map withoutReason
  staysByName : p.LeaderStays sc (p.callByName sc requester t)
  staysByGuid : p.LeaderStays sc (p.callByGuid sc requester t reason)

/-- The request is refused; or it is not about the leader, and the name leads to the same player as
the guid; or it is about the leader, and the name leads to nobody; or kicks do nothing, and the name
does not lead to an invitee although the guid is a member's or the leader's. -/
def NameRight (p : Party) (sc : Scene) (requester : Player) (t : Uninvitee p requester) : Prop :=
  p.canUninviteFromGroup sc requester ≠ .ok ∨
    (t.guid ≠ p.group.leaderGuid ∧ p.named requester t.name = p.withGuid t.guid) ∨
    (t.guid = p.group.leaderGuid ∧ p.named requester t.name = .nobody) ∨
    (p.idle sc = true ∧ (p.isMember t.guid = true ∨ t.guid = p.group.leaderGuid) ∧
      ∀ player, p.named requester t.name ≠ .invitee player)

section

variable {p : Party} {sc : Scene} {requester : Player} {t : Uninvitee p requester}
  {reason : String}

theorem callByName_eq (hok : p.canUninviteFromGroup sc requester = .ok) :
    p.callByName sc requester t = (p.named requester t.name).call requester "" := by
  rw [callByName, call_handleGroupUninviteOpcode, if_neg (not_not.2 hok)]

theorem callByGuid_eq_of_ne (hok : p.canUninviteFromGroup sc requester = .ok)
    (hne : t.guid ≠ p.group.leaderGuid) :
    p.callByGuid sc requester t reason = (p.withGuid t.guid).call requester reason := by
  rw [callByGuid, call_handleGroupUninviteGuidOpcode t.other, if_neg]
  rintro (hrefused | hleader)
  · exact hrefused hok
  · exact hne hleader.symm

theorem callByGuid_eq_nothing (hleader : t.guid = p.group.leaderGuid) :
    p.callByGuid sc requester t reason = .nothing := by
  rw [callByGuid, call_handleGroupUninviteGuidOpcode t.other, if_pos (.inr hleader.symm)]

theorem staysByGuid (p : Party) (sc : Scene) (requester : Player) (t : Uninvitee p requester)
    (reason : String) : p.LeaderStays sc (p.callByGuid sc requester t reason) := by
  apply leaderStays_of_effect
  rw [callByGuid, call_handleGroupUninviteGuidOpcode t.other]
  split_ifs with hnothing
  · exact nofun
  · rcases t.withGuid_cases with ⟨-, heq⟩ | ⟨player, -, -, -, heq⟩
    · rw [heq]
      simp only [Target.call, Party.effect]
      split_ifs
      · exact nofun
      · exact nofun
      · exact fun h => hnothing (.inr (Effect.removed.inj h).symm)
    · rw [heq]
      exact nofun

/-- When requests are granted, the effects are the same exactly if the name is right. -/
theorem effect_eq_iff (hok : p.canUninviteFromGroup sc requester = .ok) :
    p.effect sc (p.callByName sc requester t) = p.effect sc (p.callByGuid sc requester t reason) ↔
      p.NameRight sc requester t := by
  have hrefused : ¬ p.canUninviteFromGroup sc requester ≠ .ok := not_not.2 hok
  rw [NameRight, or_iff_right hrefused, callByName_eq hok]
  by_cases hleader : t.guid = p.group.leaderGuid
  · rw [callByGuid_eq_nothing hleader]
    cases hnamed : p.named requester t.name with
    | nobody => simp [hleader, Target.call]
    | member guid =>
      refine effect_removeMember_eq_none.trans ?_
      simp [hleader]
    | invitee player => simp [hleader, Target.call, Party.effect]
  · rw [callByGuid_eq_of_ne hok hleader]
    rcases t.withGuid_cases with ⟨hmember, heq⟩ | ⟨player, hplayer, hguid, hmember, heq⟩
    · rw [heq]
      cases hnamed : p.named requester t.name with
      | nobody =>
        refine eq_comm.trans (effect_removeMember_eq_none.trans ?_)
        simp [hleader, hmember]
      | member guid =>
        refine effect_removeMember_eq_iff.trans ?_
        simp [hleader, hmember, or_comm]
      | invitee player =>
        refine iff_of_false (effect_removeMember_ne_uninvited _).symm ?_
        simp [hleader]
    · rw [heq]
      cases hnamed : p.named requester t.name with
      | nobody => simp [hleader, hmember, Target.call, Party.effect]
      | member guid =>
        refine iff_of_false (effect_removeMember_ne_uninvited _) ?_
        simp [hleader, hmember]
      | invitee player' =>
        -- two invitees with one guid are the same player
        have hsame : player'.guid = player.guid ↔ player' = player :=
          ⟨Table.eq_of_key_eq (mem_of_named hnamed) hplayer, congrArg Player.guid⟩
        simp [hleader, hmember, Target.call, Party.effect, hsame]

/-- **Main result.** Uninviting by name and by guid agree, and leave the leader alone, if and only if
the name is right. -/
theorem uninvite_agree_iff (p : Party) (sc : Scene) (requester : Player) (t : Uninvitee p requester)
    (reason : String) : p.Agree sc requester t reason ↔ p.NameRight sc requester t := by
  by_cases hok : p.canUninviteFromGroup sc requester = .ok
  · refine ⟨fun h => (effect_eq_iff hok).1 h.effect, fun h => ?_⟩
    have heffect : p.effect sc (p.callByName sc requester t) =
        p.effect sc (p.callByGuid sc requester t reason) := (effect_eq_iff hok).2 h
    have hstays := p.staysByGuid sc requester t reason
    refine ⟨heffect, ?_, leaderStays_of_effect (heffect ▸ hstays.effect), hstays⟩
    rw [callByName_eq hok] at heffect ⊢
    -- nobody is removed if the guid is that of the leader
    by_cases hleader : t.guid = p.group.leaderGuid
    · rw [callByGuid_eq_nothing hleader] at heffect ⊢
      have hnobody : p.effect sc (Target.call requester "" (p.named requester t.name)) =
        p.effect sc (Target.call requester reason .nobody) := heffect
      exact run_congr hnobody
    · rw [callByGuid_eq_of_ne hok hleader] at heffect ⊢
      exact run_congr heffect
  · -- without the right neither request does anything
    have hname : p.callByName sc requester t = .nothing := by
      rw [callByName, call_handleGroupUninviteOpcode, if_pos hok]
    have hguid : p.callByGuid sc requester t reason = .nothing := by
      rw [callByGuid, call_handleGroupUninviteGuidOpcode t.other, if_pos (.inl hok)]
    have hstays := p.staysByGuid sc requester t reason
    refine iff_of_true ⟨?_, ?_, ?_, hstays⟩ (.inl hok)
    · rw [hname, hguid]
    · rw [hname, hguid]
    · rwa [hname, ← hguid]

end

end Party

/-! ### An assistant who kicks the leader -/

namespace Mutiny

def anna : Player := ⟨1, "Anna", true, 0⟩
def bert : Player := ⟨2, "Bert", true, 0⟩
def carl : Player := ⟨3, "Carl", true, 0⟩

/-- A raid that Anna leads, with Bert as her assistant. -/
def raid : Party where
  group :=
    { dbStoreId := 1
      leaderGuid := 1
      leaderName := "Anna"
      groupType := groupTypeRaid
      isBGGroup := false
      isBFGroup := false
      memberSlots := [⟨1, "Anna", 0, 0, 0⟩, ⟨2, "Bert", 0, memberFlagAssistant, 0⟩,
        ⟨3, "Carl", 0, 0, 0⟩]
      subGroupsCounts := some [3, 0, 0, 0, 0, 0, 0, 0]
      rows := .empty _ }
  invitees := .empty _
  lfg := ⟨.none, 3, [], fun _ => .none, none⟩

/-- All of them are online. -/
def scene : Scene := ⟨⟨⟨[anna, bert, carl], by decide⟩, 0⟩, fun _ => false, true, false, false, 0⟩

def target : raid.Uninvitee bert := ⟨1, "Anna", .inl (by decide), by decide⟩

end Mutiny

open Mutiny in
/-- By her guid the assistant cannot kick her, by her name he can, and he leads the raid then. -/
theorem assistant_takes_over :
    ¬ raid.Agree scene bert target "" ∧
      (raid.run scene (raid.callByName scene bert target)).map (·.group.leaderGuid) = some 2 := by
  refine ⟨fun h => ?_, by decide +kernel⟩
  have heffect := h.effect
  revert heffect
  decide +kernel

end FaceCore.Groups
