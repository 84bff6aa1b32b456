import FaceCore.Group.Members
import FaceCore.Lib.RoundRobin
import FaceCore.Loot.Loot

/-!
# Whose turn it is to loot

`Group::UpdateLooterGuid`: in a group that loots in turns, the next member near the looted object
becomes the looter.

* `updateLooterGuid`: the function, with the two parts of its search;
* `TakesTurn`: what it should do to the looter;
* `looter_takes_turns`: it does, and so every member near the object has his turn.
-/

namespace FaceCore.Groups

open RoundRobin
open LootMgr (LootMethod)

/-- The looted object: the players who are online, and those of them who are within
`CONFIG_GROUP_XP_DISTANCE`. No player has the guid 0. -/
structure LootedObject where
  world : World
  isWithinDistInMap : Player → Bool
  noNull : world.findPlayer 0 = none

/-- A member is online and near the object. -/
def LootedObject.isNear (o : LootedObject) (guid : UInt64) : Bool :=
  match o.world.findPlayer guid with
  | some player => o.isWithinDistInMap player
  | none => false

/-- A group with `m_lootMethod` and `m_looterGuid`. Nobody is a member twice. -/
structure LootGroup where
  lootMethod : LootMethod
  looterGuid : UInt64
  memberSlots : List MemberSlot
  nodup : (memberSlots.map MemberSlot.guid).Nodup

namespace LootGroup

/-- The loot methods by which the members take turns. -/
def ByTurns (g : LootGroup) : Prop := g.lootMethod ≠ .masterLoot ∧ g.lootMethod ≠ .freeForAll

/-- The guids of the members, in the order of their slots. -/
def guids (g : LootGroup) : List UInt64 := g.memberSlots.map MemberSlot.guid

/-- The slot of the looter, or the end of the slots. -/
def looterSlot (g : LootGroup) : ℕ := g.memberSlots.findIdx fun s => s.guid = g.looterGuid

/-- The search of `UpdateLooterGuid`: next after current, then from start. -/
def searchLooter (g : LootGroup) (o : LootedObject) : Option MemberSlot :=
  let guidItr := if g.looterSlot < g.memberSlots.length then g.looterSlot + 1 else g.looterSlot
  ((g.memberSlots.drop guidItr).find? fun s => o.isNear s.guid).or
    ((g.memberSlots.take guidItr).find? fun s => o.isNear s.guid)

/-- `Group::UpdateLooterGuid`. -/
def updateLooterGuid (g : LootGroup) (o : LootedObject) (ifneed : Bool) : LootGroup :=
  if g.lootMethod = .masterLoot ∨ g.lootMethod = .freeForAll then g
  else if g.looterSlot < g.memberSlots.length ∧ ifneed = true ∧ o.isNear g.looterGuid = true then g
  else
    match g.searchLooter o with
    | some s => if g.looterGuid ≠ s.guid then { g with looterGuid := s.guid } else g
    | none => { g with looterGuid := 0 }

/-- What an update should do: the looter is the first member near the object in the cyclic order
after him, himself only if nobody else is near; in the order of the slots if he is no member; and 0
exactly if nobody is near. -/
structure TakesTurn (g g' : LootGroup) (o : LootedObject) : Prop where
  nobody : g'.looterGuid = 0 ↔ ∀ guid ∈ g.guids, o.isNear guid = false
  member : ∀ i (hi : i < g.guids.length), g.guids[i] = g.looterGuid →
    (∃ guid ∈ g.guids, o.isNear guid = true) → o.isNear g'.looterGuid = true ∧
      ∃ d, d < g.guids.length ∧ g.guids[(d + (i + 1)) % g.guids.length]? = some g'.looterGuid ∧
        ∀ e, e < d → ∀ guid, g.guids[(e + (i + 1)) % g.guids.length]? = some guid →
          o.isNear guid = false
  again : g.looterGuid ∈ g.guids → g'.looterGuid = g.looterGuid →
    ∀ guid ∈ g.guids, o.isNear guid = true → guid = g.looterGuid
  former : g.looterGuid ∉ g.guids → (∃ guid ∈ g.guids, o.isNear guid = true) →
    g.guids.find? o.isNear = some g'.looterGuid

variable {g : LootGroup} {o : LootedObject}

theorem isNear_zero (o : LootedObject) : o.isNear 0 = false := by
  rw [LootedObject.isNear, o.noNull]

theorem looterSlot_eq (g : LootGroup) : g.looterSlot = g.guids.idxOf g.looterGuid := by
  have hpred : ((· == g.looterGuid) ∘ MemberSlot.guid) =
      fun s : MemberSlot => decide (s.guid = g.looterGuid) := by
    funext s
    exact beq_eq_decide s.guid g.looterGuid
  rw [guids, List.idxOf, List.findIdx_map, hpred, looterSlot]

/-- The two parts of the search go through the turns after the looter. -/
theorem searchLooter_eq (g : LootGroup) (o : LootedObject) :
    (g.searchLooter o).map MemberSlot.guid = next g.guids o.isNear g.looterGuid := by
  have hlen : g.memberSlots.length = g.guids.length := (List.length_map _).symm
  have hfind : ∀ k, (((g.memberSlots.drop k).find? fun s => o.isNear s.guid).or
      ((g.memberSlots.take k).find? fun s => o.isNear s.guid)).map MemberSlot.guid =
        (g.guids.drop k ++ g.guids.take k).find? o.isNear := by
    intro k
    rw [Option.map_or, List.find?_append, guids, ← List.map_drop, ← List.map_take, List.find?_map,
      List.find?_map]
    rfl
  unfold searchLooter next turns
  dsimp only
  rw [hfind, looterSlot_eq, hlen]
  by_cases hmem : g.looterGuid ∈ g.guids
  · have hlt := List.idxOf_lt_length_iff.2 hmem
    rw [if_pos hlt, if_pos hmem, List.rotate_eq_drop_append_take hlt]
  · have hend := List.idxOf_eq_length hmem
    rw [hend, if_neg (lt_irrefl _), if_neg hmem, List.drop_length, List.take_length, List.nil_append]

theorem looterGuid_updateLooterGuid (h : g.ByTurns) :
    (g.updateLooterGuid o false).looterGuid = (next g.guids o.isNear g.looterGuid).getD 0 := by
  have hmethod : ¬ (g.lootMethod = .masterLoot ∨ g.lootMethod = .freeForAll) :=
    not_or.2 ⟨h.1, h.2⟩
  rw [← searchLooter_eq]
  unfold updateLooterGuid
  rw [if_neg hmethod, if_neg (by simp)]
  cases g.searchLooter o with
  | none => rfl
  | some s =>
    by_cases hs : g.looterGuid = s.guid
    · simp [hs]
    · simp [hs]

theorem updateLooterGuid_rest (g : LootGroup) (o : LootedObject) (ifneed : Bool) :
    (g.updateLooterGuid o ifneed).lootMethod = g.lootMethod ∧
      (g.updateLooterGuid o ifneed).memberSlots = g.memberSlots := by
  unfold updateLooterGuid
  split_ifs
  · exact ⟨rfl, rfl⟩
  · exact ⟨rfl, rfl⟩
  · split
    · split_ifs <;> exact ⟨rfl, rfl⟩
    · exact ⟨rfl, rfl⟩

theorem next_eq_looter (h : g.ByTurns) (hnear : ∃ guid ∈ g.guids, o.isNear guid = true) :
    next g.guids o.isNear g.looterGuid = some (g.updateLooterGuid o false).looterGuid := by
  rw [looterGuid_updateLooterGuid h]
  cases hnext : next g.guids o.isNear g.looterGuid with
  | none =>
    obtain ⟨guid, hmem, hn⟩ := hnear
    rw [next_eq_none_iff.1 hnext guid hmem] at hn
    cases hn
  | some guid => rfl

theorem updateLooterGuid_takesTurn (h : g.ByTurns) :
    TakesTurn g (g.updateLooterGuid o false) o where
  nobody := by
    constructor
    · intro hzero guid hmem
      by_contra hn
      have hnext := next_eq_looter h ⟨guid, hmem, Bool.of_not_eq_false hn⟩
      rw [hzero] at hnext
      have hnear := (next_mem hnext).2
      rw [isNear_zero] at hnear
      cases hnear
    · intro hnone
      rw [looterGuid_updateLooterGuid h, next_eq_none_iff.2 hnone, Option.getD_none]
  member i hi hlooter hnear := by
    have hnext := next_eq_looter h hnear
    rw [← hlooter] at hnext
    exact (next_getElem g.nodup hi).1 hnext
  again hmem hsame guid hguid hnear := by
    have hnext := next_eq_looter h ⟨guid, hguid, hnear⟩
    rw [hsame] at hnext
    exact eq_of_next_self g.nodup hmem hnext hguid hnear
  former hmem hnear := by
    have hnext := next_eq_looter h hnear
    rwa [next, turns_of_notMem hmem] at hnext

/-! ### Runs -/

/-- The group after some updates. -/
def updates (g : LootGroup) (os : List LootedObject) : LootGroup :=
  os.foldl (fun g o => g.updateLooterGuid o false) g

theorem updates_rest (g : LootGroup) (os : List LootedObject) :
    (g.updates os).lootMethod = g.lootMethod ∧ (g.updates os).memberSlots = g.memberSlots := by
  unfold updates
  induction os generalizing g with
  | nil => exact ⟨rfl, rfl⟩
  | cons o os ih =>
    obtain ⟨hmethod, hslots⟩ := updateLooterGuid_rest g o false
    rw [List.foldl_cons, ← hmethod, ← hslots]
    exact ih _

theorem updates_take_succ (g : LootGroup) (os : List LootedObject) {t : ℕ} (ht : t < os.length) :
    g.updates (os.take (t + 1)) = (g.updates (os.take t)).updateLooterGuid os[t] false := by
  rw [updates, List.take_succ_eq_append_getElem ht, List.foldl_append]
  rfl

/-- **Main result.** An update makes the looter the next member near the object; and while the same
members are near, each of them is the looter after exactly one of as many updates. -/
theorem looter_takes_turns (h : g.ByTurns) :
    (∀ o, TakesTurn g (g.updateLooterGuid o false) o) ∧
      ∀ (near : UInt64 → Bool) (os : List LootedObject),
        (∀ o ∈ os, ∀ guid ∈ g.guids, o.isNear guid = near guid) →
        os.length = (g.guids.filter near).length → ∀ guid ∈ g.guids, near guid = true →
          ∃! t, t < os.length ∧ (g.updates (os.take (t + 1))).looterGuid = guid := by
  refine ⟨fun o => updateLooterGuid_takesTurn h, fun near os hnear hlen guid hguid hn => ?_⟩
  rw [hlen]
  refine existsUnique_turn (f := fun t => (g.updates (os.take t)).looterGuid) g.nodup
    (fun t ht => ?_) (List.mem_filter.2 ⟨hguid, hn⟩)
  have hlt : t < os.length := hlen ▸ ht
  obtain ⟨hmethod, hslots⟩ := updates_rest g (os.take t)
  have hguids : (g.updates (os.take t)).guids = g.guids := by rw [guids, hslots, guids]
  have hturns : (g.updates (os.take t)).ByTurns := by rwa [ByTurns, hmethod]
  have hsame : ∀ x ∈ g.guids, os[t].isNear x = near x := hnear _ (List.getElem_mem hlt)
  have hnext := next_eq_looter hturns (o := os[t]) ⟨guid, hguids ▸ hguid, by rw [hsame _ hguid, hn]⟩
  rw [← updates_take_succ g os hlt, hguids] at hnext
  rw [← hnext]
  exact next_congr fun guid hguid => (hsame guid hguid).symm

/-- A group of three that has no looter yet. -/
def threeMembers : LootGroup where
  lootMethod := .groupLoot
  looterGuid := 0
  memberSlots := [⟨1, "Jaina", 0, 0, 0⟩, ⟨2, "Thrall", 0, 0, 0⟩, ⟨3, "Rexxar", 0, 0, 0⟩]
  nodup := by decide

/-- An object near the first and the third member; the second one is offline. -/
def kodo : LootedObject where
  world := ⟨⟨[⟨1, "Jaina", true, 1⟩, ⟨3, "Rexxar", true, 1⟩], by decide⟩, 0⟩
  isWithinDistInMap _ := true
  noNull := rfl

theorem kodo_isNear : ∀ guid ∈ threeMembers.guids, kodo.isNear guid = decide (guid ≠ 2) := by
  show ∀ guid ∈ [1, 2, 3], kodo.isNear guid = decide (guid ≠ 2)
  rw [List.forall_mem_cons, List.forall_mem_cons, List.forall_mem_singleton]
  exact ⟨rfl, rfl, rfl⟩

/-- After two updates the third member was the looter once. -/
theorem looter_takes_turns_sample : ∃! t, t < [kodo, kodo].length ∧
    (threeMembers.updates ([kodo, kodo].take (t + 1))).looterGuid = 3 :=
  (looter_takes_turns ⟨by decide, by decide⟩).2 (fun guid => guid ≠ 2) [kodo, kodo]
    (List.forall_mem_cons.2 ⟨kodo_isNear, List.forall_mem_singleton.2 kodo_isNear⟩)
    (by decide) 3 (by decide) rfl

end LootGroup

end FaceCore.Groups
