import FaceCore.DungeonFinding.Queue

/-!
# The choice of roles is exact

`CheckGroupRoles` on the map of the players of a group: when it finds roles, when it does not, and
what it leaves in the map.

* `RolesExact`: it finds a choice exactly if there is one, leaves this choice in the map, and leaves
  the map as it is, without the flag of the leader, if there is none;
* `PartlyChosen`: a choice for some of the players only;
* `checkGroupRoles_exact_iff`: the only choices that it takes wrongly for one of all players are such
  of as many players as there are in eight bits.
-/

namespace FaceCore.DungeonFinding

namespace LfgRolesMap

/-- The players, in the order of their guids. -/
def players (groles : LfgRolesMap) : List ℕ := groles.entries.map Prod.fst

/-- Their masks. -/
def masks (groles : LfgRolesMap) : List UInt8 := groles.entries.map Prod.snd

variable {groles : LfgRolesMap}

/-- Values that are put back to the players of a map. -/
theorem entries_putBack {l : List UInt8} (hlen : l.length = groles.entries.length) :
    (groles.mapEntries fun guid mask => ((groles.players.zip l).lookup guid).getD mask).entries =
      groles.players.zip l := by
  have hplayers : groles.players.length = groles.entries.length := List.length_map _
  have hsorted : (groles.players.zip l).Pairwise fun a b => a.1 < b.1 := by
    have hkeys : groles.players.Pairwise (· < ·) := List.pairwise_map.2 groles.sorted
    have hfst : (groles.players.zip l).map Prod.fst = groles.players :=
      List.map_fst_zip (by omega)
    rw [← hfst] at hkeys
    exact List.pairwise_map.1 hkeys
  refine List.ext_getElem (by simp [SortedMap.mapEntries, hplayers, hlen]) fun i hi hi' => ?_
  have hlt : i < groles.entries.length := by simpa [SortedMap.mapEntries] using hi
  have hmem : (groles.players.zip l)[i] ∈ groles.players.zip l := List.getElem_mem hi'
  have hfind := SortedMap.find_of_mem (m := ⟨groles.players.zip l, hsorted⟩) hmem
  have hkey : groles.players[i] = groles.entries[i].1 := List.getElem_map _
  simp only [SortedMap.find, List.getElem_zip, hkey] at hfind
  simp [SortedMap.mapEntries, hfind, hkey]

theorem length_masks (groles : LfgRolesMap) : groles.masks.length = groles.entries.length :=
  List.length_map _

theorem checkGroupRoles_masks (hne : groles.masks ≠ []) :
    groles.checkGroupRoles.1 = (DungeonFinding.checkGroupRoles groles.masks).1 ∧
      groles.checkGroupRoles.2.players = groles.players ∧
      groles.checkGroupRoles.2.masks = (DungeonFinding.checkGroupRoles groles.masks).2 := by
  obtain ⟨-, htrue, hfalse⟩ := checkGroupRoles_spec hne
  have hlen : (DungeonFinding.checkGroupRoles groles.masks).2.length = groles.entries.length := by
    cases hfound : (DungeonFinding.checkGroupRoles groles.masks).1 with
    | true => rw [(htrue hfound).1.length, List.length_map, length_masks]
    | false => rw [hfalse hfound, List.length_map, length_masks]
  have hplayers : groles.players.length = groles.entries.length := List.length_map _
  have hentries := entries_putBack hlen
  refine ⟨rfl, ?_, ?_⟩
  · show (LfgRolesMap.checkGroupRoles groles).2.entries.map Prod.fst = _
    rw [LfgRolesMap.checkGroupRoles]
    exact (congrArg (List.map Prod.fst) hentries).trans (List.map_fst_zip (by omega))
  · show (LfgRolesMap.checkGroupRoles groles).2.entries.map Prod.snd = _
    rw [LfgRolesMap.checkGroupRoles]
    exact (congrArg (List.map Prod.snd) hentries).trans (List.map_snd_zip (by omega))

/-- What `CheckGroupRoles` should do: it returns true exactly if roles can be chosen, the map holds
such a choice then, and otherwise it loses nothing but the flag of the leader. -/
structure RolesExact (groles : LfgRolesMap) : Prop where
  found : groles.checkGroupRoles.1 = true ↔ Satisfiable groles.masks
  players : groles.checkGroupRoles.2.players = groles.players
  choice : groles.checkGroupRoles.1 = true → Chosen groles.masks groles.checkGroupRoles.2.masks
  kept : groles.checkGroupRoles.1 = false →
    groles.checkGroupRoles.2 = groles.mapEntries fun _ mask => mask &&& ~~~playerRoleLeader

/-- Every player can be left some of his roles so that so many of them have one role alone, not more
of each role than are needed. -/
def PartlyChosen (groles : LfgRolesMap) (k : ℕ) : Prop :=
  ∃ masks', Reduces (groles.masks.map (· &&& ~~~playerRoleLeader)) masks' ∧ Fits k masks'

/-- The function returns true exactly if there is a choice for as many players as eight bits tell. -/
theorem checkGroupRoles_found_iff (hne : groles.masks ≠ []) :
    groles.checkGroupRoles.1 = true ↔ groles.PartlyChosen (groles.entries.length % 2 ^ 8) := by
  obtain ⟨hfound, -, -⟩ := checkGroupRoles_spec hne
  rwa [← (checkGroupRoles_masks hne).1, length_masks] at hfound

theorem length_le_of_satisfiable (hflags : ∀ m ∈ groles.masks, m &&& 0xF0 = 0)
    (h : Satisfiable groles.masks) : groles.entries.length ≤ 5 := by
  obtain ⟨roles, hchosen⟩ := h
  rw [← length_masks]
  exact hchosen.length_le hflags

theorem eq_mapEntries {groles' : LfgRolesMap} {f : UInt8 → UInt8}
    (hplayers : groles'.players = groles.players) (hmasks : groles'.masks = groles.masks.map f) :
    groles' = groles.mapEntries fun _ mask => f mask := by
  refine SortedMap.ext_entries ?_
  have hzip : ∀ m : LfgRolesMap, m.players.zip m.masks = m.entries := fun m =>
    (List.zip_of_prod rfl rfl).symm
  rw [← hzip groles', hplayers, hmasks, ← hzip (groles.mapEntries fun _ mask => f mask)]
  congr 1
  · simp [players, SortedMap.mapEntries]
  · simp [masks, SortedMap.mapEntries]

/-- **Main result.** `CheckGroupRoles` is exact for a map of masks with no other flags than the four if
and only if there are fewer than 256 players, or there is no choice for exactly as many of them as
their number is in eight bits. -/
theorem checkGroupRoles_exact_iff (hne : groles.masks ≠ [])
    (hflags : ∀ m ∈ groles.masks, m &&& 0xF0 = 0) :
    RolesExact groles ↔ groles.entries.length < 2 ^ 8 ∨
      ¬ groles.PartlyChosen (groles.entries.length % 2 ^ 8) := by
  obtain ⟨hresult, hplayers, hmasks⟩ := checkGroupRoles_masks hne
  obtain ⟨-, htrue, hfalse⟩ := checkGroupRoles_spec hne
  have hfound := checkGroupRoles_found_iff hne
  have hfive := length_le_of_satisfiable hflags
  constructor
  · intro h
    by_contra hnot
    rw [not_or, not_not] at hnot
    -- a crowd is more than five, so nothing satisfies it
    have hfew := hfive (h.found.1 (hfound.2 hnot.2))
    omega
  · intro hcond
    have hiff : groles.checkGroupRoles.1 = true ↔ Satisfiable groles.masks := by
      by_cases hlen : groles.entries.length < 2 ^ 8
      · rw [hresult, checkGroupRoles_iff hne (by rwa [length_masks]), and_iff_right hflags]
      · refine iff_of_false (fun h => ?_) fun h => absurd (hfive h) (by omega)
        exact hcond.resolve_left hlen (hfound.1 h)
    -- a choice that is found is one for all of the players, who are five at most
    refine ⟨hiff, hplayers, fun h => ?_, fun h => ?_⟩
    · rw [hmasks]
      have hfew := hfive (hiff.1 h)
      have hboth := htrue (hresult ▸ h)
      have hlen : (groles.masks.map (· &&& ~~~playerRoleLeader)).length = groles.entries.length :=
        (List.length_map _).trans (length_masks groles)
      rw [length_masks, Nat.mod_eq_of_lt (by omega), ← hlen] at hboth
      exact chosen_map_leader.1 ((chosen_iff (onlyRoles_map_leader.2 hflags)).2 hboth)
    · exact eq_mapEntries hplayers (hmasks.trans (hfalse (hresult ▸ h)))

/-- Five players who would take any role, one of whom would lead. -/
def volunteers : LfgRolesMap :=
  ⟨[(1, 0x0F), (2, 0x0E), (3, 0x0E), (4, 0x0E), (5, 0x0E)], by decide⟩

theorem checkGroupRoles_exact_volunteers : RolesExact volunteers :=
  (checkGroupRoles_exact_iff (by decide) (by decide +kernel)).2 (.inl (by decide))

/-- Players each of whom would be a tank or a healer. -/
def crowd (n : ℕ) : LfgRolesMap :=
  ⟨(List.range n).map fun i => (i + 1, playerRoleTank ||| playerRoleHealer), by
    rw [List.pairwise_map]
    exact List.pairwise_lt_range.imp fun h => Nat.succ_lt_succ h⟩

theorem masks_crowd (n : ℕ) :
    (crowd n).masks = List.replicate n (playerRoleTank ||| playerRoleHealer) := by
  have hconst : (List.range n).map (fun _ => playerRoleTank ||| playerRoleHealer) =
      List.replicate n (playerRoleTank ||| playerRoleHealer) := by
    rw [List.map_const', List.length_range]
  rw [masks, crowd, List.map_map]
  exact hconst

/-- Nobody of such a crowd has to have one role alone. -/
theorem partlyChosen_crowd (n : ℕ) : (crowd n).PartlyChosen 0 := by
  have hmap : (crowd n).masks.map (· &&& ~~~playerRoleLeader) = (crowd n).masks := by
    rw [masks_crowd, List.map_replicate]
    rfl
  have hmem : ∀ m ∈ (crowd n).masks, m = playerRoleTank ||| playerRoleHealer := by
    rw [masks_crowd]
    exact fun m hm => List.eq_of_mem_replicate hm
  have hcount : ∀ role, role ≠ playerRoleTank ||| playerRoleHealer →
      (crowd n).masks.count role = 0 := fun role hrole =>
    List.count_eq_zero_of_not_mem fun hin => hrole (hmem _ hin)
  refine ⟨(crowd n).masks, ?_, ?_⟩
  · rw [hmap]
    refine .refl fun i hi => ?_
    rw [hmem _ (mem_getD hi)]
    decide
  · have htank := hcount playerRoleTank (by decide)
    have hhealer := hcount playerRoleHealer (by decide)
    have hdamage := hcount playerRoleDamage (by decide)
    exact ⟨by omega, by omega, by omega, by omega⟩

/-- For 256 players the number that is asked for in eight bits is 0. -/
theorem crowd_passes : ¬ RolesExact (crowd 256) := by
  have hlen : (crowd 256).entries.length = 256 := (List.length_map _).trans List.length_range
  have hne : (crowd 256).masks ≠ [] := by
    intro hnil
    have := congrArg List.length hnil
    rw [length_masks, hlen] at this
    cases this
  have hflags : ∀ m ∈ (crowd 256).masks, m &&& 0xF0 = 0 := by
    rw [masks_crowd]
    rintro m hm
    rw [List.eq_of_mem_replicate hm]
    rfl
  intro h
  have hfound := checkGroupRoles_found_iff hne
  rw [hlen] at hfound
  have hfive := length_le_of_satisfiable hflags (h.found.1 (hfound.2 (partlyChosen_crowd 256)))
  omega

end LfgRolesMap

end FaceCore.DungeonFinding
