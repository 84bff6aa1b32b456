import FaceCore.DungeonFinding.ProposalLeader
import FaceCore.Lib.Records

/-!
# What a list of guids still needs

`CheckCompatibility` gives the players of some guids their roles, and `UpdateBestCompatibleInQueue`
takes these off what a group needs.

* `tanks`, `healers`, `dps`, `WithinNeeds`: the roles that are counted, and when they are not too
  many;
* `Needs`: the needed counts less the roles, without going below 0;
* `findBestCompatible_cases`: the search among the cached keys ends with the first of the longest;
* `judge_lessPlayers`: the roles that are found for guids with less players than a group.
-/

namespace FaceCore.DungeonFinding

/-! ### Counting roles -/

namespace LfgRolesMap

variable {roles : LfgRolesMap}

/-- The players who are counted as tanks. -/
def tanks (roles : LfgRolesMap) : ℕ := roles.masks.countP fun m => m &&& playerRoleTank ≠ 0

/-- The players who are counted as healers: they are not tanks. -/
def healers (roles : LfgRolesMap) : ℕ :=
  roles.masks.countP fun m => m &&& playerRoleTank = 0 ∧ m &&& playerRoleHealer ≠ 0

/-- All other players. -/
def dps (roles : LfgRolesMap) : ℕ :=
  roles.masks.countP fun m => m &&& playerRoleTank = 0 ∧ m &&& playerRoleHealer = 0

/-- Not more players of each role than a group needs. -/
structure WithinNeeds (roles : LfgRolesMap) : Prop where
  tanks_le : roles.tanks ≤ lfgTanksNeeded
  healers_le : roles.healers ≤ lfgHealersNeeded
  dps_le : roles.dps ≤ lfgDpsNeeded

instance (roles : LfgRolesMap) : Decidable roles.WithinNeeds :=
  decidable_of_iff (roles.tanks ≤ lfgTanksNeeded ∧ roles.healers ≤ lfgHealersNeeded ∧
      roles.dps ≤ lfgDpsNeeded)
    ⟨fun h => ⟨h.1, h.2.1, h.2.2⟩, fun h => ⟨h.tanks_le, h.healers_le, h.dps_le⟩⟩

theorem length_eq_counts (roles : LfgRolesMap) :
    roles.masks.length = roles.tanks + roles.healers + roles.dps := by
  unfold tanks healers dps
  induction roles.masks with
  | nil => rfl
  | cons m masks ih =>
    simp only [List.countP_cons, List.length_cons, ih, decide_eq_true_eq]
    by_cases htank : m &&& playerRoleTank = 0
    · by_cases hhealer : m &&& playerRoleHealer = 0 <;> simp [htank, hhealer] <;> omega
    · simp [htank]
      omega

theorem counts_of_isRole (h : ∀ m ∈ roles.masks, IsRole m) :
    roles.tanks = roles.masks.count playerRoleTank ∧
      roles.healers = roles.masks.count playerRoleHealer ∧
      roles.dps = roles.masks.count playerRoleDamage := by
  unfold tanks healers dps List.count
  refine ⟨List.countP_congr fun m hm => ?_, List.countP_congr fun m hm => ?_,
    List.countP_congr fun m hm => ?_⟩
  all_goals rcases h m hm with rfl | rfl | rfl <;> decide

theorem withinNeeds_of_found (hlen : roles.entries.length < 2 ^ 8)
    (hfound : roles.checkGroupRoles.1 = true) : roles.checkGroupRoles.2.WithinNeeds := by
  have hne : roles.masks ≠ [] := by
    intro hnil
    rw [LfgRolesMap.checkGroupRoles, show roles.entries.map Prod.snd = [] from hnil] at hfound
    exact Bool.noConfusion hfound
  obtain ⟨hresult, -, hmasks⟩ := checkGroupRoles_masks hne
  obtain ⟨hreduces, hfits⟩ := (checkGroupRoles_spec hne).2.1 (hresult ▸ hfound)
  rw [← hmasks] at hreduces hfits
  rw [length_masks, Nat.mod_eq_of_lt hlen] at hfits
  have hlength : roles.checkGroupRoles.2.masks.length = roles.entries.length := by
    rw [hreduces.length, List.length_map, length_masks]
  have hroles : ∀ m ∈ roles.checkGroupRoles.2.masks, IsRole m :=
    isRole_of_counts.2.1 (hfits.total.trans hlength.symm)
  obtain ⟨htanks, hhealers, hdps⟩ := counts_of_isRole hroles
  exact ⟨htanks ▸ hfits.tank_le, hhealers ▸ hfits.healer_le, hdps ▸ hfits.damage_le⟩

theorem length_checkGroupRoles (roles : LfgRolesMap) :
    roles.checkGroupRoles.2.masks.length = roles.entries.length := by
  rw [length_masks, LfgRolesMap.checkGroupRoles]
  exact List.length_map _

end LfgRolesMap

/-! ### What an entry needs -/

namespace LfgQueueData

variable {data : LfgQueueData} {key : List Char} {roles : LfgRolesMap}

/-- The counts of an entry are the needed ones less the roles. -/
structure Needs (data : LfgQueueData) (roles : LfgRolesMap) : Prop where
  tanks : data.tanks.toNat + roles.tanks = lfgTanksNeeded
  healers : data.healers.toNat + roles.healers = lfgHealersNeeded
  dps : data.dps.toNat + roles.dps = lfgDpsNeeded

instance (data : LfgQueueData) (roles : LfgRolesMap) : Decidable (data.Needs roles) :=
  decidable_of_iff (data.tanks.toNat + roles.tanks = lfgTanksNeeded ∧
      data.healers.toNat + roles.healers = lfgHealersNeeded ∧
      data.dps.toNat + roles.dps = lfgDpsNeeded)
    ⟨fun h => ⟨h.1, h.2.1, h.2.2⟩, fun h => ⟨h.tanks, h.healers, h.dps⟩⟩

/-- The turn of the loop of `UpdateBestCompatibleInQueue` for one player. -/
def takeRole (data : LfgQueueData) (e : ℕ × UInt8) : LfgQueueData :=
  if e.2 &&& playerRoleTank ≠ 0 then { data with tanks := data.tanks - 1 }
  else if e.2 &&& playerRoleHealer ≠ 0 then { data with healers := data.healers - 1 }
  else { data with dps := data.dps - 1 }

/-- What `UpdateBestCompatibleInQueue` compares the size of a key with. -/
def storedSize (data : LfgQueueData) : UInt8 :=
  if data.bestCompatible = [] then 0 else keySize data.bestCompatible

/-- What `UpdateBestCompatibleInQueue` does with a key that is long enough. -/
def assign (data : LfgQueueData) (key : List Char) (roles : LfgRolesMap) : LfgQueueData :=
  roles.entries.foldl takeRole
    { data with
      bestCompatible := key
      tanks := .ofNat lfgTanksNeeded
      healers := .ofNat lfgHealersNeeded
      dps := .ofNat lfgDpsNeeded }

theorem updateBestCompatible_eq : data.updateBestCompatible key roles =
    if keySize key ≤ data.storedSize then data else data.assign key roles := rfl

theorem foldl_takeRole (es : List (ℕ × UInt8)) : ∃ tanks healers dps,
    es.foldl takeRole data = { data with tanks := tanks, healers := healers, dps := dps } := by
  refine List.foldlRecOn (motive := fun data' : LfgQueueData => ∃ tanks healers dps,
    data' = { data with tanks := tanks, healers := healers, dps := dps }) es _
      ⟨data.tanks, data.healers, data.dps, rfl⟩ ?_
  rintro _ ⟨tanks, healers, dps, rfl⟩ e -
  unfold takeRole
  split_ifs
  · exact ⟨_, _, _, rfl⟩
  · exact ⟨_, _, _, rfl⟩
  · exact ⟨_, _, _, rfl⟩

theorem assign_eq (data : LfgQueueData) (key : List Char) (roles : LfgRolesMap) :
    ∃ tanks healers dps, data.assign key roles =
      { data with bestCompatible := key, tanks := tanks, healers := healers, dps := dps } :=
  foldl_takeRole roles.entries

@[simp] theorem bestCompatible_assign : (data.assign key roles).bestCompatible = key := by
  obtain ⟨tanks, healers, dps, heq⟩ := assign_eq data key roles
  rw [heq]

@[simp] theorem roles_assign : (data.assign key roles).roles = data.roles := by
  obtain ⟨tanks, healers, dps, heq⟩ := assign_eq data key roles
  rw [heq]

theorem storedSize_assign (hkey : key ≠ []) :
    (data.assign key roles).storedSize = keySize key := by
  rw [storedSize, bestCompatible_assign, if_neg hkey]

theorem assign_assign (data : LfgQueueData) (key key' : List Char) (roles roles' : LfgRolesMap) :
    (data.assign key roles).assign key' roles' = data.assign key' roles' := by
  obtain ⟨tanks, healers, dps, heq⟩ := assign_eq data key roles
  rw [heq]
  rfl

/-- A counter that goes down with some of the elements does not pass 0 if these are few enough. -/
theorem toNat_foldl_sub {σ α : Type*} {step : σ → α → σ} {counter : σ → UInt8} {p : α → Bool}
    (hstep : ∀ s a, counter (step s a) = if p a then counter s - 1 else counter s) {l : List α}
    {s : σ} (h : l.countP p ≤ (counter s).toNat) :
    (counter (l.foldl step s)).toNat + l.countP p = (counter s).toNat := by
  induction l generalizing s with
  | nil => rfl
  | cons a l ih =>
    have hnext := hstep s a
    rw [List.countP_cons] at h
    rw [List.foldl_cons, List.countP_cons]
    by_cases ha : p a
    · rw [if_pos ha] at hnext h ⊢
      have hpred : (counter s - 1).toNat = (counter s).toNat - 1 :=
        UInt8.toNat_sub_of_le _ _ (UInt8.le_iff_toNat_le.2 (show 1 ≤ (counter s).toNat by omega))
      have hrest := @ih (step s a) (by rw [hnext, hpred]; omega)
      rw [hnext, hpred] at hrest
      omega
    · rw [if_neg ha] at hnext h ⊢
      have hrest := @ih (step s a) (by rw [hnext]; omega)
      rw [hnext] at hrest
      exact hrest

/-- Roles within the needs are taken off these. -/
theorem needs_assign (h : roles.WithinNeeds) : (data.assign key roles).Needs roles := by
  have hcount : ∀ p : UInt8 → Bool, (roles.entries.countP fun e => p e.2) = roles.masks.countP p :=
    fun p => (List.countP_map (f := Prod.snd)).symm
  have htaken : ∀ {counter : LfgQueueData → UInt8} {p : UInt8 → Bool} {needed : ℕ},
      (∀ d e, counter (takeRole d e) = if p e.2 then counter d - 1 else counter d) →
      roles.masks.countP p ≤ needed →
      (counter { data with
        bestCompatible := key
        tanks := .ofNat lfgTanksNeeded
        healers := .ofNat lfgHealersNeeded
        dps := .ofNat lfgDpsNeeded }).toNat = needed →
      (counter (data.assign key roles)).toNat + roles.masks.countP p = needed := by
    intro counter p needed hstep hle hneeded
    rw [← hcount] at hle ⊢
    rw [← hneeded] at hle ⊢
    exact toNat_foldl_sub (fun d e => hstep d e) hle
  refine ⟨htaken (fun d e => ?_) h.tanks_le rfl, htaken (fun d e => ?_) h.healers_le rfl,
    htaken (fun d e => ?_) h.dps_le rfl⟩
  all_goals
    unfold takeRole
    by_cases htank : e.2 &&& playerRoleTank = 0
    · by_cases hhealer : e.2 &&& playerRoleHealer = 0 <;> simp [htank, hhealer]
    · simp [htank]

end LfgQueueData

/-! ### The search among the keys -/

theorem contains_of_lists {key : List Char} {guid : ℕ} (h : Joined.Lists '|' key guid) :
    contains key guid = true :=
  decide_eq_true h.found

theorem ne_nil_of_contains {key : List Char} {guid : ℕ} (h : contains key guid = true) :
    key ≠ [] := by
  rintro rfl
  exact Joined.decimal_ne_nil guid (List.infix_nil.1 (of_decide_eq_true h))

theorem lists_concatenateGuids {check : List ℕ} {guid : ℕ} :
    Joined.Lists '|' (concatenateGuids check) guid ↔ guid ∈ check :=
  Joined.lists_joined rfl

/-- The entries of the cache that `FindBestCompatibleInQueue` tries for a guid. -/
def candidates (cache : SortedMap (List Char) LfgCompatibilityData) (guid : ℕ) :
    List (List Char × LfgCompatibilityData) :=
  cache.entries.filter fun e => e.2.compatibility = .withLessPlayers ∧ contains e.1 guid

theorem mem_candidates {cache : SortedMap (List Char) LfgCompatibilityData} {guid : ℕ}
    {e : List Char × LfgCompatibilityData} : e ∈ candidates cache guid ↔
      e ∈ cache.entries ∧ e.2.compatibility = .withLessPlayers ∧ contains e.1 guid = true := by
  rw [candidates, List.mem_filter, decide_eq_true_eq]

/-- The number of guids in the key of an entry of the cache. -/
def guidCount (e : List Char × LfgCompatibilityData) : ℕ := (keySize e.1).toNat

theorem LFGQueue.findBestCompatible_cases (q : LFGQueue) (guid : ℕ) (data : LfgQueueData) :
    q.findBestCompatible guid data = data ∨
      ∃ e, Records.FirstLargest guidCount (candidates q.compatibleMapStore guid) e ∧
        q.findBestCompatible guid data = data.assign e.1 e.2.roles := by
  have hfold : q.findBestCompatible guid data =
      (candidates q.compatibleMapStore guid).foldl (fun data e =>
        if guidCount e ≤ data.storedSize.toNat then data else data.assign e.1 e.2.roles) data := by
    rw [candidates, List.foldl_filter]
    simp only [decide_eq_true_eq]
    rfl
  have hstored : ∀ e ∈ candidates q.compatibleMapStore guid, ∀ data : LfgQueueData,
      (data.assign e.1 e.2.roles).storedSize.toNat = guidCount e := by
    intro e he data
    rw [LfgQueueData.storedSize_assign (ne_nil_of_contains (mem_candidates.1 he).2.2), guidCount]
  rw [hfold]
  rcases @Records.foldl_keep _ _ _ _ guidCount (fun data => data.storedSize.toNat)
      (fun data e => data.assign e.1 e.2.roles) _ hstored
      (fun data _ _ => data.assign_assign _ _ _ _) data with ⟨heq, -⟩ | ⟨e, he, -, heq⟩
  · exact .inl heq
  · exact .inr ⟨e, he, heq⟩

/-! ### Lists of guids -/

section

variable {mgr : MgrView} {store store' : SortedMap ℕ LfgQueueData} {check : List ℕ}

/-- All guids of a list have data. -/
def Queued (store : SortedMap ℕ LfgQueueData) (check : List ℕ) : Prop :=
  ∀ guid ∈ check, (store.find guid).isSome

/-- The players of a list of guids, with the masks that they queued with. -/
def joinedRoles (store : SortedMap ℕ LfgQueueData) (check : List ℕ) : LfgRolesMap :=
  (check.flatMap fun guid => (rolesOf store guid).entries).foldl
    (fun roles e => roles.insert e.1 e.2) .empty

/-- The roles that these are given. -/
def assignedRoles (store : SortedMap ℕ LfgQueueData) (check : List ℕ) : LfgRolesMap :=
  (joinedRoles store check).checkGroupRoles.2

/-- What may queue: a group of five, in the eight bits of the source, or players who can all be
needed. -/
def LfgRolesMap.Joinable (roles : LfgRolesMap) : Prop :=
  roles.entries.length % 2 ^ 8 = maxGroupSize ∨ roles.checkGroupRoles.2.WithinNeeds

instance (roles : LfgRolesMap) : Decidable roles.Joinable :=
  inferInstanceAs (Decidable (_ ∨ _))

theorem joinedRoles_singleton (guid : ℕ) : joinedRoles store [guid] = rolesOf store guid := by
  rw [joinedRoles, List.flatMap_singleton]
  exact (rolesOf store guid).foldl_entries fun _ _ _ => rfl

theorem assignedRoles_congr (h : ∀ guid ∈ check, rolesOf store' guid = rolesOf store guid) :
    assignedRoles store' check = assignedRoles store check := by
  have hflat : (check.flatMap fun guid => (rolesOf store' guid).entries) =
      check.flatMap fun guid => (rolesOf store guid).entries :=
    List.flatMap_congr fun guid hguid => by rw [h guid hguid]
  rw [assignedRoles, joinedRoles, hflat, ← joinedRoles, ← assignedRoles]

theorem LfgRolesMap.Joinable.length_le {roles : LfgRolesMap} (h : roles.Joinable) :
    roles.entries.length % 2 ^ 8 = maxGroupSize ∨ roles.entries.length ≤ maxGroupSize := by
  refine h.imp_right fun hneeds => ?_
  have hcounts := roles.checkGroupRoles.2.length_eq_counts
  rw [roles.length_checkGroupRoles] at hcounts
  have htanks : _ ≤ 1 := hneeds.tanks_le
  have hhealers : _ ≤ 1 := hneeds.healers_le
  have hdps : _ ≤ 3 := hneeds.dps_le
  rw [maxGroupSize]
  omega

theorem tally_cons {guid : ℕ} {data : LfgQueueData} (hdata : store.find guid = some data)
    (t : Tally) : ∃ t₁ : Tally,
      t₁.numPlayers = (t.numPlayers + data.roles.entries.length) % 2 ^ 8 ∧
        tally mgr store (guid :: check) t =
          if t.numLfgGroups < 2 ∧ t.numPlayers ≤ maxGroupSize then tally mgr store check t₁
          else .ok t :=
  ⟨_, rfl, by rw [tally, hdata]⟩

theorem tally_isOk (hq : Queued store check) (t : Tally) :
    ∃ t', tally mgr store check t = .ok t' := by
  induction check generalizing t with
  | nil => exact ⟨t, rfl⟩
  | cons guid check ih =>
    obtain ⟨hguid, hcheck⟩ := List.forall_mem_cons.1 hq
    obtain ⟨data, hdata⟩ := Option.isSome_iff_exists.1 hguid
    obtain ⟨t₁, -, heq⟩ := @tally_cons mgr store check guid data hdata t
    rw [heq]
    split_ifs
    · exact ih hcheck t₁
    · exact ⟨t, rfl⟩

/-- Less than five players are counted exactly. -/
theorem numPlayers_tally (hq : Queued store check)
    (hjoin : ∀ guid ∈ check, (rolesOf store guid).Joinable) {t t' : Tally}
    (h : tally mgr store check t = .ok t') (hgroups : ¬ t'.numLfgGroups > 1)
    (hless : t'.numPlayers < maxGroupSize) :
    t'.numPlayers =
      t.numPlayers + (check.flatMap fun guid => (rolesOf store guid).entries).length := by
  induction check generalizing t with
  | nil =>
    cases h
    rfl
  | cons guid check ih =>
    obtain ⟨hguid, hcheck⟩ := List.forall_mem_cons.1 hq
    obtain ⟨hfirst, hrest⟩ := List.forall_mem_cons.1 hjoin
    obtain ⟨data, hdata⟩ := Option.isSome_iff_exists.1 hguid
    obtain ⟨t₁, ht₁, heq⟩ := @tally_cons mgr store check guid data hdata t
    rw [heq] at h
    split_ifs at h with hmore
    · have hcount := ih hcheck hrest h
      have hroles : rolesOf store guid = data.roles := by rw [rolesOf, hdata]
      have hsize := hroles ▸ hfirst.length_le
      rw [List.flatMap_cons, List.length_append, hroles]
      unfold maxGroupSize at hless hmore hsize
      omega
    -- the loop ends early only with too many groups or players
    · cases h
      omega

theorem length_addRole_le (roles : LfgRolesMap) (e : ℕ × UInt8) :
    (addRole mgr roles e).entries.length ≤ roles.entries.length + 1 := by
  unfold addRole
  split_ifs
  · exact Nat.le_succ _
  · exact SortedMap.length_insert_le

theorem length_foldl_addRole_le (es : List (ℕ × UInt8)) (roles : LfgRolesMap) :
    (es.foldl (addRole mgr) roles).entries.length ≤ roles.entries.length + es.length := by
  induction es generalizing roles with
  | nil => exact le_rfl
  | cons e es ih =>
    have hstep := @length_addRole_le mgr roles e
    have hrest := ih (addRole mgr roles e)
    rw [List.foldl_cons, List.length_cons]
    omega

/-- If as many players are left as there were, nobody has been left out. -/
theorem foldl_addRole {es : List (ℕ × UInt8)} {roles : LfgRolesMap}
    (h : (es.foldl (addRole mgr) roles).entries.length = roles.entries.length + es.length) :
    es.foldl (addRole mgr) roles = es.foldl (fun roles e => roles.insert e.1 e.2) roles := by
  induction es generalizing roles with
  | nil => rfl
  | cons e es ih =>
    have hrest := @length_foldl_addRole_le mgr es (addRole mgr roles e)
    have hstep := @length_addRole_le mgr roles e
    rw [List.foldl_cons, List.length_cons] at h
    have hinsert : addRole mgr roles e = roles.insert e.1 e.2 := by
      unfold addRole at hrest h ⊢
      split_ifs at hrest h ⊢ with hignores
      · omega
      · rfl
    rw [List.foldl_cons, List.foldl_cons, ih (by omega), hinsert]

theorem judge_ne_notQueued (hq : Queued store check) (guid : ℕ) :
    judge mgr store check ≠ .notQueued guid := by
  obtain ⟨t, ht⟩ := @tally_isOk mgr store check hq ⟨0, 0, 0, .empty⟩
  unfold judge
  rw [ht]
  dsimp only
  split_ifs <;> exact fun h => Judgement.noConfusion h

/-- With less players than a group, all of them are given roles that can be needed. -/
theorem judge_lessPlayers (hne : check ≠ []) (hq : Queued store check)
    (hjoin : ∀ guid ∈ check, (rolesOf store guid).Joinable) {roles : LfgRolesMap}
    (h : judge mgr store check = .lessPlayers roles) :
    roles = assignedRoles store check ∧ roles.WithinNeeds := by
  obtain ⟨t, ht⟩ := @tally_isOk mgr store check hq ⟨0, 0, 0, .empty⟩
  have hcount := fun hgroups hless => numPlayers_tally hq hjoin ht hgroups hless
  unfold judge at h
  rw [ht] at h
  dsimp only at h
  by_cases hmore : check.length > 1
  · have hsingle : ¬ (check.length = 1 ∧ t.numPlayers ≠ maxGroupSize) := fun hone => by omega
    rw [if_neg hsingle, if_pos hmore] at h
    split_ifs at h with hgroups hmany hignores hroles hdungeons hless
    obtain rfl := Judgement.lessPlayers.inj h
    have hexact := hcount hgroups (by omega)
    have hle := @length_foldl_addRole_le mgr
      (check.flatMap fun guid => (rolesOf store guid).entries) .empty
    have hempty : (SortedMap.empty : LfgRolesMap).entries.length = 0 := rfl
    have hjoined : proposalRoles mgr store check = joinedRoles store check := by
      refine foldl_addRole ?_
      rw [proposalRoles] at hignores
      unfold maxGroupSize at hmany
      omega
    rw [hjoined] at hroles ⊢
    refine ⟨rfl, LfgRolesMap.withinNeeds_of_found ?_ (by simpa using hroles)⟩
    rw [← hjoined, proposalRoles]
    unfold maxGroupSize at hmany
    omega
  · obtain ⟨guid, rfl⟩ : ∃ guid, check = [guid] := by
      match check, hne with
      | [guid], _ => exact ⟨guid, rfl⟩
      | _ :: _ :: _, _ => exact absurd (by simp) hmore
    have hroles : roles = (rolesOf store guid).checkGroupRoles.2 ∧ t.numPlayers ≠ maxGroupSize := by
      split_ifs at h with hsingle hgroups hmany hless
      · exact ⟨(Judgement.lessPlayers.inj h).symm, hsingle.2⟩
      · exact ⟨(Judgement.lessPlayers.inj h).symm, hless⟩
    obtain ⟨rfl, hless⟩ := hroles
    refine ⟨by rw [assignedRoles, joinedRoles_singleton], ?_⟩
    obtain ⟨data, hdata⟩ := Option.isSome_iff_exists.1 (hq guid List.mem_cons_self)
    refine (hjoin guid List.mem_cons_self).resolve_left fun hfive => hless ?_
    rw [rolesOf, hdata] at hfive
    rw [tally, hdata, if_pos ⟨by decide, by decide⟩] at ht
    cases ht
    dsimp only
    rw [Nat.zero_add, hfive]

end

end FaceCore.DungeonFinding
