import FaceCore.Lib.Runs
import FaceCore.Lib.SortedMap
import FaceCore.Lib.Verdicts
import Mathlib.Data.Finset.Union
import Mathlib.Data.Prod.Lex
import Mathlib.Data.Int.Order.Basic
import Mathlib.Data.Nat.Order.Lemmas

/-!
# Role based access control

The access rights of an account: `RBACData` keeps the groups, the granted and denied roles and the
granted and denied permissions, and beside them the permissions that follow from these. Its
functions change them and write the change to the tables of the login database.

* `AccountMgr`: the definitions of groups, roles and permissions;
* `LoginDatabase`, `select`, `delete`: the tables and the prepared statements on them;
* `Account`, `Op`, `step`: an account with its tables, and the calls that change it;
* `loadFromDB`;
* `hasPermission_iff`: what follows from a run of calls.
-/

namespace FaceCore.Rbac

/-- `RBAC_PERM_MAX`. -/
def rbacPermMax : ℕ := 48

inductive RBACCommandResult
  | ok
  | cantAddAlreadyAdded
  | cantRevokeNotInList
  | inGrantedList
  | inDeniedList
  | idDoesNotExists
  deriving DecidableEq

/-- How a call ends: with a result, or with the exception of `bitset::test`. -/
inductive Reply
  | result (r : RBACCommandResult)
  | outOfRange
  deriving DecidableEq

/-- `RBACPermissionContainer`, a set of bits. -/
abbrev RBACPermissionContainer := Finset (Fin rbacPermMax)

/-- A position of `RBACPermissionContainer`; `bitset::test` throws at any other. -/
def position (permissionId : ℕ) : Option (Fin rbacPermMax) :=
  if h : permissionId < rbacPermMax then some ⟨permissionId, h⟩ else none

/-- The definitions that `AccountMgr::LoadRBAC` loaded. -/
structure AccountMgr where
  /-- The roles of a group, `GetRBACGroup`. -/
  getRBACGroup : ℕ → Option (Finset ℕ)
  /-- The permissions of a role, `GetRBACRole`. -/
  getRBACRole : ℕ → Option RBACPermissionContainer
  /-- Whether a permission exists, `GetRBACPermission`. -/
  getRBACPermission : ℕ → Bool
  /-- `GetRBACDefaultGroups`. -/
  getRBACDefaultGroups : List ℕ

/-- `RBACData`. -/
structure RBACData where
  id : ℕ
  realmId : ℤ
  groups : Finset ℕ
  /-- `_grantedRoles` and `_deniedRoles`. -/
  roles : Verdicts ℕ
  /-- `_grantedPerms` and `_deniedPerms`. -/
  perms : Verdicts (Fin rbacPermMax)
  globalPerms : RBACPermissionContainer

/-! ### The tables -/

/-- The primary key of the three tables; `id` is that of the group, role or permission. -/
structure RowKey where
  account : ℕ
  id : ℕ
  realm : ℤ

/-- Rows are ordered by account, then id, then realm. -/
def RowKey.lexicographic (k : RowKey) : ℕ ×ₗ ℕ ×ₗ ℤ := toLex (k.account, toLex (k.id, k.realm))

theorem RowKey.lexicographic_injective : Function.Injective RowKey.lexicographic := by
  rintro ⟨a, i, r⟩ ⟨a', i', r'⟩ h
  simpa [RowKey.lexicographic] using h

instance : LinearOrder RowKey :=
  LinearOrder.lift' RowKey.lexicographic RowKey.lexicographic_injective

/-- A table; the values are what a row holds beside its key. -/
abbrev Rows (α : Type) := SortedMap RowKey α

structure LoginDatabase where
  /-- `rbac_account_groups`. -/
  groups : Rows Unit
  /-- `rbac_account_roles`, with `granted`. -/
  roles : Rows Bool
  /-- `rbac_account_permissions`, with `granted`. -/
  permissions : Rows Bool

section

variable {α : Type}

/-- The rows of an account that affect a realm, in the order of ids and realms:
`WHERE accountId = ? AND (realmId = ? OR realmId = -1)`. -/
def select (rows : Rows α) (account : ℕ) (realm : ℤ) : List (ℕ × α) :=
  rows.entries.filterMap fun e =>
    if e.1.account = account ∧ (e.1.realm = realm ∨ e.1.realm = -1) then some (e.1.id, e.2) else none

/-- `DELETE ... WHERE accountId = ? AND groupId = ? AND (realmId = ? OR realmId = -1)`. -/
def delete (rows : Rows α) (account id : ℕ) (realm : ℤ) : Rows α :=
  rows.filterKeys fun k => !(k.account = account && k.id = id && (k.realm = realm || k.realm = -1))

end

/-! ### The calls -/

/-- The data of an account in memory, and the tables. -/
structure Account where
  data : RBACData
  db : LoginDatabase

variable (mgr : AccountMgr)

/-- `CalculateNewPermissions`. -/
def calculateNewPermissions (data : RBACData) : RBACData :=
  let tempGrantedRoles := data.roles.granted ∪
    data.groups.biUnion fun g => (mgr.getRBACGroup g).getD ∅
  let permissionsOf := fun role => (mgr.getRBACRole role).getD ∅
  { data with
    globalPerms := (((data.perms.granted ∪ tempGrantedRoles.biUnion permissionsOf) \
      data.perms.denied) \ data.roles.denied.biUnion permissionsOf) }

/-- The end of a call that changed the data: unless it is made while loading (`realmId = 0`), the
tables are updated and the permissions calculated. -/
def save (a : Account) (realmId : ℤ) (data : RBACData) (update : LoginDatabase → LoginDatabase) :
    Reply × Account :=
  (.result .ok,
    if realmId = 0 then { a with data := data }
    else ⟨calculateNewPermissions mgr data, update a.db⟩)

/-- `AddGroup`; `INSERT` leaves a row that is there alone. -/
def addGroup (a : Account) (groupId : ℕ) (realmId : ℤ) : Reply × Account :=
  if mgr.getRBACGroup groupId = none then (.result .idDoesNotExists, a)
  else if groupId ∈ a.data.groups then (.result .cantAddAlreadyAdded, a)
  else save mgr a realmId { a.data with groups := insert groupId a.data.groups } fun db =>
    { db with groups := db.groups.insert ⟨a.data.id, groupId, realmId⟩ () }

/-- `RemoveGroup`. -/
def removeGroup (a : Account) (groupId : ℕ) (realmId : ℤ) : Reply × Account :=
  if groupId ∉ a.data.groups then (.result .cantRevokeNotInList, a)
  else save mgr a realmId { a.data with groups := a.data.groups.erase groupId } fun db =>
    { db with groups := delete db.groups a.data.id groupId realmId }

/-- `GrantRole` and `DenyRole`; `INSERT ... ON DUPLICATE KEY UPDATE`. -/
def enterRole (granted : Bool) (a : Account) (roleId : ℕ) (realmId : ℤ) : Reply × Account :=
  if mgr.getRBACRole roleId = none then (.result .idDoesNotExists, a)
  else if roleId ∈ a.data.roles.side !granted then
    (.result (if granted then .inDeniedList else .inGrantedList), a)
  else if roleId ∈ a.data.roles.side granted then (.result .cantAddAlreadyAdded, a)
  else save mgr a realmId { a.data with roles := a.data.roles.add granted roleId } fun db =>
    { db with roles := db.roles.insert ⟨a.data.id, roleId, realmId⟩ granted }

/-- `GrantRole`. -/
def grantRole := enterRole mgr true

/-- `DenyRole`. -/
def denyRole := enterRole mgr false

/-- `RevokeRole`. -/
def revokeRole (a : Account) (roleId : ℕ) (realmId : ℤ) : Reply × Account :=
  if ¬a.data.roles.Settled roleId then (.result .cantRevokeNotInList, a)
  else save mgr a realmId { a.data with roles := a.data.roles.revoke roleId } fun db =>
    { db with roles := delete db.roles a.data.id roleId realmId }

/-- `GrantPermission` and `DenyPermission`. -/
def enterPermission (granted : Bool) (a : Account) (permissionId : ℕ) (realmId : ℤ) :
    Reply × Account :=
  if !mgr.getRBACPermission permissionId then (.result .idDoesNotExists, a)
  else
    match position permissionId with
    | none => (.outOfRange, a)
    | some p =>
      if p ∈ a.data.perms.side !granted then
        (.result (if granted then .inDeniedList else .inGrantedList), a)
      else if p ∈ a.data.perms.side granted then (.result .cantAddAlreadyAdded, a)
      else save mgr a realmId { a.data with perms := a.data.perms.add granted p } fun db =>
        { db with permissions := db.permissions.insert ⟨a.data.id, permissionId, realmId⟩ granted }

/-- `GrantPermission`. -/
def grantPermission := enterPermission mgr true

/-- `DenyPermission`. -/
def denyPermission := enterPermission mgr false

/-- `RevokePermission`. -/
def revokePermission (a : Account) (permissionId : ℕ) (realmId : ℤ) : Reply × Account :=
  match position permissionId with
  | none => (.outOfRange, a)
  | some p =>
    if ¬a.data.perms.Settled p then (.result .cantRevokeNotInList, a)
    else save mgr a realmId { a.data with perms := a.data.perms.revoke p } fun db =>
      { db with permissions := delete db.permissions a.data.id permissionId realmId }

/-- A call that changes the rights of an account. -/
inductive Op
  | addGroup (groupId : ℕ) (realmId : ℤ)
  | removeGroup (groupId : ℕ) (realmId : ℤ)
  | grantRole (roleId : ℕ) (realmId : ℤ)
  | denyRole (roleId : ℕ) (realmId : ℤ)
  | revokeRole (roleId : ℕ) (realmId : ℤ)
  | grantPermission (permissionId : ℕ) (realmId : ℤ)
  | denyPermission (permissionId : ℕ) (realmId : ℤ)
  | revokePermission (permissionId : ℕ) (realmId : ℤ)

/-- The realm that a call is made for. -/
def Op.realmId : Op → ℤ
  | .addGroup _ r | .removeGroup _ r | .grantRole _ r | .denyRole _ r | .revokeRole _ r
  | .grantPermission _ r | .denyPermission _ r | .revokePermission _ r => r

/-- A call. -/
def exec (a : Account) : Op → Reply × Account
  | .addGroup g r => addGroup mgr a g r
  | .removeGroup g r => removeGroup mgr a g r
  | .grantRole i r => grantRole mgr a i r
  | .denyRole i r => denyRole mgr a i r
  | .revokeRole i r => revokeRole mgr a i r
  | .grantPermission i r => grantPermission mgr a i r
  | .denyPermission i r => denyPermission mgr a i r
  | .revokePermission i r => revokePermission mgr a i r

/-- The account after a call. -/
def step (a : Account) (op : Op) : Account := (exec mgr a op).2

/-! ### Loading -/

/-- The data of an account before it is loaded. -/
def RBACData.new (id : ℕ) (realmId : ℤ) : RBACData := ⟨id, realmId, ∅, .empty, .empty, ∅⟩

/-- The loops of `LoadFromDB` over the permissions; `none` is the exception of `bitset::test`. -/
def loadPermissions (a : Account) : List (ℕ × Bool) → Option Account
  | [] => some a
  | row :: rows =>
    match enterPermission mgr row.2 a row.1 0 with
    | (.outOfRange, _) => none
    | (.result _, a) => loadPermissions a rows

/-- `LoadFromDB`. -/
def loadFromDB (db : LoginDatabase) (data : RBACData) : Option RBACData :=
  let addGroups := fun a groups => groups.foldl (fun a g => (addGroup mgr a g 0).2) a
  let a := addGroups ⟨data, db⟩ ((select db.groups data.id data.realmId).map Prod.fst).dedup
  let a := (select db.roles data.id data.realmId).foldl
    (fun a row => (enterRole mgr row.2 a row.1 0).2) a
  (loadPermissions mgr a (select db.permissions data.id data.realmId)).map fun a =>
    calculateNewPermissions mgr (addGroups a mgr.getRBACDefaultGroups).data

/-- `HasPermission`; `none` is the exception of `bitset::test`. -/
def hasPermission (data : RBACData) (permission : ℕ) : Option Bool :=
  (position permission).map fun p => decide (p ∈ data.globalPerms)

/-! ### What is allowed -/

/-- A permission is in a set of bits. -/
def Holds (s : RBACPermissionContainer) (permission : ℕ) : Prop := ∃ p ∈ s, p.val = permission

/-- A role that exists has a permission. -/
def RoleHas (role permission : ℕ) : Prop :=
  ∃ perms, mgr.getRBACRole role = some perms ∧ Holds perms permission

/-- A role is granted directly or through a group. -/
def RoleGranted (data : RBACData) (role : ℕ) : Prop :=
  role ∈ data.roles.granted ∨
    ∃ g ∈ data.groups, ∃ roles, mgr.getRBACGroup g = some roles ∧ role ∈ roles

/-- What the class promises: granted permissions without denied permissions, each directly or
through roles. -/
def Allowed (data : RBACData) (permission : ℕ) : Prop :=
  (Holds data.perms.granted permission ∨
      ∃ role, RoleGranted mgr data role ∧ RoleHas mgr role permission) ∧
    ¬(Holds data.perms.denied permission ∨
      ∃ role ∈ data.roles.denied, RoleHas mgr role permission)

/-- The permissions are those that were calculated last. -/
def UpToDate (data : RBACData) : Prop := calculateNewPermissions mgr data = data

variable {mgr} {a : Account} {data : RBACData} {db : LoginDatabase}

theorem position_eq_some {permission : ℕ} {p : Fin rbacPermMax} :
    position permission = some p ↔ p.val = permission := by
  unfold position
  split_ifs with h
  · simp [Fin.ext_iff, eq_comm]
  · refine ⟨nofun, fun hp => absurd p.isLt ?_⟩
    rwa [hp]

theorem mem_getD {β : Type} {o : Option (Finset β)} {x : β} :
    x ∈ o.getD ∅ ↔ ∃ s, o = some s ∧ x ∈ s := by
  cases o <;> simp

theorem holds_iff {s : RBACPermissionContainer} {p : Fin rbacPermMax} : Holds s p ↔ p ∈ s := by
  simp [Holds, Fin.val_inj]

theorem roleHas_iff {role : ℕ} {p : Fin rbacPermMax} :
    p ∈ (mgr.getRBACRole role).getD ∅ ↔ RoleHas mgr role p := by
  rw [mem_getD]
  simp only [RoleHas, holds_iff]

theorem roleGranted_iff {role : ℕ} :
    role ∈ data.roles.granted ∪ (data.groups.biUnion fun g => (mgr.getRBACGroup g).getD ∅) ↔
      RoleGranted mgr data role := by
  simp only [Finset.mem_union, Finset.mem_biUnion, mem_getD, RoleGranted]

/-- The calculation gives what the class promises. -/
theorem mem_calculateNewPermissions {p : Fin rbacPermMax} :
    p ∈ (calculateNewPermissions mgr data).globalPerms ↔ Allowed mgr data p := by
  have hgranted : (∃ role, role ∈ data.roles.granted ∪
      (data.groups.biUnion fun g => (mgr.getRBACGroup g).getD ∅) ∧
        p ∈ (mgr.getRBACRole role).getD ∅) ↔
      ∃ role, RoleGranted mgr data role ∧ RoleHas mgr role p :=
    exists_congr fun role => and_congr roleGranted_iff roleHas_iff
  have hdenied : (∃ role ∈ data.roles.denied, p ∈ (mgr.getRBACRole role).getD ∅) ↔
      ∃ role ∈ data.roles.denied, RoleHas mgr role p :=
    exists_congr fun role => and_congr_right fun _ => roleHas_iff
  unfold calculateNewPermissions Allowed
  rw [Finset.mem_sdiff, Finset.mem_sdiff, Finset.mem_union, Finset.mem_biUnion,
    Finset.mem_biUnion, hgranted, hdenied, holds_iff, holds_iff, not_or, and_assoc]

theorem Allowed.position {permission : ℕ} (h : Allowed mgr data permission) :
    ∃ p, Rbac.position permission = some p := by
  rcases h.1 with ⟨p, -, hp⟩ | ⟨role, -, perms, -, p, -, hp⟩
  · exact ⟨p, position_eq_some.2 hp⟩
  · exact ⟨p, position_eq_some.2 hp⟩

/-- While the permissions are those that were calculated last, they are the allowed ones. -/
theorem UpToDate.hasPermission_iff (h : UpToDate mgr data) (permission : ℕ) :
    hasPermission data permission = some true ↔ Allowed mgr data permission := by
  unfold hasPermission
  constructor
  · intro hp
    obtain ⟨p, hpos, hmem⟩ := Option.map_eq_some_iff.1 hp
    rw [decide_eq_true_iff, ← h, mem_calculateNewPermissions, position_eq_some.1 hpos] at hmem
    exact hmem
  · intro hallowed
    obtain ⟨p, hpos⟩ := hallowed.position
    rw [hpos, Option.map_some, Option.some.injEq, decide_eq_true_iff, ← h,
      mem_calculateNewPermissions, position_eq_some.1 hpos]
    exact hallowed

/-! ### The calls keep the calculation up to date -/

theorem upToDate_calculate : UpToDate mgr (calculateNewPermissions mgr data) := rfl

/-- What a call does: it is refused and changes nothing, or it succeeds and ends with `save`. -/
def Outcome (mgr : AccountMgr) (a : Account) (realmId : ℤ) (r : Reply × Account) : Prop :=
  (r.1 ≠ .result .ok ∧ r.2 = a) ∨
    ∃ data update, r = save mgr a realmId data update ∧ data.id = a.data.id ∧
      data.realmId = a.data.realmId

theorem Outcome.refused {realmId : ℤ} {reply : Reply} (h : reply ≠ .result .ok) :
    Outcome mgr a realmId (reply, a) := Or.inl ⟨h, rfl⟩

theorem outcome_enterRole (granted : Bool) (roleId : ℕ) (realmId : ℤ) :
    Outcome mgr a realmId (enterRole mgr granted a roleId realmId) := by
  unfold enterRole
  split_ifs
  · exact .refused (by simp)
  · exact .refused (by simp)
  · exact .refused (by simp)
  · exact .refused (by simp)
  · exact Or.inr ⟨_, _, rfl, rfl, rfl⟩

theorem outcome_enterPermission (granted : Bool) (permissionId : ℕ) (realmId : ℤ) :
    Outcome mgr a realmId (enterPermission mgr granted a permissionId realmId) := by
  unfold enterPermission
  cases position permissionId with
  | none => split_ifs <;> exact .refused (by simp)
  | some p =>
    dsimp only
    split_ifs
    · exact .refused (by simp)
    · exact .refused (by simp)
    · exact .refused (by simp)
    · exact .refused (by simp)
    · exact Or.inr ⟨_, _, rfl, rfl, rfl⟩

theorem outcome_exec (mgr : AccountMgr) (a : Account) (op : Op) : Outcome mgr a op.realmId (exec mgr a op) := by
  cases op with
  | addGroup groupId realmId =>
    simp only [exec, addGroup, Op.realmId]
    split_ifs
    · exact .refused (by simp)
    · exact .refused (by simp)
    · exact Or.inr ⟨_, _, rfl, rfl, rfl⟩
  | removeGroup groupId realmId =>
    simp only [exec, removeGroup, Op.realmId]
    split_ifs
    · exact Or.inr ⟨_, _, rfl, rfl, rfl⟩
    · exact .refused (by simp)
  | grantRole roleId realmId => exact outcome_enterRole true roleId realmId
  | denyRole roleId realmId => exact outcome_enterRole false roleId realmId
  | revokeRole roleId realmId =>
    simp only [exec, revokeRole, Op.realmId]
    split_ifs
    · exact Or.inr ⟨_, _, rfl, rfl, rfl⟩
    · exact .refused (by simp)
  | grantPermission permissionId realmId => exact outcome_enterPermission true permissionId realmId
  | denyPermission permissionId realmId => exact outcome_enterPermission false permissionId realmId
  | revokePermission permissionId realmId =>
    simp only [exec, revokePermission, Op.realmId]
    cases position permissionId with
    | none => exact .refused (by simp)
    | some p =>
      dsimp only
      split_ifs
      · exact Or.inr ⟨_, _, rfl, rfl, rfl⟩
      · exact .refused (by simp)

theorem upToDate_step {op : Op} (hrealm : op.realmId ≠ 0) (h : UpToDate mgr a.data) :
    UpToDate mgr (step mgr a op).data := by
  rcases outcome_exec mgr a op with ⟨-, hsame⟩ | ⟨data, update, hsave, -, -⟩
  · unfold step
    rwa [hsame]
  · unfold step
    rw [hsave, save, if_neg hrealm]
    exact upToDate_calculate

theorem upToDate_loadFromDB {loaded : RBACData} (h : loadFromDB mgr db data = some loaded) :
    UpToDate mgr loaded := by
  obtain ⟨_, -, rfl⟩ := Option.map_eq_some_iff.1 h
  exact upToDate_calculate

/-- **Main result.** After an account is loaded, along every run of calls for realms other than 0,
it has a permission iff that is granted, directly or through roles and groups, and not denied. -/
theorem hasPermission_iff_allowed {loaded : RBACData} (hload : loadFromDB mgr db data = some loaded)
    {ops : List Op} (hops : ∀ op ∈ ops, op.realmId ≠ 0) (permission : ℕ) :
    hasPermission (ops.foldl (step mgr) ⟨loaded, db⟩).data permission = some true ↔
      Allowed mgr (ops.foldl (step mgr) ⟨loaded, db⟩).data permission := by
  have hinv : UpToDate mgr (ops.foldl (step mgr) ⟨loaded, db⟩).data :=
    List.foldlRecOn (motive := fun a => UpToDate mgr a.data) ops (step mgr)
      (upToDate_loadFromDB hload) fun a ha op hop => upToDate_step (hops op hop) ha
  exact hinv.hasPermission_iff permission

/-- Two groups, of which the second one is a default group, two roles and two permissions. -/
def sampleMgr : AccountMgr where
  getRBACGroup g := if g = 1 then some {1} else if g = 2 then some {2} else none
  getRBACRole r :=
    if r = 1 then some {⟨1, by decide⟩, ⟨2, by decide⟩}
    else if r = 2 then some {⟨2, by decide⟩} else none
  getRBACPermission p := p = 1 ∨ p = 2
  getRBACDefaultGroups := [2]

/-- Tables without rows. -/
def noRows : LoginDatabase := ⟨.empty, .empty, .empty⟩

/-- An account without rows has the default group. -/
def sampleData : RBACData := ⟨5, 1, {2}, .empty, .empty, {⟨2, by decide⟩}⟩

/-- A group is added and one of its permissions denied. -/
theorem hasPermission_iff_allowed_sample :
    hasPermission ([Op.addGroup 1 1, .denyPermission 2 (-1)].foldl (step sampleMgr)
        ⟨sampleData, noRows⟩).data 1 = some true ↔
      Allowed sampleMgr ([Op.addGroup 1 1, .denyPermission 2 (-1)].foldl (step sampleMgr)
        ⟨sampleData, noRows⟩).data 1 :=
  have hload : loadFromDB sampleMgr noRows (.new 5 1) = some sampleData := rfl
  hasPermission_iff_allowed hload (by decide) 1

end FaceCore.Rbac
