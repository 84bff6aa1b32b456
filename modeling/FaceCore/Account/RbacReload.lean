import FaceCore.Account.Rbac

/-!
# Access rights after a reload

Whether the tables give an account back as it is in memory. Memory does not know for which realm
something was granted, but the rows do: a removal for all realms (`realmId = -1`) takes it from
memory and leaves the row of the realm itself, which grants it again at the next load.

* `InSync`: loading from the tables gives the data in memory;
* `inSync_iff`: this said for the groups, the roles and the permissions apart;
* `Persistable`: the condition on a call;
* `survives_reload_iff`: along a run of calls, the tables give the data back in every state exactly
  when every call meets the condition.
-/

namespace FaceCore.Rbac

/-- Loading the account again gives the data in memory. -/
def InSync (mgr : AccountMgr) (a : Account) : Prop :=
  loadFromDB mgr a.db (.new a.data.id a.data.realmId) = some a.data

/-- A removal takes every row that affects the realm of the data. -/
def Erases {α : Type} (rows : Rows α) (data : RBACData) (id : ℕ) (realmId : ℤ) : Prop :=
  realmId ≠ 0 ∧ (realmId = data.realmId ∨ rows.find ⟨data.id, id, data.realmId⟩ = none)

/-- The condition on a call: it is refused, or it is saved, and what it removes is not a default
group and has no row left. -/
def Persistable (mgr : AccountMgr) (a : Account) : Op → Prop
  | .addGroup g realmId => mgr.getRBACGroup g = none ∨ g ∈ a.data.groups ∨ realmId ≠ 0
  | .removeGroup g realmId =>
    g ∈ a.data.groups →
      g ∉ mgr.getRBACDefaultGroups ∧ Erases a.db.groups a.data g realmId
  | .grantRole i realmId | .denyRole i realmId =>
    mgr.getRBACRole i = none ∨ a.data.roles.Settled i ∨ realmId ≠ 0
  | .revokeRole i realmId => a.data.roles.Settled i → Erases a.db.roles a.data i realmId
  | .grantPermission i realmId | .denyPermission i realmId =>
    ∀ p, position i = some p →
      mgr.getRBACPermission i = false ∨ a.data.perms.Settled p ∨ realmId ≠ 0
  | .revokePermission i realmId =>
    ∀ p, position i = some p → a.data.perms.Settled p → Erases a.db.permissions a.data i realmId

/-! ### The statements -/

section

variable {α : Type} {rows : Rows α} {account id : ℕ} {realm : ℤ}

theorem rowKey_lt {r r' : ℤ} (h : r < r') : (⟨account, id, r⟩ : RowKey) < ⟨account, id, r'⟩ := by
  show RowKey.lexicographic _ < RowKey.lexicographic _
  simp [RowKey.lexicographic, Prod.Lex.toLex_lt_toLex, h]

/-- Of the rows of two realms, the first one in the order of the keys counts. -/
theorem lookup_filterMap {es : List (RowKey × α)} (hs : es.Pairwise fun a b => a.1 < b.1)
    {lo hi : ℤ} (hle : lo ≤ hi) :
    (es.filterMap fun e => if e.1.account = account ∧ (e.1.realm = lo ∨ e.1.realm = hi)
      then some (e.1.id, e.2) else none).lookup id =
      (es.lookup ⟨account, id, lo⟩).or (es.lookup ⟨account, id, hi⟩) := by
  induction es with
  | nil => rfl
  | cons e es ih =>
    obtain ⟨hlt, hes⟩ := List.pairwise_cons.1 hs
    specialize ih hes
    obtain ⟨⟨account', id', realm'⟩, v⟩ := e
    have hskip : ∀ r, ¬(account' = account ∧ id' = id ∧ realm' = r) →
        (((⟨account', id', realm'⟩, v) :: es).lookup ⟨account, id, r⟩) =
          es.lookup ⟨account, id, r⟩ := by
      intro r hr
      rw [List.lookup_cons, beq_false_of_ne]
      rintro heq
      cases heq
      exact hr ⟨rfl, rfl, rfl⟩
    rw [List.filterMap_cons]
    dsimp only
    by_cases hrow : account' = account ∧ (realm' = lo ∨ realm' = hi)
    · rw [if_pos hrow, List.lookup_cons]
      obtain ⟨rfl, hrealm⟩ := hrow
      by_cases hid : id = id'
      · subst hid
        rw [beq_self_eq_true]
        rcases hrealm with rfl | rfl
        · rw [List.lookup_cons_self, Option.some_or]
        · -- the row of the smaller realm would stand before this one
          rcases hle.eq_or_lt with rfl | hlt'
          · rw [List.lookup_cons_self, Option.some_or]
          · have hnone : es.lookup ⟨account', id, lo⟩ = none :=
              SortedMap.lookup_eq_none_of_lt fun e he => (rowKey_lt hlt').trans (hlt e he)
            rw [hskip lo fun h => hlt'.ne' h.2.2, hnone, Option.none_or, List.lookup_cons_self]
      · rw [beq_false_of_ne hid, hskip lo fun h => hid h.2.1.symm, hskip hi fun h => hid h.2.1.symm]
        exact ih
    · rw [if_neg hrow, hskip lo fun h => hrow ⟨h.1, Or.inl h.2.2⟩,
        hskip hi fun h => hrow ⟨h.1, Or.inr h.2.2⟩]
      exact ih

/-- The first row that affects the realm counts. -/
theorem lookup_select : (select rows account realm).lookup id =
    (rows.find ⟨account, id, min realm (-1)⟩).or (rows.find ⟨account, id, max realm (-1)⟩) := by
  have hselect : select rows account realm = rows.entries.filterMap fun e =>
      if e.1.account = account ∧ (e.1.realm = min realm (-1) ∨ e.1.realm = max realm (-1))
        then some (e.1.id, e.2) else none := by
    refine List.filterMap_congr fun e _ => if_congr (and_congr_right fun _ => ?_) rfl rfl
    rcases le_total realm (-1) with h | h
    · rw [min_eq_left h, max_eq_right h]
    · rw [min_eq_right h, max_eq_left h, or_comm]
  rw [hselect, lookup_filterMap rows.sorted (min_le_max)]
  rfl

theorem lookup_select_eq_none : (select rows account realm).lookup id = none ↔
    rows.find ⟨account, id, realm⟩ = none ∧ rows.find ⟨account, id, -1⟩ = none := by
  rw [lookup_select, Option.or_eq_none_iff]
  rcases le_total realm (-1) with h | h
  · rw [min_eq_left h, max_eq_right h]
  · rw [min_eq_right h, max_eq_left h, and_comm]

/-- Where no row counted, a new one does. -/
theorem lookup_select_insert {r : ℤ} {v : α} (hr : r = -1 ∨ r = realm)
    (hnone : (select rows account realm).lookup id = none) (y : ℕ) :
    (select (rows.insert ⟨account, id, r⟩ v) account realm).lookup y =
      if y = id then some v else (select rows account realm).lookup y := by
  obtain ⟨hrealm, hall⟩ := lookup_select_eq_none.1 hnone
  rw [lookup_select, lookup_select, SortedMap.find_insert, SortedMap.find_insert]
  by_cases hy : y = id
  · subst hy
    rcases le_total realm (-1) with h | h
    · rw [min_eq_left h, max_eq_right h, hrealm, hall]
      rcases hr with rfl | rfl <;> split_ifs <;> simp_all
    · rw [min_eq_right h, max_eq_left h, hrealm, hall]
      rcases hr with rfl | rfl <;> split_ifs <;> simp_all
  · simp [hy]

theorem lookup_select_delete {r : ℤ} (hr : r = -1 ∨ r = realm) (y : ℕ) :
    (select (delete rows account id r) account realm).lookup y =
      if y = id then (if r = realm then none else rows.find ⟨account, id, realm⟩)
      else (select rows account realm).lookup y := by
  have hkept : ∀ realm', (delete rows account id r).find ⟨account, y, realm'⟩ =
      if y = id ∧ (realm' = r ∨ realm' = -1) then none else rows.find ⟨account, y, realm'⟩ := by
    intro realm'
    rw [delete, SortedMap.find_filterKeys]
    by_cases h : y = id ∧ (realm' = r ∨ realm' = -1)
    · rw [if_pos h]
      rcases h with ⟨rfl, rfl | rfl⟩ <;> simp
    · rw [if_neg h]
      simp only [decide_true, Bool.true_and, Bool.not_eq_true', Bool.and_eq_false_imp,
        decide_eq_true_eq, Bool.or_eq_false_iff, decide_eq_false_iff_not]
      rw [if_pos fun hy => not_or.1 fun hr' => h ⟨hy, hr'⟩]
  rw [lookup_select, lookup_select, hkept, hkept]
  by_cases hy : y = id
  · subst hy
    rcases hr with rfl | rfl
    · by_cases heq : realm = -1
      · subst heq
        simp
      · rw [if_neg (Ne.symm heq)]
        rcases le_total realm (-1) with h | h
        · simp [min_eq_left h, max_eq_right h, heq]
        · simp [min_eq_right h, max_eq_left h, heq]
    · rcases le_total r (-1) with h | h
      · simp [min_eq_left h, max_eq_right h]
      · simp [min_eq_right h, max_eq_left h]
  · simp [hy]

end

/-! ### Loading -/

variable (mgr : AccountMgr)

/-- A role exists. -/
def isRole (roleId : ℕ) : Bool := (mgr.getRBACRole roleId).isSome

/-- A permission exists. -/
def isPermission (p : Fin rbacPermMax) : Bool := mgr.getRBACPermission p

/-- The rows of permissions that have a position. -/
def positioned (rows : List (ℕ × Bool)) : List (Fin rbacPermMax × Bool) :=
  rows.filterMap fun row => (position row.1).map (·, row.2)

variable {mgr} {a : Account} {data : RBACData} {db : LoginDatabase}

theorem addGroup_zero (g : ℕ) : (addGroup mgr a g 0).2 =
    { a with data := { a.data with
        groups := a.data.groups ∪ if mgr.getRBACGroup g = none then ∅ else {g} } } := by
  unfold addGroup
  split_ifs with hknown hmem
  · simp
  · simp [Finset.union_eq_left.2 (Finset.singleton_subset_iff.2 hmem)]
  · simp [save]

theorem foldl_addGroup (gs : List ℕ) : gs.foldl (fun a g => (addGroup mgr a g 0).2) a =
    { a with data := { a.data with
        groups := a.data.groups ∪ (gs.filter fun g => mgr.getRBACGroup g ≠ none).toFinset } } := by
  induction gs generalizing a with
  | nil => simp
  | cons g gs ih =>
    rw [List.foldl_cons, ih, addGroup_zero]
    by_cases h : mgr.getRBACGroup g = none
    · simp [h]
    · simp [h]

theorem enterRole_zero (b : Bool) (i : ℕ) : (enterRole mgr b a i 0).2 =
    { a with data := { a.data with
        roles := if isRole mgr i then a.data.roles.enter b i else a.data.roles } } := by
  unfold enterRole isRole Verdicts.enter
  cases mgr.getRBACRole i with
  | none => simp
  | some perms =>
    have hsettled := Verdicts.settled_iff (v := a.data.roles) (x := i) b
    split_ifs <;> simp_all [save]

theorem foldl_enterRole (rows : List (ℕ × Bool)) :
    rows.foldl (fun a row => (enterRole mgr row.2 a row.1 0).2) a =
      { a with data := { a.data with roles := a.data.roles.fill (isRole mgr) rows } } := by
  induction rows generalizing a with
  | nil => rfl
  | cons row rows ih =>
    rw [List.foldl_cons, ih, enterRole_zero]
    rfl

theorem enterPermission_zero (mgr : AccountMgr) (a : Account) {i : ℕ} {p : Fin rbacPermMax} (b : Bool) (hp : position i = some p) :
    ∃ r, enterPermission mgr b a i 0 = (.result r, { a with data := { a.data with
      perms := if isPermission mgr p then a.data.perms.enter b p else a.data.perms } }) := by
  unfold enterPermission isPermission Verdicts.enter
  rw [hp, position_eq_some.1 hp]
  cases mgr.getRBACPermission i with
  | false => exact ⟨.idDoesNotExists, by simp⟩
  | true =>
    have hsettled := Verdicts.settled_iff (v := a.data.perms) (x := p) b
    dsimp only
    split_ifs <;> simp_all [save]

theorem position_eq_none {i : ℕ} : position i = none ↔ rbacPermMax ≤ i := by
  unfold position
  split_ifs with h
  · simp [h]
  · simpa using h

theorem loadPermissions_eq_some {rows : List (ℕ × Bool)} {a' : Account} :
    loadPermissions mgr a rows = some a' ↔
      (∀ row ∈ rows, mgr.getRBACPermission row.1 = true → row.1 < rbacPermMax) ∧
        a' = { a with data := { a.data with
          perms := a.data.perms.fill (isPermission mgr) (positioned rows) } } := by
  induction rows generalizing a with
  | nil =>
    rw [loadPermissions, Option.some.injEq, eq_comm]
    exact (and_iff_right (by simp)).symm
  | cons row rows ih =>
    rw [loadPermissions, List.forall_mem_cons]
    cases hp : position row.1 with
    | some p =>
      obtain ⟨r, hr⟩ := enterPermission_zero mgr a row.2 hp
      have hlt : row.1 < rbacPermMax := position_eq_some.1 hp ▸ p.isLt
      have hpos : positioned (row :: rows) = (p, row.2) :: positioned rows := by
        simp [positioned, hp]
      rw [hr, hpos]
      dsimp only
      rw [ih]
      exact and_congr_left' (iff_and_self.2 fun _ _ => hlt)
    | none =>
      have hpos : positioned (row :: rows) = positioned rows := by
        simp [positioned, hp]
      have hle := position_eq_none.1 hp
      rw [enterPermission, hp, hpos]
      cases hknown : mgr.getRBACPermission row.1 with
      | false => simp [ih]
      | true => simp [hle]

theorem lookup_positioned {rows : List (ℕ × Bool)} (p : Fin rbacPermMax) :
    (positioned rows).lookup p = rows.lookup p.val := by
  induction rows with
  | nil => rfl
  | cons row rows ih =>
    obtain ⟨i, b⟩ := row
    rw [List.lookup_cons, ← ih]
    by_cases hi : p.val = i
    · have hp := position_eq_some.2 hi
      simp [positioned, hp, hi]
    · rw [beq_false_of_ne hi]
      cases hp : position i with
      | none => simp [positioned, hp]
      | some q =>
        have hne : p ≠ q := fun h => hi (h ▸ position_eq_some.1 hp)
        simp [positioned, hp, List.lookup_cons, beq_false_of_ne hne]

/-- The tables hold the groups, the roles and the permissions of an account; a permission that
exists has a position. -/
structure Matches (mgr : AccountMgr) (db : LoginDatabase) (data : RBACData) : Prop where
  groups : ∀ g, g ∈ data.groups ↔ mgr.getRBACGroup g ≠ none ∧
    ((select db.groups data.id data.realmId).lookup g ≠ none ∨ g ∈ mgr.getRBACDefaultGroups)
  roles : data.roles.Follows (isRole mgr) ((select db.roles data.id data.realmId).lookup ·)
  perms : data.perms.Follows (isPermission mgr)
    fun p => (select db.permissions data.id data.realmId).lookup p.val
  inRange : ∀ i, mgr.getRBACPermission i = true →
    (select db.permissions data.id data.realmId).lookup i ≠ none → i < rbacPermMax

theorem lookup_ne_none {α : Type} {rows : List (ℕ × α)} {i : ℕ} :
    rows.lookup i ≠ none ↔ ∃ v, (i, v) ∈ rows := by
  rw [Ne, List.lookup_eq_none_iff]
  push Not
  constructor
  · rintro ⟨⟨j, v⟩, hmem, hj⟩
    obtain rfl : i = j := by simpa using hj
    exact ⟨v, hmem⟩
  · rintro ⟨v, hmem⟩
    exact ⟨_, hmem, by simp⟩

theorem calculateNewPermissions_eq_iff {loaded : RBACData} (hid : loaded.id = data.id)
    (hrealm : loaded.realmId = data.realmId) : calculateNewPermissions mgr loaded = data ↔
      (loaded.groups = data.groups ∧ loaded.roles = data.roles ∧ loaded.perms = data.perms) ∧
        UpToDate mgr data := by
  constructor
  · rintro rfl
    exact ⟨⟨rfl, rfl, rfl⟩, upToDate_calculate⟩
  · rintro ⟨⟨hgroups, hroles, hperms⟩, hdata⟩
    rw [← hdata]
    obtain ⟨id, realmId, groups, roles, perms, globalPerms⟩ := loaded
    dsimp only at hid hrealm hgroups hroles hperms
    subst hid hrealm hgroups hroles hperms
    rfl

/-- Loading gives the data exactly when the tables hold it and the permissions are calculated. -/
theorem inSync_iff : InSync mgr a ↔ Matches mgr a.db a.data ∧ UpToDate mgr a.data := by
  obtain ⟨data, db⟩ := a
  unfold InSync loadFromDB
  simp only [foldl_addGroup, foldl_enterRole, Option.map_eq_some_iff, loadPermissions_eq_some,
    and_assoc, exists_and_left, exists_eq_left, RBACData.new, Finset.empty_union]
  rw [calculateNewPermissions_eq_iff (by rfl) (by rfl)]
  dsimp only
  simp only [Verdicts.fill_eq_iff, lookup_positioned]
  have hgroup : ∀ g, g ∈ (((select db.groups data.id data.realmId).map Prod.fst).dedup.filter
        fun g => decide (mgr.getRBACGroup g ≠ none)).toFinset ∪
        (mgr.getRBACDefaultGroups.filter fun g => decide (mgr.getRBACGroup g ≠ none)).toFinset ↔
      mgr.getRBACGroup g ≠ none ∧ ((select db.groups data.id data.realmId).lookup g ≠ none ∨
        g ∈ mgr.getRBACDefaultGroups) := by
    intro g
    rw [lookup_ne_none]
    simp only [List.toFinset_filter, Finset.mem_union, Finset.mem_filter, List.mem_toFinset,
      List.mem_dedup, List.mem_map, Prod.exists, exists_and_right, exists_eq_right,
      decide_eq_true_eq]
    rw [← or_and_right, and_comm]
  constructor
  · rintro ⟨hrange, ⟨hgroups, hroles, hperms⟩, hcalc⟩
    refine ⟨⟨fun g => ?_, hroles, hperms, fun i hi hrow => ?_⟩, hcalc⟩
    · rw [← hgroups, hgroup]
    · obtain ⟨b, hb⟩ := lookup_ne_none.1 hrow
      exact hrange _ hb hi
  · rintro ⟨h, hcalc⟩
    refine ⟨fun row hrow hi => h.inRange _ hi (lookup_ne_none.2 ⟨_, hrow⟩),
      ⟨Finset.ext fun g => ?_, h.roles, h.perms⟩, hcalc⟩
    rw [h.groups, hgroup]

/-! ### One call -/

section

variable {realmId : ℤ}

/-- The tables that a loading call leaves alone do not hold the change; any other call writes it. -/
theorem inSync_save {data : RBACData} {update : LoginDatabase → LoginDatabase}
    (hchange : ¬Matches mgr a.db data) :
    InSync mgr (save mgr a realmId data update).2 ↔ realmId ≠ 0 ∧ Matches mgr (update a.db) data := by
  rw [inSync_iff, save]
  by_cases hr : realmId = 0
  · rw [if_pos hr]
    exact iff_of_false (fun h => hchange h.1) fun h => h.1 hr
  · rw [if_neg hr, and_iff_left upToDate_calculate, and_iff_right hr]
    exact ⟨fun h => ⟨h.groups, h.roles, h.perms, h.inRange⟩,
      fun h => ⟨h.groups, h.roles, h.perms, h.inRange⟩⟩

theorem Matches.roles_iff (h : Matches mgr db data) {rows : Rows Bool} {v : Verdicts ℕ} :
    Matches mgr { db with roles := rows } { data with roles := v } ↔
      v.Follows (isRole mgr) ((select rows data.id data.realmId).lookup ·) :=
  ⟨fun h' => h'.roles, fun hv => ⟨h.groups, hv, h.perms, h.inRange⟩⟩

theorem Matches.perms_iff (h : Matches mgr db data) {rows : Rows Bool}
    {v : Verdicts (Fin rbacPermMax)} (hrows : ∀ i, rbacPermMax ≤ i →
      (select rows data.id data.realmId).lookup i =
        (select db.permissions data.id data.realmId).lookup i) :
    Matches mgr { db with permissions := rows } { data with perms := v } ↔
      v.Follows (isPermission mgr) fun p => (select rows data.id data.realmId).lookup p.val := by
  refine ⟨fun h' => h'.perms, fun hv => ⟨h.groups, h.roles, hv, fun i hi hrow => ?_⟩⟩
  by_contra hle
  rw [hrows i (not_lt.1 hle)] at hrow
  exact hle (h.inRange i hi hrow)

theorem erases_iff {α : Type} {rows : Rows α} {id : ℕ} : Erases rows data id realmId ↔
    realmId ≠ 0 ∧
      (if realmId = data.realmId then none else rows.find ⟨data.id, id, data.realmId⟩) = none := by
  unfold Erases
  split_ifs with h <;> simp [h]

theorem inSync_addGroup (h : InSync mgr a) {g : ℕ} (hr : realmId = -1 ∨ realmId = a.data.realmId) :
    InSync mgr (addGroup mgr a g realmId).2 ↔ Persistable mgr a (.addGroup g realmId) := by
  have hmatch := (inSync_iff.1 h).1
  simp only [addGroup, Persistable]
  split_ifs with hknown hmem
  · exact iff_of_true h (Or.inl hknown)
  · exact iff_of_true h (Or.inr (Or.inl hmem))
  · have hrows := mt (hmatch.groups g).2 hmem
    rw [inSync_save (by exact fun h' => hrows ((h'.groups g).1 (Finset.mem_insert_self g _)))]
    simp only [hknown, hmem, false_or]
    refine and_iff_left ⟨fun y => ?_, hmatch.roles, hmatch.perms, hmatch.inRange⟩
    have hnone : (select a.db.groups a.data.id a.data.realmId).lookup g = none :=
      of_not_not fun hrow => hrows ⟨hknown, Or.inl hrow⟩
    dsimp only
    rw [Finset.mem_insert, hmatch.groups, lookup_select_insert hr hnone]
    by_cases hy : y = g <;> simp [hy, hknown]

theorem inSync_removeGroup (h : InSync mgr a) {g : ℕ}
    (hr : realmId = -1 ∨ realmId = a.data.realmId) :
    InSync mgr (removeGroup mgr a g realmId).2 ↔ Persistable mgr a (.removeGroup g realmId) := by
  have hmatch := (inSync_iff.1 h).1
  simp only [removeGroup, Persistable]
  split_ifs with hmem
  · have hknown := ((hmatch.groups g).1 hmem).1
    have hgone : g ∉ a.data.groups.erase g := Finset.notMem_erase g _
    rw [inSync_save (by exact fun h' => hgone ((h'.groups g).2 ((hmatch.groups g).1 hmem))),
      erases_iff]
    simp only [hmem, forall_const]
    constructor
    · rintro ⟨h0, h'⟩
      have hrows := mt (h'.groups g).2 hgone
      dsimp only at hrows
      rw [lookup_select_delete hr, if_pos rfl] at hrows
      exact ⟨fun hdef => hrows ⟨hknown, Or.inr hdef⟩, h0,
        of_not_not fun hrow => hrows ⟨hknown, Or.inl hrow⟩⟩
    · rintro ⟨hdef, h0, hrow⟩
      refine ⟨h0, fun y => ?_, hmatch.roles, hmatch.perms, hmatch.inRange⟩
      dsimp only
      rw [Finset.mem_erase, hmatch.groups, lookup_select_delete hr, hrow]
      by_cases hy : y = g <;> simp [hy, hdef]
  · exact iff_of_true h fun h' => absurd h' hmem

theorem inSync_enterRole (h : InSync mgr a) {granted : Bool} {i : ℕ}
    (hr : realmId = -1 ∨ realmId = a.data.realmId) :
    InSync mgr (enterRole mgr granted a i realmId).2 ↔
      mgr.getRBACRole i = none ∨ a.data.roles.Settled i ∨ realmId ≠ 0 := by
  have hmatch := (inSync_iff.1 h).1
  unfold enterRole
  by_cases hknown : mgr.getRBACRole i = none
  · rw [if_pos hknown]
    exact iff_of_true h (Or.inl hknown)
  · rw [if_neg hknown]
    by_cases hv : a.data.roles.Settled i
    · have hrefused := (Verdicts.settled_iff granted).1 hv
      refine iff_of_true ?_ (Or.inr (Or.inl hv))
      by_cases hother : i ∈ a.data.roles.side !granted
      · rwa [if_pos hother]
      · rwa [if_neg hother, if_pos (hrefused.resolve_right hother)]
    · have hrole : isRole mgr i = true := Option.isSome_iff_ne_none.2 hknown
      obtain ⟨hside, hother⟩ := not_or.1 (mt (Verdicts.settled_iff granted).2 hv)
      rw [if_neg hother, if_neg hside, inSync_save (by exact fun h' => hmatch.roles.not_add hv h'.roles),
        hmatch.roles_iff]
      simp only [hknown, hv, false_or]
      exact and_iff_left (hmatch.roles.add hrole hv
        (lookup_select_insert hr (hmatch.roles.eq_none hrole hv)))

theorem inSync_revokeRole (h : InSync mgr a) {i : ℕ}
    (hr : realmId = -1 ∨ realmId = a.data.realmId) :
    InSync mgr (revokeRole mgr a i realmId).2 ↔ Persistable mgr a (.revokeRole i realmId) := by
  have hmatch := (inSync_iff.1 h).1
  simp only [revokeRole, Persistable]
  split_ifs with hv
  · rw [inSync_save (by exact fun h' => hmatch.roles.not_revoke hv h'.roles), hmatch.roles_iff,
      erases_iff, hmatch.roles.revoke_iff hv (lookup_select_delete hr)]
    simp only [hv, forall_const]
  · exact iff_of_true h fun h' => absurd h' hv

theorem inSync_enterPermission (h : InSync mgr a) {granted : Bool} {i : ℕ}
    (hr : realmId = -1 ∨ realmId = a.data.realmId) :
    InSync mgr (enterPermission mgr granted a i realmId).2 ↔
      ∀ p, position i = some p →
        mgr.getRBACPermission i = false ∨ a.data.perms.Settled p ∨ realmId ≠ 0 := by
  have hmatch := (inSync_iff.1 h).1
  unfold enterPermission
  cases hknown : mgr.getRBACPermission i with
  | false => exact iff_of_true h fun p _ => Or.inl rfl
  | true =>
    cases hp : position i with
    | none => exact iff_of_true h nofun
    | some p =>
      have hpi := position_eq_some.1 hp
      subst hpi
      simp only [Bool.not_true, Bool.false_eq_true, if_false, Option.some.injEq, forall_eq',
        reduceCtorEq, false_or]
      by_cases hv : a.data.perms.Settled p
      · have hrefused := (Verdicts.settled_iff granted).1 hv
        refine iff_of_true ?_ (Or.inl hv)
        by_cases hother : p ∈ a.data.perms.side !granted
        · rwa [if_pos hother]
        · rwa [if_neg hother, if_pos (hrefused.resolve_right hother)]
      · have hnone := hmatch.perms.eq_none hknown hv
        have hinsert := lookup_select_insert (v := granted) hr hnone
        obtain ⟨hside, hother⟩ := not_or.1 (mt (Verdicts.settled_iff granted).2 hv)
        rw [if_neg hother, if_neg hside,
          inSync_save (by exact fun h' => hmatch.perms.not_add hv h'.perms),
          hmatch.perms_iff fun j hj => by rw [hinsert, if_neg (p.isLt.trans_le hj).ne']]
        simp only [hv, false_or]
        refine and_iff_left (hmatch.perms.add hknown hv fun q => ?_)
        simp only [hinsert, Fin.val_inj]

theorem inSync_revokePermission (h : InSync mgr a) {i : ℕ}
    (hr : realmId = -1 ∨ realmId = a.data.realmId) :
    InSync mgr (revokePermission mgr a i realmId).2 ↔
      Persistable mgr a (.revokePermission i realmId) := by
  have hmatch := (inSync_iff.1 h).1
  simp only [revokePermission, Persistable]
  cases hp : position i with
  | none => exact iff_of_true h fun p hp' => absurd hp'.symm (Option.some_ne_none p)
  | some p =>
    have hpi := position_eq_some.1 hp
    subst hpi
    simp only [Option.some.injEq, forall_eq']
    split_ifs with hv
    · have hdelete := @lookup_select_delete _ a.db.permissions a.data.id p.val _ _ hr
      rw [inSync_save (by exact fun h' => hmatch.perms.not_revoke hv h'.perms),
        hmatch.perms_iff fun j hj => by rw [hdelete, if_neg (p.isLt.trans_le hj).ne'], erases_iff,
        hmatch.perms.revoke_iff hv fun q => (hdelete q).trans (if_congr Fin.val_inj rfl rfl)]
      simp only [hv, forall_const]
    · exact iff_of_true h fun h' => absurd h' hv

/-- A call keeps the account in step with its tables exactly when it meets the condition. -/
theorem inSync_step (h : InSync mgr a) {op : Op}
    (hr : op.realmId = -1 ∨ op.realmId = a.data.realmId) :
    InSync mgr (step mgr a op) ↔ Persistable mgr a op := by
  cases op with
  | addGroup g realmId => exact inSync_addGroup h hr
  | removeGroup g realmId => exact inSync_removeGroup h hr
  | grantRole i realmId => exact inSync_enterRole h hr
  | denyRole i realmId => exact inSync_enterRole h hr
  | revokeRole i realmId => exact inSync_revokeRole h hr
  | grantPermission i realmId => exact inSync_enterPermission h hr
  | denyPermission i realmId => exact inSync_enterPermission h hr
  | revokePermission i realmId => exact inSync_revokePermission h hr

end

/-! ### A run of calls -/

theorem realmId_step (a : Account) (op : Op) : (step mgr a op).data.realmId = a.data.realmId := by
  unfold step
  rcases outcome_exec mgr a op with ⟨-, hsame⟩ | ⟨data, update, hsave, -, hrealm⟩
  · rw [hsame]
  · rw [hsave, save]
    split_ifs <;> exact hrealm

theorem inSync_loaded {loaded : RBACData} {id : ℕ} {realm : ℤ}
    (hload : loadFromDB mgr db (.new id realm) = some loaded) :
    InSync mgr ⟨loaded, db⟩ ∧ loaded.realmId = realm := by
  have hfixed : loaded.id = id ∧ loaded.realmId = realm := by
    have hload' := hload
    unfold loadFromDB at hload'
    simp only [foldl_addGroup, foldl_enterRole, Option.map_eq_some_iff, loadPermissions_eq_some]
      at hload'
    obtain ⟨_, ⟨-, rfl⟩, rfl⟩ := hload'
    exact ⟨rfl, rfl⟩
  refine ⟨?_, hfixed.2⟩
  unfold InSync
  rw [hfixed.1, hfixed.2]
  exact hload

/-- **Main result.** After an account is loaded, along every run of calls for all realms or for the
realm of the account, loading again gives the data in memory in every state exactly when every call
meets its condition. A call that does not succeed changes nothing. -/
theorem survives_reload_iff {loaded : RBACData} {id : ℕ} {realm : ℤ}
    (hload : loadFromDB mgr db (.new id realm) = some loaded) {ops : List Op}
    (hops : ∀ op ∈ ops, op.realmId = -1 ∨ op.realmId = realm) :
    (Runs.Along (step mgr) (InSync mgr) ⟨loaded, db⟩ ops ↔
      Runs.EachStep (step mgr) (Persistable mgr) ⟨loaded, db⟩ ops) ∧
    ∀ a op, (exec mgr a op).1 ≠ .result .ok → (exec mgr a op).2 = a := by
  obtain ⟨hsync, hrealm⟩ := inSync_loaded hload
  refine ⟨?_, fun a op hrefused => ?_⟩
  · refine Runs.along_iff_eachStep_of_mem (I := fun a => a.data.realmId = realm) hops hrealm hsync
      (fun a op _ ha _ _ => (realmId_step a op).trans ha) fun a op hop ha h => inSync_step h ?_
    rwa [ha]
  · rcases outcome_exec mgr a op with ⟨-, hsame⟩ | ⟨data, update, hsave, -, -⟩
    · exact hsame
    · rw [hsave] at hrefused
      exact absurd rfl hrefused

/-- A role is granted for realm 1 and revoked for realm 1. -/
theorem survives_reload_iff_sample :
    (Runs.Along (step sampleMgr) (InSync sampleMgr) ⟨sampleData, noRows⟩
        [.grantRole 1 1, .revokeRole 1 1] ↔
      Runs.EachStep (step sampleMgr) (Persistable sampleMgr) ⟨sampleData, noRows⟩
        [.grantRole 1 1, .revokeRole 1 1]) ∧
    ∀ a op, (exec sampleMgr a op).1 ≠ .result .ok → (exec sampleMgr a op).2 = a :=
  have hload : loadFromDB sampleMgr noRows (.new 5 1) = some sampleData := rfl
  survives_reload_iff hload (by simp [Op.realmId])

/-- A role that was granted for realm 1 and is revoked for all realms is gone from memory and comes
back with the next load. -/
theorem role_returns_after_reload :
    loadFromDB sampleMgr noRows (.new 5 1) = some sampleData ∧
      (∀ op ∈ [Op.grantRole 1 1, .revokeRole 1 (-1)], op.realmId = -1 ∨ op.realmId = 1) ∧
      let a := [Op.grantRole 1 1, .revokeRole 1 (-1)].foldl (step sampleMgr) ⟨sampleData, noRows⟩
      a.data.roles.granted = ∅ ∧
        (loadFromDB sampleMgr a.db (.new 5 1)).map (fun data => data.roles.granted) = some {1} ∧
        ¬InSync sampleMgr a := by
  refine ⟨rfl, by decide, by decide, by decide, fun h => ?_⟩
  have hroles := congrArg (Option.map fun data => data.roles.granted) h
  exact absurd hroles (by decide)

end FaceCore.Rbac
