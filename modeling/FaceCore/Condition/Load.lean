import FaceCore.Condition.SearchMask
import FaceCore.Lib.Recursion

/-!
# Loading the conditions

`ConditionMgr::LoadConditions` takes the rows of the `conditions` table one after the other. A row
that passes its checks is a condition in some list: in one of a reference template, in one of an
entry of a source type, or in one of an entry of a group. A negative type names a reference template
instead of a type; the readers of a list follow it.

* `loadCondition`, `loadConditions`: the rows and what is stored; the checks that look ids up in
  other stores of the game are parameters;
* `WellReferenced`: the references are there and form no cycle, and the readers answer;
* `wellReferenced_iff`: exactly when they do.
-/

namespace FaceCore.Conditions

/-- A row of the `conditions` table, without the columns for messages and scripts. -/
structure ConditionRow where
  sourceTypeOrReferenceId : ℤ
  sourceGroup : ℕ
  sourceEntry : ℤ
  sourceId : ℤ
  elseGroup : ℕ
  conditionTypeOrReference : ℤ
  conditionTarget : ℕ
  conditionValue1 : ℕ
  conditionValue2 : ℕ
  conditionValue3 : ℕ
  negativeCondition : Bool

/-- The enumeration `ConditionTypes`, from 0. -/
def conditionTypes : List ConditionType :=
  [.none, .aura, .item, .itemEquipped, .zoneId, .reputationRank, .team, .skill, .questRewarded,
    .questTaken, .drunkenState, .worldState, .activeEvent, .instanceInfo, .questNone, .class_,
    .race, .achievement, .title, .spawnMask, .gender, .unitState, .mapId, .areaId, .unused24,
    .spell, .phaseMask, .level, .questComplete, .nearCreature, .nearGameObject, .objectEntry,
    .typeMask, .relationTo, .reactionTo, .distanceTo, .alive, .hpVal, .hpPct]

/-- The enumeration `ConditionSourceType`, from 0. -/
def conditionSourceTypes : List ConditionSourceType :=
  [.none, .creatureLootTemplate, .disenchantLootTemplate, .fishingLootTemplate,
    .gameObjectLootTemplate, .itemLootTemplate, .mailLootTemplate, .millingLootTemplate,
    .pickpocketingLootTemplate, .prospectingLootTemplate, .referenceLootTemplate,
    .skinningLootTemplate, .spellLootTemplate, .spellImplicitTarget, .gossipMenu,
    .gossipMenuOption, .creatureTemplateVehicle, .spell, .spellClickEvent, .questAccept,
    .questShowMark, .vehicleSpell, .smartEvent, .npcVendor, .spellProc]

/-- `ConditionMgr::CanHaveSourceGroupSet`. -/
def canHaveSourceGroupSet : ConditionSourceType → Bool
  | .creatureLootTemplate | .disenchantLootTemplate | .fishingLootTemplate
  | .gameObjectLootTemplate | .itemLootTemplate | .mailLootTemplate | .millingLootTemplate
  | .pickpocketingLootTemplate | .prospectingLootTemplate | .referenceLootTemplate
  | .skinningLootTemplate | .spellLootTemplate | .gossipMenu | .gossipMenuOption | .vehicleSpell
  | .spellImplicitTarget | .spellClickEvent | .smartEvent | .npcVendor => true
  | _ => false

/-- `ConditionMgr::CanHaveSourceIdSet`. -/
def canHaveSourceIdSet (t : ConditionSourceType) : Bool := t = .smartEvent

/-- The source types whose groups are stores of the manager itself. -/
def hasOwnStore : ConditionSourceType → Bool
  | .spellClickEvent | .vehicleSpell | .smartEvent | .npcVendor => true
  | _ => false

namespace ConditionRow

/-- The row as a condition; a type outside the enumeration counts as NONE, which the checks refuse
like it, and so does a source type, of which no reader of the condition asks more. -/
def condition (row : ConditionRow) : Condition where
  sourceType := if row.sourceTypeOrReferenceId ≥ 0
    then (conditionSourceTypes[row.sourceTypeOrReferenceId.toNat]?).getD .none else .none
  elseGroup := row.elseGroup
  conditionType := if row.conditionTypeOrReference ≥ 0
    then (conditionTypes[row.conditionTypeOrReference.toNat]?).getD .none else .none
  value1 := row.conditionValue1
  value2 := row.conditionValue2
  value3 := row.conditionValue3
  referenceId := if row.conditionTypeOrReference < 0 then row.conditionTypeOrReference.natAbs else 0
  conditionTarget := row.conditionTarget
  negativeCondition := row.negativeCondition

end ConditionRow

/-- The lists in which conditions are stored. -/
inductive Place
  | reference (id : ℕ)
  | ungrouped (sourceType : ℕ) (entry : ℤ)
  | grouped (sourceType sourceGroup : ℕ) (entry id : ℤ)
deriving DecidableEq

/-- The checks of a row against the other stores of the game: those of `isConditionTypeValid`, those
of `isSourceTypeValid`, and whether the list of a group can be found. -/
structure GameStores where
  knowsValues : ConditionRow → Bool
  isSourceTypeValid : ConditionRow → Bool
  hasGroup : ConditionRow → Bool

/-- The part of `LoadConditions` that finds the list for a condition. -/
def findPlace (stores : GameStores) (row : ConditionRow) : Option Place :=
  let sourceType := row.condition.sourceType
  if row.sourceTypeOrReferenceId < 0 then
    some (.reference row.sourceTypeOrReferenceId.natAbs)
  else if row.conditionTypeOrReference ≥ 0 ∧ !stores.isSourceTypeValid row then none
  else if row.sourceGroup ≠ 0 ∧ !canHaveSourceGroupSet sourceType then none
  else if row.sourceId ≠ 0 ∧ !canHaveSourceIdSet sourceType then none
  else if row.sourceGroup ≠ 0 then
    if hasOwnStore sourceType || stores.hasGroup row then
      some (.grouped row.sourceTypeOrReferenceId.toNat row.sourceGroup row.sourceEntry row.sourceId)
    else none
  else some (.ungrouped row.sourceTypeOrReferenceId.toNat row.sourceEntry)

/-- The checks of a reference, that it does not name its own template, and of a condition. -/
def isRowValid (stores : GameStores) (row : ConditionRow) : Bool :=
  if row.conditionTypeOrReference < 0 then
    row.conditionTypeOrReference ≠ row.sourceTypeOrReferenceId
  else row.condition.isConditionTypeValid && stores.knowsValues row

theorem loaded_of_isRowValid {stores : GameStores} {row : ConditionRow}
    (h : isRowValid stores row) :
    row.condition.referenceId ≠ 0 ∨ row.condition.isConditionTypeValid := by
  unfold isRowValid at h
  split_ifs at h with hneg
  · refine .inl ?_
    show (if row.conditionTypeOrReference < 0 then row.conditionTypeOrReference.natAbs else 0) ≠ 0
    rw [if_pos hneg]
    omega
  · exact .inr (Bool.and_eq_true_iff.1 h).1

/-- One turn of the loop of `LoadConditions`: where the row is stored, if it is not skipped. -/
def loadCondition (stores : GameStores) (row : ConditionRow) : Option (Place × LoadedCondition) :=
  if h : isRowValid stores row then
    (findPlace stores row).map fun place => (place, ⟨row.condition, loaded_of_isRowValid h⟩)
  else none

/-- `ConditionMgr::LoadConditions`. -/
def loadConditions (stores : GameStores) (rows : List ConditionRow) :
    List (Place × LoadedCondition) :=
  rows.filterMap (loadCondition stores)

/-- The conditions of a list. -/
def listAt (stored : List (Place × LoadedCondition)) (place : Place) : List LoadedCondition :=
  (stored.filter fun e => e.1 = place).map (·.2)

variable {stores : GameStores} {rows : List ConditionRow} {row : ConditionRow} {place : Place}
  {c : LoadedCondition}

theorem mem_listAt {stored : List (Place × LoadedCondition)} :
    c ∈ listAt stored place ↔ (place, c) ∈ stored := by
  simp [listAt]

theorem loadCondition_eq_some : loadCondition stores row = some (place, c) ↔
    isRowValid stores row ∧ findPlace stores row = some place ∧ c.toCondition = row.condition := by
  unfold loadCondition
  split_ifs with h
  · rw [Option.map_eq_some_iff]
    constructor
    · rintro ⟨p, hp, heq⟩
      obtain ⟨rfl, rfl⟩ := Prod.mk.inj heq
      exact ⟨h, hp, rfl⟩
    · rintro ⟨-, hp, hc⟩
      refine ⟨place, hp, ?_⟩
      obtain ⟨cond, hcond⟩ := c
      obtain rfl : cond = row.condition := hc
      rfl
  · exact iff_of_false (fun hh => by cases hh) fun hh => h hh.1

theorem mem_loadConditions : (place, c) ∈ loadConditions stores rows ↔
    ∃ row ∈ rows, isRowValid stores row ∧ findPlace stores row = some place ∧
      c.toCondition = row.condition := by
  unfold loadConditions
  simp only [List.mem_filterMap, loadCondition_eq_some]

theorem sourceType_of_template {id : ℕ}
    (h : c ∈ listAt (loadConditions stores rows) (.reference id)) : c.sourceType = .none := by
  obtain ⟨row, -, -, hplace, hc⟩ := mem_loadConditions.1 (mem_listAt.1 h)
  unfold findPlace at hplace
  dsimp only at hplace
  split_ifs at hplace with hneg
  · rw [hc]
    show (if row.sourceTypeOrReferenceId ≥ 0 then _ else _) = _
    rw [if_neg (not_le.2 hneg)]
  all_goals cases hplace

/-- `ConditionReferenceStore`, after the conditions are loaded. -/
def referenceStore (stores : GameStores) (rows : List ConditionRow) : ReferenceStore where
  find := fun id =>
    let conditions := listAt (loadConditions stores rows) (.reference id)
    if conditions.isEmpty then none else some conditions
  template := by
    intro id cs hfind c hc
    dsimp only at hfind
    split_ifs at hfind
    obtain rfl := Option.some.inj hfind
    exact sourceType_of_template hc

/-! ### References -/

/-- A condition of the template `id` refers to the template `id'`. -/
def ReferenceStore.Refers (refs : ReferenceStore) (id id' : ℕ) : Prop :=
  ∃ cs, refs.find id = some cs ∧ ∃ c ∈ cs, c.referenceId ≠ 0 ∧ c.referenceId = id'

/-- What the readers of the lists rely on: every reference that is stored leads to a template, the
references form no cycle, and both readers answer for every list, without a failed assertion. -/
structure WellReferenced (O : Type) [DecidableEq O] (refs : ReferenceStore)
    (stored : List (Place × LoadedCondition)) : Prop where
  found : ∀ e ∈ stored, e.2.referenceId ≠ 0 → (refs.find e.2.referenceId).isSome
  acyclic : ∀ id, ¬Relation.TransGen refs.Refers id id
  answers : ∀ place (w : World O) (src : ConditionSourceInfo O), ∃ fuel,
    (refs.isObjectMeetToConditions fuel w src (listAt stored place)).isSome ∧
      (refs.getSearcherTypeMaskForConditionList fuel (listAt stored place)).isSome

/-- A row that is not skipped. -/
def ConditionRow.Kept (stores : GameStores) (row : ConditionRow) : Prop :=
  isRowValid stores row = true ∧ (findPlace stores row).isSome

/-- The rows make the template `id` refer to the template `id'`. -/
def RowRefers (rows : List ConditionRow) (id id' : ℤ) : Prop :=
  ∃ row ∈ rows, row.sourceTypeOrReferenceId = id ∧ row.conditionTypeOrReference = id' ∧
    id < 0 ∧ id' < 0 ∧ id ≠ id'

/-- Every reference of a row that is kept is the template of some row that is kept, and the
references between templates form no cycle. -/
structure RowsWellFounded (stores : GameStores) (rows : List ConditionRow) : Prop where
  found : ∀ row ∈ rows, row.Kept stores → row.conditionTypeOrReference < 0 →
    ∃ row' ∈ rows, row'.Kept stores ∧
      row'.sourceTypeOrReferenceId = row.conditionTypeOrReference
  acyclic : ∀ id, ¬Relation.TransGen (RowRefers rows) id id

theorem referenceId_eq (hc : c.toCondition = row.condition) : c.referenceId =
    if row.conditionTypeOrReference < 0 then row.conditionTypeOrReference.natAbs else 0 := by
  rw [hc]
  rfl

theorem referenceId_ne_zero_iff (hc : c.toCondition = row.condition) :
    c.referenceId ≠ 0 ↔ row.conditionTypeOrReference < 0 := by
  rw [referenceId_eq hc]
  split_ifs with h
  · exact iff_of_true (by omega) h
  · exact iff_of_false (fun h0 => h0 rfl) h

theorem findPlace_reference_iff {id : ℕ} : findPlace stores row = some (.reference id) ↔
    row.sourceTypeOrReferenceId < 0 ∧ row.sourceTypeOrReferenceId.natAbs = id := by
  unfold findPlace
  dsimp only
  split_ifs with hneg
  · simp [hneg]
  all_goals simp [hneg]

theorem find_isSome_iff {id : ℕ} : ((referenceStore stores rows).find id).isSome ↔
    ∃ row ∈ rows, row.Kept stores ∧ row.sourceTypeOrReferenceId < 0 ∧
      row.sourceTypeOrReferenceId.natAbs = id := by
  have hfind : ((referenceStore stores rows).find id).isSome ↔
      ∃ c, c ∈ listAt (loadConditions stores rows) (.reference id) := by
    show (if _ then none else some _).isSome ↔ _
    split_ifs with hnil
    · simp [List.isEmpty_iff.1 hnil]
    · exact iff_of_true rfl (List.exists_mem_of_ne_nil _ fun h => hnil (List.isEmpty_iff.2 h))
  rw [hfind]
  constructor
  · rintro ⟨c, hc⟩
    obtain ⟨row, hrow, hvalid, hplace, -⟩ := mem_loadConditions.1 (mem_listAt.1 hc)
    exact ⟨row, hrow, ⟨hvalid, by rw [hplace]; rfl⟩, findPlace_reference_iff.1 hplace⟩
  · rintro ⟨row, hrow, hkept, hplace⟩
    refine ⟨⟨row.condition, loaded_of_isRowValid hkept.1⟩, mem_listAt.2 (mem_loadConditions.2 ?_)⟩
    exact ⟨row, hrow, hkept.1, findPlace_reference_iff.2 hplace, rfl⟩

/-- The templates refer to each other as the rows say. -/
theorem refers_iff {id id' : ℕ} : (referenceStore stores rows).Refers id id' ↔
    RowRefers rows (-id) (-id') := by
  have hfind : ∀ cs, (referenceStore stores rows).find id = some cs →
      cs = listAt (loadConditions stores rows) (.reference id) := by
    intro cs h
    change (if _ then none else some _) = some cs at h
    split_ifs at h
    exact (Option.some.inj h).symm
  constructor
  · rintro ⟨cs, hcs, c, hc, hne, rfl⟩
    rw [hfind cs hcs] at hc
    obtain ⟨row, hrow, hvalid, hplace, heq⟩ := mem_loadConditions.1 (mem_listAt.1 hc)
    obtain ⟨hneg, habs⟩ := findPlace_reference_iff.1 hplace
    have hneg' := (referenceId_ne_zero_iff heq).1 hne
    have hid : c.referenceId = row.conditionTypeOrReference.natAbs := by
      rw [referenceId_eq heq, if_pos hneg']
    unfold isRowValid at hvalid
    rw [if_pos hneg', decide_eq_true_eq] at hvalid
    exact ⟨row, hrow, by omega, by omega, by omega, by omega, by omega⟩
  · rintro ⟨row, hrow, hid, hid', hneg, hneg', hne⟩
    rw [← hid] at hneg hne
    rw [← hid'] at hneg' hne
    have hvalid : isRowValid stores row = true := by
      unfold isRowValid
      rw [if_pos hneg', decide_eq_true_eq]
      exact hne.symm
    have hplace : findPlace stores row = some (.reference id) :=
      findPlace_reference_iff.2 ⟨hneg, by omega⟩
    have hmem : (⟨row.condition, loaded_of_isRowValid hvalid⟩ : LoadedCondition) ∈
        listAt (loadConditions stores rows) (.reference id) :=
      mem_listAt.2 (mem_loadConditions.2 ⟨row, hrow, hvalid, hplace, rfl⟩)
    have hsome := (@find_isSome_iff stores rows id).2
      ⟨row, hrow, ⟨hvalid, by rw [hplace]; rfl⟩, findPlace_reference_iff.1 hplace⟩
    obtain ⟨cs, hcs⟩ := Option.isSome_iff_exists.1 hsome
    refine ⟨cs, hcs, _, hfind cs hcs ▸ hmem, ?_, ?_⟩
    · exact (referenceId_ne_zero_iff rfl).2 hneg'
    · rw [referenceId_eq rfl, if_pos hneg']
      omega

/-- A cycle of templates is one of rows, whose ids are negative. -/
theorem transGen_refers_iff {id id' : ℕ} :
    Relation.TransGen (referenceStore stores rows).Refers id id' ↔
      Relation.TransGen (RowRefers rows) (-id) (-id') := by
  constructor
  · intro h
    exact h.lift (fun n : ℕ => (-n : ℤ)) fun a b hab => refers_iff.1 hab
  · intro h
    have hstep : ∀ a b, RowRefers rows a b →
        (referenceStore stores rows).Refers a.natAbs b.natAbs := by
      intro a b hab
      have hneg := hab
      obtain ⟨_, -, -, -, ha, hb, -⟩ := hneg
      have ha' : -(a.natAbs : ℤ) = a := by omega
      have hb' : -(b.natAbs : ℤ) = b := by omega
      rw [refers_iff, ha', hb']
      exact hab
    have hlift : Relation.TransGen (referenceStore stores rows).Refers (-(id : ℤ)).natAbs
        (-(id' : ℤ)).natAbs := h.lift Int.natAbs hstep
    simpa using hlift

theorem acyclic_iff : (∀ id, ¬Relation.TransGen (referenceStore stores rows).Refers id id) ↔
    ∀ id, ¬Relation.TransGen (RowRefers rows) id id := by
  constructor
  · intro h id hid
    obtain ⟨_, ⟨_, -, -, -, hneg, -⟩, -⟩ := Relation.TransGen.head'_iff.1 hid
    have heq : -(id.natAbs : ℤ) = id := by omega
    exact h id.natAbs (transGen_refers_iff.2 (by rw [heq]; exact hid))
  · exact fun h id hid => h _ (transGen_refers_iff.1 hid)

theorem found_iff : (∀ e ∈ loadConditions stores rows, e.2.referenceId ≠ 0 →
      ((referenceStore stores rows).find e.2.referenceId).isSome) ↔
    ∀ row ∈ rows, row.Kept stores → row.conditionTypeOrReference < 0 →
      ∃ row' ∈ rows, row'.Kept stores ∧
        row'.sourceTypeOrReferenceId = row.conditionTypeOrReference := by
  constructor
  · intro h row hrow hkept hneg
    obtain ⟨place, hplace⟩ := Option.isSome_iff_exists.1 hkept.2
    have hstored : (place, (⟨row.condition, loaded_of_isRowValid hkept.1⟩ : LoadedCondition)) ∈
        loadConditions stores rows := mem_loadConditions.2 ⟨row, hrow, hkept.1, hplace, rfl⟩
    have hfound := h _ hstored ((referenceId_ne_zero_iff rfl).2 hneg)
    obtain ⟨row', hrow', hkept', hneg', hid⟩ := find_isSome_iff.1 hfound
    have href : row.condition.referenceId = row.conditionTypeOrReference.natAbs := if_pos hneg
    dsimp only at hid
    exact ⟨row', hrow', hkept', by omega⟩
  · rintro h ⟨place, c⟩ he hne
    obtain ⟨row, hrow, hvalid, hplace, heq⟩ := mem_loadConditions.1 he
    have hneg := (referenceId_ne_zero_iff heq).1 hne
    obtain ⟨row', hrow', hkept', hid⟩ := h row hrow ⟨hvalid, by rw [hplace]; rfl⟩ hneg
    refine find_isSome_iff.2 ⟨row', hrow', hkept', by omega, ?_⟩
    show _ = c.referenceId
    rw [referenceId_eq heq, if_pos hneg, hid]

/-! ### The readers -/

theorem exists_forall_lt {α : Type} (f : α → ℕ) (l : List α) : ∃ n, ∀ a ∈ l, f a < n := by
  induction l with
  | nil => exact ⟨0, fun a ha => absurd ha List.not_mem_nil⟩
  | cons a l ih =>
    obtain ⟨n, hn⟩ := ih
    refine ⟨max n (f a + 1), ?_⟩
    rw [List.forall_mem_cons]
    exact ⟨lt_of_lt_of_le (Nat.lt_succ_self _) (le_max_right _ _),
      fun b hb => (hn b hb).trans_le (le_max_left _ _)⟩

/-- What a stored list leads to is stored, too. -/
theorem stored_of_reach (hc : ElseGroups.Reach (referenceStore stores rows).shape
    (listAt (loadConditions stores rows) place) c) :
    ∃ place, (place, c) ∈ loadConditions stores rows := by
  cases hc with
  | here hc => exact ⟨place, mem_listAt.1 hc⟩
  | @ref _ _ r js _ _ hjs hc =>
    change (if _ then none else some _) = some js at hjs
    split_ifs at hjs
    obtain rfl := Option.some.inj hjs
    exact ⟨_, mem_listAt.1 hc⟩

/-- Where all references lead to templates and form no cycle, the readers answer. -/
theorem answers_of_acyclic {O : Type} [DecidableEq O]
    (hfound : ∀ e ∈ loadConditions stores rows, e.2.referenceId ≠ 0 →
      ((referenceStore stores rows).find e.2.referenceId).isSome)
    (hacyclic : ∀ id, ¬Relation.TransGen (referenceStore stores rows).Refers id id)
    (place : Place) (w : World O) (src : ConditionSourceInfo O) : ∃ fuel,
    ((referenceStore stores rows).isObjectMeetToConditions fuel w src
        (listAt (loadConditions stores rows) place)).isSome ∧
      ((referenceStore stores rows).getSearcherTypeMaskForConditionList fuel
        (listAt (loadConditions stores rows) place)).isSome := by
  have hfinite : {id | ∃ e ∈ loadConditions stores rows, e.2.referenceId = id}.Finite :=
    (List.finite_toSet (loadConditions stores rows)).image
      fun e : Place × LoadedCondition => e.2.referenceId
  have hinto : ∀ id id', (referenceStore stores rows).Refers id id' →
      id' ∈ {id | ∃ e ∈ loadConditions stores rows, e.2.referenceId = id} := by
    rintro id id' ⟨cs, hcs, c, hc, -, rfl⟩
    change (if _ then none else some _) = some cs at hcs
    split_ifs at hcs
    obtain rfl := Option.some.inj hcs
    exact ⟨_, mem_listAt.1 hc, rfl⟩
  obtain ⟨rank, hrank⟩ := Recursion.exists_rank hfinite hinto hacyclic
  obtain ⟨fuel, hfuel⟩ := exists_forall_lt (fun c : LoadedCondition => rank c.referenceId)
    (listAt (loadConditions stores rows) place)
  have hless : ∀ r cs, (referenceStore stores rows).find r = some cs → ∀ c ∈ cs,
      c.referenceId ≠ 0 → rank c.referenceId < rank r :=
    fun r cs hcs c hc hne => hrank _ _ ⟨cs, hcs, c, hc, hne, rfl⟩
  refine ⟨fuel + 1, readers_answer w src (fun c hc hne => ?_) hless fun c hc _ => hfuel c hc⟩
  obtain ⟨p, hp⟩ := stored_of_reach hc
  exact hfound _ hp hne

/-- **Main result.** After the conditions are loaded their references are well-founded exactly if
those of the rows are: loading skips a row that names its own template, and checks no other
reference. -/
theorem wellReferenced_iff (O : Type) [DecidableEq O] (stores : GameStores)
    (rows : List ConditionRow) :
    WellReferenced O (referenceStore stores rows) (loadConditions stores rows) ↔
      RowsWellFounded stores rows := by
  constructor
  · exact fun h => ⟨found_iff.1 h.found, acyclic_iff.1 h.acyclic⟩
  · intro h
    have hfound := found_iff.2 h.found
    have hacyclic := (@acyclic_iff stores rows).2 h.acyclic
    exact ⟨hfound, hacyclic, answers_of_acyclic hfound hacyclic⟩

/-- A row of a reference template that refers to another one. -/
def referenceRow (id id' : ℤ) : ConditionRow := ⟨id, 0, 0, 0, 0, id', 0, 0, 0, 0, false⟩

/-- The stores of a game where every source and every group that a row names is there. -/
def fullStores : GameStores := ⟨fun _ => true, fun _ => true, fun _ => true⟩

/-- Two templates that refer to each other, and a condition of a quest that refers to a template
that is missing. -/
theorem loaded_cycle_and_missing :
    ¬WellReferenced TypeID
        (referenceStore fullStores [referenceRow (-1) (-2), referenceRow (-2) (-1)])
        (loadConditions fullStores [referenceRow (-1) (-2), referenceRow (-2) (-1)]) ∧
      ¬WellReferenced TypeID (referenceStore fullStores [referenceRow 19 (-5)])
        (loadConditions fullStores [referenceRow 19 (-5)]) := by
  refine ⟨fun h => ?_, fun h => ?_⟩
  · refine acyclic_iff.1 h.acyclic (-1) (.tail (.single (b := -2) ?_) ?_)
    · exact ⟨_, List.mem_cons_self, rfl, rfl, by decide, by decide, by decide⟩
    · exact ⟨_, List.mem_cons_of_mem _ List.mem_cons_self, rfl, rfl, by decide, by decide,
        by decide⟩
  · obtain ⟨row, hrow, -, hid⟩ := found_iff.1 h.found _ List.mem_cons_self ⟨rfl, rfl⟩ (by decide)
    obtain rfl := List.mem_singleton.1 hrow
    exact absurd hid (by decide)

end FaceCore.Conditions
