import FaceCore.Condition.Condition
import Mathlib.Tactic.IntervalCases

/-!
# The mask of a grid search

A grid search for the objects that meet a list of conditions looks in the lists of the grid that
`ConditionMgr::GetSearcherTypeMaskForConditionList` names. The mask is made without a look at
`ConditionTarget`: a condition about another target narrows it like one about the object itself.

* `Condition.Asks`: the types of the objects that the kind of a condition speaks about;
* `Suits`: the list has an else-group that asks nothing of an object of the type that its type
  rules out;
* `hasType_iff_suits`: the mask has the type exactly if the list suits it;
* `search_mask_sound`: when the search misses no object, and that it misses none if the conditions
  about other targets are negated or speak about the type as well.
-/

namespace FaceCore.Conditions

variable {O : Type} [DecidableEq O]

/-- The lists of conditions and their references. -/
def ReferenceStore.shape (refs : ReferenceStore) : ElseGroups.Shape LoadedCondition where
  group := fun c => c.elseGroup
  ref := fun c => if c.referenceId = 0 then none else some c.referenceId
  lists := refs.find

/-- How `IsObjectMeetToConditionList` reads a list: an empty one has no group that is met, and a
missing reference is passed over. -/
def meetReading (w : World O) (src : ConditionSourceInfo O) :
    ElseGroups.Reading LoadedCondition Bool where
  empty := false
  top := true
  bot := false
  stop := fun met => !met
  meet := fun met met' => met && met'
  join := fun met met' => met || met'
  atom := fun c => some (c.meets w src)
  missing := some true

/-- How `GetSearcherTypeMaskForConditionList` reads a list; it asserts that references exist. -/
def maskReading : ElseGroups.Reading LoadedCondition ℕ where
  empty := GRID_MAP_TYPE_MASK_ALL
  top := GRID_MAP_TYPE_MASK_ALL
  bot := 0
  stop := fun mask => mask = 0
  meet := fun mask mask' => mask &&& mask'
  join := fun mask mask' => mask ||| mask'
  atom := fun c => c.getSearcherTypeMaskForCondition
  missing := none

namespace ReferenceStore

variable (refs : ReferenceStore)

/-- `ConditionMgr::IsObjectMeetToConditionList`, with fuel for the references. -/
def isObjectMeetToConditionList (fuel : ℕ) (w : World O) (src : ConditionSourceInfo O)
    (conditions : List LoadedCondition) : Option Bool :=
  (meetReading w src).eval refs.shape fuel conditions

/-- `ConditionMgr::IsObjectMeetToConditions`. -/
def isObjectMeetToConditions (fuel : ℕ) (w : World O) (src : ConditionSourceInfo O)
    (conditions : List LoadedCondition) : Option Bool :=
  if conditions.isEmpty then some true else refs.isObjectMeetToConditionList fuel w src conditions

/-- `ConditionMgr::GetSearcherTypeMaskForConditionList`, with fuel for the references. -/
def getSearcherTypeMaskForConditionList (fuel : ℕ) (conditions : List LoadedCondition) :
    Option ℕ :=
  maskReading.eval refs.shape fuel conditions

end ReferenceStore

/-! ### One condition -/

namespace Condition

/-- The types of the objects that the kind of the condition speaks about. -/
def Asks (c : Condition) (t : TypeID) : Prop :=
  match c.conditionType with
  | .aura | .class_ | .race | .level | .relationTo | .reactionTo | .alive | .hpVal | .hpPct
  | .unitState => t.isType TYPEMASK_UNIT
  | .item | .itemEquipped | .reputationRank | .achievement | .team | .skill | .questRewarded
  | .questTaken | .questComplete | .questNone | .spell | .drunkenState | .title | .gender =>
    t = .player
  | .objectEntry => c.value1 = t.value
  | .typeMask => t.isType c.value1
  | .unused24 => False
  | _ => True

theorem asks_of_test {c : Condition} {w : World O} {src : ConditionSourceInfo O} {o : O}
    (h : c.test w src o) : c.Asks (w.typeId o) := by
  unfold Asks
  unfold test at h
  cases hc : c.conditionType <;> simp only [hc] at h ⊢ <;>
    simp_all [World.isUnit, World.isPlayer, Option.any_eq_true]
  · exact h.choose_spec.2.2.1
  · exact h.choose_spec.2.2.1

/-- The mask contains the list of a grid for the type. -/
def HasType (mask : ℕ) (t : TypeID) : Prop := mask &&& t.gridTypeMask ≠ 0

instance (mask : ℕ) (t : TypeID) : Decidable (HasType mask t) :=
  inferInstanceAs (Decidable (_ ≠ _))

/-- The position of the bit of a type. -/
def gridBit : TypeID → ℕ
  | .corpse => 0
  | .unit => 1
  | .dynamicObject => 2
  | .gameObject => 3
  | .player => 4

theorem hasType_iff_testBit (mask : ℕ) (t : TypeID) : HasType mask t ↔ mask.testBit (gridBit t) := by
  have hbit : t.gridTypeMask = 2 ^ gridBit t := by cases t <;> rfl
  rw [HasType, hbit, Nat.and_two_pow]
  cases mask.testBit (gridBit t) <;> simp

theorem and_ne_zero_iff (a b : ℕ) : a &&& b ≠ 0 ↔ ∃ i, a.testBit i ∧ b.testBit i := by
  constructor
  · intro h
    obtain ⟨i, hi⟩ := Nat.exists_testBit_of_ne_zero h
    exact ⟨i, by simpa using hi⟩
  · rintro ⟨i, ha, hb⟩ h
    have := congrArg (Nat.testBit · i) h
    simp [ha, hb] at this

/-- The types that a valid mask may name. -/
theorem testBit_of_valid {v i : ℕ} (h : v.ldiff validTypeMask = 0) (hi : v.testBit i) :
    i = 3 ∨ i = 4 ∨ i = 5 ∨ i = 7 := by
  have hvalid : validTypeMask.testBit i := by
    have := congrArg (Nat.testBit · i) h
    simpa [Nat.testBit_ldiff, hi] using this
  have hlt : i < 8 := by
    by_contra hge
    have hsmall : validTypeMask < 2 ^ i :=
      lt_of_lt_of_le (b := 2 ^ 8) (by decide) (Nat.pow_le_pow_right (by decide) (not_lt.1 hge))
    rw [Nat.testBit_lt_two_pow hsmall] at hvalid
    cases hvalid
  revert hvalid
  clear hi
  interval_cases i <;> decide

/-- Of the types that a valid mask names, an object has those that its own type stands for. -/
theorem isType_iff {v : ℕ} (h : v.ldiff validTypeMask = 0) (t : TypeID) :
    t.isType v ↔ ∃ i ∈ [3, 4, 5, 7], v.testBit i ∧ t.objectType.testBit i := by
  rw [TypeID.isType, decide_eq_true_iff, and_ne_zero_iff]
  constructor
  · rintro ⟨i, hi, ht⟩
    exact ⟨i, by simpa using testBit_of_valid h hi, hi, ht⟩
  · rintro ⟨i, -, hi, ht⟩
    exact ⟨i, hi, ht⟩

theorem and_two_pow_ne_zero (v i : ℕ) : v &&& 2 ^ i ≠ 0 ↔ v.testBit i := by
  rw [Nat.and_two_pow]
  cases v.testBit i <;> simp

theorem hasType_objectEntryMask {v : ℕ}
    (h : v = TypeID.unit.value ∨ v = TypeID.gameObject.value ∨ v = TypeID.player.value ∨
      v = TypeID.corpse.value) (t : TypeID) : HasType (objectEntryMask v) t ↔ v = t.value := by
  rcases h with rfl | rfl | rfl | rfl <;> cases t <;> decide

theorem hasType_typeMaskMask {v : ℕ} (h : v.ldiff validTypeMask = 0) (t : TypeID) :
    HasType (typeMaskMask v) t ↔ t.isType v := by
  have h3 : v &&& TYPEMASK_UNIT ≠ 0 ↔ v.testBit 3 := and_two_pow_ne_zero v 3
  have h4 : v &&& TYPEMASK_PLAYER ≠ 0 ↔ v.testBit 4 := and_two_pow_ne_zero v 4
  have h5 : v &&& TYPEMASK_GAMEOBJECT ≠ 0 ↔ v.testBit 5 := and_two_pow_ne_zero v 5
  have h7 : v &&& TYPEMASK_CORPSE ≠ 0 ↔ v.testBit 7 := and_two_pow_ne_zero v 7
  rw [isType_iff h, typeMaskMask]
  simp only [h3, h4, h5, h7, List.mem_cons, List.not_mem_nil, or_false, exists_eq_or_imp,
    exists_eq_left]
  cases v.testBit 3 <;> cases v.testBit 4 <;> cases v.testBit 5 <;> cases v.testBit 7 <;>
    cases t <;> decide

theorem hasValidValues_of_valid {c : Condition} (h : c.isConditionTypeValid) :
    c.hasValidValues := by
  simp only [isConditionTypeValid, decide_eq_true_eq] at h
  exact h.2.2

theorem isSome_mask {c : Condition} (h : c.isConditionTypeValid) :
    c.getSearcherTypeMaskForCondition.isSome := by
  have hvalues := hasValidValues_of_valid h
  unfold hasValidValues at hvalues
  unfold getSearcherTypeMaskForCondition
  split_ifs
  · rfl
  · cases hc : c.conditionType <;> simp only [hc] at hvalues ⊢
    case unused24 => cases hvalues
    all_goals rfl

/-- The mask of a condition that passed the checks has the types that the condition speaks about,
and all types if it is negated. -/
theorem hasType_mask_iff {c : Condition} (h : c.isConditionTypeValid) {mask : ℕ}
    (hmask : c.getSearcherTypeMaskForCondition = some mask) (t : TypeID) :
    HasType mask t ↔ c.negativeCondition ∨ c.Asks t := by
  have hvalues := hasValidValues_of_valid h
  unfold getSearcherTypeMaskForCondition at hmask
  by_cases hneg : c.negativeCondition
  · rw [if_pos hneg] at hmask
    obtain rfl := Option.some.inj hmask
    simp only [hneg, true_or, iff_true]
    cases t <;> decide
  rw [if_neg hneg] at hmask
  simp only [hneg, false_or, Bool.false_eq_true]
  unfold Asks
  unfold hasValidValues at hvalues
  cases hc : c.conditionType <;> simp only [hc] at hmask hvalues ⊢
  case objectEntry =>
    obtain rfl := Option.some.inj hmask
    exact hasType_objectEntryMask (by simpa using hvalues) t
  case typeMask =>
    obtain rfl := Option.some.inj hmask
    exact hasType_typeMaskMask (by simp at hvalues; exact hvalues.2) t
  case unused24 => cases hvalues
  all_goals
    obtain rfl := Option.some.inj hmask
    cases t <;> decide

end Condition

namespace LoadedCondition

theorem valid {refs : ReferenceStore} {c : LoadedCondition} (h : refs.shape.ref c = none) :
    c.isConditionTypeValid := by
  refine c.loaded.resolve_left fun hne => ?_
  simp [ReferenceStore.shape, hne] at h

theorem conditionTarget_of_template {refs : ReferenceStore} {c : LoadedCondition}
    (h : refs.shape.ref c = none) (hs : c.sourceType = .none) : c.conditionTarget = 0 := by
  have hv := valid h
  unfold Condition.isConditionTypeValid Condition.getMaxAvailableConditionTargets at hv
  rw [hs] at hv
  simp at hv
  omega

end LoadedCondition

/-! ### Lists -/

section Lists

variable (refs : ReferenceStore)

/-- Some else-group of the list asks nothing of an object of the type `t` that `t` rules out,
whatever the target: its conditions are negated or speak about `t`, and the lists that it refers to
suit `t`. -/
def Suits (t : TypeID) : List LoadedCondition → Prop :=
  ElseGroups.Holds refs.shape (fun c => c.negativeCondition ∨ c.Asks t) True

/-- Some else-group of the list is met, with the else-groups of the lists that it refers to. -/
def Met (w : World O) (src : ConditionSourceInfo O) : List LoadedCondition → Prop :=
  ElseGroups.Holds refs.shape (fun c => c.meets w src) False

/-- The conditions of the list about another target are negated or speak about the type `t`. -/
def OwnTargets (t : TypeID) (conditions : List LoadedCondition) : Prop :=
  ∀ c ∈ conditions, c.referenceId = 0 → c.conditionTarget ≠ 0 → c.negativeCondition ∨ c.Asks t

variable {refs}

theorem observes_maskReading (t : TypeID) :
    maskReading.Observes refs.shape (Condition.HasType · t)
      fun c => c.negativeCondition ∨ c.Asks t where
  top := by cases t <;> decide
  bot := by cases t <;> decide
  stop := by
    intro mask hmask
    obtain rfl : mask = 0 := by simpa [maskReading] using hmask
    cases t <;> decide
  meet := by simp [maskReading, Condition.hasType_iff_testBit]
  join := by simp [maskReading, Condition.hasType_iff_testBit]
  atom := fun c _ href hmask => Condition.hasType_mask_iff (LoadedCondition.valid href) hmask t
  missing := nofun

theorem observes_meetReading (w : World O) (src : ConditionSourceInfo O) :
    (meetReading w src).Observes refs.shape (· = true) fun c => c.meets w src where
  top := rfl
  bot := by simp [meetReading]
  stop := by simp [meetReading]
  meet := by simp [meetReading]
  join := by simp [meetReading]
  atom := by simp [meetReading]
  missing := by simp [meetReading]

/-- The mask of a list has a type exactly if the list suits it. -/
theorem hasType_iff_suits {fuel : ℕ} {conditions : List LoadedCondition} {mask : ℕ}
    (h : refs.getSearcherTypeMaskForConditionList fuel conditions = some mask) (t : TypeID) :
    Condition.HasType mask t ↔ Suits refs t conditions := by
  have hobs := ElseGroups.Reading.eval_obs (observes_maskReading t) h
  have hempty : Condition.HasType maskReading.empty t ↔ True := by
    cases t <;> simp [maskReading] <;> decide
  rwa [hempty] at hobs

theorem met_iff {fuel : ℕ} {w : World O} {src : ConditionSourceInfo O}
    {conditions : List LoadedCondition} {met : Bool}
    (h : refs.isObjectMeetToConditions fuel w src conditions = some met) :
    met = true ↔ conditions = [] ∨ Met refs w src conditions := by
  unfold ReferenceStore.isObjectMeetToConditions at h
  split_ifs at h with hnil
  · obtain rfl := Option.some.inj h
    exact iff_of_true rfl (.inl (List.isEmpty_iff.1 hnil))
  · rw [or_iff_right fun hnil' => hnil (List.isEmpty_iff.2 hnil')]
    have hobs := ElseGroups.Reading.eval_obs (observes_meetReading w src) h
    simpa [meetReading, Met] using hobs

/-- A condition that is met and is about the object itself speaks about the type of the object. -/
theorem asks_of_meets {w : World O} {src : ConditionSourceInfo O} {o : O}
    (hsrc : src.target0 = some o) {c : Condition} (htarget : c.conditionTarget = 0)
    (h : c.meets w src) : c.negativeCondition ∨ c.Asks (w.typeId o) := by
  have htarget0 : src.target c.conditionTarget = some o := by rw [htarget]; exact hsrc
  unfold Condition.meets at h
  rw [htarget0] at h
  by_cases hneg : c.negativeCondition
  · exact .inl hneg
  · simp only [if_neg hneg, Bool.and_eq_true] at h
    exact .inr (Condition.asks_of_test h.1)

/-- A list that is met suits the object, if its conditions about other targets leave the type
open. -/
theorem suits_of_met {w : World O} {src : ConditionSourceInfo O} {o : O}
    (hsrc : src.target0 = some o) {conditions : List LoadedCondition}
    (hown : OwnTargets (w.typeId o) conditions) (h : Met refs w src conditions) :
    Suits refs (w.typeId o) conditions := by
  refine h.mono (fun _ => trivial) fun c hreach href hmeets => ?_
  by_cases htarget : c.conditionTarget = 0
  · exact asks_of_meets hsrc htarget hmeets
  · cases hreach with
    | here hc =>
      have hnoref : c.referenceId = 0 := by
        by_contra hne
        simp [ReferenceStore.shape, hne] at href
      exact hown c hc hnoref htarget
    | ref _ _ hjs hc =>
      exact absurd (LoadedCondition.conditionTarget_of_template href (refs.template _ _ hjs c hc))
        htarget

/-- **Main result.** Where both readers answer for a source info whose first target is `o`: a
search with the mask finds `o` if `o` is accepted, exactly if the list suits the type of `o` when
an else-group of it is met; and this is so when the conditions of the list about another target
are negated or speak about the type of `o` as well. -/
theorem search_mask_sound {fuel fuel' : ℕ} {w : World O} {src : ConditionSourceInfo O} {o : O}
    {conditions : List LoadedCondition} {met : Bool} {mask : ℕ} (hsrc : src.target0 = some o)
    (hmet : refs.isObjectMeetToConditions fuel w src conditions = some met)
    (hmask : refs.getSearcherTypeMaskForConditionList fuel' conditions = some mask) :
    ((met = true → Condition.HasType mask (w.typeId o)) ↔
      (Met refs w src conditions → Suits refs (w.typeId o) conditions)) ∧
    (OwnTargets (w.typeId o) conditions →
      (met = true → Condition.HasType mask (w.typeId o))) := by
  have hiff : (met = true → Condition.HasType mask (w.typeId o)) ↔
      (Met refs w src conditions → Suits refs (w.typeId o) conditions) := by
    rw [met_iff hmet, hasType_iff_suits hmask]
    constructor
    · exact fun h hm => h (.inr hm)
    · rintro h (rfl | hm)
      · exact .nil trivial
      · exact h hm
  exact ⟨hiff, fun hown => hiff.2 (suits_of_met hsrc hown)⟩

theorem shape_ref_eq_some {c : LoadedCondition} {r : ℕ} :
    refs.shape.ref c = some r ↔ c.referenceId ≠ 0 ∧ c.referenceId = r := by
  unfold ReferenceStore.shape
  dsimp only
  split_ifs with h <;> simp [h]

/-- Where the references lead to lists, and those of a smaller rank, both readers answer. -/
theorem readers_answer {rank : ℕ → ℕ} {fuel : ℕ} (w : World O) (src : ConditionSourceInfo O)
    {conditions : List LoadedCondition}
    (hlists : ∀ c, ElseGroups.Reach refs.shape conditions c → c.referenceId ≠ 0 →
      (refs.find c.referenceId).isSome)
    (hrank : ∀ r cs, refs.find r = some cs → ∀ c ∈ cs, c.referenceId ≠ 0 →
      rank c.referenceId < rank r)
    (hfuel : ∀ c ∈ conditions, c.referenceId ≠ 0 → rank c.referenceId < fuel) :
    (refs.isObjectMeetToConditions (fuel + 1) w src conditions).isSome ∧
      (refs.getSearcherTypeMaskForConditionList (fuel + 1) conditions).isSome := by
  have hlists' : ∀ c, ElseGroups.Reach refs.shape conditions c → ∀ r,
      refs.shape.ref c = some r → (refs.shape.lists r).isSome := by
    intro c hc r hr
    obtain ⟨hne, rfl⟩ := shape_ref_eq_some.1 hr
    exact hlists c hc hne
  have hrank' : ∀ r cs, refs.shape.lists r = some cs → ∀ c ∈ cs, ∀ r',
      refs.shape.ref c = some r' → rank r' < rank r := by
    intro r cs hcs c hc r' hr'
    obtain ⟨hne, rfl⟩ := shape_ref_eq_some.1 hr'
    exact hrank r cs hcs c hc hne
  have hfuel' : ∀ c ∈ conditions, ∀ r, refs.shape.ref c = some r → rank r < fuel := by
    intro c hc r hr
    obtain ⟨hne, rfl⟩ := shape_ref_eq_some.1 hr
    exact hfuel c hc hne
  constructor
  · unfold ReferenceStore.isObjectMeetToConditions
    split_ifs
    · rfl
    · exact ElseGroups.Reading.eval_isSome (fun _ _ => rfl) hlists' hrank' hfuel'
  · refine ElseGroups.Reading.eval_isSome (fun c href => ?_) hlists' hrank' hfuel'
    exact Condition.isSome_mask (LoadedCondition.valid href)

end Lists

/-! ### A caster and a target -/

/-- A world with one object of each type, in which every question of a condition is answered with
yes. -/
def sampleWorld : World TypeID where
  typeId := id
  guid := fun t => t.value
  entry := fun _ => 0
  zoneId := fun _ => 0
  areaId := fun _ => 0
  mapId := fun _ => 0
  phaseMask := fun _ => 1
  spawnMode := fun _ => 0
  instanceScript := fun _ => none
  nearCreature := fun _ _ _ => true
  nearGameObject := fun _ _ _ => true
  distance := fun _ _ => 0
  hasAuraEffect := fun _ _ _ => true
  classMask := fun _ => 1
  raceMask := fun _ => 1
  level := fun _ => 1
  isAlive := fun _ => true
  health := fun _ => 1
  healthPct := fun _ => 100
  hasUnitState := fun _ _ => true
  isInPartyWith := fun _ _ => true
  isInRaidWith := fun _ _ => true
  ownerGUID := fun _ => 0
  creatorGUID := fun _ => 0
  isOnVehicle := fun _ _ => true
  reactionTo := fun _ _ => 0
  hasItemCount := fun _ _ _ _ => true
  hasItemOrGemWithIdEquipped := fun _ _ _ => true
  reputationRank := fun _ _ => some 0
  hasAchieved := fun _ _ => true
  team := fun _ => 469
  gender := fun _ => 0
  hasSkill := fun _ _ => true
  baseSkillValue := fun _ _ => 1
  questRewardStatus := fun _ _ => true
  questStatus := fun _ _ => QUEST_STATUS_NONE
  hasSpell := fun _ _ => true
  drunkenState := fun _ => 0
  hasTitle := fun _ _ => true
  isActiveEvent := fun _ => true
  worldState := fun _ => 1
  onConditionCheck := fun _ _ => true

def noReferences : ReferenceStore := ⟨fun _ => none, nofun⟩

/-- A condition on the targets of a spell: the target of the given number is alive, or is not. -/
def aliveCondition (elseGroup target : ℕ) (negative : Bool) (h : target < 2) :
    LoadedCondition where
  sourceType := .spellImplicitTarget
  elseGroup := elseGroup
  conditionType := .alive
  value1 := 0
  value2 := 0
  value3 := 0
  referenceId := 0
  conditionTarget := target
  negativeCondition := negative
  loaded := .inr (by simpa [Condition.isConditionTypeValid, Condition.hasValidValues,
    Condition.getMaxAvailableConditionTargets] using h)

/-- The target lives and the caster does not, or both live. -/
def aliveConditions : List LoadedCondition :=
  [aliveCondition 0 0 false (by decide), aliveCondition 0 1 true (by decide),
    aliveCondition 1 0 false (by decide), aliveCondition 1 1 false (by decide)]

/-- A living caster finds a living unit, by the second else-group. -/
theorem search_mask_sound_alive :
    Condition.HasType (GRID_MAP_TYPE_MASK_CREATURE ||| GRID_MAP_TYPE_MASK_PLAYER) .unit := by
  have hmet : noReferences.isObjectMeetToConditions 1 sampleWorld
      ⟨some .unit, some .player, none⟩ aliveConditions = some true := by decide
  have hmask : noReferences.getSearcherTypeMaskForConditionList 1 aliveConditions =
      some (GRID_MAP_TYPE_MASK_CREATURE ||| GRID_MAP_TYPE_MASK_PLAYER) := by decide
  refine (search_mask_sound rfl hmet hmask).2 (fun c hc _ ht => ?_) rfl
  simp only [aliveConditions, List.mem_cons, List.not_mem_nil, or_false] at hc
  rcases hc with rfl | rfl | rfl | rfl
  · exact absurd rfl ht
  · exact .inl rfl
  · exact absurd rfl ht
  · exact .inr rfl

/-- A spell of a living caster on game objects: the game object is accepted, but the mask of the
search has units and players only. -/
theorem alive_caster_hides_gameObject :
    noReferences.isObjectMeetToConditions 1 sampleWorld ⟨some .gameObject, some .player, none⟩
        [aliveCondition 0 1 false (by decide)] = some true ∧
      ∃ mask, noReferences.getSearcherTypeMaskForConditionList 1
        [aliveCondition 0 1 false (by decide)] = some mask ∧
          ¬ Condition.HasType mask .gameObject :=
  ⟨by decide, _, rfl, by decide⟩

end FaceCore.Conditions
