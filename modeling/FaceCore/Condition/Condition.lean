import FaceCore.Lib.ElseGroups
import Mathlib.Algebra.Order.Ring.Rat
import Mathlib.Data.Nat.Bitwise

/-!
# Conditions

The conditions of the `conditions` table: `Condition::Meets`, which tests a condition on the targets
of a source info, `Condition::GetSearcherTypeMaskForCondition`, which tells in what kinds of grid
objects a search has to look for an object that meets it, and the readers of a list of conditions.

* `World`: what a condition asks of the objects and of the world; the answers are parameters;
* `Condition.isConditionTypeValid`: the checks of a loaded condition on its own fields; those that
  look an id up in a store of the game refuse more conditions and are left out;
* `LoadedCondition`, `ReferenceStore`: conditions that passed the checks, and the lists that
  references name, whose conditions have one target only.
-/

namespace FaceCore.Conditions

/-- The types of the objects that stand on a map. -/
inductive TypeID
  | unit | player | gameObject | dynamicObject | corpse
deriving DecidableEq

def TYPEMASK_OBJECT : ℕ := 0x01
def TYPEMASK_UNIT : ℕ := 0x08
def TYPEMASK_PLAYER : ℕ := 0x10
def TYPEMASK_GAMEOBJECT : ℕ := 0x20
def TYPEMASK_DYNAMICOBJECT : ℕ := 0x40
def TYPEMASK_CORPSE : ℕ := 0x80

def GRID_MAP_TYPE_MASK_CORPSE : ℕ := 0x01
def GRID_MAP_TYPE_MASK_CREATURE : ℕ := 0x02
def GRID_MAP_TYPE_MASK_DYNAMICOBJECT : ℕ := 0x04
def GRID_MAP_TYPE_MASK_GAMEOBJECT : ℕ := 0x08
def GRID_MAP_TYPE_MASK_PLAYER : ℕ := 0x10
def GRID_MAP_TYPE_MASK_ALL : ℕ := 0x1F

namespace TypeID

/-- The value of the type in the enumeration `TypeID`. -/
def value : TypeID → ℕ
  | unit => 3
  | player => 4
  | gameObject => 5
  | dynamicObject => 6
  | corpse => 7

/-- `m_objectType`, as the constructors of the classes set it. -/
def objectType : TypeID → ℕ
  | unit => TYPEMASK_OBJECT ||| TYPEMASK_UNIT
  | player => TYPEMASK_OBJECT ||| TYPEMASK_UNIT ||| TYPEMASK_PLAYER
  | gameObject => TYPEMASK_OBJECT ||| TYPEMASK_GAMEOBJECT
  | dynamicObject => TYPEMASK_OBJECT ||| TYPEMASK_DYNAMICOBJECT
  | corpse => TYPEMASK_OBJECT ||| TYPEMASK_CORPSE

/-- `Object::isType`. -/
def isType (t : TypeID) (mask : ℕ) : Bool := mask &&& t.objectType ≠ 0

/-- The list of a grid in which the objects of the type are. -/
def gridTypeMask : TypeID → ℕ
  | unit => GRID_MAP_TYPE_MASK_CREATURE
  | player => GRID_MAP_TYPE_MASK_PLAYER
  | gameObject => GRID_MAP_TYPE_MASK_GAMEOBJECT
  | dynamicObject => GRID_MAP_TYPE_MASK_DYNAMICOBJECT
  | corpse => GRID_MAP_TYPE_MASK_CORPSE

end TypeID

inductive ConditionType
  | none | aura | item | itemEquipped | zoneId | reputationRank | team | skill | questRewarded
  | questTaken | drunkenState | worldState | activeEvent | instanceInfo | questNone | class_ | race
  | achievement | title | spawnMask | gender | unitState | mapId | areaId | unused24 | spell
  | phaseMask | level | questComplete | nearCreature | nearGameObject | objectEntry | typeMask
  | relationTo | reactionTo | distanceTo | alive | hpVal | hpPct
deriving DecidableEq

inductive ConditionSourceType
  | none | creatureLootTemplate | disenchantLootTemplate | fishingLootTemplate
  | gameObjectLootTemplate | itemLootTemplate | mailLootTemplate | millingLootTemplate
  | pickpocketingLootTemplate | prospectingLootTemplate | referenceLootTemplate
  | skinningLootTemplate | spellLootTemplate | spellImplicitTarget | gossipMenu | gossipMenuOption
  | creatureTemplateVehicle | spell | spellClickEvent | questAccept | questShowMark | vehicleSpell
  | smartEvent | npcVendor | spellProc
deriving DecidableEq

/-- `Condition`, without the fields for messages and scripts. -/
structure Condition where
  sourceType : ConditionSourceType
  elseGroup : ℕ
  conditionType : ConditionType
  value1 : ℕ
  value2 : ℕ
  value3 : ℕ
  referenceId : ℕ
  conditionTarget : ℕ
  negativeCondition : Bool
deriving DecidableEq

/-- The three targets of `ConditionSourceInfo`. -/
structure ConditionSourceInfo (O : Type) where
  target0 : Option O
  target1 : Option O := .none
  target2 : Option O := .none

/-- `mConditionTargets`. -/
def ConditionSourceInfo.target {O : Type} (src : ConditionSourceInfo O) : ℕ → Option O
  | 0 => src.target0
  | 1 => src.target1
  | 2 => src.target2
  | _ => none

/-- The three tables of an instance script. -/
structure InstanceScript where
  data : ℕ → ℕ
  data64 : ℕ → ℕ
  bossState : ℕ → ℕ

/-- What the conditions ask of objects and of the world. -/
structure World (O : Type) where
  typeId : O → TypeID
  guid : O → ℕ
  entry : O → ℕ
  zoneId : O → ℕ
  areaId : O → ℕ
  mapId : O → ℕ
  phaseMask : O → ℕ
  spawnMode : O → ℕ
  instanceScript : O → Option InstanceScript
  nearCreature : O → ℕ → ℕ → Bool
  nearGameObject : O → ℕ → ℕ → Bool
  distance : O → O → ℚ
  hasAuraEffect : O → ℕ → ℕ → Bool
  classMask : O → ℕ
  raceMask : O → ℕ
  level : O → ℕ
  isAlive : O → Bool
  health : O → ℕ
  healthPct : O → ℚ
  hasUnitState : O → ℕ → Bool
  isInPartyWith : O → O → Bool
  isInRaidWith : O → O → Bool
  ownerGUID : O → ℕ
  creatorGUID : O → ℕ
  isOnVehicle : O → O → Bool
  reactionTo : O → O → ℕ
  hasItemCount : O → ℕ → ℕ → Bool → Bool
  hasItemOrGemWithIdEquipped : O → ℕ → ℕ → Bool
  reputationRank : O → ℕ → Option ℕ
  hasAchieved : O → ℕ → Bool
  team : O → ℕ
  gender : O → ℕ
  hasSkill : O → ℕ → Bool
  baseSkillValue : O → ℕ → ℕ
  questRewardStatus : O → ℕ → Bool
  questStatus : O → ℕ → ℕ
  hasSpell : O → ℕ → Bool
  drunkenState : O → ℕ
  hasTitle : O → ℕ → Bool
  isActiveEvent : ℕ → Bool
  worldState : ℕ → ℕ
  onConditionCheck : Condition → ConditionSourceInfo O → Bool

def QUEST_STATUS_NONE : ℕ := 0
def QUEST_STATUS_COMPLETE : ℕ := 1
def QUEST_STATUS_INCOMPLETE : ℕ := 3

def COMP_TYPE_MAX : ℕ := 5
def RELATION_MAX : ℕ := 6

/-- `CompareValues`; the value of `ComparisionType` is checked when a condition is loaded. -/
def compareValues {α : Type*} [LinearOrder α] (type : ℕ) (val1 val2 : α) : Bool :=
  match type with
  | 0 => val1 = val2
  | 1 => val1 > val2
  | 2 => val1 < val2
  | 3 => val1 ≥ val2
  | 4 => val1 ≤ val2
  | _ => false

namespace World

variable {O : Type} (w : World O)

/-- Whether `ToUnit` gives a unit. -/
def isUnit (o : O) : Bool := (w.typeId o).isType TYPEMASK_UNIT

/-- Whether `ToPlayer` gives a player. -/
def isPlayer (o : O) : Bool := w.typeId o = .player

/-- The relations of `CONDITION_RELATION_TO`. -/
def inRelation [DecidableEq O] (relation : ℕ) (unit toUnit : O) : Bool :=
  match relation with
  | 0 => unit = toUnit
  | 1 => w.isInPartyWith unit toUnit
  | 2 => w.isInRaidWith unit toUnit
  | 3 => w.ownerGUID unit = w.guid toUnit
  | 4 => w.isOnVehicle unit toUnit
  | 5 => w.creatorGUID unit = w.guid toUnit
  | _ => false

/-- The test of `CONDITION_INSTANCE_INFO`; a map that is no dungeon has no script. -/
def instanceInfo (o : O) (entry data type : ℕ) : Bool :=
  match w.instanceScript o with
  | some script =>
    match type with
    | 0 => script.data entry = data
    | 1 => script.data64 entry = data
    | 2 => script.bossState entry = data
    | _ => false
  | none => false

end World

namespace Condition

variable {O : Type} [DecidableEq O]

/-- The switch of `Condition::Meets` over the type of the condition, on the object `o`. -/
def test (c : Condition) (w : World O) (src : ConditionSourceInfo O) (o : O) : Bool :=
  match c.conditionType with
  | .none => true
  | .aura => w.isUnit o && w.hasAuraEffect o c.value1 c.value2
  | .item => w.isPlayer o && w.hasItemCount o c.value1 c.value2 (c.value3 ≠ 0)
  | .itemEquipped => w.isPlayer o && w.hasItemOrGemWithIdEquipped o c.value1 1
  | .zoneId => w.zoneId o = c.value1
  | .reputationRank =>
    w.isPlayer o && (w.reputationRank o c.value1).any fun rank => c.value2 &&& (1 <<< rank) ≠ 0
  | .achievement => w.isPlayer o && w.hasAchieved o c.value1
  | .team => w.isPlayer o && w.team o = c.value1
  | .class_ => w.isUnit o && w.classMask o &&& c.value1 ≠ 0
  | .race => w.isUnit o && w.raceMask o &&& c.value1 ≠ 0
  | .gender => w.isPlayer o && w.gender o = c.value1
  | .skill => w.isPlayer o && (w.hasSkill o c.value1 && w.baseSkillValue o c.value1 ≥ c.value2)
  | .questRewarded => w.isPlayer o && w.questRewardStatus o c.value1
  | .questTaken => w.isPlayer o && w.questStatus o c.value1 = QUEST_STATUS_INCOMPLETE
  | .questComplete =>
    w.isPlayer o &&
      (w.questStatus o c.value1 = QUEST_STATUS_COMPLETE && !w.questRewardStatus o c.value1)
  | .questNone => w.isPlayer o && w.questStatus o c.value1 = QUEST_STATUS_NONE
  | .activeEvent => w.isActiveEvent c.value1
  | .instanceInfo => w.instanceInfo o c.value1 c.value2 c.value3
  | .mapId => w.mapId o = c.value1
  | .areaId => w.areaId o = c.value1
  | .spell => w.isPlayer o && w.hasSpell o c.value1
  | .level => w.isUnit o && compareValues c.value2 (w.level o) c.value1
  | .drunkenState => w.isPlayer o && w.drunkenState o ≥ c.value1
  | .nearCreature => w.nearCreature o c.value1 c.value2
  | .nearGameObject => w.nearGameObject o c.value1 c.value2
  | .objectEntry => (w.typeId o).value = c.value1 && (c.value2 = 0 || w.entry o = c.value2)
  | .typeMask => (w.typeId o).isType c.value1
  | .relationTo =>
    (src.target c.value1).any fun toObject =>
      w.isUnit toObject && (w.isUnit o && w.inRelation c.value2 o toObject)
  | .reactionTo =>
    (src.target c.value1).any fun toObject =>
      w.isUnit toObject && (w.isUnit o && (1 <<< w.reactionTo o toObject) &&& c.value2 ≠ 0)
  | .distanceTo =>
    (src.target c.value1).any fun toObject =>
      compareValues c.value3 (w.distance o toObject) (c.value2 : ℚ)
  | .alive => w.isUnit o && w.isAlive o
  | .hpVal => w.isUnit o && compareValues c.value2 (w.health o) c.value1
  | .hpPct => w.isUnit o && compareValues c.value2 (w.healthPct o) (c.value1 : ℚ)
  | .worldState => c.value2 = w.worldState c.value1
  | .phaseMask => w.phaseMask o &&& c.value1 ≠ 0
  | .title => w.isPlayer o && w.hasTitle o c.value1
  | .spawnMask => (1 <<< w.spawnMode o) &&& c.value1 ≠ 0
  | .unitState => w.isUnit o && w.hasUnitState o c.value1
  | .unused24 => false

/-- `Condition::Meets`. -/
def meets (c : Condition) (w : World O) (src : ConditionSourceInfo O) : Bool :=
  match src.target c.conditionTarget with
  | none => false
  | some object =>
    let condMeets := c.test w src object
    let condMeets := if c.negativeCondition then !condMeets else condMeets
    condMeets && w.onConditionCheck c src

/-- The case `CONDITION_OBJECT_ENTRY` of `GetSearcherTypeMaskForCondition`. -/
def objectEntryMask (typeId : ℕ) : ℕ :=
  if typeId = TypeID.unit.value then GRID_MAP_TYPE_MASK_CREATURE
  else if typeId = TypeID.player.value then GRID_MAP_TYPE_MASK_PLAYER
  else if typeId = TypeID.gameObject.value then GRID_MAP_TYPE_MASK_GAMEOBJECT
  else if typeId = TypeID.corpse.value then GRID_MAP_TYPE_MASK_CORPSE
  else 0

/-- The case `CONDITION_TYPE_MASK` of `GetSearcherTypeMaskForCondition`. -/
def typeMaskMask (typeMask : ℕ) : ℕ :=
  (if typeMask &&& TYPEMASK_UNIT ≠ 0 then
    GRID_MAP_TYPE_MASK_CREATURE ||| GRID_MAP_TYPE_MASK_PLAYER else 0) |||
  (if typeMask &&& TYPEMASK_PLAYER ≠ 0 then GRID_MAP_TYPE_MASK_PLAYER else 0) |||
  (if typeMask &&& TYPEMASK_GAMEOBJECT ≠ 0 then GRID_MAP_TYPE_MASK_GAMEOBJECT else 0) |||
  (if typeMask &&& TYPEMASK_CORPSE ≠ 0 then GRID_MAP_TYPE_MASK_CORPSE else 0)

/-- `Condition::GetSearcherTypeMaskForCondition`; `none` where the assertion fails. -/
def getSearcherTypeMaskForCondition (c : Condition) : Option ℕ :=
  if c.negativeCondition then some GRID_MAP_TYPE_MASK_ALL
  else match c.conditionType with
    | .none | .zoneId | .activeEvent | .instanceInfo | .mapId | .areaId | .nearCreature
    | .nearGameObject | .distanceTo | .worldState | .phaseMask | .spawnMask =>
      some GRID_MAP_TYPE_MASK_ALL
    | .aura | .class_ | .race | .level | .relationTo | .reactionTo | .alive | .hpVal | .hpPct
    | .unitState => some (GRID_MAP_TYPE_MASK_CREATURE ||| GRID_MAP_TYPE_MASK_PLAYER)
    | .item | .itemEquipped | .reputationRank | .achievement | .team | .skill | .questRewarded
    | .questTaken | .questComplete | .questNone | .spell | .drunkenState | .title | .gender =>
      some GRID_MAP_TYPE_MASK_PLAYER
    | .objectEntry => some (objectEntryMask c.value1)
    | .typeMask => some (typeMaskMask c.value1)
    | .unused24 => none

/-- `Condition::GetMaxAvailableConditionTargets`. -/
def getMaxAvailableConditionTargets (c : Condition) : ℕ :=
  match c.sourceType with
  | .spell | .spellImplicitTarget | .creatureTemplateVehicle | .vehicleSpell | .spellClickEvent
  | .gossipMenu | .gossipMenuOption | .smartEvent | .npcVendor | .spellProc => 2
  | _ => 1

/-- The types of which `CONDITION_TYPE_MASK` may speak. -/
def validTypeMask : ℕ :=
  TYPEMASK_UNIT ||| TYPEMASK_PLAYER ||| TYPEMASK_GAMEOBJECT ||| TYPEMASK_CORPSE

/-- Another target that the source type has. -/
def isOtherTarget (c : Condition) (target : ℕ) : Bool :=
  target < c.getMaxAvailableConditionTargets ∧ target ≠ c.conditionTarget

/-- The switch of `ConditionMgr::isConditionTypeValid`. -/
def hasValidValues (c : Condition) : Bool :=
  match c.conditionType with
  | .aura => c.value2 ≤ 2
  | .item => c.value2 ≠ 0
  | .level | .hpVal => c.value2 < COMP_TYPE_MAX
  | .hpPct => c.value1 ≤ 100 ∧ c.value2 < COMP_TYPE_MAX
  | .objectEntry =>
    c.value1 = TypeID.unit.value ∨ c.value1 = TypeID.gameObject.value ∨
      c.value1 = TypeID.player.value ∨ c.value1 = TypeID.corpse.value
  | .typeMask => c.value1 ≠ 0 ∧ c.value1.ldiff validTypeMask = 0
  | .relationTo => c.isOtherTarget c.value1 ∧ c.value2 < RELATION_MAX
  | .reactionTo => c.isOtherTarget c.value1 ∧ c.value2 ≠ 0
  | .distanceTo => c.isOtherTarget c.value1 ∧ c.value3 < COMP_TYPE_MAX
  | .unused24 => false
  | _ => true

/-- `ConditionMgr::isConditionTypeValid`: the checks of the type, the target and the values. -/
def isConditionTypeValid (c : Condition) : Bool :=
  c.conditionType ≠ .none ∧ c.conditionTarget < c.getMaxAvailableConditionTargets ∧
    c.hasValidValues

end Condition

/-- A condition that was loaded: a reference, or one that passed the checks. -/
structure LoadedCondition extends Condition where
  loaded : referenceId ≠ 0 ∨ toCondition.isConditionTypeValid

/-- `ConditionReferenceStore`; the conditions of a reference template have no source type. -/
structure ReferenceStore where
  find : ℕ → Option (List LoadedCondition)
  template : ∀ refId cs, find refId = some cs → ∀ c ∈ cs, c.sourceType = .none

end FaceCore.Conditions
