import FaceCore.Packet.UpdateMask

/-!
# Values updates

The block of an update packet with the changed fields of an object: a mask, and behind it the
values of the fields that are set.

* `Object`, `View`: an object with its fields, and what the rest of the server says about it and
  the player that the block is for;
* `additions`: the bits that are added for the kind of the object;
* `unitField`, `goField`, `otherField`: what is written for a field;
* `buildValuesUpdate`: `_BuildValuesUpdate`;
* `readValuesUpdate`: what a client reads;
* `valuesUpdate_wellFormed`.

A float field is stored with its 32 bits; the comparison of a float with zero and its conversion to
`uint32` are parameters.
-/

namespace FaceCore.Packet

/-! ### Fields -/

def objectEnd : ℕ := 0x6
def itemEnd : ℕ := objectEnd + 0x3A
def containerEnd : ℕ := itemEnd + 0x4A
def unitEnd : ℕ := objectEnd + 0x8E
def playerEnd : ℕ := unitEnd + 0x49A
def gameObjectEnd : ℕ := objectEnd + 0xC
def dynamicObjectEnd : ℕ := objectEnd + 0x6
def corpseEnd : ℕ := objectEnd + 0x1E

def unitFieldFactionTemplate : ℕ := objectEnd + 0x31
def unitFieldFlags : ℕ := objectEnd + 0x35
def unitFieldAuraState : ℕ := objectEnd + 0x37
def unitFieldBaseAttackTime : ℕ := objectEnd + 0x38
def unitFieldRangedAttackTime : ℕ := objectEnd + 0x3A
def unitFieldDisplayId : ℕ := objectEnd + 0x3D
def unitDynamicFlags : ℕ := objectEnd + 0x49
def unitNpcFlags : ℕ := objectEnd + 0x4C
def unitFieldPosStat0 : ℕ := objectEnd + 0x53
def unitFieldPosStat4 : ℕ := objectEnd + 0x57
def unitFieldNegStat0 : ℕ := objectEnd + 0x58
def unitFieldNegStat4 : ℕ := objectEnd + 0x5C
def unitFieldResistanceBuffModsPositive : ℕ := objectEnd + 0x64
def unitFieldResistanceBuffModsNegative : ℕ := objectEnd + 0x6B
def unitFieldBytes2 : ℕ := objectEnd + 0x74

def gameObjectFlags : ℕ := objectEnd + 0x3
def gameObjectDynamic : ℕ := objectEnd + 0x8
def gameObjectBytes1 : ℕ := objectEnd + 0xB

/-! ### Objects -/

/-- The type ids of the objects that exist. -/
inductive TypeId
  | item
  | container
  | unit
  | player
  | gameObject
  | dynamicObject
  | corpse
  deriving DecidableEq

/-- `m_valuesCount`. -/
def TypeId.valuesCount : TypeId → ℕ
  | .item => itemEnd
  | .container => containerEnd
  | .unit => unitEnd
  | .player => playerEnd
  | .gameObject => gameObjectEnd
  | .dynamicObject => dynamicObjectEnd
  | .corpse => corpseEnd

/-- An object with its fields. -/
structure Object where
  typeId : TypeId
  uint32Values : List UInt32
  length_uint32Values : uint32Values.length = typeId.valuesCount

/-- Update types. -/
inductive UpdateType
  | values
  | movement
  | createObject
  | createObject2
  | outOfRangeObjects
  | nearObjects
  deriving DecidableEq

/-- The player that the block is for. -/
structure Target where
  isGameMaster : Bool
  guid : UInt64
  faction : UInt32

structure CreatureTemplate where
  modelid1 : UInt32
  modelid2 : UInt32
  flagsExtra : UInt32

/-- What the rest of the server says about a unit and the target. -/
structure UnitView where
  canSeeSpellClickOn : Bool
  isCanTrainingOf : Bool
  /-- The aura states with the casters of their auras. -/
  auraStateAuras : List (UInt32 × UInt64)
  creatureTemplate : CreatureTemplate
  /-- The effects of the spell that the unit is transformed by: whether the effect is a transform
  aura, and the template of its creature. -/
  transformEffects : List (Bool × Option CreatureTemplate)
  hasLootRecipient : Bool
  isTappedBy : Bool
  isAllowedToLoot : Bool
  hasStalkedAura : Bool
  isControlledByPlayer : Bool
  isTarget : Bool
  allowTwoSideInteractionGroup : Bool
  isInRaidWith : Bool
  /-- Both have a faction template, and that of the unit is not friendly to the other. -/
  unfriendlyFactions : Bool

/-- What the rest of the server says about a game object and the target. -/
structure GoView where
  activateToQuest : Bool
  isDynTransport : Bool
  isTransport : Bool
  groupLootRules : Bool
  hasLootRecipient : Bool
  isLootAllowedFor : Bool

structure View where
  target : Target
  unit : UnitView
  go : GoView

/-- The comparison of a float with zero and its conversion, on the bits of the float. -/
structure Floats where
  isNegative : UInt32 → Bool
  toUInt32 : UInt32 → UInt32

namespace Object

variable (o : Object) (v : View) (floats : Floats)

/-- `m_valuesCount`. -/
def valuesCount : ℕ := o.typeId.valuesCount

/-- `m_uint32Values[index]`. -/
def uint32Value (index : ℕ) : UInt32 := o.uint32Values.getD index 0

/-- `HasFlag`. -/
def hasFlag (index : ℕ) (flag : UInt32) : Bool := o.uint32Value index &&& flag != 0

/-- `GetByteValue`. -/
def byteValue (index : ℕ) (offset : UInt32) : UInt32 :=
  (o.uint32Value index >>> (8 * offset)) &&& 0xFF

/-- `ToUnit`. -/
def isUnit : Bool := o.typeId = .unit || o.typeId = .player

/-- `ToGameObject`. -/
def isGameObject : Bool := o.typeId = .gameObject

/-- `GetGoType`. -/
def goType : UInt32 := o.byteValue gameObjectBytes1 1

/-- `GetGoArtKit`. -/
def goArtKit : UInt32 := o.byteValue gameObjectBytes1 2

def gameObjectTypeChest : UInt32 := 3
def gameObjectTypeGeneric : UInt32 := 5
def gameObjectTypeGoober : UInt32 := 10

def unitNpcFlagTrainer : UInt32 := 0x10
def unitNpcFlagTrainerClass : UInt32 := 0x20
def unitNpcFlagTrainerProfession : UInt32 := 0x40
def unitNpcFlagSpellclick : UInt32 := 0x01000000
def unitFlagNotSelectable : UInt32 := 0x02000000
def unitByte2FlagSanctuary : UInt32 := 0x08
def unitDynFlagLootable : UInt32 := 0x1
def unitDynFlagTrackUnit : UInt32 := 0x2
def unitDynFlagTapped : UInt32 := 0x4
def unitDynFlagTappedByPlayer : UInt32 := 0x8
def creatureFlagExtraTrigger : UInt32 := 0x80
def goFlagLocked : UInt32 := 0x2
def goFlagNotSelectable : UInt32 := 0x10
def goDynFlagLoActivate : ℕ := 0x1
def goDynFlagLoSparkle : ℕ := 0x8

/-- The flag of an aura state. -/
def auraStateFlag (state : UInt32) : UInt32 := 1 <<< (state - 1)

/-- `PER_CASTER_AURA_STATE_MASK`: conflagrate and deadly poison. -/
def perCasterAuraStateMask : UInt32 := auraStateFlag 14 ||| auraStateFlag 16

/-! ### The bits that are added -/

/-- The objects of the quests of the target are activated, and all for a game master. -/
def activateToQuest : Bool := v.go.activateToQuest || v.target.isGameMaster

/-- What is done before the mask is written: the mask, and `IsActivateToQuest`. -/
def additions (updateType : UpdateType) (mask : UpdateMask) : UpdateMask × Bool :=
  if o.isUnit then
    (if o.hasFlag unitFieldAuraState perCasterAuraStateMask then mask.setBit unitFieldAuraState
      else mask, false)
  else if o.isGameObject then
    if updateType = .createObject ∨ updateType = .createObject2 then
      if v.go.isDynTransport then (mask, false)
      else (if o.goArtKit ≠ 0 then mask.setBit gameObjectBytes1 else mask, activateToQuest v)
    else if v.go.isTransport then (mask, false)
    else
      let mask := mask.setBit gameObjectBytes1
      (if o.goType = gameObjectTypeChest ∧ v.go.groupLootRules ∧ v.go.hasLootRecipient then
        mask.setBit gameObjectFlags else mask, activateToQuest v)
  else (mask, false)

/-! ### The values -/

/-- A `uint32`. -/
def u32 (x : UInt32) : List ByteBuffer.TypedValue := [⟨.int false .w32, number false .w32 x.toNat⟩]

/-- An `int`. -/
def i32 (n : ℕ) : List ByteBuffer.TypedValue := [⟨.int true .w32, number true .w32 n⟩]

/-- A `uint16`. -/
def u16 (n : ℕ) : List ByteBuffer.TypedValue := [⟨.int false .w16, number false .w16 n⟩]

/-- The npc flags: a creature hides its spell click and its training from who may not use them. -/
def npcFlags (value : UInt32) : UInt32 :=
  if o.typeId = .unit then
    let value := if v.unit.canSeeSpellClickOn then value else value &&& ~~~unitNpcFlagSpellclick
    if value &&& unitNpcFlagTrainer ≠ 0 ∧ ¬v.unit.isCanTrainingOf then
      value &&& ~~~(unitNpcFlagTrainer ||| unitNpcFlagTrainerClass ||| unitNpcFlagTrainerProfession)
    else value
  else value

/-- `BuildAuraStateUpdateForTarget`. -/
def auraStateForTarget (value : UInt32) : UInt32 :=
  v.unit.auraStateAuras.foldl (fun auraStates aura =>
    if auraStateFlag aura.1 &&& perCasterAuraStateMask ≠ 0 ∧ aura.2 = v.target.guid then
      auraStates ||| auraStateFlag aura.1
    else auraStates) (value &&& ~~~perCasterAuraStateMask)

/-- The template that the display id of a creature is taken from. -/
def displayTemplate : CreatureTemplate :=
  (v.unit.transformEffects.findSome? fun e => if e.1 then e.2 else none).getD
    v.unit.creatureTemplate

/-- The display id: that of a trigger is visible for game masters only. -/
def displayId (value : UInt32) : List ByteBuffer.TypedValue :=
  if o.typeId = .unit then
    let cinfo := displayTemplate v
    if cinfo.flagsExtra &&& creatureFlagExtraTrigger ≠ 0 then
      if v.target.isGameMaster then
        if cinfo.modelid1 ≠ 0 then u32 cinfo.modelid1 else i32 17519
      else if cinfo.modelid2 ≠ 0 then u32 cinfo.modelid2
      else i32 11686
    else u32 value
  else u32 value

/-- The dynamic flags: the loot and the tracking are shown to who has a part in them. -/
def dynamicFlags (value : UInt32) : UInt32 :=
  let flags :=
    if o.typeId = .unit then
      let flags :=
        if v.unit.hasLootRecipient then
          if v.unit.isTappedBy then value ||| (unitDynFlagTapped ||| unitDynFlagTappedByPlayer)
          else (value ||| unitDynFlagTapped) &&& ~~~unitDynFlagTappedByPlayer
        else value &&& ~~~unitDynFlagTapped &&& ~~~unitDynFlagTappedByPlayer
      if v.unit.isAllowedToLoot then flags else flags &&& ~~~unitDynFlagLootable
    else value
  if flags &&& unitDynFlagTrackUnit ≠ 0 ∧ ¬v.unit.hasStalkedAura then
    flags &&& ~~~unitDynFlagTrackUnit
  else flags

/-- The unit is a player of the other side in the group of the target. -/
def pretendsFriendly : Bool :=
  v.unit.isControlledByPlayer && !v.unit.isTarget && v.unit.allowTwoSideInteractionGroup &&
    v.unit.isInRaidWith && v.unit.unfriendlyFactions

/-- What is written for a field of a unit. -/
def unitField (index : ℕ) : List ByteBuffer.TypedValue :=
  let value := o.uint32Value index
  if index = unitNpcFlags then u32 (o.npcFlags v value)
  else if index = unitFieldAuraState then u32 (auraStateForTarget v value)
  else if unitFieldBaseAttackTime ≤ index ∧ index ≤ unitFieldRangedAttackTime then
    u32 (if floats.isNegative value then 0 else floats.toUInt32 value)
  else if (unitFieldNegStat0 ≤ index ∧ index ≤ unitFieldNegStat4) ∨
      (unitFieldResistanceBuffModsPositive ≤ index ∧
        index ≤ unitFieldResistanceBuffModsPositive + 6) ∨
      (unitFieldResistanceBuffModsNegative ≤ index ∧
        index ≤ unitFieldResistanceBuffModsNegative + 6) ∨
      (unitFieldPosStat0 ≤ index ∧ index ≤ unitFieldPosStat4) then
    u32 (floats.toUInt32 value)
  else if index = unitFieldFlags then
    if v.target.isGameMaster then u32 (value &&& ~~~unitFlagNotSelectable) else u32 value
  else if index = unitFieldDisplayId then o.displayId v value
  else if index = unitDynamicFlags then u32 (o.dynamicFlags v value)
  else if index = unitFieldBytes2 ∨ index = unitFieldFactionTemplate then
    if pretendsFriendly v then
      if index = unitFieldBytes2 then u32 (value &&& unitByte2FlagSanctuary <<< 8)
      else u32 v.target.faction
    else u32 value
  else u32 value

/-- The dynamic flags of a game object are two `uint16`. -/
def goDynamic (isActivateToQuest : Bool) : List ByteBuffer.TypedValue :=
  let flags :=
    if isActivateToQuest then
      if o.goType = gameObjectTypeChest then
        if v.target.isGameMaster then goDynFlagLoActivate
        else goDynFlagLoActivate ||| goDynFlagLoSparkle
      else if o.goType = gameObjectTypeGeneric then
        if v.target.isGameMaster then 0 else goDynFlagLoSparkle
      else if o.goType = gameObjectTypeGoober then
        if v.target.isGameMaster then goDynFlagLoActivate
        else goDynFlagLoActivate ||| goDynFlagLoSparkle
      else 0
    else 0
  u16 flags ++ u16 0xFFFF

/-- What is written for a field of a game object. -/
def goField (isActivateToQuest : Bool) (index : ℕ) : List ByteBuffer.TypedValue :=
  let value := o.uint32Value index
  if index = gameObjectDynamic then o.goDynamic v isActivateToQuest
  else if index = gameObjectFlags then
    if o.goType = gameObjectTypeChest ∧ v.go.groupLootRules ∧ ¬v.go.isLootAllowedFor then
      u32 (value ||| (goFlagLocked ||| goFlagNotSelectable))
    else u32 value
  else u32 value

/-- What is written for a field of another object. -/
def otherField (index : ℕ) : List ByteBuffer.TypedValue := u32 (o.uint32Value index)

/-- What is written for a field. -/
def field (isActivateToQuest : Bool) (index : ℕ) : List ByteBuffer.TypedValue :=
  if o.isUnit then o.unitField v floats index
  else if o.isGameObject then o.goField v isActivateToQuest index
  else o.otherField index

/-- The loop over the fields. -/
def writeFields (mask : UpdateMask) (isActivateToQuest : Bool) (b : ByteBuffer) :
    Result ByteBuffer :=
  (List.range o.valuesCount).foldlM
    (fun b index =>
      if mask.getBit index then ByteBuffer.writeAll (o.field v floats isActivateToQuest index) b
      else .ok b) b

/-- `_BuildValuesUpdate`. -/
def buildValuesUpdate (updateType : UpdateType) (mask : UpdateMask) (b : ByteBuffer) :
    Result ByteBuffer := do
  let (mask, isActivateToQuest) := o.additions v updateType mask
  if mask.fieldCount ≠ o.valuesCount then .error .assertion
  else
    let b ← ByteBuffer.write (.int false .w8) (number false .w8 mask.blockCount) b
    let b ← mask.appendToPacket b
    o.writeFields v floats mask isActivateToQuest b

end Object

/-! ### What a client reads -/

/-- The values of some fields. -/
def readValues : List ℕ → ByteBuffer → Result (List (ℕ × ℕ) × ByteBuffer)
  | [], b => .ok ([], b)
  | index :: indices, b => do
    let (value, b) ← UpdateMask.readUInt32 b
    let (values, b) ← readValues indices b
    return ((index, value) :: values, b)

/-- A client reads a mask and a value for every bit that is set. -/
def readValuesUpdate (b : ByteBuffer) : Result (List (ℕ × ℕ) × ByteBuffer) := do
  let (indices, b) ← UpdateMask.readMask b
  readValues indices b

namespace Object

variable (o : Object) (v : View) (floats : Floats)

/-! ### Every value has four bytes -/

/-- The bytes of some values. -/
def bytesOf (vs : List ByteBuffer.TypedValue) : List UInt8 :=
  vs.flatMap fun w => ByteBuffer.bytes w.1 w.2

theorem length_u32 (x : UInt32) : (bytesOf (u32 x)).length = 4 := by
  rfl

theorem length_i32 (n : ℕ) : (bytesOf (i32 n)).length = 4 := by
  rfl

theorem length_u16_u16 (n m : ℕ) : (bytesOf (u16 n ++ u16 m)).length = 4 := by
  rfl

theorem length_ite {p : Prop} [Decidable p] {vs ws : List ByteBuffer.TypedValue}
    (hvs : (bytesOf vs).length = 4) (hws : (bytesOf ws).length = 4) :
    (bytesOf (if p then vs else ws)).length = 4 := by
  split_ifs
  · exact hvs
  · exact hws

theorem length_displayId (value : UInt32) : (bytesOf (o.displayId v value)).length = 4 := by
  have hmaster := length_ite (p := (displayTemplate v).modelid1 ≠ 0)
    (length_u32 (displayTemplate v).modelid1) (length_i32 17519)
  have hplayer := length_ite (p := (displayTemplate v).modelid2 ≠ 0)
    (length_u32 (displayTemplate v).modelid2) (length_i32 11686)
  have htrigger := length_ite (p := v.target.isGameMaster = true) hmaster hplayer
  exact length_ite (length_ite htrigger (length_u32 value)) (length_u32 value)

theorem length_unitField (index : ℕ) : (bytesOf (o.unitField v floats index)).length = 4 := by
  unfold unitField
  dsimp only
  refine length_ite (length_u32 _) (length_ite (length_u32 _) (length_ite (length_u32 _)
    (length_ite (length_u32 _) (length_ite ?flags (length_ite (o.length_displayId v _)
      (length_ite (length_u32 _) (length_ite ?group (length_u32 _))))))))
  case flags => exact length_ite (length_u32 _) (length_u32 _)
  case group => exact length_ite (length_ite (length_u32 _) (length_u32 _)) (length_u32 _)

theorem length_goField (quest : Bool) (index : ℕ) :
    (bytesOf (o.goField v quest index)).length = 4 := by
  unfold goField
  dsimp only
  exact length_ite (length_u16_u16 _ _) (length_ite (length_ite (length_u32 _) (length_u32 _))
    (length_u32 _))

theorem length_field (quest : Bool) (index : ℕ) :
    (bytesOf (o.field v floats quest index)).length = 4 := by
  unfold field
  split_ifs
  · exact o.length_unitField v floats index
  · exact o.length_goField v quest index
  · exact length_u32 _

/-! ### The mask -/

theorem blockCount_lt (t : TypeId) : (t.valuesCount + 31) / 32 < 256 := by
  cases t <;> decide

theorem auraState_lt (h : o.isUnit = true) : unitFieldAuraState < o.valuesCount := by
  unfold isUnit valuesCount at *
  cases ht : o.typeId <;> simp_all <;> decide

theorem gameObjectField_lt (h : o.isGameObject = true) {i : ℕ} (hi : i < gameObjectEnd) :
    i < o.valuesCount := by
  unfold isGameObject at h
  unfold valuesCount
  rw [of_decide_eq_true h]
  exact hi

/-- The mask that is written. -/
def finalMask (updateType : UpdateType) (mask : UpdateMask) : UpdateMask :=
  (o.additions v updateType mask).1

/-- The mask that is written is made from the given one by setting bits of the object. -/
theorem finalMask_induction {P : UpdateMask → Prop}
    (hset : ∀ m i, P m → i < o.valuesCount → P (m.setBit i)) {mask : UpdateMask} (h : P mask)
    (updateType : UpdateType) : P (o.finalMask v updateType mask) := by
  have hite : ∀ (p : Prop) [Decidable p] (m : UpdateMask) (i : ℕ), P m → i < o.valuesCount →
      P (if p then m.setBit i else m) := by
    intro p _ m i hm hi
    split_ifs
    · exact hset m i hm hi
    · exact hm
  unfold finalMask additions
  dsimp only
  by_cases hunit : o.isUnit = true
  · rw [if_pos hunit]
    exact hite _ _ _ h (o.auraState_lt hunit)
  · rw [if_neg hunit]
    by_cases hgo : o.isGameObject = true
    · have hbytes := o.gameObjectField_lt hgo (i := gameObjectBytes1) (by decide)
      have hflags := o.gameObjectField_lt hgo (i := gameObjectFlags) (by decide)
      rw [if_pos hgo]
      split_ifs
      · exact h
      · exact hset _ _ h hbytes
      · exact h
      · exact h
      · exact hset _ _ (hset _ _ h hbytes) hflags
      · exact hset _ _ h hbytes
    · rw [if_neg hgo]
      exact h

theorem sized_finalMask {mask : UpdateMask} (h : mask.Sized o.valuesCount)
    (updateType : UpdateType) : (o.finalMask v updateType mask).Sized o.valuesCount :=
  o.finalMask_induction v (fun _ _ hm hi => hm.setBit hi) h updateType

theorem getBit_finalMask {mask : UpdateMask} {i : ℕ} (h : mask.getBit i = true)
    (updateType : UpdateType) : (o.finalMask v updateType mask).getBit i = true :=
  o.finalMask_induction v (P := fun m => m.getBit i = true)
    (fun _ _ hm _ => UpdateMask.getBit_setBit_of_getBit hm) h updateType

/-! ### What is written -/

/-- The byte strings that are appended, one after the other. -/
def blockAppends (updateType : UpdateType) (mask : UpdateMask) : List (List UInt8) :=
  encode .w8 (number false .w8 (o.finalMask v updateType mask).blockCount) ::
    ((o.finalMask v updateType mask).words.map fun w => encode .w32 (number false .w32 w)) ++
    (o.finalMask v updateType mask).fields.flatMap fun index =>
      (o.field v floats (o.additions v updateType mask).2 index).flatMap fun w =>
        ByteBuffer.appends w.1 w.2

/-- The mask, and behind it the values of its fields. -/
def valuesBlock (updateType : UpdateType) (mask : UpdateMask) : List UInt8 :=
  (o.finalMask v updateType mask).maskBytes ++ (o.finalMask v updateType mask).fields.flatMap
    fun index => bytesOf (o.field v floats (o.additions v updateType mask).2 index)

theorem writeFields_eq {mask : UpdateMask} (h : mask.fieldCount = o.valuesCount) (quest : Bool)
    (b : ByteBuffer) :
    o.writeFields v floats mask quest b = ByteBuffer.appendAll
      (mask.fields.flatMap fun index =>
        (o.field v floats quest index).flatMap fun w => ByteBuffer.appends w.1 w.2) b := by
  have hwrite : ∀ b, ∀ index ∈ mask.fields,
      ByteBuffer.writeAll (o.field v floats quest index) b = ByteBuffer.appendAll
        ((o.field v floats quest index).flatMap fun w => ByteBuffer.appends w.1 w.2) b :=
    fun b index _ => ByteBuffer.writeAll_eq _ b
  rw [← ByteBuffer.foldlM_eq_appendAll hwrite, UpdateMask.fields, h, List.foldlM_filter]
  rfl

theorem buildValuesUpdate_eq (updateType : UpdateType) {mask : UpdateMask}
    (h : mask.Sized o.valuesCount) (b : ByteBuffer) :
    o.buildValuesUpdate v floats updateType mask b =
      ByteBuffer.appendAll (o.blockAppends v floats updateType mask) b := by
  have hcount : (o.additions v updateType mask).1.fieldCount = o.valuesCount :=
    (o.sized_finalMask v h updateType).fieldCount_eq
  have hbyte : ∀ n b, ByteBuffer.write (.int false .w8) (number false .w8 n) b =
      b.append (encode .w8 (number false .w8 n)) := fun n b => rfl
  rw [blockAppends, List.cons_append, ByteBuffer.appendAll_cons]
  unfold buildValuesUpdate finalMask
  dsimp only
  rw [if_neg (not_not.2 hcount), hbyte]
  refine congrArg _ (funext fun b => ?_)
  rw [UpdateMask.appendToPacket_eq, ByteBuffer.appendAll_append]
  exact congrArg _ (funext fun b => o.writeFields_eq v floats hcount _ b)

theorem blockCount_finalMask_lt (updateType : UpdateType) {mask : UpdateMask}
    (h : mask.Sized o.valuesCount) : (o.finalMask v updateType mask).blockCount < 256 := by
  rw [(o.sized_finalMask v h updateType).blockCount_eq]
  exact blockCount_lt o.typeId

theorem flatten_blockAppends (updateType : UpdateType) {mask : UpdateMask}
    (h : mask.Sized o.valuesCount) :
    (o.blockAppends v floats updateType mask).flatten =
      o.valuesBlock v floats updateType mask := by
  have hfields : ∀ index,
      ((o.field v floats (o.additions v updateType mask).2 index).flatMap fun w =>
        ByteBuffer.appends w.1 w.2).flatten =
      bytesOf (o.field v floats (o.additions v updateType mask).2 index) :=
    fun index => ByteBuffer.flatten_flatMap_appends _
  have hvalues : ((o.finalMask v updateType mask).fields.flatMap fun index =>
      (o.field v floats (o.additions v updateType mask).2 index).flatMap fun w =>
        ByteBuffer.appends w.1 w.2).flatten = (o.finalMask v updateType mask).fields.flatMap
      fun index => bytesOf (o.field v floats (o.additions v updateType mask).2 index) := by
    rw [List.flatMap, List.flatten_flatten, List.map_map, List.flatMap]
    exact congrArg _ (List.map_congr_left fun index _ => hfields index)
  rw [blockAppends, List.cons_append, List.flatten_cons, List.flatten_append, hvalues,
    UpdateMask.encode_blockCount (o.blockCount_finalMask_lt v updateType h), ← List.flatMap_def,
    UpdateMask.flatMap_encode_words, ← List.append_assoc]
  rfl

theorem ne_nil_of_mem_blockAppends (updateType : UpdateType) (mask : UpdateMask) :
    ∀ src ∈ o.blockAppends v floats updateType mask, src ≠ [] := by
  intro src hsrc
  rcases List.mem_append.1 hsrc with hsrc | hsrc
  · rcases List.mem_cons.1 hsrc with rfl | hsrc
    · exact ByteBuffer.encode_ne_nil _ _
    · obtain ⟨w, -, rfl⟩ := List.mem_map.1 hsrc
      exact ByteBuffer.encode_ne_nil _ _
  · obtain ⟨index, -, hindex⟩ := List.mem_flatMap.1 hsrc
    exact ByteBuffer.ne_nil_of_mem_flatMap_appends src hindex

/-- The block is appended to a buffer that has room for it. -/
theorem buildValuesUpdate_eq_ok (updateType : UpdateType) {mask : UpdateMask}
    (h : mask.Sized o.valuesCount) {b : ByteBuffer} (hb : b.AtEnd)
    (hroom : b.size + (o.valuesBlock v floats updateType mask).length ≤ 10000000) :
    o.buildValuesUpdate v floats updateType mask b =
      .ok (b.extend (o.valuesBlock v floats updateType mask)) := by
  have hnil := o.ne_nil_of_mem_blockAppends v floats updateType mask
  have hflat := o.flatten_blockAppends v floats updateType h
  rw [← hflat] at hroom ⊢
  rw [o.buildValuesUpdate_eq v floats updateType h, ByteBuffer.appendAll_eq_ok hnil hb]
  exact ⟨ByteBuffer.fits_of_le hnil hroom, rfl⟩

end Object

/-! ### What is read -/

theorem readValues_of_unread {value : ℕ → List UInt8} (hvalue : ∀ i, (value i).length = 4)
    (indices : List ℕ) {b : ByteBuffer} {rest : List UInt8}
    (hb : b.unread = indices.flatMap value ++ rest) :
    readValues indices b = .ok (indices.map fun i => (i, LittleEndian.ofBytes (value i)),
      b.advance (indices.flatMap value).length) := by
  induction indices generalizing b with
  | nil => rfl
  | cons i indices ih =>
    rw [List.flatMap_cons, List.append_assoc] at hb
    have hrest : (b.advance (value i).length).unread = indices.flatMap value ++ rest := by
      rw [ByteBuffer.unread_advance, hb, List.drop_left]
    rw [readValues, UpdateMask.readUInt32_of_unread (hvalue i) hb]
    simp only [bind, Except.bind]
    rw [ih hrest, ByteBuffer.advance_advance, List.flatMap_cons, List.length_append]
    rfl

/-- **Main result.** A values update is the number of the blocks, the words of the mask, and four
bytes for every field that is set, in increasing order. A client that reads the mask first passes
just these bytes. -/
theorem valuesUpdate_wellFormed (o : Object) (v : View) (floats : Floats) (updateType : UpdateType)
    (mask : UpdateMask.OfSize o.valuesCount) :
    let written := o.finalMask v updateType mask
    let words := written.words
    let fields := (List.range o.valuesCount).filter written.getBit
    let value := fun i => Object.bytesOf (o.field v floats (o.additions v updateType mask).2 i)
    let block := UInt8.ofNat words.length ::
      (words.flatMap (LittleEndian.toBytesLen 4) ++ fields.flatMap value)
    (∀ i, mask.1.getBit i = true → written.getBit i = true) ∧
      words.length = (o.valuesCount + 31) / 32 ∧ words.length < 256 ∧
      (∀ w ∈ words, w < 2 ^ 32) ∧
      (∀ i < words.length * 32,
        (words.getD (i / 32) 0).testBit (i % 32) = written.getBit i) ∧
      (∀ i, (value i).length = 4) ∧
      (∀ b : ByteBuffer, b.AtEnd → b.size + block.length ≤ 10000000 →
        o.buildValuesUpdate v floats updateType mask b = .ok (b.extend block)) ∧
      ∀ (b : ByteBuffer) (rest : List UInt8), b.unread = block ++ rest →
        readValuesUpdate b = .ok (fields.map fun i => (i, LittleEndian.ofBytes (value i)),
          b.advance block.length) := by
  obtain ⟨mask, hmask⟩ := mask
  dsimp only
  have hsized := o.sized_finalMask v hmask updateType
  have hlt := o.blockCount_finalMask_lt v updateType hmask
  have hlen := UpdateMask.length_words (o.finalMask v updateType mask)
  have hfields : (o.finalMask v updateType mask).fields =
      (List.range o.valuesCount).filter (o.finalMask v updateType mask).getBit := by
    rw [UpdateMask.fields, hsized.fieldCount_eq]
  have hblock : o.valuesBlock v floats updateType mask =
      UInt8.ofNat (o.finalMask v updateType mask).words.length ::
        ((o.finalMask v updateType mask).words.flatMap (LittleEndian.toBytesLen 4) ++
          ((List.range o.valuesCount).filter (o.finalMask v updateType mask).getBit).flatMap
            fun i => Object.bytesOf (o.field v floats (o.additions v updateType mask).2 i)) := by
    rw [Object.valuesBlock, UpdateMask.maskBytes, hfields, hlen, List.cons_append]
  refine ⟨fun i hi => o.getBit_finalMask v hi updateType, ?_, ?_,
    fun w => UpdateMask.lt_of_mem_words, fun i hi => UpdateMask.testField_words (hlen ▸ hi),
    o.length_field v floats _, ?_, ?_⟩
  · rw [hlen, hsized.blockCount_eq]
  · rwa [hlen]
  · intro b hb hroom
    rw [← hblock] at hroom ⊢
    exact o.buildValuesUpdate_eq_ok v floats updateType hmask hb hroom
  · intro b rest hb
    rw [← hblock] at hb ⊢
    rw [Object.valuesBlock, List.append_assoc] at hb
    have hmaskRead := hsized.readMask_of_unread hlt hb
    have hrest : (b.advance (o.finalMask v updateType mask).maskBytes.length).unread =
        ((o.finalMask v updateType mask).fields.flatMap fun i =>
          Object.bytesOf (o.field v floats (o.additions v updateType mask).2 i)) ++ rest := by
      rw [ByteBuffer.unread_advance, hb, List.drop_left]
    have hvalues := readValues_of_unread (o.length_field v floats _) _ hrest
    unfold readValuesUpdate
    rw [hmaskRead]
    simp only [bind, Except.bind]
    rw [hvalues, ByteBuffer.advance_advance, Object.valuesBlock, List.length_append, hfields]

/-- The fields of a creature whose values depend on the target. -/
def triggerFields : List UInt32 :=
  let fields := List.replicate unitEnd (0 : UInt32)
  let fields := fields.set unitFieldFactionTemplate 14
  let fields := fields.set unitFieldFlags 0x02000001
  let fields := fields.set unitFieldAuraState 0xA001
  let fields := fields.set unitFieldBaseAttackTime 0x44FA0000
  let fields := fields.set unitFieldDisplayId 1126
  let fields := fields.set unitDynamicFlags 0x1
  let fields := fields.set unitNpcFlags 0x01000011
  fields.set unitFieldBytes2 0x2801

/-- A creature that looks like a trigger. -/
def trigger : Object := ⟨.unit, triggerFields, by simp [triggerFields, TypeId.valuesCount]⟩

/-- A game master of faction 35 in the raid of the player who controls the creature. -/
def masterView : View where
  target := ⟨true, 1, 35⟩
  unit :=
    { canSeeSpellClickOn := false, isCanTrainingOf := false
      auraStateAuras := [(14, 1), (16, 2)]
      creatureTemplate := ⟨1126, 0, 0⟩
      transformEffects := [(false, some ⟨7, 8, 0⟩), (true, some ⟨500, 501, 0x80⟩)]
      hasLootRecipient := true, isTappedBy := true, isAllowedToLoot := false
      hasStalkedAura := false, isControlledByPlayer := true, isTarget := false
      allowTwoSideInteractionGroup := true, isInRaidWith := true, unfriendlyFactions := true }
  go := ⟨false, false, false, false, false, false⟩

/-- The floats 2000 and 0. -/
def twoFloats : Floats := ⟨fun _ => false, fun w => if w = 0x44FA0000 then 2000 else 0⟩

/-- All these fields but the aura state. -/
def triggerMask : UpdateMask.OfSize trigger.valuesCount :=
  ⟨[unitFieldFactionTemplate, unitFieldFlags, unitFieldBaseAttackTime, unitFieldDisplayId,
    unitDynamicFlags, unitNpcFlags, unitFieldBytes2].foldl UpdateMask.setBit
      (UpdateMask.setCount unitEnd),
    ((((((UpdateMask.sized_setCount unitEnd).setBit (by decide)).setBit (by decide)).setBit
      (by decide)).setBit (by decide)).setBit (by decide)).setBit (by decide) |>.setBit (by decide)⟩

/-- The aura state is added, and every value is that for the target. -/
theorem valuesUpdate_sample :
    trigger.buildValuesUpdate masterView twoFloats .values triggerMask .empty =
      .ok (ByteBuffer.empty.extend ([5, 0, 0, 0, 0, 0, 0, 128, 104, 8, 128, 4, 0, 0, 0, 0, 4, 0, 0,
        0, 0] ++
        [35, 0, 0, 0] ++ [1, 0, 0, 0] ++ [1, 32, 0, 0] ++ [208, 7, 0, 0] ++ [244, 1, 0, 0] ++
        [12, 0, 0, 0] ++ [1, 0, 0, 0] ++ [0, 8, 0, 0])) := by
  obtain ⟨-, -, -, -, -, -, hwritten, -⟩ :=
    valuesUpdate_wellFormed trigger masterView twoFloats .values triggerMask
  refine (hwritten .empty rfl (by decide +kernel)).trans ?_
  exact congrArg (fun block => Except.ok (ByteBuffer.empty.extend block)) (by decide +kernel)

end FaceCore.Packet
