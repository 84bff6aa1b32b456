import FaceCore.Lib.Flags
import FaceCore.Lib.SortedMap
import Mathlib.Data.Nat.Basic
import Mathlib.Data.UInt

/-!
# The reputations of a player

For every faction that has a place in the reputation list the manager keeps the standing, which is
added to a base that depends on the race and the class of the player, and the flags; beside them it
counts the visible factions and those of the three highest ranks.

* `FactionStore`, `Player`: the table of the factions and what the bases depend on;
* `reputationToRank`: the rank of a reputation;
* `initializeAll`, `loadFromDB`: the state at login;
* `setOneFactionReputation`, `setVisible`, `setInactive`, `setAtWar`: what changes it.
-/

namespace FaceCore.Reputations

/-! ### Factions -/

/-- What a faction has for some races and classes: an element of each of `BaseRepRaceMask`,
`BaseRepClassMask`, `BaseRepValue` and `ReputationFlags`. -/
structure BaseRep where
  raceMask : UInt32
  classMask : UInt32
  value : Int32
  flags : UInt32

/-- `FactionEntry`, as far as it is used here; there are four bases. -/
structure FactionEntry where
  id : UInt32
  reputationListID : Int32
  bases : List BaseRep

/-- `CanHaveReputation`. -/
def FactionEntry.canHaveReputation (e : FactionEntry) : Bool := e.reputationListID ≥ 0

/-- `reputationListID` as a key of the reputations. -/
def FactionEntry.repListID (e : FactionEntry) : ℕ := e.reputationListID.toUInt32.toNat

/-- `sFactionStore`: the rows are at their ids, with gaps. -/
structure FactionStore where
  rows : List (Option FactionEntry)
  ids : ∀ (i : ℕ) (e : FactionEntry), rows[i]? = some (some e) → e.id.toNat = i

/-- `LookupEntry`. -/
def FactionStore.lookupEntry (s : FactionStore) (id : ℕ) : Option FactionEntry := s.rows[id]?.join

/-- The player, the factions, and the points that an amount gives at the rate of the server, which is
a rounding in single precision. -/
structure Player where
  raceMask : UInt32
  classMask : UInt32
  factions : FactionStore
  gain : Int32 → Int32

namespace Player

/-- Whether an element of the bases is for the race and the class of the player. -/
def suits (p : Player) (b : BaseRep) : Bool :=
  (b.raceMask &&& p.raceMask ≠ 0 || (b.raceMask = 0 && b.classMask ≠ 0)) &&
    (b.classMask &&& p.classMask ≠ 0 || b.classMask = 0)

/-- `GetBaseReputation`. -/
def getBaseReputation (p : Player) (factionEntry : Option FactionEntry) : Int32 :=
  match factionEntry with
  | none => 0
  | some e =>
    match e.bases.find? p.suits with
    | some b => b.value
    | none => 0

/-- `GetDefaultStateFlags`. -/
def getDefaultStateFlags (p : Player) (factionEntry : Option FactionEntry) : UInt32 :=
  match factionEntry with
  | none => 0
  | some e =>
    match e.bases.find? p.suits with
    | some b => b.flags
    | none => 0

end Player

/-! ### Ranks -/

/-- `ReputationRank`. -/
inductive ReputationRank
  | hated | hostile | unfriendly | neutral | friendly | honored | revered | exalted
  deriving DecidableEq

/-- The number of a rank. -/
def ReputationRank.toNat : ReputationRank → ℕ
  | hated => 0
  | hostile => 1
  | unfriendly => 2
  | neutral => 3
  | friendly => 4
  | honored => 5
  | revered => 6
  | exalted => 7

instance : LE ReputationRank := ⟨fun a b => a.toNat ≤ b.toNat⟩

instance : LT ReputationRank := ⟨fun a b => a.toNat < b.toNat⟩

instance (a b : ReputationRank) : Decidable (a ≤ b) := inferInstanceAs (Decidable (a.toNat ≤ b.toNat))

instance (a b : ReputationRank) : Decidable (a < b) := inferInstanceAs (Decidable (a.toNat < b.toNat))

/-- `Reputation_Cap`. -/
def reputationCap : Int32 := 42999

/-- `Reputation_Bottom`. -/
def reputationBottom : Int32 := -42000

/-- `PointsInRank`, from the highest rank down. -/
def pointsInRank : List (ReputationRank × Int32) :=
  [(.exalted, 1000), (.revered, 21000), (.honored, 12000), (.friendly, 6000), (.neutral, 3000),
    (.unfriendly, 3000), (.hostile, 3000), (.hated, 36000)]

/-- The loop of `ReputationToRank`. -/
def rankFrom (standing limit : Int32) : List (ReputationRank × Int32) → ReputationRank
  | [] => .hated
  | (rank, points) :: ranks =>
    if standing ≥ limit - points then rank else rankFrom standing (limit - points) ranks

/-- `ReputationToRank`. -/
def reputationToRank (standing : Int32) : ReputationRank :=
  rankFrom standing (reputationCap + 1) pointsInRank

/-! ### The state of a faction -/

/-- `FACTION_FLAG_VISIBLE`. -/
def factionFlagVisible : UInt8 := 0x01

/-- `FACTION_FLAG_AT_WAR`. -/
def factionFlagAtWar : UInt8 := 0x02

/-- `FACTION_FLAG_HIDDEN`. -/
def factionFlagHidden : UInt8 := 0x04

/-- `FACTION_FLAG_INVISIBLE_FORCED`. -/
def factionFlagInvisibleForced : UInt8 := 0x08

/-- `FACTION_FLAG_PEACE_FORCED`. -/
def factionFlagPeaceForced : UInt8 := 0x10

/-- `FACTION_FLAG_INACTIVE`. -/
def factionFlagInactive : UInt8 := 0x20

/-- `FACTION_FLAG_SPECIAL`. -/
def factionFlagSpecial : UInt8 := 0x80

/-- `FactionState`. -/
structure FactionState where
  id : UInt32
  reputationListID : ℕ
  standing : Int32
  flags : UInt8
  needSend : Bool
  needSave : Bool

namespace FactionState

/-- A flag of the state. -/
def has (f : FactionState) (flag : UInt8) : Bool := f.flags &&& flag ≠ 0

/-- What the map makes of a key it does not have. -/
def zero : FactionState := ⟨0, 0, 0, 0, false, false⟩

/-- The flags change, and the state is to be sent and saved. -/
def setFlags (f : FactionState) (flags : UInt8) : FactionState :=
  { f with flags := flags, needSend := true, needSave := true }

/-- `SetVisible(FactionState*)`, with the counter of the visible factions; the message is left out. -/
def setVisible (f : FactionState) (count : UInt8) : FactionState × UInt8 :=
  if f.has (factionFlagInvisibleForced ||| factionFlagHidden) && !f.has factionFlagSpecial then
    (f, count)
  else if f.has factionFlagVisible then (f, count)
  else (f.setFlags (f.flags ||| factionFlagVisible), count + 1)

/-- `SetAtWar(FactionState*, bool)`. -/
def setAtWar (f : FactionState) (atWar : Bool) : FactionState :=
  if atWar && f.has factionFlagPeaceForced then f
  else if f.has factionFlagAtWar = atWar then f
  else f.setFlags
    (if atWar then f.flags ||| factionFlagAtWar else f.flags &&& ~~~factionFlagAtWar)

/-- `SetInactive(FactionState*, bool)`. -/
def setInactive (f : FactionState) (inactive : Bool) : FactionState :=
  if inactive && (f.has (factionFlagInvisibleForced ||| factionFlagHidden) ||
      !f.has factionFlagVisible) then f
  else if f.has factionFlagInactive = inactive then f
  else f.setFlags
    (if inactive then f.flags ||| factionFlagInactive else f.flags &&& ~~~factionFlagInactive)

end FactionState

/-! ### The manager -/

/-- `ReputationMgr`, without the forced reactions. -/
structure ReputationMgr where
  factions : SortedMap ℕ FactionState
  visibleFactionCount : UInt8
  honoredFactionCount : UInt8
  reveredFactionCount : UInt8
  exaltedFactionCount : UInt8
  sendFactionIncreased : Bool

/-- What `UpdateRankCounters` does with the counter of a rank. -/
def recount (rank oldRank newRank : ReputationRank) (count : UInt8) : UInt8 :=
  let count := if oldRank ≥ rank then count - 1 else count
  if newRank ≥ rank then count + 1 else count

namespace ReputationMgr

/-- The constructor. -/
def new : ReputationMgr := ⟨SortedMap.empty, 0, 0, 0, 0, false⟩

/-- `GetState`, for a faction. -/
def getState (m : ReputationMgr) (e : FactionEntry) : Option FactionState :=
  if e.canHaveReputation then m.factions.find e.repListID else none

/-- `GetReputation`. -/
def getReputation (m : ReputationMgr) (p : Player) (factionEntry : Option FactionEntry) : Int32 :=
  match factionEntry with
  | none => 0
  | some e =>
    match m.getState e with
    | some state => p.getBaseReputation (some e) + state.standing
    | none => 0

/-- `GetRank`. -/
def getRank (m : ReputationMgr) (p : Player) (factionEntry : Option FactionEntry) : ReputationRank :=
  reputationToRank (m.getReputation p factionEntry)

/-- `GetBaseRank`. -/
def getBaseRank (p : Player) (factionEntry : Option FactionEntry) : ReputationRank :=
  reputationToRank (p.getBaseReputation factionEntry)

/-- `UpdateRankCounters`. -/
def updateRankCounters (m : ReputationMgr) (oldRank newRank : ReputationRank) : ReputationMgr :=
  { m with
    exaltedFactionCount := recount .exalted oldRank newRank m.exaltedFactionCount
    reveredFactionCount := recount .revered oldRank newRank m.reveredFactionCount
    honoredFactionCount := recount .honored oldRank newRank m.honoredFactionCount }

/-- Write the state of a faction, with the counter of the visible ones. -/
def put (m : ReputationMgr) (repListID : ℕ) (f : FactionState) (visible : UInt8) : ReputationMgr :=
  { m with factions := m.factions.insert repListID f, visibleFactionCount := visible }

/-! ### Login -/

/-- `newFaction`. -/
def newFaction (p : Player) (e : FactionEntry) : FactionState where
  id := e.id
  reputationListID := e.repListID
  standing := 0
  flags := (p.getDefaultStateFlags (some e)).toUInt8
  needSend := true
  needSave := true

/-- The loop body of `Initialize`. -/
def initializeFaction (p : Player) (m : ReputationMgr) (factionEntry : Option FactionEntry) :
    ReputationMgr :=
  match factionEntry with
  | none => m
  | some e =>
    if e.canHaveReputation then
      let visible := if (newFaction p e).has factionFlagVisible then m.visibleFactionCount + 1
        else m.visibleFactionCount
      (m.put e.repListID (newFaction p e) visible).updateRankCounters .hostile
        (getBaseRank p (some e))
    else m

/-- `Initialize`; the ids go from 1 on. -/
def initializeAll (p : Player) : ReputationMgr :=
  p.factions.rows.tail.foldl (initializeFaction p) new

/-- A row of `character_reputation`. -/
structure ReputationRow where
  faction : UInt16
  standing : Int32
  flags : UInt16

/-- Made visible if the row says so. -/
def loadVisible (f : FactionState) (flags visible : UInt8) : FactionState × UInt8 :=
  if flags &&& factionFlagVisible ≠ 0 then f.setVisible visible else (f, visible)

/-- Made inactive if the row says so. -/
def loadInactive (f : FactionState) (flags : UInt8) : FactionState :=
  if flags &&& factionFlagInactive ≠ 0 then f.setInactive true else f

/-- At war as the row says; the war is ended of visible factions only. -/
def loadAtWar (f : FactionState) (flags : UInt8) : FactionState :=
  if flags &&& factionFlagAtWar ≠ 0 then f.setAtWar true
  else if f.has factionFlagVisible then f.setAtWar false
  else f

/-- The flags of a state after those of a row, with the counter of the visible factions. -/
def loadFlags (f : FactionState) (flags visible : UInt8) : FactionState × UInt8 :=
  let r := loadVisible f flags visible
  (loadAtWar (loadInactive r.1 flags) flags, r.2)

/-- The loop body of `LoadFromDB`. -/
def loadRow (p : Player) (m : ReputationMgr) (row : ReputationRow) : ReputationMgr :=
  match p.factions.lookupEntry row.faction.toNat with
  | none => m
  | some e =>
    if e.canHaveReputation then
      let f := { (m.factions.find e.repListID).getD .zero with standing := row.standing }
      let baseRep := p.getBaseReputation (some e)
      let m := m.updateRankCounters (reputationToRank baseRep) (reputationToRank (baseRep + f.standing))
      let r := loadFlags f row.flags.toUInt8 m.visibleFactionCount
      let m := m.put e.repListID r.1 r.2
      -- the rank is read with the new standing, which is in the map already
      let f := if m.getRank p (some e) ≤ .hostile then r.1.setAtWar true else r.1
      let f := if f.flags.toUInt32 = row.flags.toUInt32 then
        { f with needSend := false, needSave := false } else f
      m.put e.repListID f r.2
    else m

/-- `LoadFromDB`; there is no result when the query has no rows. -/
def loadFromDB (p : Player) (result : Option (List ReputationRow)) : ReputationMgr :=
  match result with
  | none => initializeAll p
  | some rows => rows.foldl (loadRow p) (initializeAll p)

/-! ### Changes -/

/-- The standing that `SetOneFactionReputation` gives. -/
def newReputation (p : Player) (reputation standing : Int32) (incremental : Bool) : Int32 :=
  let standing := if incremental then p.gain standing + reputation else standing
  if standing > reputationCap then reputationCap
  else if standing < reputationBottom then reputationBottom
  else standing

/-- `SetOneFactionReputation`, without the achievements and quests that follow. -/
def setOneFactionReputation (m : ReputationMgr) (p : Player) (e : FactionEntry) (standing : Int32)
    (incremental : Bool) : ReputationMgr :=
  match m.factions.find e.repListID with
  | none => m
  | some state =>
    let baseRep := p.getBaseReputation (some e)
    let standing := newReputation p (state.standing + baseRep) standing incremental
    let oldRank := reputationToRank (state.standing + baseRep)
    let newRank := reputationToRank standing
    let state := { state with standing := standing - baseRep, needSend := true, needSave := true }
    let r := state.setVisible m.visibleFactionCount
    let state := if newRank ≤ .hostile then r.1.setAtWar true else r.1
    let m := if newRank > oldRank then { m with sendFactionIncreased := true } else m
    (m.put e.repListID state r.2).updateRankCounters oldRank newRank

/-- `SetVisible(FactionEntry const*)`. -/
def setVisible (m : ReputationMgr) (e : FactionEntry) : ReputationMgr :=
  if e.reputationListID < 0 then m
  else
    match m.factions.find e.repListID with
    | none => m
    | some state =>
      let r := state.setVisible m.visibleFactionCount
      m.put e.repListID r.1 r.2

/-- `SetVisible(FactionTemplateEntry const*)`, for the faction of the template. -/
def setVisibleTemplate (m : ReputationMgr) (p : Player) (faction : UInt32) : ReputationMgr :=
  if faction = 0 then m
  else
    match p.factions.lookupEntry faction.toNat with
    | none => m
    | some e =>
      -- the factions of the opposing team are not shown
      if e.bases[1]?.any fun b => b.raceMask &&& p.raceMask ≠ 0 && b.value = reputationBottom then m
      else m.setVisible e

/-- `SetAtWar(RepListID, bool)`. -/
def setAtWar (m : ReputationMgr) (repListID : ℕ) (on : Bool) : ReputationMgr :=
  match m.factions.find repListID with
  | none => m
  | some state =>
    if state.has (factionFlagInvisibleForced ||| factionFlagHidden) then m
    else m.put repListID (state.setAtWar on) m.visibleFactionCount

/-- `SetInactive(RepListID, bool)`. -/
def setInactive (m : ReputationMgr) (repListID : ℕ) (on : Bool) : ReputationMgr :=
  match m.factions.find repListID with
  | none => m
  | some state => m.put repListID (state.setInactive on) m.visibleFactionCount

end ReputationMgr

end FaceCore.Reputations
