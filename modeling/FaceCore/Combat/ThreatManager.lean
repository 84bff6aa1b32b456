import FaceCore.Combat.NextVictim
import FaceCore.Lib.Runs
import Mathlib.Data.Finset.Basic
import Mathlib.Logic.Function.Basic

/-!
# The threat manager

A creature keeps a reference to every unit that it hates. The references that it can reach stand in
the list of `iThreatContainer`, which is sorted when it is used and marked as dirty, the others in
the list of `iThreatOfflineContainer`. A reference tells the manager when its threat changes and when
it goes online or offline (`processThreatEvent`), and the manager decides whether to mark the list.

* `FloatArith`: what is computed with floats;
* `World`: what the functions ask about the units;
* `HostileReference`, `ThreatManager`: the references at their addresses, and the manager;
* `setOnlineOfflineState`, `updateOnlineStatus`, `changeThreat`: what happens to one reference;
* `ownerThreat`, `addThreatTo`, `addThreat`: threat also for the owner of a pet, and with redirection;
* `update`, `getHostilTarget`; `Op`, `exec`: the calls.

What is sent to clients and the timer for it are left out. `GetCharmerOrOwner` is followed to its
end, so the units above a unit are a list.
-/

namespace FaceCore.Combat

/-- What is computed with the floats of threat, rounded in some way. A product with 0 and a sum with 0
are exact. -/
class FloatArith where
  add : ℚ → ℚ → ℚ
  sub : ℚ → ℚ → ℚ
  mul : ℚ → ℚ → ℚ
  /-- `CalculatePct`. -/
  calculatePct : ℚ → ℤ → ℚ
  /-- `1.1f * x` and `1.3f * x`. -/
  times110 : ℚ → ℚ
  times130 : ℚ → ℚ
  zero_add : ∀ x, add 0 x = x
  zero_mul : ∀ x, mul 0 x = 0

open FloatArith

/-- The part of `SpellInfo` that is read. -/
structure SpellInfo where
  id : ℕ
  noThreat : Bool
  pctMod : ℚ
  energizes : Bool

/-- What is asked about the units. `charmersAndOwners` are the units that `GetCharmerOrOwner` gives,
one after the other; `threatModifier` is there for a unit with an aura that modifies threat. -/
structure World where
  hatingUnit : ℕ
  isAlive : ℕ → Bool
  isGameMaster : ℕ → Bool
  inMapAndPhase : ℕ → Bool
  isInFlight : ℕ → Bool
  isFound : ℕ → Bool
  isInAccessiblePlace : ℕ → Bool
  isWithinCombatRange : ℕ → Bool
  charmersAndOwners : ℕ → List ℕ
  redirectThreatPercent : ℕ → ℕ
  redirectThreatTarget : ℕ → Option ℕ
  threatModifier : ℕ → ℕ → Option ℚ
  applySpellMod : ℕ → ℕ → ℚ → ℚ
  canAttack : ℕ → Bool
  isSecondChoice : ℕ → Bool
  isWithinMeleeRange : ℕ → Bool

namespace World

variable (w : World)

/-- `ThreatCalcHelper::isValidProcess`. -/
def isValidProcess (hatedUnit : ℕ) (threatSpell : Option SpellInfo) : Bool :=
  hatedUnit ≠ w.hatingUnit ∧ ¬ w.isGameMaster hatedUnit ∧
    (w.isAlive hatedUnit ∧ w.isAlive w.hatingUnit) ∧ w.inMapAndPhase hatedUnit ∧
    ¬ threatSpell.any SpellInfo.noThreat

variable [FloatArith]

/-- `Unit::ApplyTotalThreatModifier`. -/
def applyTotalThreatModifier (unit : ℕ) (threat : ℚ) (school : ℕ) : ℚ :=
  match w.threatModifier unit school with
  | none => threat
  | some modifier => if threat < 0 then threat else mul threat modifier

/-- `ThreatCalcHelper::calcThreat`. -/
def calcThreat (hatedUnit : ℕ) (threat : ℚ) (school : ℕ) (threatSpell : Option SpellInfo) : ℚ :=
  match threatSpell with
  | none => w.applyTotalThreatModifier hatedUnit threat school
  | some spell =>
    let threat := if spell.pctMod ≠ 1 then mul threat spell.pctMod else threat
    if spell.energizes then threat
    else w.applyTotalThreatModifier hatedUnit (w.applySpellMod hatedUnit spell.id threat) school

/-- The part of `updateOnlineStatus` that looks whether the target is online. -/
def isReached (target : ℕ) : Bool :=
  (¬ w.isGameMaster target ∧ ¬ w.isInFlight target ∧ w.inMapAndPhase target) ∧
    (w.isInAccessiblePlace target ∨ w.isWithinCombatRange target)

/-- The part of `updateOnlineStatus` that looks whether the target is accessible. -/
def isAccessible (target : ℕ) : Bool :=
  (¬ w.isGameMaster target ∧ ¬ w.isInFlight target ∧ w.inMapAndPhase target) ∧
    w.isInAccessiblePlace target

/-- The part of `doAddThreat` that redirects threat: the target and its threat. -/
def redirection (victim : ℕ) (threat : ℚ) : Option (ℕ × ℚ) :=
  if 0 < threat ∧ w.redirectThreatPercent victim ≠ 0 then
    (w.redirectThreatTarget victim).map fun redirectTarget =>
      (redirectTarget, calculatePct threat (w.redirectThreatPercent victim))
  else none

end World

structure HostileReference where
  unitGuid : ℕ
  threat : ℚ
  tempThreatModifier : ℚ
  isOnline : Bool
  isAccessible : Bool
  /-- The reference is linked to its target. -/
  isValid : Bool

structure ThreatManager where
  /-- The references at their addresses. -/
  ref : ℕ → HostileReference
  /-- The addresses that are in use, and the next one. -/
  live : Finset ℕ
  nextRef : ℕ
  threatContainer : List ℕ
  offlineContainer : List ℕ
  dirty : Bool
  currentVictim : Option ℕ

/-- A reference after its constructor. -/
def HostileReference.new (guid : ℕ) : HostileReference := ⟨guid, 0, 0, true, true, true⟩

namespace ThreatManager

/-- The manager after its constructor. -/
def initial : ThreatManager := ⟨fun _ => .new 0, ∅, 0, [], [], false, none⟩

variable [FloatArith] (w : World) (s : ThreatManager)

def threat (r : ℕ) : ℚ := (s.ref r).threat

/-- Write the reference at an address. -/
def setRef (r : ℕ) (f : HostileReference → HostileReference) : ThreatManager :=
  { s with ref := Function.update s.ref r (f (s.ref r)) }

/-- `ThreatContainer::getReferenceByTarget`. -/
def getReferenceByTarget (container : List ℕ) (victim : ℕ) : Option ℕ :=
  container.find? fun r => (s.ref r).unitGuid = victim

/-! ### Events of a reference -/

/-- `processThreatEvent` with `UEV_THREAT_REF_THREAT_CHANGE`. -/
def processThreatChange (r : ℕ) (value : ℚ) : ThreatManager :=
  if (s.currentVictim = some r ∧ value < 0) ∨ (s.currentVictim ≠ some r ∧ 0 < value) then
    { s with dirty := true }
  else s

/-- The current victim, when it is this reference, is given up, and the list is marked. -/
def dropVictim (r : ℕ) : ThreatManager :=
  if s.currentVictim = some r then { s with currentVictim := none, dirty := true } else s

/-- `processThreatEvent` with `UEV_THREAT_REF_ONLINE_STATUS`. -/
def processOnlineStatus (r : ℕ) : ThreatManager :=
  if (s.ref r).isOnline then
    let s := if s.currentVictim.any fun v => s.threat r > times110 (s.threat v) then
      { s with dirty := true } else s
    { s with
      threatContainer := s.threatContainer ++ [r]
      offlineContainer := s.offlineContainer.filter (· ≠ r) }
  else
    let s := s.dropVictim r
    { s with
      threatContainer := s.threatContainer.filter (· ≠ r)
      offlineContainer := s.offlineContainer ++ [r] }

/-- `processThreatEvent` with `UEV_THREAT_REF_REMOVE_FROM_LIST`. -/
def processRemoveFromList (r : ℕ) : ThreatManager :=
  let s := s.dropVictim r
  if (s.ref r).isOnline then
    { s with threatContainer := s.threatContainer.filter (· ≠ r) }
  else { s with offlineContainer := s.offlineContainer.filter (· ≠ r) }

/-- `HostileReference::setOnlineOfflineState`. -/
def setOnlineOfflineState (r : ℕ) (isOnline : Bool) : ThreatManager :=
  if (s.ref r).isOnline ≠ isOnline then
    (s.setRef r fun ref =>
      { ref with isOnline := isOnline, isAccessible := isOnline && ref.isAccessible }).processOnlineStatus r
  else s

/-- `HostileReference::updateOnlineStatus`. -/
def updateOnlineStatus (r : ℕ) : ThreatManager :=
  let s := s.setRef r fun ref => { ref with isValid := ref.isValid || w.isFound ref.unitGuid }
  let ref := s.ref r
  let s := s.setRef r fun ref =>
    { ref with isAccessible := ref.isValid && w.isAccessible ref.unitGuid }
  s.setOnlineOfflineState r (ref.isValid && w.isReached ref.unitGuid)

/-- `HostileReference::addThreat` up to the threat of an owner. -/
def changeThreat (r : ℕ) (modThreat : ℚ) : ThreatManager :=
  let s := s.setRef r fun ref => { ref with threat := add ref.threat modThreat }
  let s := if (s.ref r).isOnline then s else s.updateOnlineStatus w r
  if modThreat ≠ 0 then s.processThreatChange r modThreat else s

/-! ### Threat -/

/-- The reference to a unit: one that is there, online or offline, or a new one at the end of the
list. -/
def findOrCreate (victim : ℕ) : ThreatManager × ℕ × Bool :=
  match s.getReferenceByTarget s.threatContainer victim with
  | some r => (s, r, false)
  | none =>
    match s.getReferenceByTarget s.offlineContainer victim with
    | some r => (s, r, false)
    | none =>
      let r := s.nextRef
      ({ s with
        ref := Function.update s.ref r (.new victim)
        live := insert r s.live
        nextRef := r + 1
        threatContainer := s.threatContainer ++ [r] }, r, true)

/-- `ThreatManager::_addThreat`, where `owner` is the rest of `HostileReference::addThreat`. -/
def addThreatWith (owner : ThreatManager → ℕ → ℚ → ThreatManager) (victim : ℕ) (threat : ℚ) :
    ThreatManager :=
  let (s, r, isNew) := s.findOrCreate victim
  let s := owner (s.changeThreat w r threat) r threat
  -- a game master is always offline
  if isNew && w.isGameMaster victim then s.setOnlineOfflineState r false else s

/-- The rest of `HostileReference::addThreat`: the owner of the target, who is the first unit of the
list, gets a reference, too. For the call of `addThreat` with 0 see `addThreat_zero`. -/
def ownerThreat : List ℕ → ThreatManager → ℕ → ℚ → ThreatManager
  | [], s, _, _ => s
  | victimOwner :: owners, s, r, modThreat =>
    if (s.ref r).isValid ∧ 0 ≤ modThreat ∧ w.isAlive victimOwner ∧
        w.isValidProcess victimOwner none then
      s.addThreatWith w (ownerThreat owners) victimOwner 0
    else s

/-- `HostileReference::addThreat`. -/
def refAddThreat (r : ℕ) (modThreat : ℚ) : ThreatManager :=
  ownerThreat w (w.charmersAndOwners (s.ref r).unitGuid) (s.changeThreat w r modThreat) r modThreat

/-- `ThreatManager::_addThreat`. -/
def addThreatTo (victim : ℕ) (threat : ℚ) : ThreatManager :=
  s.addThreatWith w (ownerThreat w (w.charmersAndOwners victim)) victim threat

/-- `ThreatManager::doAddThreat`. -/
def doAddThreat (victim : ℕ) (threat : ℚ) : ThreatManager :=
  match w.redirection victim threat with
  | some (redirectTarget, redirectThreat) =>
    (s.addThreatTo w redirectTarget redirectThreat).addThreatTo w victim (sub threat redirectThreat)
  | none => s.addThreatTo w victim threat

/-- `ThreatManager::addThreat`. -/
def addThreat (victim : ℕ) (threat : ℚ) (school : ℕ) (threatSpell : Option SpellInfo) :
    ThreatManager :=
  if w.isValidProcess victim threatSpell then
    s.doAddThreat w victim (w.calcThreat victim threat school threatSpell)
  else s

/-- The call for an owner comes to `_addThreat` with 0. -/
theorem addThreat_zero (victim school : ℕ) : s.addThreat w victim 0 school none =
    if w.isValidProcess victim none then s.addThreatTo w victim 0 else s := by
  have hzero : w.calcThreat victim 0 school none = 0 := by
    unfold World.calcThreat World.applyTotalThreatModifier
    dsimp only
    split
    · rfl
    · exact FloatArith.zero_mul _
  have hno : w.redirection victim 0 = none := if_neg fun h => lt_irrefl _ h.1
  unfold addThreat doAddThreat
  rw [hzero, hno]

/-- `ThreatManager::modifyThreatPercent`. -/
def modifyThreatPercent (victim : ℕ) (percent : ℤ) : ThreatManager :=
  match s.getReferenceByTarget s.threatContainer victim with
  | some r =>
    let tmpThreat := add (s.threat r) (calculatePct (s.threat r) percent)
    s.refAddThreat w r (sub tmpThreat (s.threat r))
  | none => s

/-- `HostileReference::addTempThreat`. -/
def addTempThreat (r : ℕ) (threat : ℚ) : ThreatManager :=
  let s := s.setRef r fun ref => { ref with tempThreatModifier := threat }
  if threat ≠ 0 then s.refAddThreat w r threat else s

/-- `HostileReference::resetTempThreat`. -/
def resetTempThreat (r : ℕ) : ThreatManager :=
  if (s.ref r).tempThreatModifier ≠ 0 then
    (s.refAddThreat w r (-(s.ref r).tempThreatModifier)).setRef r fun ref =>
      { ref with tempThreatModifier := 0 }
  else s

/-- `ThreatManager::tauntApply`. -/
def tauntApply (taunter : ℕ) : ThreatManager :=
  match s.currentVictim, s.getReferenceByTarget s.threatContainer taunter with
  | some v, some r =>
    if s.threat r < s.threat v ∧ (s.ref r).tempThreatModifier = 0 then
      s.addTempThreat w r (sub (s.threat v) (s.threat r))
    else s
  | _, _ => s

/-- `ThreatManager::tauntFadeOut`. -/
def tauntFadeOut (taunter : ℕ) : ThreatManager :=
  match s.getReferenceByTarget s.threatContainer taunter with
  | some r => s.resetTempThreat w r
  | none => s

/-! ### The end of a reference -/

/-- `Reference::invalidate`: the target is destroyed. -/
def invalidate (r : ℕ) : ThreatManager :=
  (s.setOnlineOfflineState r false).setRef r fun ref => { ref with isValid := false }

/-- `HostileReference::removeReference`, and the reference is deleted. -/
def removeReference (r : ℕ) : ThreatManager :=
  let s := (s.invalidate r).processRemoveFromList r
  { s with live := s.live.erase r }

/-! ### The victim -/

/-- `ThreatContainer::update`. -/
def update : ThreatManager :=
  { s with
    threatContainer := if s.dirty ∧ s.threatContainer.length > 1 then
      s.threatContainer.mergeSort fun a b => s.threat b ≤ s.threat a else s.threatContainer
    dirty := false }

/-- What `selectNextVictim` asks about the targets. -/
def targets : Targets ℕ where
  times110 := times110
  times130 := times130
  threat := s.threat
  canAttack := fun r => w.canAttack (s.ref r).unitGuid
  secondChoice := fun r => w.isSecondChoice (s.ref r).unitGuid
  inMelee := fun r => w.isWithinMeleeRange (s.ref r).unitGuid

/-- `ThreatManager::getHostilTarget`. -/
def getHostilTarget : ThreatManager :=
  let s := s.update
  { s with currentVictim := ((s.targets w).selectNextVictim (2 * s.threatContainer.length + 1)
      s.threatContainer s.currentVictim).getD none }

end ThreatManager

/-- The calls. What is called for a reference by the list of its target is called for a linked
reference. -/
inductive Op
  | addThreat (victim : ℕ) (threat : ℚ) (school : ℕ) (threatSpell : Option SpellInfo)
  | doAddThreat (victim : ℕ) (threat : ℚ)
  | modifyThreatPercent (victim : ℕ) (percent : ℤ)
  | tauntApply (taunter : ℕ)
  | tauntFadeOut (taunter : ℕ)
  | setOnlineOfflineState (r : ℕ) (isOnline : Bool)
  | updateOnlineStatus (r : ℕ)
  | invalidate (r : ℕ)
  | removeReference (r : ℕ)
  | getHostilTarget

/-- The references that the list of the target holds. -/
def ThreatManager.Linked (s : ThreatManager) (r : ℕ) : Prop := r ∈ s.live ∧ (s.ref r).isValid

instance (s : ThreatManager) (r : ℕ) : Decidable (s.Linked r) :=
  inferInstanceAs (Decidable (_ ∧ _))

/-- A call, with the world that it meets. -/
def exec [FloatArith] (s : ThreatManager) (i : World × Op) : ThreatManager :=
  let w := i.1
  match i.2 with
  | .addThreat victim threat school threatSpell => s.addThreat w victim threat school threatSpell
  | .doAddThreat victim threat => s.doAddThreat w victim threat
  | .modifyThreatPercent victim percent => s.modifyThreatPercent w victim percent
  | .tauntApply taunter => s.tauntApply w taunter
  | .tauntFadeOut taunter => s.tauntFadeOut w taunter
  | .setOnlineOfflineState r isOnline =>
    if s.Linked r then s.setOnlineOfflineState r isOnline else s
  | .updateOnlineStatus r => if s.Linked r then s.updateOnlineStatus w r else s
  | .invalidate r => if s.Linked r then s.invalidate r else s
  | .removeReference r => if s.Linked r then s.removeReference r else s
  | .getHostilTarget => s.getHostilTarget w

end FaceCore.Combat
