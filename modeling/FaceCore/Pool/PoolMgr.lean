import FaceCore.Lib.Forest
import FaceCore.Lib.Picking
import Mathlib.Data.Rat.Defs
import Mathlib.Algebra.Order.Ring.Rat

/-!
# The pool manager

`PoolMgr` spawns some of the objects of a pool: creatures, gameobjects, quests, and other pools. One
map, `mSpawnedPools`, counts the active objects of a pool and says which pools are active.

* `ActivePoolData`: what is active;
* `rollOne`, `spawnObject`, `despawnObject`: one group of objects of a pool;
* `spawnQuests`: the group of quests, which has a function of its own and is saved;
* `spawnPool`, `despawnPool`, `updatePool`.

The random numbers are a sequence that is drawn from. What a call of the function for quests reads
is recorded (`QuestSpawn`). Putting objects into the world and out of it is left out, and so are the
relations of quests to those who give them.
-/

namespace FaceCore.Pools

/-- The types `T` of the templates. -/
inductive Kind
  | creature | gameobject | pool | quest
deriving DecidableEq

structure PoolObject where
  guid : ℕ
  chance : ℚ

/-- `PoolGroup<T>`. -/
structure PoolGroup where
  explicitlyChanced : List PoolObject
  equalChanced : List PoolObject

namespace PoolGroup

def isEmpty (g : PoolGroup) : Bool := g.explicitlyChanced.isEmpty && g.equalChanced.isEmpty

/-- The guids of a group, in the order in which `DespawnObject` visits them. -/
def guids (g : PoolGroup) : List ℕ := (g.equalChanced ++ g.explicitlyChanced).map PoolObject.guid

end PoolGroup

/-- What `LoadFromDB` reads; `searchMap` are the maps from an object to its pool. Every object has
one pool, and no pool is under itself: `LoadFromDB` removes circular references. -/
structure Config where
  maxLimit : ℕ → UInt32
  group : Kind → ℕ → PoolGroup
  searchMap : Kind → ℕ → Option ℕ
  mem_guids : ∀ {k guid p}, guid ∈ (group k p).guids ↔ searchMap k guid = some p
  level : ℕ → ℕ
  level_lt : ∀ {a b}, searchMap .pool a = some b → level a < level b

/-- The pools under their mothers. -/
def Config.forest (cfg : Config) : Forest ℕ := ⟨cfg.searchMap .pool, cfg.level, cfg.level_lt⟩

/-- `PoolMgr::IsPartOfAPool<Pool>`. -/
def Config.isPartOfAPool (cfg : Config) (p : ℕ) : ℕ := (cfg.searchMap .pool p).getD 0

/-! ### What is active -/

structure ActivePoolData where
  spawnedCreatures : Finset ℕ
  spawnedGameobjects : Finset ℕ
  activeQuests : Finset ℕ
  spawnedPools : ℕ → Option ℕ

namespace ActivePoolData

/-- `GetActiveObjectCount`. -/
def getActiveObjectCount (d : ActivePoolData) (p : ℕ) : ℕ := (d.spawnedPools p).getD 0

def isActiveObject (d : ActivePoolData) : Kind → ℕ → Bool
  | .creature, guid => guid ∈ d.spawnedCreatures
  | .gameobject, guid => guid ∈ d.spawnedGameobjects
  | .quest, guid => guid ∈ d.activeQuests
  | .pool, guid => (d.spawnedPools guid).isSome

/-- Write an entry of `mSpawnedPools`. -/
def setCount (d : ActivePoolData) (p : ℕ) (n : Option ℕ) : ActivePoolData :=
  { d with spawnedPools := fun q => if q = p then n else d.spawnedPools q }

/-- The part of `ActivateObject<T>` before the counter. -/
def mark (d : ActivePoolData) : Kind → ℕ → ActivePoolData
  | .creature, guid => { d with spawnedCreatures := insert guid d.spawnedCreatures }
  | .gameobject, guid => { d with spawnedGameobjects := insert guid d.spawnedGameobjects }
  | .quest, guid => { d with activeQuests := insert guid d.activeQuests }
  | .pool, guid => d.setCount guid (some 0)

/-- The part of `RemoveObject<T>` before the counter. -/
def unmark (d : ActivePoolData) : Kind → ℕ → ActivePoolData
  | .creature, guid => { d with spawnedCreatures := d.spawnedCreatures.erase guid }
  | .gameobject, guid => { d with spawnedGameobjects := d.spawnedGameobjects.erase guid }
  | .quest, guid => { d with activeQuests := d.activeQuests.erase guid }
  | .pool, guid => d.setCount guid none

/-- `ActivateObject<T>`. -/
def activateObject (d : ActivePoolData) (k : Kind) (guid p : ℕ) : ActivePoolData :=
  let d := d.mark k guid
  d.setCount p (some (d.getActiveObjectCount p + 1))

/-- `RemoveObject<T>`. -/
def removeObject (d : ActivePoolData) (k : Kind) (guid p : ℕ) : ActivePoolData :=
  let d := d.unmark k guid
  d.setCount p (some (d.getActiveObjectCount p - 1))

end ActivePoolData

/-- The random numbers of one draw: a number from 0 to 100, and an index. -/
structure Draw where
  chance : ℚ
  index : ℕ

/-- What a call of `SpawnObject` for quests reads: the pool, whether an object triggered it, the rows
of the pool in `pool_quest_save`, the count of the pool, and the active quests. -/
structure QuestSpawn where
  pool : ℕ
  triggered : Bool
  saved : List ℕ
  count : ℕ
  activeQuests : Finset ℕ

/-- The state of `PoolMgr`, with the rows of `pool_quest_save`, the number of draws, and a record of
the calls for quests. -/
structure PoolMgr where
  spawnedData : ActivePoolData
  poolQuestSave : ℕ → List ℕ
  draws : ℕ
  questSpawns : List QuestSpawn

namespace PoolMgr

/-- The manager before anything is spawned. -/
def initial (poolQuestSave : ℕ → List ℕ) : PoolMgr :=
  ⟨⟨∅, ∅, ∅, fun _ => none⟩, poolQuestSave, 0, []⟩

def activate (s : PoolMgr) (k : Kind) (guid p : ℕ) : PoolMgr :=
  { s with spawnedData := s.spawnedData.activateObject k guid p }

def remove (s : PoolMgr) (k : Kind) (guid p : ℕ) : PoolMgr :=
  { s with spawnedData := s.spawnedData.removeObject k guid p }

/-- The record of a call of the function for quests. -/
def questSpawn (s : PoolMgr) (p triggerFrom : ℕ) : QuestSpawn :=
  ⟨p, triggerFrom ≠ 0, s.poolQuestSave p, s.spawnedData.getActiveObjectCount p,
    s.spawnedData.activeQuests⟩

def record (s : PoolMgr) (p triggerFrom : ℕ) : PoolMgr :=
  { s with questSpawns := s.questSpawns ++ [s.questSpawn p triggerFrom] }

end PoolMgr

/-! ### A group of objects -/

/-- The loop of `RollOne` over the objects with a chance of their own. -/
def rollChanced (active : ℕ → Bool) (triggerFrom : ℕ) : ℚ → List PoolObject → Option PoolObject
  | _, [] => none
  | roll, obj :: objs =>
    let roll := roll - obj.chance
    if roll < 0 ∧ (obj.guid = triggerFrom ∨ ¬ active obj.guid) then some obj
    else rollChanced active triggerFrom roll objs

/-- `PoolGroup<T>::RollOne`. -/
def PoolGroup.rollOne (g : PoolGroup) (active : ℕ → Bool) (triggerFrom : ℕ) (draw : Draw) :
    Option PoolObject :=
  match rollChanced active triggerFrom draw.chance g.explicitlyChanced with
  | some obj => some obj
  | none =>
    match g.equalChanced[draw.index % g.equalChanced.length]? with
    | some obj => if obj.guid = triggerFrom ∨ ¬ active obj.guid then some obj else none
    | none => none

/-- The part of `PoolGroup<T>::DespawnObject` for one object; `guid` 0 stands for all, and
`despawnChild` is `DespawnPool`. -/
def despawnOne (despawnChild : PoolMgr → ℕ → PoolMgr) (k : Kind) (p guid : ℕ) (s : PoolMgr)
    (obj : ℕ) : PoolMgr :=
  if s.spawnedData.isActiveObject k obj ∧ (guid = 0 ∨ obj = guid) then
    (if k = .pool then despawnChild s obj else s).remove k obj p
  else s

/-- `PoolGroup<T>::DespawnObject`. -/
def despawnObject (cfg : Config) (despawnChild : PoolMgr → ℕ → PoolMgr) (k : Kind) (p guid : ℕ)
    (s : PoolMgr) : PoolMgr :=
  (cfg.group k p).guids.foldl (despawnOne despawnChild k p guid) s

/-- `PoolMgr::DespawnPool`, with the depth of the recursion. -/
def despawnPoolDepth (cfg : Config) : ℕ → PoolMgr → ℕ → PoolMgr
  | 0, s, _ => s
  | depth + 1, s, p =>
    [Kind.creature, .gameobject, .pool, .quest].foldl
      (fun s k => despawnObject cfg (despawnPoolDepth cfg depth) k p 0 s) s

/-- `PoolMgr::DespawnPool`: the recursion goes down to lower levels. -/
def despawnPool (cfg : Config) (s : PoolMgr) (p : ℕ) : PoolMgr :=
  despawnPoolDepth cfg (cfg.level p + 1) s p

/-- The loop of `PoolGroup<T>::SpawnObject`, `count` times; `spawnChild` is `SpawnPool`. -/
def spawnLoop (cfg : Config) (rnd : ℕ → Draw) (spawnChild : PoolMgr → ℕ → PoolMgr) (k : Kind)
    (p : ℕ) : ℕ → ℕ → ℕ → PoolMgr → PoolMgr
  | 0, _, _, s => s
  | count + 1, triggerFrom, lastDespawned, s =>
    let rolled := (cfg.group k p).rollOne (s.spawnedData.isActiveObject k) triggerFrom (rnd s.draws)
    let s := { s with draws := s.draws + 1 }
    match rolled with
    | none => spawnLoop cfg rnd spawnChild k p count triggerFrom lastDespawned s
    | some obj =>
      if obj.guid = lastDespawned then
        spawnLoop cfg rnd spawnChild k p count triggerFrom lastDespawned s
      else if obj.guid = triggerFrom then spawnLoop cfg rnd spawnChild k p count 0 lastDespawned s
      else
        let s := s.activate k obj.guid p
        let s := if k = .pool then spawnChild s obj.guid else s
        if triggerFrom ≠ 0 then
          -- one spawn, one despawn
          let s := despawnObject cfg (despawnPool cfg) k p triggerFrom s
          spawnLoop cfg rnd spawnChild k p count 0 triggerFrom s
        else spawnLoop cfg rnd spawnChild k p count 0 lastDespawned s

/-- `int count = limit - GetActiveObjectCount(poolId)`, and one more for a triggering object. -/
def spawnCount (limit : UInt32) (active triggerFrom : ℕ) : ℕ :=
  (Int.bmod ((limit.toNat : ℤ) - active) (2 ^ 32) + if triggerFrom ≠ 0 then 1 else 0).toNat

/-! ### Quests -/

/-- `SelectRandomContainerElement` of a set. -/
def selectRandom (set : Finset ℕ) (draw : Draw) : ℕ := Picking.pick set 0 draw.index

/-- The quests of the rows, as long as the limit does not run out. -/
def loadQuests (p : ℕ) : List ℕ → UInt32 → PoolMgr → PoolMgr
  | [], _, s => s
  | questId :: rows, limit, s =>
    let s := s.activate .quest questId p
    let limit := limit - 1
    if limit = 0 then s else loadQuests p rows limit s

/-- Quests that were active are taken again until there are enough. -/
def recycleQuests (rnd : ℕ → Draw) (limit : UInt32) :
    ℕ → Finset ℕ → Finset ℕ → PoolMgr → Finset ℕ × PoolMgr
  | 0, _, newQuests, s => (newQuests, s)
  | fuel + 1, currentQuests, newQuests, s =>
    if newQuests.card < limit.toNat ∧ currentQuests.Nonempty then
      let questId := selectRandom currentQuests (rnd s.draws)
      recycleQuests rnd limit fuel (currentQuests.erase questId) (insert questId newQuests)
        { s with draws := s.draws + 1 }
    else (newQuests, s)

/-- Random quests are activated, as long as the limit does not run out. -/
def activateQuests (rnd : ℕ → Draw) (p : ℕ) : ℕ → Finset ℕ → UInt32 → PoolMgr → PoolMgr
  | 0, _, _, s => s
  | fuel + 1, newQuests, limit, s =>
    let questId := selectRandom newQuests (rnd s.draws)
    let s := { s with draws := s.draws + 1 }.activate .quest questId p
    let newQuests := newQuests.erase questId
    let limit := limit - 1
    if limit ≠ 0 ∧ newQuests.Nonempty then activateQuests rnd p fuel newQuests limit s else s

/-- `PoolMgr::SaveQuestsToDB`. -/
def saveQuestsToDB (cfg : Config) (s : PoolMgr) : PoolMgr :=
  { s with poolQuestSave := fun p =>
      if (cfg.group .quest p).isEmpty then s.poolQuestSave p
      else (s.spawnedData.activeQuests.filter fun q => cfg.searchMap .quest q = some p).sort }

/-- The part of `PoolGroup<Quest>::SpawnObject` that clears the pool, with the quests that may be
activated then. -/
def selectQuests (cfg : Config) (rnd : ℕ → Draw) (p : ℕ) (limit : UInt32) (s : PoolMgr) :
    Finset ℕ × PoolMgr :=
  let currentQuests := s.spawnedData.activeQuests
  let newQuests := ((cfg.group .quest p).equalChanced.map PoolObject.guid).toFinset \ currentQuests
  let s := despawnObject cfg (despawnPool cfg) .quest p 0 s
  if limit.toNat > newQuests.card then
    recycleQuests rnd limit currentQuests.card currentQuests newQuests s
  else (newQuests, s)

/-- `PoolGroup<Quest>::SpawnObject`. -/
def spawnQuests (cfg : Config) (rnd : ℕ → Draw) (p : ℕ) (limit : UInt32) (triggerFrom : ℕ)
    (s : PoolMgr) : PoolMgr :=
  let s := s.record p triggerFrom
  if triggerFrom = 0 ∧ s.poolQuestSave p ≠ [] then loadQuests p (s.poolQuestSave p) limit s
  else
    let selected := selectQuests cfg rnd p limit s
    if selected.1 = ∅ then selected.2
    else
      let s := activateQuests rnd p selected.1.card selected.1 limit selected.2
      if triggerFrom = 0 then saveQuestsToDB cfg s else s

/-! ### Pools -/

/-- `PoolGroup<T>::SpawnObject`. -/
def spawnObject (cfg : Config) (rnd : ℕ → Draw) (spawnChild : PoolMgr → ℕ → PoolMgr) (k : Kind)
    (p triggerFrom : ℕ) (s : PoolMgr) : PoolMgr :=
  if k = .quest then spawnQuests cfg rnd p (cfg.maxLimit p) triggerFrom s
  else spawnLoop cfg rnd spawnChild k p
    (spawnCount (cfg.maxLimit p) (s.spawnedData.getActiveObjectCount p) triggerFrom) triggerFrom 0 s

/-- `PoolMgr::SpawnPool<T>`. -/
def spawnKind (cfg : Config) (rnd : ℕ → Draw) (spawnChild : PoolMgr → ℕ → PoolMgr) (k : Kind)
    (p guid : ℕ) (s : PoolMgr) : PoolMgr :=
  if (cfg.group k p).isEmpty then s else spawnObject cfg rnd spawnChild k p guid s

/-- `PoolMgr::SpawnPool`, with the depth of the recursion. -/
def spawnPoolDepth (cfg : Config) (rnd : ℕ → Draw) : ℕ → PoolMgr → ℕ → PoolMgr
  | 0, s, _ => s
  | depth + 1, s, p =>
    [Kind.pool, .gameobject, .creature, .quest].foldl
      (fun s k => spawnKind cfg rnd (spawnPoolDepth cfg rnd depth) k p 0 s) s

/-- `PoolMgr::SpawnPool`: the recursion goes down to lower levels. -/
def spawnPool (cfg : Config) (rnd : ℕ → Draw) (s : PoolMgr) (p : ℕ) : PoolMgr :=
  spawnPoolDepth cfg rnd (cfg.level p + 1) s p

/-- `PoolMgr::UpdatePool<T>`. -/
def updatePool (cfg : Config) (rnd : ℕ → Draw) (k : Kind) (p guid : ℕ) (s : PoolMgr) : PoolMgr :=
  if cfg.isPartOfAPool p ≠ 0 then
    spawnKind cfg rnd (spawnPool cfg rnd) .pool (cfg.isPartOfAPool p) p s
  else spawnKind cfg rnd (spawnPool cfg rnd) k p guid s

/-- The calls of the public functions. -/
inductive Op
  | spawnPool (p : ℕ)
  | updatePool (k : Kind) (p guid : ℕ)
  | despawnPool (p : ℕ)

/-- The manager after a call, with the record of this call. -/
def exec (cfg : Config) (rnd : ℕ → Draw) (s : PoolMgr) (op : Op) : PoolMgr :=
  let s := { s with questSpawns := [] }
  match op with
  | .spawnPool p => spawnPool cfg rnd s p
  | .updatePool k p guid => updatePool cfg rnd k p guid s
  | .despawnPool p => despawnPool cfg s p

end FaceCore.Pools
