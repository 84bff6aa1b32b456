import FaceCore.Lib.Agenda
import FaceCore.Lib.SortedMap
import Mathlib.Data.UInt

/-!
# The global resets of instances

The part of `InstanceSaveManager` that resets all the instances of a map and a difficulty at once:
the times of the next resets, and the queue of the warnings and resets that are pending.

* `loadResetTimes`: the times come from the tables `instance_reset` and `instance`;
* `round`: one round of the loop of `Update`;
* `resetOrWarnAll`: a reset computes the next time.

A pair of a map and a difficulty is the number that `MAKE_PAIR32` makes of them, also in an event.
The rounding of the rated period, which the program computes with floats, is a parameter. The
instances themselves, the writes to the database and the packets are left out.
-/

namespace FaceCore.InstanceResets

def MINUTE : ℤ := 60
def HOUR : ℤ := 3600
def DAY : ℤ := 86400

/-- Conversion to `uint32`. -/
def uint32 (x : ℤ) : ℤ := x % 2 ^ 32

/-- `PAIR32_LOPART`: the map of a pair. -/
def mapOf (pair : ℕ) : ℕ := pair % 2 ^ 16

/-- `MapDifficulty`. -/
structure MapDifficulty where
  resetTime : UInt32

/-- The data stores and the configuration. -/
structure Config where
  mapDifficultyMap : SortedMap ℕ MapDifficulty
  instanceable : ℕ → Bool
  instanceResetTimeHour : Fin 24
  /-- `((resetTime * rate) / DAY) * DAY` of floats, without its fraction. -/
  ratedPeriod : UInt32 → ℤ

/-- A row of `instance`. -/
structure InstanceRow where
  id : ℕ
  pair : ℕ
  resettime : UInt32

/-- A row of the query for the last respawn times of the creatures of the instances. -/
structure RespawnRow where
  respawnTime : UInt32
  instanceId : ℕ

/-- What `LoadResetTimes` reads from the database; `maxCreatureRespawns` are the rows of the query
`CHAR_SEL_MAX_CREATURE_RESPAWNS`. -/
structure Database where
  instances : List InstanceRow
  maxCreatureRespawns : List RespawnRow
  instanceReset : ℕ → Option UInt32

/-- `InstResetEvent`: 0 resets one instance, 1 to 3 warn of a global reset, 4 is the reset. -/
structure InstResetEvent where
  type : ℕ
  pair : ℕ
  instanceId : UInt16

/-- The fields of `InstanceSaveManager` for reset times; the time of a pair that is not in the map
is 0. -/
structure Manager where
  resetTimeByMapDifficulty : ℕ → ℤ
  resetTimeQueue : Agenda InstResetEvent

/-- `ResetTimeDelay[type - 1]`. -/
def resetTimeDelay : ℕ → ℤ
  | 1 => 3600
  | 2 => 900
  | 3 => 300
  | _ => 60

namespace Manager

/-- The manager when the world starts. -/
def initial : Manager := ⟨fun _ => 0, Agenda.empty⟩

/-- `SetResetTimeFor`. -/
def setResetTimeFor (m : Manager) (pair : ℕ) (t : ℤ) : Manager :=
  { m with resetTimeByMapDifficulty := fun p => if p = pair then t else
      m.resetTimeByMapDifficulty p }

/-- `ScheduleReset` of an event that is added. -/
def scheduleReset (m : Manager) (t : ℤ) (event : InstResetEvent) : Manager :=
  { m with resetTimeQueue := m.resetTimeQueue.insert t event }

end Manager

namespace Config

/-- `diff`: the configured hour in seconds. -/
def diff (c : Config) : ℤ := (c.instanceResetTimeHour : ℕ) * HOUR

/-- The period between two resets; it must be at least one day. -/
def period (c : Config) (mapDiff : MapDifficulty) : ℤ :=
  let period := uint32 (c.ratedPeriod mapDiff.resetTime)
  if period < DAY then DAY else period

/-! ### Loading -/

/-- `today`. -/
def today (now : ℕ) : ℤ := now / DAY * DAY

/-- The instances with a reset time of their own; it is 0 for raid and heroic instances. -/
def ownInstances (db : Database) : List InstanceRow := db.instances.filter (·.resettime ≠ 0)

/-- The reset times of the instances that have one of their own, in `instResetTime` with the pairs of
the instances, and in the table `instance`. -/
structure OwnTimes where
  instResetTime : SortedMap ℕ (ℕ × UInt32)
  instances : List InstanceRow

/-- A row of `instance` is read. -/
def readInstance (m : SortedMap ℕ (ℕ × UInt32)) (row : InstanceRow) : SortedMap ℕ (ℕ × UInt32) :=
  if row.resettime ≠ 0 then m.insert row.id (row.pair, row.resettime) else m

/-- `UPDATE instance SET resettime = ... WHERE id = ...`. -/
def setResettime (rows : List InstanceRow) (id : ℕ) (t : UInt32) : List InstanceRow :=
  rows.map fun row => if row.id = id then { row with resettime := t } else row

/-- A row of the last respawn times. -/
def updateFromRespawn (s : OwnTimes) (row : RespawnRow) : OwnTimes :=
  let resettime := row.respawnTime + 2 * 3600
  match s.instResetTime.find row.instanceId with
  | none => s
  | some (pair, t) =>
    if t ≠ resettime then
      ⟨s.instResetTime.insert row.instanceId (pair, resettime),
        setResettime s.instances row.instanceId resettime⟩
    else s

/-- The loop over the last respawn times, which reads `row`. At the end of a turn it asks `result` for
a next row, of which the rows here are left, and not the result that it reads: that one stays at its
first row. -/
def updateFromRespawns (s : OwnTimes) (row : RespawnRow) : List InstanceRow → OwnTimes
  | [] => updateFromRespawn s row
  | _ :: result => updateFromRespawns (updateFromRespawn s row) row result

/-- The own reset times after both loops; the first one has read `result` to its end. -/
def ownTimes (db : Database) : OwnTimes :=
  let s : OwnTimes := ⟨db.instances.foldl readInstance .empty, db.instances⟩
  match db.maxCreatureRespawns with
  | [] => s
  | row :: _ => updateFromRespawns s row []

/-- The part of `LoadResetTimes` that schedules the reset of one instance. An event has an id of 16
bits. -/
def loadInstance (now : ℕ) (m : Manager) (e : ℕ × ℕ × UInt32) : Manager :=
  let t : ℤ := e.2.2.toNat
  if t > now then m.scheduleReset t ⟨0, e.2.1, .ofNat e.1⟩ else m

/-- The time of the next reset in `instance_reset`, at the hour that is configured now. -/
def storedResetTime (c : Config) (db : Database) (pair : ℕ) : ℤ :=
  match c.mapDifficultyMap.find pair, db.instanceReset pair with
  | some _, some oldresettime => (oldresettime.toNat : ℤ) / DAY * DAY + c.diff
  | _, _ => 0

/-- The reset time of a pair, from the stored one. -/
def nextResetTime (c : Config) (now : ℕ) (mapDiff : MapDifficulty) (stored : ℤ) : ℤ :=
  let t := if stored = 0 then today now + c.period mapDiff + c.diff else stored
  if t < now then
    let t := t / DAY * DAY
    t + ((today now - t) / c.period mapDiff + 1) * c.period mapDiff + c.diff
  else t

/-- The first warning that is not late, or the reset. -/
def firstType (now : ℕ) (t : ℤ) : ℕ :=
  if t - resetTimeDelay 1 > now then 1
  else if t - resetTimeDelay 2 > now then 2
  else if t - resetTimeDelay 3 > now then 3
  else 4

/-- The part of `LoadResetTimes` for one pair. -/
def loadPair (c : Config) (db : Database) (now : ℕ) (m : Manager) (entry : ℕ × MapDifficulty) :
    Manager :=
  let pair := entry.1
  if entry.2.resetTime = 0 then m
  else
    let t := c.nextResetTime now entry.2 (m.resetTimeByMapDifficulty pair)
    let type := firstType now t
    let own := (ownInstances db).filter (·.pair = pair)
    (0 :: own.map InstanceRow.id).foldl
      (fun m id => m.scheduleReset (t - resetTimeDelay type) ⟨type, pair, .ofNat id⟩)
      (m.setResetTimeFor pair t)

/-- `InstanceSaveManager::LoadResetTimes` at the time `now`. -/
def loadResetTimes (c : Config) (db : Database) (now : ℕ) : Manager :=
  let m := (ownTimes db).instResetTime.entries.foldl (loadInstance now) Manager.initial
  let m := { m with resetTimeByMapDifficulty := c.storedResetTime db }
  c.mapDifficultyMap.entries.foldl (c.loadPair db now) m

/-! ### Updates -/

/-- `InstanceSaveManager::_ResetOrWarnAll`. -/
def resetOrWarnAll (c : Config) (m : Manager) (pair : ℕ) (warn : Bool) (resetTime : ℤ) : Manager :=
  if ¬ c.instanceable (mapOf pair) then m
  else if warn then m
  else
    match c.mapDifficultyMap.find pair with
    | none => m
    | some mapDiff =>
      if mapDiff.resetTime = 0 then m
      else
        let nextReset := uint32 ((resetTime + MINUTE) / DAY * DAY + c.period mapDiff + c.diff)
        (m.setResetTimeFor pair nextReset).scheduleReset (uint32 (nextReset - 3600)) ⟨1, pair, 0⟩

/-- One round of the loop of `InstanceSaveManager::Update` at the time `now`; nothing happens any
more when the loop has ended. -/
def round (c : Config) (now : ℕ) (m : Manager) : Manager :=
  match m.resetTimeQueue.entries.head? with
  | none => m
  | some (t, event) =>
    if t ≥ now then m
    else if event.type = 0 then { m with resetTimeQueue := m.resetTimeQueue.tail }
    else
      let resetTime := m.resetTimeByMapDifficulty event.pair
      let m := c.resetOrWarnAll m event.pair (event.type ≠ 4) resetTime
      let m := if event.type ≠ 4 then
          let event := { event with type := event.type + 1 }
          { m with resetTimeQueue := m.resetTimeQueue.setHead event }.scheduleReset
            (resetTime - resetTimeDelay event.type) event
        else m
      { m with resetTimeQueue := m.resetTimeQueue.tail }

end Config

/-- Whether the loop of `Update` goes on. -/
def Manager.Due (m : Manager) (now : ℕ) : Prop :=
  ∃ e, m.resetTimeQueue.entries.head? = some e ∧ e.1 < now

end FaceCore.InstanceResets
