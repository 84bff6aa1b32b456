import FaceCore.Lib.Runs
import FaceCore.Lib.SortedMap
import Mathlib.Algebra.Order.Ring.Rat
import Mathlib.Data.Finset.Basic
import Mathlib.Order.Monotone.Defs

/-!
# World events

The states of `GameEventMgr`. A world event waits for its prerequisites (`INACTIVE`), collects quests
for its conditions (`CONDITIONS`), lasts for its length (`NEXTPHASE`) and ends (`FINISHED`). Its state
is written by `Update`, `CheckOneGameEventConditions`, `StartEvent` and `StopEvent`.

* `GameEventMgr`: the events, with a record of all changes of state;
* `checkOneGameEvent`, `checkOneGameEventConditions`, `startEvent`, `stopEvent`, `update`,
  `handleQuestComplete`;
* `Op`, `step`: what can happen to the events.

Every reading of the clock is a reading of its own. What a starting or stopping event does to the
world, what is saved, and the delay until the next check are left out.
-/

namespace FaceCore.WorldEvents

/-- `GameEventState`. -/
inductive GameEventState
  | normal
  | worldInactive
  | worldConditions
  | worldNextphase
  | worldFinished
  | internal
  deriving DecidableEq

/-- The event is a world event. -/
def GameEventState.isWorld (st : GameEventState) : Bool := st ≠ .normal && st ≠ .internal

/-- `GameEventFinishCondition`. -/
structure FinishCondition where
  reqNum : ℚ
  done : ℚ

/-- `GameEventData`. -/
structure GameEventData where
  start : ℤ
  end_ : ℤ
  nextstart : ℕ
  occurence : ℕ
  length : ℕ
  state : GameEventState
  conditions : SortedMap ℕ FinishCondition
  prerequisiteEvents : Finset ℕ

/-- `GameEventData::isValid`. -/
def GameEventData.isValid (d : GameEventData) : Bool := d.length > 0 || d.state ≠ .normal

/-- `length * MINUTE`, a number of 32 bits. -/
def GameEventData.lengthSeconds (d : GameEventData) : ℕ := d.length * 60 % 2 ^ 32

/-- `GameEventQuestToEventConditionNum`. -/
structure QuestToCondition where
  eventId : ℕ
  condition : ℕ
  num : ℚ

/-- A change of the state of an event: the events and the number of readings of the clock before it,
the reading with which the event last reached `NEXTPHASE`, and whether a command made it. -/
structure Change where
  event : ℕ
  before : GameEventState
  after : GameEventState
  events : ℕ → GameEventData
  reads : ℕ
  reachedAt : ℕ
  byCommand : Bool

/-- `GameEventMgr`. Beside its fields there are the number of readings of the clock, the reading with
which each event last reached `NEXTPHASE`, whether a command runs, and the changes so far. -/
structure GameEventMgr where
  gameEvent : ℕ → GameEventData
  activeEvents : Finset ℕ
  reads : ℕ
  reachedAt : ℕ → ℕ
  byCommand : Bool
  log : List Change

/-- The clock at its readings: it does not go back. -/
structure Clock where
  now : ℕ → ℕ
  mono : Monotone now

namespace GameEventMgr

/-- The state of an event. -/
def state (s : GameEventMgr) (id : ℕ) : GameEventState := (s.gameEvent id).state

/-- The clock is read. -/
def tick (s : GameEventMgr) : GameEventMgr := { s with reads := s.reads + 1 }

/-- Write fields of an event other than its state. -/
def setEvent (s : GameEventMgr) (id : ℕ) (d : GameEventData) : GameEventMgr :=
  { s with gameEvent := Function.update s.gameEvent id d }

/-- Write the state of an event. -/
def setState (s : GameEventMgr) (id : ℕ) (st : GameEventState) : GameEventMgr where
  gameEvent := Function.update s.gameEvent id { s.gameEvent id with state := st }
  activeEvents := s.activeEvents
  reads := s.reads
  reachedAt :=
    if st = .worldNextphase ∧ s.state id ≠ .worldNextphase then
      Function.update s.reachedAt id s.reads
    else s.reachedAt
  byCommand := s.byCommand
  log := s.log ++ [⟨id, s.state id, st, s.gameEvent, s.reads, s.reachedAt id, s.byCommand⟩]

end GameEventMgr

/-- The test of a prerequisite: its state, and its `nextstart` at the time `now`. -/
def prerequisiteMet (d : GameEventData) (now : ℕ) : Bool :=
  (d.state = .worldNextphase || d.state = .worldFinished) && d.nextstart ≤ now

/-- All conditions of an event are met. -/
def conditionsMet (d : GameEventData) : Bool :=
  d.conditions.entries.all fun e => e.2.reqNum ≤ e.2.done

section

variable (clock : Clock)

/-- `GameEventMgr::CheckOneGameEvent`, which may read the clock. -/
def checkOneGameEvent (s : GameEventMgr) (entry : ℕ) : Bool × GameEventMgr :=
  let d := s.gameEvent entry
  let now := clock.now s.reads
  match d.state with
  | .normal =>
    (d.start < now && now < d.end_ &&
      (now - d.start) % ((d.occurence * 60 % 2 ^ 32 : ℕ) : ℤ) < (d.lengthSeconds : ℤ), s.tick)
  | .worldConditions => (true, s)
  | .worldNextphase => (true, s)
  | .worldFinished => (false, s)
  | .internal => (false, s)
  | .worldInactive =>
    (d.prerequisiteEvents ≠ ∅ &&
      decide (∀ p ∈ d.prerequisiteEvents, prerequisiteMet (s.gameEvent p) now = true), s.tick)

/-- `GameEventMgr::CheckOneGameEventConditions`. -/
def checkOneGameEventConditions (s : GameEventMgr) (id : ℕ) : Bool × GameEventMgr :=
  if conditionsMet (s.gameEvent id) then
    let s := s.setState id .worldNextphase
    let d := s.gameEvent id
    if d.nextstart = 0 then
      (true, (s.setEvent id { d with nextstart := clock.now s.reads + d.lengthSeconds }).tick)
    else (true, s)
  else (false, s)

/-- `GameEventMgr::StartEvent`. -/
def startEvent (s : GameEventMgr) (id : ℕ) (overwrite : Bool) : Bool × GameEventMgr :=
  if !(s.state id).isWorld then
    let s := { s with activeEvents := insert id s.activeEvents }
    if overwrite then
      let d : GameEventData := { s.gameEvent id with start := clock.now s.reads }
      let d := if d.end_ ≤ d.start then { d with end_ := d.start + d.length } else d
      (false, (s.setEvent id d).tick)
    else (false, s)
  else
    let s := if s.state id = .worldInactive then s.setState id .worldConditions else s
    let s := { s with activeEvents := insert id s.activeEvents }
    checkOneGameEventConditions clock s id

/-- The conditions of an event start again. -/
def resetConditions (m : SortedMap ℕ FinishCondition) : SortedMap ℕ FinishCondition :=
  m.mapEntries fun _ c => { c with done := 0 }

/-- `GameEventMgr::StopEvent`. -/
def stopEvent (s : GameEventMgr) (id : ℕ) (overwrite : Bool) : GameEventMgr :=
  let serverwide := (s.state id).isWorld
  let s := { s with activeEvents := s.activeEvents.erase id }
  if overwrite && !serverwide then
    let d := s.gameEvent id
    let d : GameEventData := { d with start := clock.now s.reads - d.lengthSeconds }
    let d := if d.end_ ≤ d.start then { d with end_ := d.start + d.length } else d
    (s.setEvent id d).tick
  else if serverwide then
    if overwrite || s.state id ≠ .worldFinished then
      let s := s.setState id .worldInactive
      let d := s.gameEvent id
      s.setEvent id { d with nextstart := 0, conditions := resetConditions d.conditions }
    else s
  else s

/-- The pass of `Update` so far, with the events that are queued. -/
structure Pass where
  mgr : GameEventMgr
  activate : List ℕ
  deactivate : List ℕ

/-- One turn of the loop of `Update`; `currenttime` was read before the loop. -/
def passTurn (currenttime : ℕ) (p : Pass) (itr : ℕ) : Pass :=
  let r := checkOneGameEvent clock p.mgr itr
  let s := r.2
  if r.1 then
    if s.state itr = .worldNextphase ∧ (s.gameEvent itr).nextstart ≤ currenttime then
      let s := s.setState itr .worldFinished
      let s := s.setEvent itr { s.gameEvent itr with nextstart := 0 }
      ⟨s, p.activate, if itr ∈ s.activeEvents then p.deactivate ++ [itr] else p.deactivate⟩
    else
      let s :=
        if s.state itr = .worldConditions then (checkOneGameEventConditions clock s itr).2 else s
      ⟨s, if itr ∉ s.activeEvents then p.activate ++ [itr] else p.activate, p.deactivate⟩
  else ⟨s, p.activate, if itr ∈ s.activeEvents then p.deactivate ++ [itr] else p.deactivate⟩

/-- `GameEventMgr::Update` for the events from 1 on and before `size`: first all are checked, then the
queued ones are started, then stopped. -/
def update (size : ℕ) (s : GameEventMgr) : GameEventMgr :=
  let p := (List.range' 1 (size - 1)).foldl (passTurn clock (clock.now s.reads)) ⟨s.tick, [], []⟩
  let s := p.activate.foldl (fun s id => (startEvent clock s id false).2) p.mgr
  p.deactivate.foldl (fun s id => stopEvent clock s id false) s

/-- The count of a condition after a quest. -/
def FinishCondition.add (c : FinishCondition) (num : ℚ) : FinishCondition :=
  { c with done := min (c.done + num) c.reqNum }

/-- `GameEventMgr::HandleQuestComplete`. -/
def handleQuestComplete (quests : ℕ → Option QuestToCondition) (s : GameEventMgr) (questId : ℕ) :
    GameEventMgr :=
  match quests questId with
  | none => s
  | some q =>
    if q.eventId ∉ s.activeEvents then s
    else if s.state q.eventId ≠ .worldConditions then s
    else
      let d := s.gameEvent q.eventId
      match d.conditions.find q.condition with
      | none => s
      | some c =>
        if c.done < c.reqNum then
          let s := s.setEvent q.eventId
            { d with conditions := d.conditions.insert q.condition (c.add q.num) }
          (checkOneGameEventConditions clock s q.eventId).2
        else s

end

/-- The updates, completed quests, and the commands that start and stop an event. -/
inductive Op
  | update
  | questComplete (questId : ℕ)
  | startCommand (eventId : ℕ)
  | stopCommand (eventId : ℕ)

/-- The operation is a command. -/
def Op.isCommand : Op → Bool
  | .startCommand _ => true
  | .stopCommand _ => true
  | _ => false

/-- What does not change: the number of events, the clock, and the quests with their conditions. -/
structure Setup where
  size : ℕ
  clock : Clock
  quests : ℕ → Option QuestToCondition

/-- The event that a command names exists. -/
def Setup.exists (w : Setup) (s : GameEventMgr) (id : ℕ) : Bool :=
  1 ≤ id && id < w.size && (s.gameEvent id).isValid

/-- The events after an operation. -/
def step (w : Setup) (s : GameEventMgr) : Op → GameEventMgr
  | .update => update w.clock w.size s
  | .questComplete questId => handleQuestComplete w.clock w.quests s questId
  | .startCommand id =>
    if w.exists s id && id ∉ s.activeEvents then
      { (startEvent w.clock { s with byCommand := true } id true).2 with byCommand := false }
    else s
  | .stopCommand id =>
    if w.exists s id && id ∈ s.activeEvents then
      { stopEvent w.clock { s with byCommand := true } id true with byCommand := false }
    else s

end FaceCore.WorldEvents
