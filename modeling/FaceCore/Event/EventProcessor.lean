import FaceCore.Lib.Agenda
import FaceCore.Lib.Runs
import Mathlib.Data.UInt
import Mathlib.Logic.Function.Basic

/-!
# The event processor

A queue of events by their times. `Update` takes the events that are due out of the queue, one after
the other, and lets each execute; `KillAllEvents` goes through the queue and aborts what it finds. The
methods of an event may add events, so that the queue changes below both loops; they are the input of
the rounds here, and a run is a list of calls and of rounds of the calls.

* `BasicEvent`, `Entry`: the events and their places in the queue;
* `addEvent`: the new place, before or behind the cursor of a loop;
* `round`: one round of the loop that is going on;
* `step`: the calls.
-/

namespace FaceCore.EventProcessors

open Function (update)

/-! ### Events -/

/-- `BasicEvent`. -/
structure BasicEvent where
  toAbort : Bool
  addTime : UInt64
  execTime : UInt64

/-- The constructor; it leaves the times as they are. -/
def BasicEvent.new : BasicEvent := ⟨false, 0, 0⟩

/-- A call of `AddEvent`. -/
structure Add where
  event : ℕ
  time : UInt64
  setAddtime : Bool

/-- What a method of an event does: its calls of `AddEvent`, and the answer of `Execute`, or of
`IsDeletable` after an `Abort`. -/
structure Outcome where
  adds : List Add
  answer : Bool

/-- An element of the queue, under its time: the event, and the number of the call that added it. -/
structure Entry where
  event : ℕ
  call : ℕ

/-- What happens to the events. An execution has the number of the `AddEvent` call and that of the
`Update`, and the time in the queue. -/
inductive Record
  | executed (event call update : ℕ) (time : ℤ)
  | aborted (event : ℕ)
  | deleted (event : ℕ)

/-- A call of `AddEvent` that was made: the time, the number of the first `Update` that goes through
the queue after it, and the time of the event that made the call when it was executed. -/
structure Scheduling where
  time : ℤ
  since : ℕ
  author : Option ℤ

/-! ### The processor -/

/-- The loop that is going on. -/
inductive Control
  | idle
  | updating
  | killing (force : Bool)
  deriving DecidableEq

/-- `EventProcessor`, the events, and what happened so far. The queue is in two parts, up to the cursor
of `KillAllEvents` and from it on; without this loop the first part is empty. `clocks` are the times of
the `Update` calls; `met` are the events that are in the queue of a `KillAllEvents(true)` or added
while it goes on, `killed` those of the last one that came to its end. -/
structure Run where
  time : UInt64
  passed : List (ℤ × Entry)
  rest : List (ℤ × Entry)
  aborting : Bool
  objects : ℕ → BasicEvent
  control : Control
  clocks : List UInt64
  calls : List Scheduling
  log : List Record
  met : List ℕ
  killed : Option (List ℕ)

namespace Run

/-- A new processor, before any event. -/
def new : Run where
  time := 0
  passed := []
  rest := []
  aborting := false
  objects := fun _ => .new
  control := .idle
  clocks := []
  calls := []
  log := []
  met := []
  killed := none

/-- `m_events`. -/
def events (s : Run) : List (ℤ × Entry) := s.passed ++ s.rest

/-- The number of `Update` calls that have returned. -/
def returned (s : Run) : ℕ :=
  match s.control with
  | .updating => s.clocks.length - 1
  | _ => s.clocks.length

/-- The number of the current `Update`. -/
def current (s : Run) : ℕ := s.clocks.length - 1

/-- A note of what happens. -/
def note (s : Run) (r : Record) : Run := { s with log := s.log ++ [r] }

/-- Insertion into the queue behind the elements of the same time. The cursor stays at its element, or
at the end of the queue. -/
def insert (s : Run) (x : ℤ × Entry) : Run :=
  match s.control, s.rest with
  | .killing _, [] => { s with passed := Agenda.insertEntry x s.passed }
  | .killing _, y :: rest =>
    if y.1 ≤ x.1 then { s with rest := Agenda.insertEntry x (y :: rest) }
    else { s with passed := Agenda.insertEntry x s.passed }
  | _, _ => { s with rest := Agenda.insertEntry x s.rest }

/-- The fields of an event that `AddEvent` writes. -/
def planned (s : Run) (a : Add) : BasicEvent :=
  { s.objects a.event with
    addTime := if a.setAddtime then s.time else (s.objects a.event).addTime
    execTime := a.time }

/-- `AddEvent`, called by an event with the time `author` when it is executed, or by others. -/
def addEvent (author : Option ℤ) (s : Run) (a : Add) : Run :=
  let x : ℤ × Entry := (a.time.toNat, ⟨a.event, s.calls.length⟩)
  { s.insert x with
    objects := update s.objects a.event (s.planned a)
    calls := s.calls ++ [⟨x.1, s.returned, author⟩]
    met := s.met ++ [a.event] }

/-- The calls of a method. -/
def addEvents (s : Run) (author : Option ℤ) (adds : List Add) : Run := adds.foldl (addEvent author) s

/-- `Update`, before its loop. -/
def beginUpdate (s : Run) (time : UInt32) : Run :=
  { s with
    time := s.time + time.toUInt64
    clocks := s.clocks ++ [s.time + time.toUInt64]
    control := .updating
    killed := none }

/-- `KillAllEvents`, before its loop. -/
def beginKill (s : Run) (force : Bool) : Run :=
  { s with
    aborting := true
    control := .killing force
    met := s.rest.map (·.2.event)
    killed := none }

/-- The first element is taken out of the queue, and `Execute` is called. -/
def execute (s : Run) (x : ℤ × Entry) (rest : List (ℤ × Entry)) : Run :=
  { s with rest := rest }.note (.executed x.2.event x.2.call s.current x.1)

/-- The first element is taken out of the queue, and `Abort` is called. -/
def discard (s : Run) (x : ℤ × Entry) (rest : List (ℤ × Entry)) : Run :=
  { s with rest := rest }.note (.aborted x.2.event)

/-- The body of the loop of `Update`. -/
def handle (s : Run) (x : ℤ × Entry) (rest : List (ℤ × Entry)) (o : Outcome) : Run :=
  if !(s.objects x.2.event).toAbort then
    let s := (s.execute x rest).addEvents (some x.1) o.adds
    if o.answer then s.note (.deleted x.2.event) else s
  else ((s.discard x rest).addEvents none o.adds).note (.deleted x.2.event)

/-- The cursor is moved on, and `Abort` is called for the element before it. -/
def abortNext (s : Run) (x : ℤ × Entry) (rest : List (ℤ × Entry)) : Run :=
  { s with
    passed := s.passed ++ [x]
    rest := rest
    objects := update s.objects x.2.event { s.objects x.2.event with toAbort := true } }.note
      (.aborted x.2.event)

/-- The body of the loop of `KillAllEvents`; an event that is deleted without `force` is erased by its
iterator. -/
def abort (s : Run) (force : Bool) (x : ℤ × Entry) (rest : List (ℤ × Entry)) (o : Outcome) : Run :=
  let s := (s.abortNext x rest).addEvents none o.adds
  if force then s.note (.deleted x.2.event)
  else if o.answer then
    { s with passed := s.passed.filter (·.2.call ≠ x.2.call) }.note (.deleted x.2.event)
  else s

/-- The end of `KillAllEvents`. -/
def endKill (s : Run) (force : Bool) : Run :=
  { s with
    control := .idle
    passed := []
    rest := if force then [] else s.passed
    killed := if force then some s.met else none }

/-- One round of the loop that is going on, or its end. -/
def round (s : Run) (o : Outcome) : Run :=
  match s.control with
  | .idle => s
  | .updating =>
    match s.rest with
    | [] => { s with control := .idle }
    | x :: rest => if x.1 ≤ s.time.toNat then s.handle x rest o else { s with control := .idle }
  | .killing force =>
    match s.rest with
    | [] => s.endKill force
    | x :: rest => s.abort force x rest o

end Run

/-- What happens to a processor: calls while no loop is going on, the rounds of the loops, and
`to_Abort` that others set. -/
inductive Input
  | addEvent (a : Add)
  | update (time : UInt32)
  | killAllEvents (force : Bool)
  | round (o : Outcome)
  | setAbort (event : ℕ)

/-- One input; a call while a loop is going on is none. -/
def step (s : Run) : Input → Run
  | .addEvent a => if s.control = .idle then { s with killed := none }.addEvent none a else s
  | .update time => if s.control = .idle then s.beginUpdate time else s
  | .killAllEvents force => if s.control = .idle then s.beginKill force else s
  | .round o => s.round o
  | .setAbort event =>
    { s with objects := update s.objects event { s.objects event with toAbort := true } }

end FaceCore.EventProcessors
