import StorageTiering.Dispatch.Report
import StorageTiering.World.Calls
/-!
# A dispatch in time

The tasks of a dispatch in the order in which they take their steps: tasks that can go on do so one
after another, first come first served; when none can, the clock goes to the next moment at which
one can, or at which something comes from outside.

* `Timeline` — a dispatch with its namespace, the tasks that can go on and those that wait for a
  moment.
* `Timeline.stepTask` — one step of the task that is first in line.
* `Timeline.stepClock` — the clock goes on.
* `Timeline.run` — all steps of a dispatch.
* `Executor` — how the pending moves of a ledger are executed; `Timeline.execute` is one.
-/

namespace StorageTiering

/-- Why a task goes on. -/
inductive Wake
  /-- It is ready, or has got a permit. -/
  | go
  /-- Its attempt gets an answer. -/
  | answer (a : AttemptAnswer)
  /-- Its attempt has taken too long. -/
  | timeOut
  /-- It has rested. -/
  | rested
  deriving DecidableEq, Repr

/-- A task that goes on at a moment. -/
structure Alarm where
  due : Nat
  id : MoveId
  wake : Wake
  deriving DecidableEq, Repr

/-- How the pending moves of a ledger are executed: under limits, with so many milliseconds for running
attempts after an interruption. It leaves a namespace and a ledger, and tells why it was interrupted or what
came of the moves. -/
abbrev Executor := DispatchLimits → Nat → Ledger → World →
  World × Ledger × Except Interruption DispatchReport

/-- A dispatch in time. -/
structure Timeline where
  dispatch : Dispatch
  world : World
  /-- The tasks that can go on, in the order in which they became able to. -/
  line : List (MoveId × Wake)
  /-- The tasks that go on at a moment, in the order in which the moments were set. -/
  alarms : List Alarm
  /-- The milliseconds that running attempts get after an interruption. -/
  graceMs : Nat
  /-- Why the dispatch was interrupted. -/
  interruption : Option Interruption
  /-- When running attempts are cut short. -/
  graceEnds : Option Nat
  /-- When the dispatch is abandoned. -/
  dropsAt : Option Nat
  /-- The dispatch has been abandoned. -/
  dropped : Bool

namespace Timeline

/-- A dispatch of all pending moves of a ledger, before its first step. -/
def start (limits : DispatchLimits) (ledger : Ledger) (world : World) (graceMs : Nat)
    (dropsAt : Option Nat) : Timeline :=
  let d := Dispatch.start limits world.signal ledger
  { dispatch := d
    world := world
    line := d.tasks.map fun t => (t.id, .go)
    alarms := []
    graceMs := graceMs
    interruption := none
    graceEnds := none
    dropsAt := dropsAt
    dropped := false }

/-- A timeline with a changed dispatch; the tasks that got a permit join the line. -/
def apply (s : Timeline) (r : Dispatch × List MoveId) : Timeline :=
  { s with dispatch := r.1, line := s.line ++ r.2.map fun id => (id, .go) }

/-- A task that can go on at once. -/
def goOn (s : Timeline) (id : MoveId) (wake : Wake) : Timeline :=
  { s with line := (id, wake) :: s.line }

/-- A task that goes on after so many milliseconds, at once if there are none. -/
def goOnAfter (s : Timeline) (ms : Nat) (id : MoveId) (wake : Wake) : Timeline :=
  if ms = 0 then s.goOn id wake
  else { s with alarms := s.alarms ++ [⟨s.world.now + ms, id, wake⟩] }

/-- A task that goes on if it has just got a permit or become ready. -/
def continueIfAble (s : Timeline) (id : MoveId) : Timeline :=
  match s.dispatch.task? id with
  | some t =>
      match t.phase with
      | .granted _ | .ready => s.goOn id .go
      | _ => s
  | none => s

/-- A task that has all its permits starts its attempt. An answer that comes no later than the
timeout wins. -/
def startAttempt (s : Timeline) (t : Task) : Timeline :=
  let (world, answer, delay) := s.world.beginAttempt t.move
  let s := { s with world := world }
  if delay ≤ s.dispatch.limits.timeoutMs then s.goOnAfter delay t.id (.answer answer)
  else s.goOnAfter s.dispatch.limits.timeoutMs t.id .timeOut

/-- A task goes on with or without a permit. -/
def stepGo (s : Timeline) (t : Task) : Timeline :=
  match t.phase with
  | .ready => (s.apply (s.dispatch.begin t)).continueIfAble t.id
  | .granted p =>
      let s := s.apply (s.dispatch.proceed t p)
      match s.dispatch.task? t.id with
      | some t =>
          if t.phase = .running then s.startAttempt t else s.continueIfAble t.id
      | none => s
  | _ => s

/-- The attempt of a task ends. -/
def stepFinish (s : Timeline) (t : Task) (r : World × Outcome) : Timeline :=
  let s := { s with world := r.1 }.apply (s.dispatch.finish t r.2)
  match s.dispatch.task? t.id with
  | some t =>
      if t.phase = .resting then s.goOnAfter s.dispatch.limits.retryDelayMs t.id .rested else s
  | none => s

/-- One step of a task. -/
def stepTask (s : Timeline) (t : Task) (wake : Wake) : Timeline :=
  match wake, t.phase with
  | .go, _ => s.stepGo t
  | .answer a, .running => s.stepFinish t (s.world.settleAttempt t.move a)
  | .timeOut, .running => s.stepFinish t (s.world.timeOut t.move)
  | .rested, .resting => { s with dispatch := s.dispatch.wake t }.goOn t.id .go
  | _, _ => s

/-- The namespace with a note on every attempt that is running. -/
def noteCuts (d : Dispatch) (w : World) : World :=
  d.tasks.foldl (fun w t => if t.phase = .running then w.note .cut t.move else w) w

/-- All attempts are cut short, and every task stops. -/
def abort (s : Timeline) : Timeline :=
  let d := { s.dispatch with signal := .abort }
  { s with
    dispatch := d.abortAll,
    world := { noteCuts d s.world with signal := .abort },
    line := [],
    alarms := [] }

/-- The dispatch is abandoned: its attempts are cut short, and nobody tells the ledger. -/
def drop (s : Timeline) : Timeline :=
  { s with
    world := noteCuts s.dispatch s.world,
    line := [],
    alarms := [],
    dropped := true }

/-- The run is interrupted: nothing new is started, and running attempts get their time of grace. -/
def interrupt (s : Timeline) (i : Interruption) : Timeline :=
  let signal := if s.world.signal = .abort then .abort else .stop
  { s with
    interruption := some i,
    graceEnds := some (s.world.now + s.graceMs),
    dispatch := { s.dispatch with signal := signal },
    world := { s.world with signal := signal } }

/-- The tasks whose moment has come join the line. -/
def ring (s : Timeline) : Timeline :=
  { s with
    line := s.line ++
      (s.alarms.filter fun a => decide (a.due ≤ s.world.now)).map fun a => (a.id, a.wake),
    alarms := s.alarms.filter fun a => !decide (a.due ≤ s.world.now) }

/-- The moment to which the clock goes, if nothing comes from outside before. -/
def nextMoment? (s : Timeline) : Option Nat :=
  (s.alarms.map Alarm.due ++ s.graceEnds.toList ++ s.dropsAt.toList).min?

/-- Whether something has come from outside that concerns the dispatch. -/
def isAlerted (s : Timeline) (w : World) : Bool :=
  (s.interruption.isNone && w.interruption?.isSome) || w.signal != s.dispatch.signal

/-- Whether a moment that was set has come. -/
def hasCome (moment : Option Nat) (now : Nat) : Bool :=
  match moment with
  | some m => decide (m ≤ now)
  | none => false

/-- What the dispatch does at the moment to which the clock has gone. -/
def react (s : Timeline) : Timeline :=
  match s.interruption, s.world.interruption? with
  | none, some i => s.interrupt i
  | _, _ =>
      if s.world.signal = .abort ∨ hasCome s.graceEnds s.world.now then s.abort
      else if s.world.signal ≠ s.dispatch.signal then
        { s with dispatch := { s.dispatch with signal := s.world.signal } }
      else if hasCome s.dropsAt s.world.now then s.drop
      else s.ring

/-- The clock goes on to the next moment at which something happens. -/
def stepClock (s : Timeline) : Timeline :=
  match s.nextMoment? with
  | none => s
  | some t => { s with world := s.world.advance s.isAlerted t }.react

/-- One step: of the task that is first in line, or of the clock. -/
def step (s : Timeline) : Timeline :=
  match s.line with
  | (id, wake) :: rest =>
      let s := { s with line := rest }
      match s.dispatch.task? id with
      | some t => s.stepTask t wake
      | none => s
  | [] => s.stepClock

/-- Whether the dispatch has come to its end. -/
def isOver (s : Timeline) : Bool := s.dropped || s.dispatch.isOver

/-- At most so many steps. -/
def runSteps : Nat → Timeline → Timeline
  | 0, s => s
  | n + 1, s => if s.isOver then s else runSteps n s.step

/-- More steps than a dispatch takes. For each attempt of a task there are at most eight: one when
it is ready, one behind each of three queues, one when the attempt and one when the rest ends, and
the clock goes on for these two. Beyond that the clock goes on for what comes from outside. -/
def enough (s : Timeline) : Nat :=
  s.dispatch.tasks.length * (s.dispatch.limits.maxAttempts + 1) * 8 + 2 * s.world.events.length + 16

/-- All steps of a dispatch. -/
def run (s : Timeline) : Timeline := runSteps s.enough s

/-- The ledger after a dispatch, or as far as it has come. -/
def ledger (s : Timeline) : Ledger := s.dispatch.settleBroken

/-- What came of the moves. -/
def report (s : Timeline) : DispatchReport := DispatchReport.ofTasks s.dispatch.tasks

/-- Executes the pending moves of a ledger in time. -/
def execute : Executor := fun limits graceMs ledger world =>
  let s := (start limits ledger world graceMs none).run
  (s.world, s.ledger,
   match s.interruption with
   | some i => .error i
   | none => .ok s.report)

end Timeline

end StorageTiering
