import StorageTiering.Ledger
import StorageTiering.Service
import StorageTiering.Settings
/-!
# Dispatching moves

Claimed moves are executed side by side, each under three permits: one of the namespace, one of its
source node and one of its target node, always taken in this order. A failed attempt gives all
permits back and is repeated after a rest until the attempts are used up.

* `Task`, `Phase` — a move under execution, and how far it is.
* `Dispatch` — the tasks of one dispatch with the ledger they report to; no order of steps is fixed.
* `Dispatch.begin`, `Dispatch.proceed`, `Dispatch.finish`, `Dispatch.wake`, `Dispatch.cancel` — the
  steps of a task between two points at which others may come first.
* `Dispatch.inUse` — how many tasks hold a permit.
-/

namespace StorageTiering

/-- The permits under which a move is executed. -/
inductive Permit
  /-- One of the permits of the namespace. -/
  | everywhere
  /-- One of the permits for reading from a node. -/
  | source
  /-- One of the permits for writing to a node. -/
  | target
  deriving DecidableEq, Repr

namespace Permit

/-- All permits, in the order in which they are taken and given back. -/
def all : List Permit := [.everywhere, .source, .target]

/-- The permit that is taken after another. -/
def next? : Permit → Option Permit
  | .everywhere => some .source
  | .source => some .target
  | .target => none

/-- How many permits are taken before. -/
def rank : Permit → Nat
  | .everywhere => 0
  | .source => 1
  | .target => 2

/-- Whether two moves take this permit from one supply. -/
def shared (p : Permit) (a b : Move) : Bool :=
  match p with
  | .everywhere => true
  | .source => a.source.node == b.source.node
  | .target => a.targetNode == b.targetNode

/-- How many tasks may hold a permit of one supply. -/
def limit (p : Permit) (l : DispatchLimits) : Nat :=
  match p with
  | .everywhere => l.concurrent
  | .source => l.perSource
  | .target => l.perTarget

end Permit

/-- How a task ends. -/
inductive TaskEnd
  | succeeded
  | failed (error : TransferError)
  | cancelled
  /-- The task broke down inside an attempt; nobody has told the ledger. -/
  | broken
  deriving DecidableEq, Repr

/-- How far a task is. -/
inductive Phase
  /-- Before an attempt. -/
  | ready
  /-- In the queue for a permit, with the permits that come before it. -/
  | waiting (p : Permit)
  /-- With a permit and those that come before it. -/
  | granted (p : Permit)
  /-- Inside an attempt, with all permits. -/
  | running
  /-- Between two attempts, without a permit. -/
  | resting
  | ended (result : TaskEnd)
  deriving DecidableEq, Repr

namespace Phase

/-- Whether a task in this phase holds a permit. -/
def holds : Phase → Permit → Bool
  | .waiting q, p => decide (p.rank < q.rank)
  | .granted q, p => decide (p.rank ≤ q.rank)
  | .running, _ => true
  | _, _ => false

/-- How the task has ended, if it has. -/
def result? : Phase → Option TaskEnd
  | .ended result => some result
  | _ => none

/-- Whether a task has ended. -/
def isEnded (phase : Phase) : Bool := phase.result?.isSome

end Phase

/-- A move under execution. -/
structure Task where
  id : MoveId
  move : Move
  /-- Failed attempts that have been recorded. -/
  attempts : Nat
  phase : Phase
  deriving DecidableEq, Repr

/-- What has been asked of those who execute moves. -/
inductive Signal
  | proceed
  /-- No new attempt is started. -/
  | stop
  /-- No new attempt is started, and running ones are cut short. -/
  | abort
  deriving DecidableEq, Repr, Inhabited

/-- How an attempt ends by itself. -/
inductive Outcome
  | answered (result : Except TransferError Unit)
  | broke

/-- The tasks of one dispatch, the queue of those that wait for a permit, and the ledger. -/
structure Dispatch where
  limits : DispatchLimits
  signal : Signal
  ledger : Ledger
  tasks : List Task
  /-- The tasks that wait for a permit, the one that has waited longest first. -/
  queue : List MoveId

namespace Dispatch

/-- Claims every pending move of a ledger for a task of its own. -/
def start (limits : DispatchLimits) (signal : Signal) (ledger : Ledger) : Dispatch where
  limits := limits
  signal := signal
  ledger := ledger.claim.1
  tasks := ledger.claim.2.map fun c => ⟨c.1, c.2, 0, .ready⟩
  queue := []

/-- The task with a number. -/
def task? (d : Dispatch) (id : MoveId) : Option Task := d.tasks.find? fun t => t.id == id

/-- The tasks with one of them changed. -/
def setTask (d : Dispatch) (id : MoveId) (f : Task → Task) : Dispatch :=
  { d with tasks := d.tasks.map fun t => if t.id == id then f t else t }

/-- The tasks with the phase of one of them changed. -/
def setPhase (d : Dispatch) (id : MoveId) (phase : Phase) : Dispatch :=
  d.setTask id fun t => { t with phase := phase }

/-- How many tasks hold a permit from the supply of a move. -/
def inUse (d : Dispatch) (p : Permit) (m : Move) : Nat :=
  d.tasks.countP fun t => t.phase.holds p && p.shared t.move m

/-- Whether the supply of a move has a permit left. -/
def hasFree (d : Dispatch) (p : Permit) (m : Move) : Bool := decide (d.inUse p m < p.limit d.limits)

/-- A task takes a permit, or queues up for it. -/
def request (d : Dispatch) (t : Task) (p : Permit) : Dispatch :=
  if d.hasFree p t.move then d.setPhase t.id (.granted p)
  else { d.setPhase t.id (.waiting p) with queue := d.queue ++ [t.id] }

/-- Whether a task waits for a permit from the supply of a move. -/
def awaits (d : Dispatch) (p : Permit) (m : Move) (id : MoveId) : Bool :=
  match d.task? id with
  | some t => t.phase == .waiting p && p.shared t.move m
  | none => false

/-- A permit from the supply of a move that is free goes to the task that has waited longest for it.
The second component is that task. -/
def handOver (d : Dispatch) (p : Permit) (m : Move) : Dispatch × Option MoveId :=
  if d.hasFree p m then
    match d.queue.find? (d.awaits p m) with
    | none => (d, none)
    | some id => ({ d.setPhase id (.granted p) with queue := d.queue.erase id }, some id)
  else (d, none)

/-- Hands over the permits of a move one after another; the second component is the tasks that get
one. -/
def handOverAll (d : Dispatch) (m : Move) : List Permit → Dispatch × List MoveId
  | [] => (d, [])
  | p :: rest =>
      let (d, woken) := d.handOver p m
      let (d, others) := handOverAll d m rest
      (d, woken.toList ++ others)

/-- A task gives back all permits it holds and goes into a phase without any. The second component
is the tasks that get one of them. -/
def leave (d : Dispatch) (t : Task) (phase : Phase) : Dispatch × List MoveId :=
  let d := { d.setPhase t.id phase with queue := d.queue.erase t.id }
  d.handOverAll t.move (Permit.all.filter t.phase.holds)

/-- Ends a task, and its move with it. -/
def conclude (d : Dispatch) (t : Task) (result : TaskEnd) (ending : Ending) :
    Dispatch × List MoveId :=
  let (d, woken) := d.leave t (.ended result)
  ({ d with ledger := (d.ledger.complete t.id ending).1 }, woken)

/-- A task stops before it could finish. -/
def cancel (d : Dispatch) (t : Task) : Dispatch × List MoveId := d.conclude t .cancelled .cancelled

/-- A task that is ready asks for its first permit, unless nothing new is started. -/
def begin (d : Dispatch) (t : Task) : Dispatch × List MoveId :=
  if d.signal = .proceed then (d.request t .everywhere, []) else d.cancel t

/-- A task that has a permit asks for the next one; with all of them it runs, unless nothing new is
started. -/
def proceed (d : Dispatch) (t : Task) (p : Permit) : Dispatch × List MoveId :=
  match p.next? with
  | some q => (d.request t q, [])
  | none => if d.signal = .proceed then (d.setPhase t.id .running, []) else d.cancel t

/-- A failed attempt is recorded: the task rests before the next one, or gives up. -/
def failAttempt (d : Dispatch) (t : Task) (e : TransferError) : Dispatch × List MoveId :=
  match d.ledger.fail t.id d.limits.maxAttempts with
  | (ledger, .again attempts) =>
      let (d, woken) := d.leave t .resting
      ({ d.setTask t.id fun t => { t with attempts := attempts } with ledger := ledger }, woken)
  | (ledger, .giveUp attempts) =>
      let (d, woken) := d.leave t (.ended (.failed e))
      ({ d.setTask t.id fun t => { t with attempts := attempts } with ledger := ledger }, woken)

/-- An attempt of a task has ended by itself. -/
def finish (d : Dispatch) (t : Task) : Outcome → Dispatch × List MoveId
  | .answered (.ok ()) => d.conclude t .succeeded .succeeded
  | .answered (.error e) => d.failAttempt t e
  | .broke => d.leave t (.ended .broken)

/-- A task has rested and is ready for another attempt. -/
def wake (d : Dispatch) (t : Task) : Dispatch :=
  { d.setPhase t.id .ready with ledger := (d.ledger.resume t.id).1 }

/-- A task stops before it could finish, unless it has ended. -/
def cutShort (d : Dispatch) (id : MoveId) : Dispatch :=
  match d.task? id with
  | some t => if t.phase.isEnded then d else (d.cancel t).1
  | none => d

/-- Cuts short every task that has not ended, in the order of numbers. -/
def abortAll (d : Dispatch) : Dispatch := (d.tasks.map Task.id).foldl cutShort d

/-- Whether all tasks have ended. -/
def isOver (d : Dispatch) : Bool := d.tasks.all fun t => t.phase.isEnded

/-- The ledger once every task that has broken down is counted as failed, as far as the tasks have
ended in the order of numbers. -/
def settleBroken (d : Dispatch) : Ledger :=
  ((d.tasks.takeWhile fun t => t.phase.isEnded).filter fun t => t.phase == .ended .broken).foldl
    (fun l t => (l.complete t.id .failed).1) d.ledger

end Dispatch

end StorageTiering
