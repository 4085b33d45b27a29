import StorageTiering.Cluster.Disturbance
import StorageTiering.Dispatch.Basic
import StorageTiering.World.Script
/-!
# A namespace in time

A simulated cluster with a clock of milliseconds, the renewals of the run lease, and what comes from
outside at set times. Nothing but waiting takes time.

* `World` — the state of a namespace at a moment.
* `World.renewTo` — the renewals of the lease up to a moment; the first that fails loses it.
* `World.advance` — lets time pass up to a moment, or until a condition holds.
-/

namespace StorageTiering

/-- What comes from outside. -/
inductive Event
  | disturb (d : Disturbance)
  /-- The run is asked to end. -/
  | shutdown
  /-- Those who execute moves are asked to stop or to abort. -/
  | signal (s : Signal)
  deriving DecidableEq, Repr

/-- An event with its moment. -/
structure TimedEvent where
  moment : Nat
  event : Event
  deriving DecidableEq, Repr

/-- The renewals of a lease: the token, the time between two of them, and the next one. -/
structure Renewal where
  serial : Nat
  intervalMs : Nat
  next : Nat
  deriving DecidableEq, Repr

/-- What is noted of an attempt. -/
inductive Note
  | start
  | done
  | fail
  /-- The attempt did not come to its end. -/
  | cut
  deriving DecidableEq, Repr

namespace Note

/-- The name of a note. -/
def name : Note → String
  | .start => "start"
  | .done => "done"
  | .fail => "fail"
  | .cut => "cut"

end Note

/-- A note on an attempt at a move, with its moment. -/
structure TraceEntry where
  moment : Nat
  note : Note
  move : Move
  deriving DecidableEq, Repr

namespace TraceEntry

/-- Moment, note and move. -/
def text (e : TraceEntry) : String :=
  toString e.moment ++ " " ++ e.note.name ++ " " ++ e.move.text

/-- The order of notes: by moment, then by name, then by move. -/
def precedes (a b : TraceEntry) : Bool :=
  decide (a.moment < b.moment) ||
    (a.moment == b.moment &&
      (decide (a.note.name < b.note.name) ||
        (a.note.name == b.note.name && decide (a.move.text ≤ b.move.text))))

end TraceEntry

/-- A namespace at a moment. -/
structure World where
  now : Nat
  cluster : Cluster
  script : Script
  /-- What will come from outside, the earliest first. -/
  events : List TimedEvent
  /-- The renewals of the lease that is held. -/
  renewal : Option Renewal
  /-- Why the lease was lost, if it was. -/
  lost : Option String
  /-- The run has been asked to end. -/
  shutdown : Bool
  signal : Signal
  /-- The notes on attempts, the latest first. -/
  trace : List TraceEntry
  deriving Inhabited

/-- Why a run is interrupted. -/
inductive Interruption
  | leaseLost (reason : String)
  | shutdown
  deriving DecidableEq, Repr

namespace World

/-- The order of events in time; those of one moment keep their order. -/
def sortEvents (events : List TimedEvent) : List TimedEvent :=
  events.mergeSort fun a b => decide (a.moment ≤ b.moment)

/-- A namespace before its first moment. -/
def start (cluster : Cluster) (script : Script) (events : List TimedEvent) : World where
  now := 0
  cluster := cluster
  script := script
  events := sortEvents events
  renewal := none
  lost := none
  shutdown := false
  signal := .proceed
  trace := []

/-- Why the run has to be interrupted, if it has. -/
def interruption? (w : World) : Option Interruption :=
  match w.lost with
  | some reason => some (.leaseLost reason)
  | none => if w.shutdown then some .shutdown else none

/-- The namespace after an event. -/
def apply (w : World) (e : TimedEvent) : World :=
  let w := { w with now := max w.now e.moment }
  match e.event with
  | .disturb d => { w with cluster := d.apply w.cluster }
  | .shutdown => { w with shutdown := true }
  | .signal s => { w with signal := if w.signal = .abort then .abort else s }

/-- The first renewal after a moment, given one that is not after it. -/
def nextAfter (r : Renewal) (t : Nat) : Nat :=
  r.next + ((t - r.next) / r.intervalMs + 1) * r.intervalMs

/-- The renewals up to a moment, while nothing else happens: either all succeed, or the first fails
and the lease is lost at its time. A lease without an interval is never renewed. -/
def renewTo (t : Nat) (w : World) : World :=
  match w.renewal with
  | none => w
  | some r =>
      if r.intervalMs = 0 ∨ t < r.next then w
      else match w.cluster.renewalError? r.serial with
        | none => { w with renewal := some { r with next := nextAfter r t } }
        | some e => { w with renewal := none, lost := some e.message, now := max w.now r.next }

/-- Lets time pass up to a moment without an event, or until a condition holds. -/
def idleTo (stop : World → Bool) (t : Nat) (w : World) : World :=
  let w := w.renewTo t
  if stop w then w else { w with now := max w.now t }

/-- Lets time pass over events up to a moment, or until a condition holds. -/
def advanceOver (stop : World → Bool) (t : Nat) : List TimedEvent → World → World
  | [], w => w.idleTo stop t
  | e :: rest, w =>
      if t < e.moment then w.idleTo stop t
      else
        let w := w.renewTo (e.moment - 1)
        if stop w then w
        else
          let w := { w.apply e with events := rest }
          if stop w then w else advanceOver stop t rest w

/-- Lets time pass up to a moment, or until a condition holds. -/
def advance (stop : World → Bool) (t : Nat) (w : World) : World :=
  if stop w then w else advanceOver stop t w.events w

/-- Lets a number of milliseconds pass, whatever happens meanwhile. -/
def wait (ms : Nat) (w : World) : World :=
  if ms = 0 then w else w.advance (fun _ => false) (w.now + ms)

/-- Lets a number of milliseconds pass, or less if the run is interrupted. -/
def rest (ms : Nat) (w : World) : World :=
  w.advance (fun w => w.interruption?.isSome) (w.now + ms)

/-- Applies the events of the first moment. -/
def settle (w : World) : World := w.advance (fun _ => false) w.now

/-- A namespace with one more note on an attempt. -/
def note (w : World) (n : Note) (m : Move) : World :=
  { w with trace := ⟨w.now, n, m⟩ :: w.trace }

/-- The notes on attempts in their order. -/
def notes (w : World) : List TraceEntry := w.trace.mergeSort TraceEntry.precedes

end World

end StorageTiering
