import StorageTiering.Dispatch.Timeline
import StorageTiering.Run.Scan
/-!
# Iterations of a run

A run holds the lease of its namespace and goes through iterations of a scan and a dispatch, until
every block satisfies its policy or it has to give up.

* `Run.dispatch` — executes the scheduled moves.
* `Run.round` — one iteration: it goes on, or the run ends.
* `Run.iterate` — at most so many iterations.
* `Run.run` — a whole run.

Who executes the moves of an iteration is a parameter; if nothing else is said, it is a dispatch in time.
-/

namespace StorageTiering.Run

/-- Executes the pending moves; when the run is interrupted, running ones get a time of grace. -/
def dispatch (r : Run) (w : World) (execute : Executor := Timeline.execute) :
    World × Run × Except Interruption DispatchReport :=
  let (w, ledger, answer) :=
    execute r.settings.limits (r.settings.get .leaseGracePeriodMs) r.ledger w
  (w, { r with ledger := ledger }, answer)

/-- The number of an iteration as a run counts it, in four bytes. -/
def counter (number : Nat) : Nat := Text.held 4 number

/-- The record of an iteration, and the ledger with a new tally. -/
def record (r : Run) (number : Nat) (scan : ScanReport) (report : DispatchReport) : Run :=
  let (ledger, tally) := r.ledger.takeTally
  { r with ledger := ledger }.recordIteration
    ⟨counter number, scan.needingMove, scan.moves, report.moved, report.failed.length,
     report.cancelled, tally.failedBlocks⟩

/-- Whether a scan has found blocks that need moving and none that can be moved. -/
def isStuck (r : Run) (scan : ScanReport) : Bool :=
  scan.moves == 0 && scan.pending == 0 && r.ledger.isEmpty

/-- Whether a run has used up its iterations. -/
def isExhausted (r : Run) (number : Nat) : Bool :=
  let most := r.settings.get .maxIterations
  decide (0 < most) && decide (most < counter number)

/-- The status of a run that ends after a scan, if it does. -/
def statusAfterScan (r : Run) (number : Nat) (scan : ScanReport) (w : World) : Option Status :=
  if !scan.needsMovement then some .success
  else if r.isStuck scan then some (.noMoveBlock r.unsatisfiable.length)
  else if r.isExhausted number then some (.noMoveProgress (r.settings.get .maxIterations))
  else w.interruption?.map Interruption.statusFound

/-- The dispatch of an iteration, and the pause after it. -/
def dispatchAndRest (r : Run) (number : Nat) (scan : ScanReport) (w : World)
    (execute : Executor := Timeline.execute) : World × Run × Option RunEnd :=
  match { r with stage := .dispatching }.dispatch w execute with
  | (w, r, .error i) => (w, r, some (.status i.status))
  | (w, r, .ok report) =>
      let r := r.record number scan report
      if r.settings.get .maxNoProgressIterations ≤ r.stalls then
        (w, r, some (.status (.noMoveProgress r.stalls)))
      else
        let w := w.rest (r.settings.get .iterationIntervalMs)
        (w, r, w.interruption?.map fun i => .status i.status)

/-- One iteration of a run: the run ends, or goes on. -/
def round (r : Run) (number : Nat) (w : World) (execute : Executor := Timeline.execute) :
    World × Run × Option RunEnd :=
  match w.interruption? with
  | some i => (w, r, some (.status i.statusFound))
  | none =>
      let r := { r with stage := .scanning }
      match r.scan w with
      | (w, r, .error fault) => (w, r, some fault.runEnd)
      | (w, r, .ok report) =>
          match r.statusAfterScan number report w with
          | some s => (w, r, some (.status s))
          | none => r.dispatchAndRest number report w execute

/-- At most so many iterations of a run; the last component is `none` if it has not ended then. Each
iteration may have its own executor. -/
def iterate (rounds number : Nat) (r : Run) (w : World)
    (executors : Nat → Executor := fun _ => Timeline.execute) : World × Run × Option RunEnd :=
  match rounds with
  | 0 => (w, r, none)
  | n + 1 =>
      match r.round number w (executors number) with
      | (w, r, some e) => (w, r, some e)
      | (w, r, none) => iterate n (number + 1) r w executors

/-- The end of a run that cannot acquire the lease. -/
def leaseRefused : LeaseError → Status
  | .alreadyHeld _ true => .skipped
  | .alreadyHeld holder false => .alreadyRunning holder
  | e => .serviceFailure e.message

/-- The iterations of a run between acquiring the lease and giving it back. A run that breaks down
keeps the lease. -/
def underLease (r : Run) (rounds : Nat) (w : World)
    (executors : Nat → Executor := fun _ => Timeline.execute) : World × Run × Option RunEnd :=
  match w.acquireLease r.holder (r.settings.get .leaseRenewIntervalMs) with
  | (w, .error e) => (w, r, some (.status (leaseRefused e)))
  | (w, .ok token) =>
      match iterate rounds 1 r w executors with
      | (w, r, some (.status s)) => (w.releaseLease token, r, some (.status s))
      | (w, r, e) => (w.dropLease, r, e)

/-- Why a run does not start, given what the metadata service says of the satisfier. -/
def satisfierVerdict : Except CallFault Bool → Option RunEnd
  | .ok true => some (.status .skipped)
  | .ok false => none
  | .error (.failed e) =>
      some (.status
        (.serviceFailure ("failed to check storage policy satisfier: " ++ e.message)))
  | .error .broke => some .broken

/-- A whole run of at most so many iterations. -/
def run (r : Run) (rounds : Nat) (w : World)
    (executors : Nat → Executor := fun _ => Timeline.execute) : World × Run × Option RunEnd :=
  let (w, answer) := w.checkSatisfier
  let (w, r, e) := match satisfierVerdict answer with
    | some e => (w, r, some e)
    | none => r.underLease rounds w executors
  match e with
  | some (.status s) => (w, { r with stage := .terminated }, some (.status s))
  | e => (w, r, e)

end StorageTiering.Run
