import StorageTiering.Dispatch.Report
import StorageTiering.Pass
import StorageTiering.Settings
import StorageTiering.Status
import StorageTiering.World.Basic
/-!
# The run of a namespace

What a run of one namespace keeps from iteration to iteration.

* `Stage` — what a run is doing.
* `Iteration` — what one scan and dispatch achieved; `Iteration.isStalled` if nothing moved.
* `Run` — the run of a namespace; `Run.start` has done nothing.
-/

namespace StorageTiering

/-- What a run is doing. -/
inductive Stage
  | idle
  | scanning
  | dispatching
  | terminated
  deriving DecidableEq, Repr

namespace Stage

/-- The name of a stage. -/
def name : Stage → String
  | .idle => "idle"
  | .scanning => "scanning"
  | .dispatching => "dispatching"
  | .terminated => "terminated"

end Stage

/-- What one scan and dispatch achieved. -/
structure Iteration where
  number : Nat
  needingMove : Nat
  scheduled : Nat
  moved : Nat
  failed : Nat
  cancelled : Nat
  /-- Blocks with a move that was given up. -/
  failedBlocks : List BlockId
  deriving DecidableEq, Repr

namespace Iteration

/-- Whether counts say that something failed and nothing moved. -/
def stalled (moved failed : Nat) : Bool := moved == 0 && decide (0 < failed)

/-- Whether something failed and nothing moved. -/
def isStalled (i : Iteration) : Bool := stalled i.moved i.failed

end Iteration

/-- The run of a namespace. -/
structure Run where
  paths : List String
  settings : Settings
  suite : Suite
  /-- The name under which the lease is held. -/
  holder : String
  ledger : Ledger
  stage : Stage
  history : List Iteration
  /-- Blocks for which no destination was found in any scan, ascending. -/
  unsatisfiable : List BlockId
  /-- How many iterations in a row have stalled. -/
  stalls : Nat

/-- How a run ends. -/
inductive RunEnd
  | status (s : Status)
  /-- The run broke down inside a call. -/
  | broken
  deriving DecidableEq, Repr

namespace Run

/-- A run that has done nothing. No paths mean the whole namespace. -/
def start (paths : Option (List String)) (settings : Settings) (suite : Suite) (holder : String) :
    Run where
  paths := match paths with
    | some (path :: rest) => path :: rest
    | _ => ["/"]
  settings := settings
  suite := suite
  holder := holder
  ledger := .empty
  stage := .idle
  history := []
  unsatisfiable := []
  stalls := 0

/-- The run with blocks for which no destination was found. -/
def recordUnsatisfiable (r : Run) (blocks : List BlockId) : Run :=
  { r with
    unsatisfiable := blocks.foldl (fun known b => insertAscending b known) r.unsatisfiable }

/-- The run with one more iteration. -/
def recordIteration (r : Run) (i : Iteration) : Run :=
  { r with
    history := r.history ++ [i],
    stalls := if i.isStalled then r.stalls + 1 else 0 }

end Run

namespace Interruption

/-- The status of a run that was interrupted while it waited. -/
def status : Interruption → Status
  | .leaseLost reason => .serviceFailure ("run lease lost: " ++ reason)
  | .shutdown => .interrupted

/-- The status of a run that finds itself interrupted. -/
def statusFound : Interruption → Status
  | .leaseLost _ => .serviceFailure "run lease lost"
  | .shutdown => .interrupted

end Interruption

end StorageTiering
