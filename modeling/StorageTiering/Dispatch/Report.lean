import StorageTiering.Dispatch.Basic
import StorageTiering.Text.Decimal
/-!
# Dispatch reports

What came of the moves of one dispatch.

* `MoveResult`, `DispatchReport` — the end of one move, and of all.
* `DispatchReport.ofTasks` — the report of tasks that have ended, in the order of numbers.
* `DispatchReport.successRate` — the share of successes in percent, at double precision.
-/

namespace StorageTiering

/-- How one move has ended: failed with an error, or succeeded. -/
structure MoveResult where
  id : MoveId
  move : Move
  attempts : Nat
  failure : Option TransferError
  deriving DecidableEq, Repr

/-- What came of the moves of one dispatch. -/
structure DispatchReport where
  succeeded : List MoveResult
  failed : List MoveResult
  cancelled : Nat
  deriving DecidableEq, Repr

namespace MoveResult

/-- Whether the move has succeeded. -/
def isSuccess (r : MoveResult) : Bool := r.failure.isNone

/-- What is said of a task that broke down. -/
def brokenError : TransferError := .transport "move task failed"

/-- The result of a task that has succeeded. -/
def success? (t : Task) : Option MoveResult :=
  match t.phase with
  | .ended .succeeded => some ⟨t.id, t.move, t.attempts, none⟩
  | _ => none

/-- The result of a task that has failed. One that broke down does not tell its attempts. -/
def failure? (t : Task) : Option MoveResult :=
  match t.phase with
  | .ended (.failed e) => some ⟨t.id, t.move, t.attempts, some e⟩
  | .ended .broken => some ⟨t.id, t.move, 0, some brokenError⟩
  | _ => none

end MoveResult

namespace DispatchReport

/-- Nothing was dispatched. -/
def empty : DispatchReport := ⟨[], [], 0⟩

/-- The report of tasks that have ended. -/
def ofTasks (tasks : List Task) : DispatchReport where
  succeeded := tasks.filterMap MoveResult.success?
  failed := tasks.filterMap MoveResult.failure?
  cancelled := tasks.countP fun t => t.phase == .ended .cancelled

/-- The number of successful moves. -/
def moved (r : DispatchReport) : Nat := r.succeeded.length

/-- The bytes of the blocks that were moved. Their sum is held in eight bytes. -/
def totalBytes (r : DispatchReport) : Nat :=
  r.succeeded.foldl (fun total m => Text.held 8 (total + m.move.block.len)) 0

/-- The successes among so many moves in percent: all of none. -/
def rate (succeeded failed : Nat) : Text.Binary :=
  if succeeded + failed = 0 then Text.Binary.ofQuotient 100 1 0
  else (Text.Binary.div succeeded (succeeded + failed)).mul 100

/-- The share of successes in percent. -/
def successRate (r : DispatchReport) : Text.Binary := rate r.succeeded.length r.failed.length

/-- A dispatch in words, given its counts and how many nanoseconds it took. -/
def summary (succeeded failed cancelled bytes nanos : Nat) : String :=
  toString succeeded ++ " succeeded, " ++ toString failed ++ " failed, " ++ toString cancelled ++
    " cancelled, " ++ toString bytes ++ " bytes in " ++ Text.durationText nanos ++ " (" ++
    (rate succeeded failed).fixed 1 ++ "% success rate)"

end DispatchReport

end StorageTiering
