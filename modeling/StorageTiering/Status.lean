/-!
# Exit statuses

Every run ends in exactly one status, with a code that scripts can rely on.

* `Status.code`, `Status.name`, `Status.reason`, `Status.text` — what is shown of a status.
* `Status.severity`, `Status.worst` — how the statuses of several namespaces are joined.
-/

namespace StorageTiering

/-- The outcome of a run. -/
inductive Status
  /-- Every block satisfies its storage policy. -/
  | success
  /-- Another mover holds the lease of the namespace. -/
  | alreadyRunning (holder : String)
  /-- Blocks need moving but no destination could be found for any of them. -/
  | noMoveBlock (unsatisfiable : Nat)
  /-- Moves kept failing without progress. -/
  | noMoveProgress (iterations : Nat)
  /-- A listing, the lease or another service failed. -/
  | serviceFailure (text : String)
  | illegalArguments (text : String)
  | interrupted
  /-- The storage policy satisfier is active for the namespace. -/
  | skipped
  deriving DecidableEq, Repr, Inhabited

namespace Status

/-- The stable code of a status. -/
def code : Status → Int
  | .success => 0
  | .alreadyRunning _ => -1
  | .noMoveBlock _ => -2
  | .noMoveProgress _ => -3
  | .serviceFailure _ => -4
  | .illegalArguments _ => -5
  | .interrupted => -6
  | .skipped => -8

/-- The stable name of a status. -/
def name : Status → String
  | .success => "SUCCESS"
  | .alreadyRunning _ => "ALREADY_RUNNING"
  | .noMoveBlock _ => "NO_MOVE_BLOCK"
  | .noMoveProgress _ => "NO_MOVE_PROGRESS"
  | .serviceFailure _ => "IO_EXCEPTION"
  | .illegalArguments _ => "ILLEGAL_ARGUMENTS"
  | .interrupted => "INTERRUPTED"
  | .skipped => "SKIPPED_DUE_TO_SPS"

/-- A status in words. -/
def reason : Status → String
  | .success => "all blocks satisfy the specified storage policy"
  | .alreadyRunning holder => "another mover (" ++ holder ++ ") is running on this namespace"
  | .noMoveBlock unsatisfiable => toString unsatisfiable ++ " block(s) can't be moved"
  | .noMoveProgress iterations =>
      "failed to move some blocks after " ++ toString iterations ++
        " iteration(s) without progress"
  | .serviceFailure text => "I/O failure: " ++ text
  | .illegalArguments text => "illegal arguments: " ++ text
  | .interrupted => "interrupted"
  | .skipped => "storage policy satisfier is running, mover skipped"

/-- The rank of a status among those of several namespaces; a higher one is worse. -/
def severity : Status → Nat
  | .success => 0
  | .skipped => 1
  | .noMoveBlock _ => 2
  | .noMoveProgress _ => 3
  | _ => 4

/-- Whether every block satisfies its policy. -/
def isSuccess (s : Status) : Bool := s == .success

/-- Whether a run could not do its work at all. -/
def isFatal (s : Status) : Bool := s.severity == 4

/-- The worse of two statuses, the first of equals. -/
def worst (a b : Status) : Status := if a.severity < b.severity then b else a

/-- Name, code and reason. -/
def text (s : Status) : String := s.name ++ " (" ++ toString s.code ++ "): " ++ s.reason

end Status

end StorageTiering
