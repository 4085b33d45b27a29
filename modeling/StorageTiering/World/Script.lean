import StorageTiering.Block
import StorageTiering.Service
/-!
# Scripts

Scripted answers that stand in front of a simulated cluster, with the delays of its services.

* `CallAnswer` — the answer to a listing or report.
* `AttemptAnswer`, `ScriptedAttempt` — the answer to one attempt at a relocation.
* `Script.nextAttempt` — the answer that is due for a block, and the script without it.
-/

namespace StorageTiering

/-- The scripted answer to a call of the metadata service. -/
inductive CallAnswer
  /-- The cluster answers. -/
  | pass
  | fail (error : ListingError)
  /-- The caller breaks down. -/
  | broke
  deriving DecidableEq, Repr, Inhabited

/-- The scripted answer to an attempt at a relocation. -/
inductive AttemptAnswer
  /-- Success, and the cluster stays as it is. -/
  | succeed
  /-- The cluster executes the move. -/
  | perform
  | fail (error : TransferError)
  /-- The task breaks down. -/
  | broke
  deriving DecidableEq, Repr, Inhabited

/-- An answer to one attempt, and how long it takes. -/
structure ScriptedAttempt where
  answer : AttemptAnswer
  delayMs : Nat
  deriving DecidableEq, Repr

/-- What stands in front of a simulated cluster. -/
structure Script where
  relocateDelayMs : Nat
  listingDelayMs : Nat
  reportDelayMs : Nat
  satisfier : CallAnswer
  /-- Why the lease cannot be acquired. -/
  acquireError : Option LeaseError
  /-- The lease cannot be given back. -/
  releaseFails : Bool
  /-- The answers to the next storage reports. -/
  reports : List CallAnswer
  /-- The answers to the next listings. -/
  listings : List CallAnswer
  /-- The answers to the next attempts, by block. -/
  attempts : List (BlockId × List ScriptedAttempt)
  /-- The answer to attempts that have none of their own. -/
  otherwise : AttemptAnswer
  deriving DecidableEq, Repr, Inhabited

namespace Script

/-- Nothing is scripted; the cluster answers at once. -/
def none : Script := ⟨0, 0, 0, .pass, .none, false, [], [], [], .perform⟩

/-- The script after one more attempt at a block. -/
def dropAttempt (block : BlockId) (attempts : List (BlockId × List ScriptedAttempt)) :
    List (BlockId × List ScriptedAttempt) :=
  attempts.map fun a => if a.1 == block then (a.1, a.2.tail) else a

/-- The answer to the next attempt at a block with its delay, and the script without it. -/
def nextAttempt (s : Script) (block : BlockId) : Script × AttemptAnswer × Nat :=
  match s.attempts.lookup block with
  | some (a :: _) =>
      ({ s with attempts := dropAttempt block s.attempts }, a.answer, a.delayMs)
  | _ => (s, s.otherwise, s.relocateDelayMs)

end Script

end StorageTiering
