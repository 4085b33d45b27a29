import StorageTiering.Cluster.Listing
import StorageTiering.Cluster.Relocation
import StorageTiering.World.Basic
/-!
# Calls to a namespace

The calls of a run to its namespace: a delay first, then the scripted answer, and the cluster's own
where none is scripted.

* `World.checkSatisfier`, `World.acquireLease`, `World.releaseLease` — the frame of a run.
* `World.report`, `World.listPage` — what a scan reads.
* `World.beginAttempt`, `World.settleAttempt` — the two ends of a relocation.
-/

namespace StorageTiering

/-- Why a call gives no answer. -/
inductive CallFault
  | failed (error : ListingError)
  /-- The caller breaks down. -/
  | broke
  deriving DecidableEq, Repr

namespace World

/-- Asks whether the storage policy satisfier is active. -/
def checkSatisfier (w : World) : World × Except CallFault Bool :=
  match w.script.satisfier with
  | .pass =>
      let (cluster, active) := w.cluster.checkSatisfier
      ({ w with cluster := cluster }, .ok active)
  | .fail e => (w, .error (.failed e))
  | .broke => (w, .error .broke)

/-- Acquires the run lease for a holder, and renews it from then on. -/
def acquireLease (w : World) (holder : String) (intervalMs : Nat) :
    World × Except LeaseError LeaseToken :=
  match w.script.acquireError with
  | some e => (w, .error e)
  | none =>
      match w.cluster.acquireLease holder with
      | (cluster, .error e) => ({ w with cluster := cluster }, .error e)
      | (cluster, .ok token) =>
          ({ w with
              cluster := cluster,
              renewal := some ⟨token.serial, intervalMs, w.now + intervalMs⟩,
              lost := none },
           .ok token)

/-- Stops the renewals, and leaves the lease to its fate. -/
def dropLease (w : World) : World := { w with renewal := none }

/-- Stops the renewals and gives the lease back, unless it is lost. -/
def releaseLease (w : World) (token : LeaseToken) : World :=
  let w := w.dropLease
  if w.lost.isSome || w.script.releaseFails then w
  else { w with cluster := (w.cluster.releaseLease token.serial).1 }

/-- Asks for the storage reports of all nodes. -/
def report (w : World) : World × Except CallFault (List NodeReport) :=
  let w := w.wait w.script.reportDelayMs
  match w.script.reports with
  | [] => (w, .ok w.cluster.reports)
  | answer :: rest =>
      let w := { w with script := { w.script with reports := rest } }
      match answer with
      | .pass => (w, .ok w.cluster.reports)
      | .fail e => (w, .error (.failed e))
      | .broke => (w, .error .broke)

/-- Lets the cluster list one page of a path. -/
def listOnCluster (w : World) (path : String) (cursor : Option String) :
    World × Except CallFault Page :=
  match w.cluster.listPage path cursor with
  | (cluster, .ok page) => ({ w with cluster := cluster }, .ok page)
  | (cluster, .error e) => ({ w with cluster := cluster }, .error (.failed e))

/-- Lists one page of a path, from the start or behind a cursor. -/
def listPage (w : World) (path : String) (cursor : Option String) :
    World × Except CallFault Page :=
  let w := w.wait w.script.listingDelayMs
  match w.script.listings with
  | [] => w.listOnCluster path cursor
  | answer :: rest =>
      let w := { w with script := { w.script with listings := rest } }
      match answer with
      | .pass => w.listOnCluster path cursor
      | .fail e => (w, .error (.failed e))
      | .broke => (w, .error .broke)

/-- Starts an attempt at a move: the answer it will get, and how long that takes. -/
def beginAttempt (w : World) (m : Move) : World × AttemptAnswer × Nat :=
  let (script, answer, delay) := w.script.nextAttempt m.block.id
  ({ w with script := script }.note .start m, answer, delay)

/-- The note on an answered attempt. -/
def noteOf : Except TransferError Unit → Note
  | .ok () => .done
  | .error _ => .fail

/-- An attempt at a move gets its answer. -/
def settleAttempt (w : World) (m : Move) : AttemptAnswer → World × Outcome
  | .succeed => (w.note .done m, .answered (.ok ()))
  | .perform =>
      let (cluster, result) := w.cluster.relocate m
      ({ w with cluster := cluster }.note (noteOf result) m, .answered result)
  | .fail e => (w.note .fail m, .answered (.error e))
  | .broke => (w.note .cut m, .broke)

/-- An attempt at a move takes too long. -/
def timeOut (w : World) (m : Move) : World × Outcome :=
  (w.note .cut m, .answered (.error .timeout))

end World

end StorageTiering
