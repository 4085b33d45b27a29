import StorageTiering.Cluster.Lease
/-!
# Disturbances

Changes of a simulated cluster that come from outside and always succeed.

* `Disturbance` — a change.
* `Disturbance.apply` — the cluster after it.
-/

namespace StorageTiering

/-- A change of a simulated cluster that comes from outside. -/
inductive Disturbance
  | addNode (id : NodeId) (rack : String) (storages : List (StorageType × Nat))
  | pageSize (size : Nat)
  | satisfier (active : Bool)
  | holdLease (holder : String) (bySatisfier : Bool)
  | rejectRenewal (rejects : Bool)
  | loseSource (block : BlockId)
  | refuse (type : StorageType)
  | failListings (count after : Nat)
  deriving DecidableEq, Repr

namespace Disturbance

/-- The cluster after a disturbance. -/
def apply (c : Cluster) : Disturbance → Cluster
  | .addNode id rack storages => c.addNode id rack storages
  | .pageSize size => c.setPageSize size
  | .satisfier active => c.setSatisfier active
  | .holdLease holder bySatisfier => c.holdLease holder bySatisfier
  | .rejectRenewal rejects => c.setRejectsRenewal rejects
  | .loseSource block => c.loseSource block
  | .refuse type => c.refuse type
  | .failListings count after => c.failListings count after

end Disturbance

end StorageTiering
