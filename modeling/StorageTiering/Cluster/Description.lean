import StorageTiering.Cluster.Lease
/-!
# Descriptions of clusters

What a file that describes a simulated cluster says, and the cluster it describes.

* `ClusterDescription` — nodes, files and faults.
* `ClusterDescription.build` — the cluster, or why a block of it cannot be placed.
-/

namespace StorageTiering

/-- A storage of a described node. -/
structure StoreDescription where
  type : StorageType
  capacity : Nat
  deriving DecidableEq, Repr, Inhabited

/-- A described data node. -/
structure NodeDescription where
  id : NodeId
  rack : String
  storages : List StoreDescription
  deriving DecidableEq, Repr, Inhabited

namespace NodeDescription

/-- The rack of nodes that declare none. -/
def standardRack : String := "/default-rack"

end NodeDescription

/-- The place of a replica of a described block. -/
structure ReplicaDescription where
  node : NodeId
  type : StorageType
  deriving DecidableEq, Repr, Inhabited

/-- A described block. -/
structure BlockDescription where
  id : BlockId
  len : Nat
  generation : Nat
  replicas : List ReplicaDescription
  deriving DecidableEq, Repr, Inhabited

/-- A described file; one without a layout has the standard layout. -/
structure FileDescription where
  path : String
  policy : String
  layout : Option Layout
  blocks : List BlockDescription
  deriving DecidableEq, Repr, Inhabited

/-- The faults of a described cluster. -/
structure FaultDescription where
  satisfierActive : Bool
  /-- Who holds the lease from the start. -/
  leaseHolder : Option String
  leaseHolderIsSatisfier : Bool
  rejectsRenewal : Bool
  missing : List BlockId
  refused : List StorageType
  /-- Listing calls that fail before listings work. -/
  listingFailures : Nat
  deriving DecidableEq, Repr, Inhabited

namespace FaultDescription

/-- No fault. -/
def none : FaultDescription := ⟨false, .none, false, false, [], [], 0⟩

end FaultDescription

/-- What is said of a cluster. -/
structure ClusterDescription where
  namespaceId : NamespaceId
  pageSize : Option Nat
  nodes : List NodeDescription
  files : List FileDescription
  faults : FaultDescription
  deriving DecidableEq, Repr, Inhabited

namespace NodeDescription

/-- The cluster with a described node. -/
def addTo (c : Cluster) (n : NodeDescription) : Cluster :=
  c.addNode n.id n.rack (n.storages.map fun s => (s.type, s.capacity))

end NodeDescription

namespace FileDescription

/-- The cluster with described blocks of a file, up to the first that cannot be placed. -/
def addBlocks (f : FileDescription) :
    Cluster → List BlockDescription → Except PlacementError Cluster
  | c, [] => .ok c
  | c, b :: rest =>
      match c.addBlock f.path f.policy (f.layout.getD Layout.standard) ⟨b.id, b.len, b.generation⟩
          (b.replicas.map fun r => (r.node, r.type)) with
      | (_, .error e) => .error e
      | (c, .ok ()) => addBlocks f c rest

/-- The cluster with described files, up to the first block that cannot be placed. -/
def addAll : Cluster → List FileDescription → Except PlacementError Cluster
  | c, [] => .ok c
  | c, f :: rest =>
      match addBlocks f c f.blocks with
      | .error e => .error e
      | .ok c => addAll c rest

end FileDescription

namespace FaultDescription

/-- The cluster with the described faults. -/
def addTo (f : FaultDescription) (c : Cluster) : Cluster :=
  let c := c.setSatisfier f.satisfierActive
  let c := match f.leaseHolder with
    | some holder => c.holdLease holder f.leaseHolderIsSatisfier
    | .none => c
  let c := c.setRejectsRenewal f.rejectsRenewal
  let c := f.missing.foldl Cluster.loseSource c
  let c := f.refused.foldl Cluster.refuse c
  c.failListings f.listingFailures 0

end FaultDescription

namespace ClusterDescription

/-- The described cluster: nodes first, then files with their blocks, and faults last. -/
def build (d : ClusterDescription) : Except PlacementError Cluster :=
  let c := Cluster.empty d.namespaceId
  let c := match d.pageSize with
    | some size => c.setPageSize size
    | none => c
  let c := d.nodes.foldl NodeDescription.addTo c
  match FileDescription.addAll c d.files with
  | .error e => .error e
  | .ok c => .ok (d.faults.addTo c)

end ClusterDescription

end StorageTiering
