import StorageTiering.Cluster.Basic
import StorageTiering.Text.Digits
/-!
# Relocation

The execution of a move on a simulated cluster: the first replica of the block on the source storage
goes to the target storage, and its bytes with it.

* `Cluster.relocationError?` — why a move is refused, the first reason of several.
* `Store.refunded` — the free bytes of a storage that gets bytes back.
* `Cluster.applyMove` — the cluster after a move that is not refused.
* `Cluster.relocate` — one call.
-/

namespace StorageTiering

/-- The free bytes of a storage that gets bytes back, up to its capacity. The sum is held in eight
bytes. -/
def Store.refunded (s : Store) (len : Nat) : Nat := min (Text.held 8 (s.remaining + len)) s.capacity

namespace Cluster

/-- Why the target storage cannot take a move. -/
def targetError? (c : Cluster) (m : Move) : Option TransferError :=
  match c.store? m.targetNode m.targetStorage with
  | none => some (.transport ("unknown target storage " ++ m.targetStorage))
  | some s =>
      if s.type ≠ m.targetType then
        some (.refused (s.id ++ " is " ++ s.type.name ++ ", not " ++ m.targetType.name))
      else if s.remaining < m.block.len then some (.refused (s.id ++ " is full"))
      else none

/-- Whether a move would put a second replica of a block on a node. -/
def crowds (b : PlacedBlock) (m : Move) : Bool :=
  m.targetNode != m.source.node && b.replicas.any fun r => r.node == m.targetNode

/-- Why a move is refused, the first reason of several. -/
def relocationError? (c : Cluster) (m : Move) : Option TransferError :=
  if m.block.id ∈ c.missing then
    some (.sourceMissing (BlockId.text m.block.id ++ " not found on " ++ m.source.text))
  else if m.targetType ∈ c.refused then
    some (.refused (m.targetType.name ++ " storage does not accept replicas"))
  else match c.block? m.block.id with
    | none => some (.sourceMissing (BlockId.text m.block.id))
    | some b =>
        if !b.replicas.any fun r => r.storage == m.source.storage then
          some (.sourceMissing
            (BlockId.text m.block.id ++ " has no replica on " ++ m.source.text))
        else if crowds b m then
          some (.refused
            (m.targetNode ++ " already holds a replica of " ++ BlockId.text m.block.id))
        else c.targetError? m

/-- Replicas of which the first on the source storage of a move is at its target. -/
def moveReplica (m : Move) : List Replica → List Replica
  | [] => []
  | r :: rest =>
      if r.storage = m.source.storage then
        { r with node := m.targetNode, type := m.targetType, storage := m.targetStorage } :: rest
      else r :: moveReplica m rest

/-- The cluster after a move: the bytes go from target to source, and one replica is in another
place. -/
def applyMove (c : Cluster) (m : Move) : Cluster :=
  let c := c.setRemaining m.targetNode m.targetStorage fun s => s.remaining - m.block.len
  let c := c.setRemaining m.source.node m.source.storage fun s => s.refunded m.block.len
  { c with
    blocks := c.blocks.map fun b =>
      if b.block.id == m.block.id then { b with replicas := moveReplica m b.replicas } else b }

/-- Executes a move. -/
def relocate (c : Cluster) (m : Move) : Cluster × Except TransferError Unit :=
  let c := { c with relocateCalls := c.relocateCalls + 1 }
  match c.relocationError? m with
  | some e => (c, .error e)
  | none => (c.applyMove m, .ok ())

end Cluster

end StorageTiering
