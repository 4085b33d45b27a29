import StorageTiering.Move
import StorageTiering.Proofs.Difference
/-!
# How far a block is from its policy

* `ListedBlock.difference?` — what a block misses and holds in surplus, if a policy applies to it.
* `ListedBlock.Settled` — a sound record of a block that has nothing to move.
* `ListedBlock.shortfall` — the number of moves that are left for a block.
* `ListedBlock.Aims` — moves of a block that take surplus types to missing ones.
-/

namespace StorageTiering

namespace Move

/-- The moves of a block. -/
def ofBlock (id : BlockId) (ms : List Move) : List Move := ms.filter fun m => m.block.id == id

variable {ms ms' : List Move} {id : BlockId}

theorem ofBlock_append (id : BlockId) (ms ms' : List Move) :
    ofBlock id (ms ++ ms') = ofBlock id ms ++ ofBlock id ms' := List.filter_append ms ms'

theorem ofBlock_eq_self (h : ∀ m ∈ ms, m.block.id = id) : ofBlock id ms = ms :=
  List.filter_eq_self.2 fun m hm => by simpa using h m hm

theorem ofBlock_eq_nil (h : ∀ m ∈ ms, m.block.id ≠ id) : ofBlock id ms = [] :=
  List.filter_eq_nil_iff.2 fun m hm => by simpa using h m hm

end Move

namespace ListedBlock

variable {suite : Suite} {b : ListedBlock} {ms ms' : List Move}

/-- What a block misses and holds in surplus, if a policy of the suite applies to it. -/
def difference? (suite : Suite) (b : ListedBlock) : Option Difference :=
  match suite.resolve b.policy b.layout with
  | .ok (.required types) => some (.between types b.types)
  | _ => none

/-- A record without a fault of a block that has nothing to move: its policy does not apply to its
layout, or one side of its difference is empty. -/
def Settled (suite : Suite) (b : ListedBlock) : Prop :=
  b.Valid ∧ ((∃ policy, suite.resolve b.policy b.layout = .ok (.untouched policy)) ∨
    ∃ types, suite.resolve b.policy b.layout = .ok (.required types) ∧
      (Difference.between types b.types).isSettled)

/-- The number of moves that are left for a block: none if no policy applies to it. -/
def shortfall (suite : Suite) (b : ListedBlock) : Nat :=
  match b.difference? suite with
  | some d => d.deficit
  | none => 0

/-- The moves of a block take surplus types to missing ones, each one of its own. -/
def Aims (suite : Suite) (b : ListedBlock) (ms : List Move) : Prop :=
  Move.ofBlock b.block.id ms = [] ∨ ∃ d, b.difference? suite = some d ∧
    ((Move.ofBlock b.block.id ms).map Move.targetType).Subperm d.missing ∧
    ((Move.ofBlock b.block.id ms).map fun m => m.source.type).Subperm d.surplus

theorem Aims.congr (h : b.Aims suite ms)
    (he : Move.ofBlock b.block.id ms' = Move.ofBlock b.block.id ms) : b.Aims suite ms' := by
  rw [Aims, he]
  exact h

end ListedBlock

end StorageTiering
