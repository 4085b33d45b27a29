import StorageTiering.Policy
/-!
# Missing and surplus types

The difference between the storage types that a block needs and the ones it has.

* `cancel` — takes every type that is on both sides away, one for one.
* `Difference.between` — what is left of the types that may be moved.
* `Difference.isSettled` — nothing can be moved, because one side is empty.
-/

namespace StorageTiering

/-- Cancels the types present against the types needed, one for one and in the order of the types
present: what is still needed, and what is held beyond it. -/
def cancel : List StorageType → List StorageType → List StorageType × List StorageType
  | needed, [] => (needed, [])
  | needed, t :: present =>
      if t ∈ needed then cancel (needed.erase t) present
      else ((cancel needed present).1, t :: (cancel needed present).2)

/-- The types a block still misses and the ones it holds in surplus. -/
structure Difference where
  /-- Types still missing: the targets of moves. -/
  missing : List StorageType
  /-- Types held in surplus: the sources of moves. -/
  surplus : List StorageType
  deriving DecidableEq, Repr

namespace Difference

/-- What is left on either side once common types are cancelled and only movable ones are kept. -/
def between (needed present : List StorageType) : Difference :=
  ⟨(cancel needed present).1.filter StorageType.isMovable,
   (cancel needed present).2.filter StorageType.isMovable⟩

/-- Whether no replica can be moved towards what is needed. -/
def isSettled (d : Difference) : Bool := d.missing.isEmpty || d.surplus.isEmpty

/-- How many moves would bring the block as close to what it needs as it can get. -/
def deficit (d : Difference) : Nat := min d.missing.length d.surplus.length

end Difference

end StorageTiering
