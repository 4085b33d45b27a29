import StorageTiering.Cluster.Relocation
import StorageTiering.Proofs.SortedTable
import StorageTiering.Proofs.Text.Digits
/-!
# What a relocation does

* `Store.refunded_eq` — bytes that are given back, as long as the sum fits into eight bytes.
* `Cluster.store?_setRemaining` — a change of free bytes reaches one storage of one node.
* `Cluster.relocationError?_eq_none_iff` — when a move is executed.
* `Cluster.relocate_of_error`, `Cluster.relocate_of_none` — a refused move changes nothing but the
  count of calls, and any other one is applied.
* `Cluster.store?_applyMove`, `Cluster.block?_applyMove` — the storages and blocks after a move.
* `Cluster.moveReplica_split` — of the replicas only the first one on the source storage has changed.
-/

namespace StorageTiering

namespace Store

variable {s : Store} {len : Nat}

theorem refunded_le_capacity (s : Store) (len : Nat) : s.refunded len ≤ s.capacity := Nat.min_le_right _ _

theorem refunded_le_add (s : Store) (len : Nat) : s.refunded len ≤ s.remaining + len :=
  Nat.le_trans (Nat.min_le_left _ _) (Text.held_le _ _)

/-- The bytes that are given back are cut off at the capacity alone, as long as the sum fits. -/
theorem refunded_eq (h : s.remaining + len < Text.byteBound 8) :
    s.refunded len = min (s.remaining + len) s.capacity := by
  rw [refunded, Text.held_of_lt h]

end Store

namespace Node

theorem store?_setRemaining (n : Node) (id other : StorageId) (f : Store → Nat) :
    (n.setRemaining id f).store? other =
      if other = id then (n.store? other).map fun s => { s with remaining := f s }
      else n.store? other := by
  obtain ⟨rack, stores⟩ := n
  induction stores with
  | nil => simp [setRemaining, store?]
  | cons s rest ih =>
    simp only [setRemaining, store?, List.map_cons, List.find?_cons] at ih ⊢
    by_cases hs : s.id = id <;> by_cases ho : s.id = other <;> grind

end Node

namespace Cluster

variable {c : Cluster} {m : Move} {e : TransferError}

/-- A change of free bytes reaches one storage of one node. -/
theorem store?_setRemaining (c : Cluster) (node other : NodeId) (id storage : StorageId)
    (f : Store → Nat) :
    (c.setRemaining node id f).store? other storage =
      if other = node ∧ storage = id then
        (c.store? other storage).map fun s => { s with remaining := f s }
      else c.store? other storage := by
  simp only [store?, setRemaining, SortedTable.find?_adjust]
  by_cases hn : other = node
  · cases c.nodes.find? other with
    | none => simp [hn]
    | some n => simp [hn, Node.store?_setRemaining]
  · simp [hn]

theorem block?_eq_some {id : BlockId} {b : PlacedBlock} (h : c.block? id = some b) :
    b ∈ c.blocks ∧ b.block.id = id :=
  ⟨List.mem_of_find?_eq_some h, by simpa using List.find?_some h⟩

/-! ### When a move is executed -/

theorem crowds_eq_false_iff (b : PlacedBlock) (m : Move) :
    crowds b m = false ↔ m.targetNode = m.source.node ∨ ∀ r ∈ b.replicas, r.node ≠ m.targetNode := by
  simp [crowds, or_iff_not_imp_left]

theorem targetError?_eq_none_iff : c.targetError? m = none ↔
    ∃ s, c.store? m.targetNode m.targetStorage = some s ∧ s.type = m.targetType ∧
      m.block.len ≤ s.remaining := by
  rw [targetError?]
  cases c.store? m.targetNode m.targetStorage with
  | none => simp
  | some s =>
    by_cases ht : s.type = m.targetType <;> by_cases hr : s.remaining < m.block.len
    all_goals
      simp [ht, hr]
      try omega

/-- A move is executed if the data is there, the type accepts replicas, the block has a replica on the
source storage and none on another target node, and the target storage has the type and the room. -/
theorem relocationError?_eq_none_iff : c.relocationError? m = none ↔
    m.block.id ∉ c.missing ∧ m.targetType ∉ c.refused ∧
      ∃ b, c.block? m.block.id = some b ∧ (∃ r ∈ b.replicas, r.storage = m.source.storage) ∧
        (m.targetNode = m.source.node ∨ ∀ r ∈ b.replicas, r.node ≠ m.targetNode) ∧
        ∃ s, c.store? m.targetNode m.targetStorage = some s ∧ s.type = m.targetType ∧
          m.block.len ≤ s.remaining := by
  rw [relocationError?, ← targetError?_eq_none_iff]
  by_cases hm : m.block.id ∈ c.missing
  · simp [hm]
  by_cases hr : m.targetType ∈ c.refused
  · simp [hm, hr]
  cases hb : c.block? m.block.id with
  | none => simp [hm, hr]
  | some b =>
    rw [if_neg hm, if_neg hr]
    simp only [hm, hr, not_false_eq_true, true_and, Option.some.injEq, exists_eq_left',
      ← crowds_eq_false_iff]
    by_cases hs : ∃ r ∈ b.replicas, r.storage = m.source.storage
    · have hany : (b.replicas.any fun r => r.storage == m.source.storage) = true := by
        simpa using hs
      cases hc : crowds b m <;> simp [hany, hs]
    · have hany : (b.replicas.any fun r => r.storage == m.source.storage) = false := by
        simpa using hs
      simp [hany, hs]

/-- The cluster after one more call to relocate. -/
def called (c : Cluster) : Cluster := { c with relocateCalls := c.relocateCalls + 1 }

@[simp] theorem store?_called (c : Cluster) (node : NodeId) (storage : StorageId) :
    c.called.store? node storage = c.store? node storage := rfl

@[simp] theorem block?_called (c : Cluster) (id : BlockId) : c.called.block? id = c.block? id := rfl

/-- A refused move changes nothing but the count of calls. -/
theorem relocate_of_error (h : c.relocationError? m = some e) :
    c.relocate m = (c.called, .error e) := by
  have h' : c.called.relocationError? m = some e := h
  rw [called] at h'
  simp only [relocate, h', called]

/-- A move that is not refused is applied. -/
theorem relocate_of_none (h : c.relocationError? m = none) :
    c.relocate m = (c.called.applyMove m, .ok ()) := by
  have h' : c.called.relocationError? m = none := h
  rw [called] at h'
  simp only [relocate, h', called]

theorem relocate_ok_iff : (c.relocate m).2 = .ok () ↔ c.relocationError? m = none := by
  cases h : c.relocationError? m with
  | none => simp [relocate_of_none h]
  | some e => simp [relocate_of_error h]

/-! ### The cluster after a move -/

/-- The target loses bytes, the source gets them back, and no other storage changes. -/
theorem store?_applyMove (c : Cluster) (m : Move) (node : NodeId) (storage : StorageId) :
    (c.applyMove m).store? node storage =
      (c.store? node storage).map fun s =>
        let s := if node = m.targetNode ∧ storage = m.targetStorage
          then { s with remaining := s.remaining - m.block.len } else s
        if node = m.source.node ∧ storage = m.source.storage
          then { s with remaining := s.refunded m.block.len } else s := by
  have hstore : (c.applyMove m).store? node storage =
      ((c.setRemaining m.targetNode m.targetStorage fun s => s.remaining - m.block.len).setRemaining
        m.source.node m.source.storage fun s => s.refunded m.block.len).store? node storage := rfl
  rw [hstore, store?_setRemaining, store?_setRemaining]
  cases c.store? node storage with
  | none => simp
  | some s => split <;> split <;> simp [*]

/-- The block of a move has its replicas moved, and no other block changes. -/
theorem block?_applyMove (c : Cluster) (m : Move) (id : BlockId) :
    (c.applyMove m).block? id =
      (c.block? id).map fun b =>
        if id = m.block.id then { b with replicas := moveReplica m b.replicas } else b := by
  simp only [block?, applyMove, List.find?_map]
  have hkey : ((fun b : PlacedBlock => b.block.id == id) ∘ fun b =>
      if b.block.id == m.block.id then { b with replicas := moveReplica m b.replicas } else b) =
        fun b : PlacedBlock => b.block.id == id := by
    funext b
    simp only [Function.comp_apply]
    split <;> rfl
  rw [hkey]
  cases h : c.blocks.find? fun b => b.block.id == id with
  | none => simp [setRemaining, h]
  | some b =>
    have hid : b.block.id = id := by simpa using List.find?_some h
    simp [setRemaining, h, hid]

theorem map_id_applyMove (c : Cluster) (m : Move) :
    ((c.applyMove m).blocks.map fun b => b.block.id) = c.blocks.map fun b => b.block.id := by
  simp only [applyMove, setRemaining, List.map_map]
  refine List.map_congr_left fun b _ => ?_
  simp only [Function.comp_apply]
  split <;> rfl

/-- A replica that has gone to the target of a move. -/
def arrived (m : Move) (r : Replica) : Replica :=
  { r with node := m.targetNode, type := m.targetType, storage := m.targetStorage }

/-- Of the replicas of a block only the first one on the source storage is in another place. -/
theorem moveReplica_split {replicas : List Replica}
    (h : ∃ r ∈ replicas, r.storage = m.source.storage) :
    ∃ front r back, replicas = front ++ r :: back ∧ r.storage = m.source.storage ∧
      (∀ x ∈ front, x.storage ≠ m.source.storage) ∧
      moveReplica m replicas = front ++ arrived m r :: back := by
  induction replicas with
  | nil => obtain ⟨_, hr, _⟩ := h; cases hr
  | cons r rest ih =>
    by_cases hr : r.storage = m.source.storage
    · exact ⟨[], r, rest, rfl, hr, fun _ hx => (nomatch hx), by simp [moveReplica, hr, arrived]⟩
    · obtain ⟨x, hx, hxs⟩ := h
      have hx' : x ∈ rest := (List.mem_cons.1 hx).resolve_left fun he => hr (he ▸ hxs)
      obtain ⟨front, y, back, rfl, hy, hfront, he⟩ := ih ⟨x, hx', hxs⟩
      refine ⟨r :: front, y, back, rfl, hy, ?_, by simp [moveReplica, hr, he]⟩
      intro z hz
      rcases List.mem_cons.1 hz with rfl | hz
      · exact hr
      · exact hfront z hz

end Cluster

end StorageTiering
