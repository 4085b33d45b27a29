import StorageTiering.Proofs.Cluster.Placement
/-!
# Names of storages

The name of a storage tells its node, in every cluster that comes about by its operations, and so does the
name in a replica, even if the node has been replaced since.

* `Cluster.Sited` — storages and replicas bear the names of their nodes, and free bytes fit.
* `Cluster.Reachable.sited` — every reachable cluster is sited.
* `Cluster.Sited.node_eq` — a replica on a storage of some name is on the node of that storage.
-/

namespace StorageTiering.Cluster

variable {c c' : Cluster} {m : Move} {node : NodeId} {storage : StorageId} {s : Store}

/-- The storages of every node bear its name and have no more free bytes than room, and every replica bears
the name of a storage of its node. -/
structure Sited (c : Cluster) : Prop extends Laid c where
  bounded : ∀ {node storage s}, c.store? node storage = some s → s.remaining ≤ s.capacity
  sited : ∀ b ∈ c.blocks, ∀ r ∈ b.replicas, ∃ i : Nat, r.storage = r.node ++ "-s" ++ toString i

theorem Sited.congr (h : c.Sited) (hn : c'.nodes = c.nodes) (hb : c'.blocks = c.blocks) : c'.Sited := by
  refine ⟨h.toLaid.congr (by rw [shape, shape, hn]), fun {node storage s} hs => ?_, hb ▸ h.sited⟩
  rw [store?, hn] at hs
  exact h.bounded hs

/-- The name of a storage that is there tells its node. -/
theorem Laid.name_store? (h : c.Laid) (hs : c.store? node storage = some s) :
    ∃ i : Nat, storage = node ++ "-s" ++ toString i := by
  obtain ⟨n, hn, hmem, rfl⟩ := store?_eq_some hs
  exact h.named _ hn s hmem

theorem Sited.addNode (h : c.Sited) (id : NodeId) (rack : String) (storages : List (StorageType × Nat)) :
    (c.addNode id rack storages).Sited :=
  ⟨h.toLaid.addNode id rack storages, remaining_le_addNode h.bounded, h.sited⟩

theorem Sited.addBlock (h : c.Sited) (path policy : String) (layout : Layout) (block : Block)
    (replicas : List (NodeId × StorageType)) :
    (c.addBlock path policy layout block replicas).1.Sited := by
  obtain ⟨hshape, hle, hplaced⟩ := placeReplicas_spec layout block.len h.toLaid h.bounded 0 replicas
  obtain ⟨nodes, hframe⟩ := placeReplicas_frame layout block.len c 0 replicas
  rw [Cluster.addBlock]
  split
  · exact h
  · split
    · rename_i c' e heq
      rw [heq] at hshape hle hframe
      subst hframe
      exact ⟨h.toLaid.congr hshape, hle, h.sited⟩
    · rename_i c' placed heq
      rw [heq] at hshape hle hframe hplaced
      subst hframe
      refine ⟨h.toLaid.congr hshape, hle, fun b hb r hr => ?_⟩
      rcases List.mem_append.1 hb with hb | hb
      · exact h.sited b hb r hr
      · obtain rfl := List.mem_singleton.1 hb
        obtain ⟨s, hs, -⟩ := hplaced placed rfl r hr
        exact h.toLaid.name_store? hs

/-- A replica after a move is one that has stayed or one that has arrived. -/
theorem mem_moveReplica {replicas : List Replica} {r : Replica} (h : r ∈ moveReplica m replicas) :
    r ∈ replicas ∨ ∃ x ∈ replicas, r = arrived m x := by
  induction replicas with
  | nil => cases h
  | cons x rest ih =>
    rw [moveReplica] at h
    split at h
    · rcases List.mem_cons.1 h with rfl | h
      · exact .inr ⟨x, List.mem_cons_self, rfl⟩
      · exact .inl (List.mem_cons_of_mem _ h)
    · rcases List.mem_cons.1 h with rfl | h
      · exact .inl List.mem_cons_self
      · rcases ih h with h | ⟨y, hy, he⟩
        · exact .inl (List.mem_cons_of_mem _ h)
        · exact .inr ⟨y, List.mem_cons_of_mem _ hy, he⟩

theorem Sited.relocate (h : c.Sited) (m : Move) : (c.relocate m).1.Sited := by
  cases he : c.relocationError? m with
  | some e =>
    rw [relocate_of_error he]
    exact h.congr rfl rfl
  | none =>
    have hshape := shape_relocate c m
    rw [relocate_of_none he] at hshape ⊢
    obtain ⟨-, -, b, -, -, -, target, htarget, -⟩ := relocationError?_eq_none_iff.1 he
    refine ⟨h.toLaid.congr hshape, fun hs => remaining_le_applyMove (c := c.called) h.bounded hs, ?_⟩
    intro b' hb' r hr
    obtain ⟨p, hp, rfl⟩ := List.mem_map.1 hb'
    split at hr
    · rcases mem_moveReplica hr with hr | ⟨x, -, rfl⟩
      · exact h.sited p hp r hr
      · exact h.toLaid.name_store? htarget
    · exact h.sited p hp r hr

theorem Sited.disturb (h : c.Sited) (d : Disturbance) : (d.apply c).Sited := by
  cases d with
  | addNode id rack storages => exact h.addNode id rack storages
  | _ => exact h.congr rfl rfl

/-- What comes about by the operations of a namespace is sited. -/
theorem Reachable.sited (h : c.Reachable) : c.Sited := by
  induction h with
  | empty id => exact ⟨(placed_empty id).toLaid, (placed_empty id).bounded, fun _ hb => nomatch hb⟩
  | addBlock _ path policy layout block replicas _ ih => exact ih.addBlock path policy layout block replicas
  | disturb _ d ih => exact ih.disturb d
  | @listPage c _ path cursor ih =>
    obtain ⟨grace, failures, he⟩ := listPage_frame c path cursor
    exact ih.congr (by rw [he]) (by rw [he])
  | relocate _ m ih => exact ih.relocate m
  | checkSatisfier _ ih => exact ih.congr rfl rfl
  | acquireLease _ holder ih =>
    rw [Cluster.acquireLease]
    split
    · exact ih
    · exact ih.congr rfl rfl
  | releaseLease _ serial ih =>
    rw [Cluster.releaseLease]
    split
    · exact ih.congr rfl rfl
    · exact ih

/-- A replica on a storage of some name is on the node of that storage. -/
theorem Sited.node_eq (h : c.Sited) {b : PlacedBlock} (hb : b ∈ c.blocks) {r : Replica}
    (hr : r ∈ b.replicas) (hs : c.store? node r.storage = some s) : node = r.node := by
  obtain ⟨i, hi⟩ := h.toLaid.name_store? hs
  obtain ⟨j, hj⟩ := h.sited b hb r hr
  exact (storeName_inj (hi.symm.trans hj)).1

end StorageTiering.Cluster
