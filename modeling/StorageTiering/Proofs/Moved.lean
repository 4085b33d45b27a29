import StorageTiering.Proofs.Cluster.Plan
import StorageTiering.Proofs.Difference
import Mathlib.Data.Finset.Card
import Mathlib.Data.List.Pairwise
/-!
# Records whose replicas have moved

What the record of a block becomes when moves of its replicas are carried out.

* `ListedBlock.valid_iff` — when a record has no fault.
* `ListedBlock.moved`, `ListedBlock.movedInTurn` — the record after several moves, all at once and one
  after another.
* `ListedBlock.Plans` — moves of replicas in surplus to missing types that are apart from each other.
* `ListedBlock.Plans.movedInTurn_eq` — the order of such moves does not matter.
* `ListedBlock.Plans.countOn_le`, `ListedBlock.Plans.card_nodes_le` — they crowd no node, and the block is
  on as many nodes as before.
* `ListedBlock.Plans.types_perm` — what they do to the types of the replicas.
-/

namespace StorageTiering

/-! ### Records without a fault -/

namespace Replica

theorem pieceFault?_eq_none_iff {layout : Layout} {r : Replica} : r.pieceFault? layout = none ↔
    (layout.isStriped → ∃ i, r.piece = some i ∧ i < layout.slots) := by
  rw [pieceFault?]
  cases layout.isStriped with
  | false => simp
  | true => cases r.piece <;> simp

theorem firstFault?_eq_none_iff (layout : Layout) (before : List StorageId) (replicas : List Replica) :
    firstFault? layout before replicas = none ↔
      (∀ r ∈ replicas, r.storage ∉ before) ∧ (replicas.map storage).Nodup ∧
        ∀ r ∈ replicas, r.pieceFault? layout = none := by
  induction replicas generalizing before with
  | nil => simp [firstFault?]
  | cons r rest ih =>
    rw [firstFault?]
    by_cases hr : r.storage ∈ before
    · simp [hr]
    · cases hp : r.pieceFault? layout with
      | some fault => simp [hr, hp]
      | none =>
        rw [if_neg hr]
        simp only [ih, List.mem_cons, not_or, List.map_cons, List.nodup_cons, List.mem_map, not_exists,
          not_and, forall_eq_or_imp, hr, hp, not_false_eq_true, true_and]
        exact ⟨fun ⟨hb, hn, hf⟩ => ⟨fun x hx => (hb x hx).2, ⟨fun x hx => (hb x hx).1, hn⟩, hf⟩,
          fun ⟨hb, ⟨hs, hn⟩, hf⟩ => ⟨fun x hx => ⟨hs x hx, hb x hx⟩, hn, hf⟩⟩

end Replica

namespace ListedBlock

/-- A record has no fault if its layout has none, no storage is listed twice, and every piece has an
index of the layout. -/
theorem valid_iff {b : ListedBlock} : b.Valid ↔ b.layout.fault? = none ∧
    (b.replicas.map Replica.storage).Nodup ∧ ∀ r ∈ b.replicas, r.pieceFault? b.layout = none := by
  rw [Valid, fault?]
  cases b.layout.fault? with
  | some fault => simp
  | none => simp [Replica.firstFault?_eq_none_iff]

theorem Valid.storages {b : ListedBlock} (h : b.Valid) : (b.replicas.map Replica.storage).Nodup :=
  (valid_iff.1 h).2.1

variable {b : ListedBlock} {needed : List StorageType} {ms ms' done : List Move} {m m' : Move}
  {r : Replica}

/-! ### Moves carried out on a record -/

/-- The first of several moves that starts from a replica of a block. -/
def moveOf? (b : ListedBlock) (ms : List Move) (r : Replica) : Option Move :=
  ms.find? fun m => m.block.id == b.block.id && m.source == r

/-- Where a replica of a block is once moves are carried out. -/
def placeAfter (b : ListedBlock) (ms : List Move) (r : Replica) : Replica :=
  match b.moveOf? ms r with
  | some m => Cluster.arrived m r
  | none => r

/-- The record of a block once moves are carried out: every replica from which one of them starts is at
its target. -/
def moved (b : ListedBlock) (ms : List Move) : ListedBlock :=
  { b with replicas := b.replicas.map (b.placeAfter ms) }

/-- The record of a block once moves are carried out one after another. -/
def movedInTurn (b : ListedBlock) : List Move → ListedBlock
  | [] => b
  | m :: rest => (b.moved [m]).movedInTurn rest

/-- The number of replicas on a node. -/
def countOn (b : ListedBlock) (node : NodeId) : Nat := b.replicas.countP fun r => r.node == node

/-- The nodes that hold a replica. -/
def nodes (b : ListedBlock) : Finset NodeId := (b.replicas.map Replica.node).toFinset

theorem mem_nodes {node : NodeId} : node ∈ b.nodes ↔ ∃ r ∈ b.replicas, r.node = node := by
  simp [nodes]

theorem moveOf?_eq_none_iff :
    b.moveOf? ms r = none ↔ ∀ m ∈ ms, m.block.id = b.block.id → m.source ≠ r := by
  simp [moveOf?]

theorem moveOf?_eq_some (h : b.moveOf? ms r = some m) :
    m ∈ ms ∧ m.block.id = b.block.id ∧ m.source = r := by
  have hp := List.find?_some h
  simp only [Bool.and_eq_true, beq_iff_eq] at hp
  exact ⟨List.mem_of_find?_eq_some h, hp⟩

theorem placeAfter_of_none (h : ∀ m ∈ ms, m.block.id = b.block.id → m.source ≠ r) :
    b.placeAfter ms r = r := by
  rw [placeAfter, moveOf?_eq_none_iff.2 h]

/-- A replica is where it was, or at the target of a move that starts from it. -/
theorem placeAfter_cases (b : ListedBlock) (ms : List Move) (r : Replica) :
    (b.moveOf? ms r = none ∧ b.placeAfter ms r = r) ∨
      ∃ m ∈ ms, m.block.id = b.block.id ∧ m.source = r ∧ b.placeAfter ms r = Cluster.arrived m r := by
  rw [placeAfter]
  cases h : b.moveOf? ms r with
  | none => exact .inl ⟨rfl, rfl⟩
  | some m =>
    obtain ⟨hm, hid, hs⟩ := moveOf?_eq_some h
    exact .inr ⟨m, hm, hid, hs, rfl⟩

@[simp] theorem moved_nil (b : ListedBlock) : b.moved [] = b := by
  have hplace : b.placeAfter [] = id := funext fun r => placeAfter_of_none fun _ hm => nomatch hm
  rw [moved, hplace, List.map_id]

/-! ### Planned moves -/

/-- A move of a replica in surplus to a missing type, on the replica's own node or on one without a
replica of the block. -/
structure Carries (b : ListedBlock) (needed : List StorageType) (m : Move) : Prop where
  valid : b.Valid
  source : m.source ∈ b.replicas
  surplus : m.source.type ∈ (Difference.between needed b.types).surplus
  missing : m.targetType ∈ (Difference.between needed b.types).missing
  elsewhere : m.targetStorage ≠ m.source.storage
  spread : m.targetNode = m.source.node ∨ ∀ r ∈ b.replicas, r.node ≠ m.targetNode

/-- Moves of which those of a block are such moves, and none gets in the way of another. -/
structure Plans (b : ListedBlock) (needed : List StorageType) (ms : List Move) : Prop where
  carries : ∀ m ∈ ms, m.block.id = b.block.id → b.Carries needed m
  apart : ms.Pairwise Move.Apart

namespace Plans

theorem perm (h : b.Plans needed ms) (hp : ms.Perm ms') : b.Plans needed ms' where
  carries := fun m hm => h.carries m (hp.mem_iff.2 hm)
  apart := (hp.pairwise_iff Move.Apart.symm).1 h.apart

theorem sublist (h : b.Plans needed ms) (hs : ms'.Sublist ms) : b.Plans needed ms' where
  carries := fun m hm => h.carries m (hs.subset hm)
  apart := h.apart.sublist hs

theorem subperm (h : b.Plans needed ms) (hs : ms'.Subperm ms) : b.Plans needed ms' := by
  obtain ⟨sub, hperm, hsub⟩ := hs
  exact (h.sublist hsub).perm hperm

/-- Two moves of a block that start on one storage, or end on one node, are the same. -/
theorem eq_of_common (h : b.Plans needed ms) (hm : m ∈ ms) (hm' : m' ∈ ms)
    (hid : m.block.id = m'.block.id)
    (hc : m.source.storage = m'.source.storage ∨ m.targetNode = m'.targetNode) : m = m' := by
  by_contra hne
  have : Std.Symm Move.Apart := ⟨fun _ _ => Move.Apart.symm⟩
  obtain ⟨hs, ht⟩ := h.apart.forall hm hm' hne hid
  exact hc.elim hs ht

theorem placeAfter_source (h : b.Plans needed ms) (hm : m ∈ ms) (hid : m.block.id = b.block.id) :
    b.placeAfter ms m.source = Cluster.arrived m m.source := by
  rcases b.placeAfter_cases ms m.source with ⟨hnone, -⟩ | ⟨m', hm', hid', hs, he⟩
  · exact absurd rfl (moveOf?_eq_none_iff.1 hnone m hm hid)
  · obtain rfl := h.eq_of_common hm hm' (hid.trans hid'.symm) (.inl (congrArg Replica.storage hs.symm))
    exact he

/-- A replica that is to be moved has a type in surplus, and no replica arrives with such a type. -/
theorem arrived_ne_source (h : b.Plans needed ms) (hm : m ∈ ms) (hm' : m' ∈ ms)
    (hid : m.block.id = b.block.id) (hid' : m'.block.id = b.block.id) (r : Replica) :
    Cluster.arrived m r ≠ m'.source := by
  intro he
  have ht : m.targetType = m'.source.type := congrArg Replica.type he
  exact Difference.not_mem_surplus (h.carries m hm hid).missing (ht ▸ (h.carries m' hm' hid').surplus)

/-- No other move starts from the replica of the last one. -/
theorem source_ne_last (h : b.Plans needed (done ++ [m])) (hid : m.block.id = b.block.id) :
    ∀ m' ∈ done, m'.block.id = b.block.id → m'.source ≠ m.source := by
  obtain ⟨-, -, hapart⟩ := List.pairwise_append.1 h.apart
  intro m' hm' hid' hs
  exact (hapart m' hm' m List.mem_cons_self (hid'.trans hid.symm)).1 (congrArg Replica.storage hs)

/-- One more move takes its replica to its target, and leaves the others where they are. -/
theorem placeAfter_append (h : b.Plans needed (done ++ [m])) (hid : m.block.id = b.block.id)
    (r : Replica) : b.placeAfter (done ++ [m]) r =
      if r = m.source then Cluster.arrived m r else b.placeAfter done r := by
  split
  · rename_i hr
    subst hr
    have hnone : b.moveOf? done m.source = none := moveOf?_eq_none_iff.2 (h.source_ne_last hid)
    have hsome : b.moveOf? (done ++ [m]) m.source = some m := by
      rw [moveOf?, List.find?_append, ← moveOf?, hnone]
      simp [hid]
    rw [placeAfter, hsome]
  · rename_i hr
    have hsame : b.moveOf? (done ++ [m]) r = b.moveOf? done r := by
      rw [moveOf?, List.find?_append, ← moveOf?]
      simp [Ne.symm hr]
    rw [placeAfter, hsame, ← placeAfter]

/-- A move of another block leaves a record as it is. -/
theorem moved_append_of_ne (done : List Move) (hid : m.block.id ≠ b.block.id) :
    b.moved (done ++ [m]) = b.moved done := by
  have hplace : b.placeAfter (done ++ [m]) = b.placeAfter done := by
    funext r
    rw [placeAfter, placeAfter, moveOf?, List.find?_append, ← moveOf?]
    simp [hid]
  rw [moved, moved, hplace]

/-- One more move is carried out on the record as the others have left it. -/
theorem moved_moved (h : b.Plans needed (done ++ [m])) :
    (b.moved done).moved [m] = b.moved (done ++ [m]) := by
  by_cases hid : m.block.id = b.block.id
  · have hm : m ∈ done ++ [m] := List.mem_append_right _ List.mem_cons_self
    have hreplicas : (b.replicas.map (b.placeAfter done)).map ((b.moved done).placeAfter [m]) =
        b.replicas.map (b.placeAfter (done ++ [m])) := by
      rw [List.map_map]
      refine List.map_congr_left fun r _ => ?_
      have hone : ∀ x, (b.moved done).placeAfter [m] x =
          if x = m.source then Cluster.arrived m x else x := by
        intro x
        by_cases hx : x = m.source
        · simp [placeAfter, moveOf?, hid, hx, moved]
        · rw [if_neg hx]
          exact placeAfter_of_none fun m' hm' _ hs => hx (List.mem_singleton.1 hm' ▸ hs.symm)
      rw [Function.comp_apply, hone, h.placeAfter_append hid]
      rcases b.placeAfter_cases done r with ⟨-, he⟩ | ⟨m', hm', hid', hs, he⟩
      · rw [he]
      · -- a replica that has arrived is none that the move starts from
        have hne : Cluster.arrived m' r ≠ m.source :=
          h.arrived_ne_source (List.mem_append_left _ hm') hm hid' hid r
        have hr : r ≠ m.source := fun hr => h.source_ne_last hid m' hm' hid' (hs.trans hr)
        rw [he, if_neg hne, if_neg hr]
    exact congrArg (fun replicas => { b with replicas := replicas }) hreplicas
  · rw [moved_append_of_ne done hid]
    exact moved_append_of_ne (b := b.moved done) [] hid |>.trans (moved_nil _)

/-- Moves may be carried out one after another, in whatever order, or all at once. -/
theorem movedInTurn_eq (h : b.Plans needed ms) : b.movedInTurn ms = b.moved ms := by
  have hturn : ∀ (rest done : List Move), b.Plans needed (done ++ rest) →
      (b.moved done).movedInTurn rest = b.moved (done ++ rest) := by
    intro rest
    induction rest with
    | nil => intro done _; rw [List.append_nil]; rfl
    | cons m rest ih =>
      intro done h
      rw [List.append_cons] at h ⊢
      rw [movedInTurn, moved_moved (h.sublist (List.sublist_append_left _ _)), ih _ h]
  simpa using hturn ms [] h

/-! ### Nodes -/

/-- A replica stays on its node, or is sent to a node that held none. -/
theorem node_placeAfter (h : b.Plans needed ms) (r : Replica) :
    (b.placeAfter ms r).node = r.node ∨ ∃ m ∈ ms, m.block.id = b.block.id ∧ m.source = r ∧
      m.targetNode = (b.placeAfter ms r).node ∧ ∀ x ∈ b.replicas, x.node ≠ m.targetNode := by
  rcases b.placeAfter_cases ms r with ⟨-, he⟩ | ⟨m, hm, hid, rfl, he⟩
  · exact .inl (congrArg Replica.node he)
  · rw [he]
    exact (h.carries m hm hid).spread.imp id fun hfree => ⟨m, hm, hid, rfl, rfl, hfree⟩

/-- No node holds more replicas than before, unless it held none and holds one. -/
theorem countOn_le (h : b.Plans needed ms) (node : NodeId) :
    (b.moved ms).countOn node ≤ max 1 (b.countOn node) := by
  rw [countOn, countOn, moved, List.countP_map]
  by_cases hosts : node ∈ b.nodes
  · -- a node that holds replicas receives its own only
    refine Nat.le_trans (List.countP_mono_left fun r hr hnode => ?_) (Nat.le_max_right _ _)
    rw [Function.comp_apply, beq_iff_eq] at hnode
    rw [beq_iff_eq]
    rcases h.node_placeAfter r with hsame | ⟨m, -, -, -, ht, hfree⟩
    · exact hsame.symm.trans hnode
    · obtain ⟨x, hx, hxn⟩ := mem_nodes.1 hosts
      exact absurd (hxn.trans (ht.trans hnode).symm) (hfree x hx)
  · -- a node that holds no replica receives one at most
    refine Nat.le_trans ?_ (Nat.le_max_left _ _)
    have harrives : ∀ r ∈ b.replicas, (b.placeAfter ms r).node = node →
        ∃ m ∈ ms, m.block.id = b.block.id ∧ m.source = r ∧ m.targetNode = node := by
      intro r hr hnode
      rcases h.node_placeAfter r with hsame | ⟨m, hm, hid, hs, ht, -⟩
      · exact absurd (mem_nodes.2 ⟨r, hr, hsame.symm.trans hnode⟩) hosts
      · exact ⟨m, hm, hid, hs, ht.trans hnode⟩
    by_cases hv : b.Valid
    · rw [List.countP_eq_length_filter, ← List.toFinset_card_of_nodup (hv.storages.of_map.filter _)]
      refine Finset.card_le_one.2 fun x hx y hy => ?_
      simp only [List.mem_toFinset, List.mem_filter, Function.comp_apply, beq_iff_eq] at hx hy
      obtain ⟨m, hm, hid, rfl, ht⟩ := harrives x hx.1 hx.2
      obtain ⟨m', hm', hid', rfl, ht'⟩ := harrives y hy.1 hy.2
      rw [h.eq_of_common hm hm' (hid.trans hid'.symm) (.inr (ht.trans ht'.symm))]
    · refine Nat.le_trans (Nat.le_of_eq (List.countP_eq_zero.2 fun r hr hnode => ?_)) (Nat.zero_le 1)
      obtain ⟨m, hm, hid, -⟩ := harrives r hr (by simpa using hnode)
      exact hv (h.carries m hm hid).valid

/-- The block is on as many nodes as before: a node that loses all its replicas has sent one of them to
a node that held none. -/
theorem card_nodes_le (h : b.Plans needed ms) : b.nodes.card ≤ (b.moved ms).nodes.card := by
  have hsent : ∀ node, ∃ node', node ∈ b.nodes → node' ∈ (b.moved ms).nodes ∧
      (node = node' ∨ node' ∉ b.nodes ∧ ∃ m ∈ ms, m.block.id = b.block.id ∧ m.source.node = node ∧
        m.targetNode = node') := by
    intro node
    by_cases hnode : node ∈ b.nodes
    · obtain ⟨r, hr, rfl⟩ := mem_nodes.1 hnode
      refine ⟨(b.placeAfter ms r).node, fun _ => ⟨mem_nodes.2 ⟨_, List.mem_map_of_mem hr, rfl⟩, ?_⟩⟩
      refine (h.node_placeAfter r).imp Eq.symm ?_
      rintro ⟨m, hm, hid, rfl, ht, hfree⟩
      refine ⟨fun hmem => ?_, m, hm, hid, rfl, ht⟩
      obtain ⟨x, hx, hxn⟩ := mem_nodes.1 hmem
      exact hfree x hx (hxn.trans ht.symm)
    · exact ⟨node, fun hmem => absurd hmem hnode⟩
  choose f hf using hsent
  refine Finset.card_le_card_of_injOn f (fun node hnode => (hf node hnode).1) fun x hx y hy he => ?_
  rcases (hf x hx).2 with hxs | ⟨hxf, m, hm, hid, rfl, ht⟩
  · rcases (hf y hy).2 with hys | ⟨hyf, -⟩
    · rw [hxs, hys, he]
    · exact absurd (Finset.mem_coe.1 (hxs.trans he ▸ hx)) hyf
  · rcases (hf y hy).2 with hys | ⟨-, m', hm', hid', rfl, ht'⟩
    · exact absurd (Finset.mem_coe.1 (hys.trans he.symm ▸ hy)) hxf
    · rw [h.eq_of_common hm hm' (hid.trans hid'.symm) (.inr ((ht.trans he).trans ht'.symm))]

/-! ### Types -/

/-- One more move takes one replica of the record to its target. -/
theorem replicas_moved_append (h : b.Plans needed (done ++ [m])) (hid : m.block.id = b.block.id) :
    ∃ front back, (b.moved done).replicas = front ++ m.source :: back ∧
      (b.moved (done ++ [m])).replicas = front ++ Cluster.arrived m m.source :: back := by
  have hm := h.carries m (List.mem_append_right _ List.mem_cons_self) hid
  obtain ⟨front, back, hsplit⟩ := List.append_of_mem hm.source
  have hn := hm.valid.storages.of_map
  rw [hsplit] at hn
  obtain ⟨hfront, hback⟩ : m.source ∉ front ∧ m.source ∉ back :=
    not_or.1 (List.mem_append.not.1 (List.nodup_cons.1 (List.nodup_middle.1 hn)).1)
  have hplace : ∀ l : List Replica, m.source ∉ l →
      l.map (b.placeAfter (done ++ [m])) = l.map (b.placeAfter done) := fun l hl =>
    List.map_congr_left fun r hr =>
      (h.placeAfter_append hid r).trans (if_neg fun (he : r = m.source) => hl (he ▸ hr))
  refine ⟨front.map (b.placeAfter done), back.map (b.placeAfter done), ?_, ?_⟩
  · simp only [moved, hsplit, List.map_append, List.map_cons, placeAfter_of_none (h.source_ne_last hid)]
  · simp only [moved, hsplit, List.map_append, List.map_cons, hplace front hfront, hplace back hback,
      h.placeAfter_append hid m.source, if_pos]

/-- Every move exchanges the type of its source for its target type. -/
theorem types_perm (h : b.Plans needed ms) (hown : ∀ m ∈ ms, m.block.id = b.block.id) :
    ((b.moved ms).types ++ ms.map fun m => m.source.type).Perm (b.types ++ ms.map Move.targetType) := by
  induction ms using List.reverseRecOn with
  | nil => simp
  | append_singleton done m ih =>
    have hdone := ih (h.sublist (List.sublist_append_left _ _)) fun m' hm' =>
      hown m' (List.mem_append_left _ hm')
    have hid := hown m (List.mem_append_right _ List.mem_cons_self)
    obtain ⟨front, back, hbefore, hafter⟩ := h.replicas_moved_append hid
    refine List.perm_iff_count.2 fun t => ?_
    have hcount := hdone.count_eq t
    simp only [types, hbefore, hafter, Cluster.arrived, List.map_append, List.map_cons, List.map_nil,
      List.count_append, List.count_cons, List.count_nil] at hcount ⊢
    omega

end Plans

end ListedBlock

end StorageTiering
