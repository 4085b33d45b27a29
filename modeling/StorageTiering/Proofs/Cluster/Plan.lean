import StorageTiering.Proofs.Cluster.Placement
import Mathlib.Algebra.GroupWithZero.Nat
import Mathlib.Algebra.Order.BigOperators.Group.List
/-!
# Plans that a cluster accepts

Several moves that are planned beside each other, and executed later in whatever order.

* `Move.load`, `Move.freed` — the bytes that moves bring to a storage, and take from it; `Move.Apart` — moves
  of one block that do not get in each other's way.
* `Cluster.Fitting` — every move fits by itself, and no two get in each other's way.
* `Cluster.Accepts` — they also have room together, and what storages get back can be counted.
* `Cluster.Fitting.relocate`, `Cluster.Accepts.relocate` — the plan still holds for the others once one of the
  moves is executed.
* `Cluster.Accepts.relocateAll` — all moves of a plan are executed, whatever the order.
-/

namespace StorageTiering

namespace Move

/-- The bytes of the moves that have a property. -/
def bytes (p : Move → Bool) (ms : List Move) : Nat := ((ms.filter p).map fun m => m.block.len).sum

/-- The bytes that moves bring to a storage of a node. -/
def load (ms : List Move) (node : NodeId) (storage : StorageId) : Nat :=
  ((ms.filter fun m => m.targetNode == node && m.targetStorage == storage).map fun m =>
    m.block.len).sum

/-- The bytes that moves take from a storage of a node, which gets them back. -/
def freed (ms : List Move) (node : NodeId) (storage : StorageId) : Nat :=
  bytes (fun m => m.source.node == node && m.source.storage == storage) ms

/-- Two moves of one block start on different storages and end on different nodes. -/
def Apart (a b : Move) : Prop :=
  a.block.id = b.block.id → a.source.storage ≠ b.source.storage ∧ a.targetNode ≠ b.targetNode

variable {a b m : Move} {ms rest : List Move} {node : NodeId} {storage : StorageId} {p : Move → Bool}

theorem Apart.symm (h : Apart a b) : Apart b a :=
  fun he => ⟨(h he.symm).1.symm, (h he.symm).2.symm⟩

theorem bytes_cons {q : Prop} [Decidable q] (hp : p m = true ↔ q) :
    bytes p (m :: ms) = (if q then m.block.len else 0) + bytes p ms := by
  by_cases h : q
  · simp [bytes, hp.2 h, h]
  · simp [bytes, mt hp.1 h, h]

theorem bytes_perm (h : ms.Perm rest) : bytes p ms = bytes p rest := ((h.filter _).map _).sum_eq

theorem bytes_sublist_le (h : rest.Sublist ms) : bytes p rest ≤ bytes p ms :=
  ((h.filter _).map _).sum_le_sum fun _ _ => Nat.zero_le _

theorem load_cons (m : Move) (ms : List Move) (node : NodeId) (storage : StorageId) :
    load (m :: ms) node storage =
      (if node = m.targetNode ∧ storage = m.targetStorage then m.block.len else 0) +
        load ms node storage :=
  bytes_cons (by rw [Bool.and_eq_true, beq_iff_eq, beq_iff_eq, eq_comm, @eq_comm _ m.targetStorage])

theorem load_perm (h : ms.Perm rest) : load ms node storage = load rest node storage := bytes_perm h

theorem freed_cons (m : Move) (ms : List Move) (node : NodeId) (storage : StorageId) :
    freed (m :: ms) node storage =
      (if node = m.source.node ∧ storage = m.source.storage then m.block.len else 0) +
        freed ms node storage :=
  bytes_cons (by rw [Bool.and_eq_true, beq_iff_eq, beq_iff_eq, eq_comm, @eq_comm _ m.source.storage])

end Move

namespace Cluster

variable {c : Cluster} {m m' : Move} {ms rest : List Move} {node : NodeId} {storage : StorageId} {s : Store}

/-- A move of a block as the cluster has it, from one of its replicas to a storage of the right type, on a node
that has no replica of the block or is the replica's own. -/
structure Fits (c : Cluster) (m : Move) : Prop where
  held : ∃ b, c.block? m.block.id = some b ∧ b.block = m.block ∧ m.source ∈ b.replicas ∧
    (m.targetNode = m.source.node ∨ ∀ r ∈ b.replicas, r.node ≠ m.targetNode)
  offered : ∃ s, c.store? m.targetNode m.targetStorage = some s ∧ s.type = m.targetType

/-- Moves that each fit, and that do not get in each other's way. -/
structure Fitting (c : Cluster) (ms : List Move) : Prop where
  fits : ∀ m ∈ ms, c.Fits m
  apart : ms.Pairwise Move.Apart

/-- Moves that a cluster can execute one after another, in whatever order. -/
structure Accepts (c : Cluster) (ms : List Move) : Prop extends Fitting c ms where
  room : ∀ {node storage s}, c.store? node storage = some s →
    Move.load ms node storage ≤ s.remaining
  /-- What storages get back can be counted in eight bytes. -/
  countable : ∀ {node storage s}, c.store? node storage = some s →
    s.remaining + Move.freed ms node storage < Text.byteBound 8

theorem Fitting.perm (h : c.Fitting ms) (hp : ms.Perm rest) : c.Fitting rest where
  fits := fun m hm => h.fits m (hp.mem_iff.2 hm)
  apart := (hp.pairwise_iff Move.Apart.symm).1 h.apart

theorem Fitting.sublist (h : c.Fitting ms) (hs : rest.Sublist ms) : c.Fitting rest where
  fits := fun m hm => h.fits m (hs.subset hm)
  apart := h.apart.sublist hs

theorem Accepts.perm (h : c.Accepts ms) (hp : ms.Perm rest) : c.Accepts rest where
  toFitting := h.toFitting.perm hp
  room := fun hs => Move.load_perm hp ▸ h.room hs
  countable := fun hs => by
    rw [Move.freed, ← Move.bytes_perm hp]
    exact h.countable hs

/-- A move of a plan is executed, unless the data is gone or the type accepts no replica. -/
theorem Accepts.relocationError?_eq_none (h : c.Accepts (m :: rest)) (hm : m.block.id ∉ c.missing)
    (hr : m.targetType ∉ c.refused) : c.relocationError? m = none := by
  obtain ⟨⟨b, hb, -, hsource, hnode⟩, s, hstore, htype⟩ := h.fits m List.mem_cons_self
  have hroom := h.room hstore
  rw [Move.load_cons, if_pos ⟨rfl, rfl⟩] at hroom
  exact relocationError?_eq_none_iff.2
    ⟨hm, hr, b, hb, ⟨m.source, hsource, rfl⟩, hnode, s, hstore, htype, by omega⟩

/-- Moves that fit still fit once a move apart from them is executed. -/
theorem Fits.relocate (h : c.Fits m') (hap : Move.Apart m m') (hok : c.relocationError? m = none) :
    (c.relocate m).1.Fits m' := by
  have hshape := shape_relocate c m
  rw [relocate_of_none hok] at hshape ⊢
  obtain ⟨_, _, p, hp, hsource, -⟩ := relocationError?_eq_none_iff.1 hok
  obtain ⟨⟨b, hb, hblock, hx, hnode⟩, s, hs, ht⟩ := h
  refine ⟨?_, ?_⟩
  · rw [block?_applyMove, block?_called, hb, Option.map_some]
    refine ⟨_, rfl, ?_⟩
    split
    · rename_i hid
      have hne := hap hid.symm
      obtain rfl : p = b := Option.some.inj (hp.symm.trans (hid ▸ hb))
      obtain ⟨front, r, back, hsplit, hrs, -, hmoved⟩ := moveReplica_split hsource
      simp only [hmoved]
      refine ⟨hblock, ?_, hnode.imp_right fun hn y hy => ?_⟩
      · rw [hsplit] at hx
        rcases List.mem_append.1 hx with hx | hx
        · exact List.mem_append_left _ hx
        · rcases List.mem_cons.1 hx with hx | hx
          -- the replica that has gone is on another storage
          · exact absurd (hrs.symm.trans (hx ▸ rfl)) hne.1
          · exact List.mem_append_right _ (List.mem_cons_of_mem _ hx)
      · rcases List.mem_append.1 hy with hy | hy
        · exact hn y (hsplit ▸ List.mem_append_left _ hy)
        · rcases List.mem_cons.1 hy with rfl | hy
          · exact hne.2
          · exact hn y (hsplit ▸ List.mem_append_right _ (List.mem_cons_of_mem _ hy))
    · exact ⟨hblock, hx, hnode⟩
  · obtain ⟨s', hs', ht', -⟩ := store?_of_shape hshape hs
    exact ⟨s', hs', ht'.trans ht⟩

/-- The other moves still fit once one of them is executed. -/
theorem Fitting.relocate (h : c.Fitting (m :: rest)) (hok : c.relocationError? m = none) :
    (c.relocate m).1.Fitting rest := by
  obtain ⟨hapart, hrest⟩ := List.pairwise_cons.1 h.apart
  exact ⟨fun m' hm' => (h.fits m' (List.mem_cons_of_mem _ hm')).relocate (hapart m' hm') hok, hrest⟩

/-- What a storage has left after a move, and what the other moves bring to it and take from it. The target
loses no more than the move was allotted, and the source gets back what can be counted. -/
theorem Accepts.store?_relocate (h : c.Accepts (m :: rest)) (hc : c.Placed)
    (hok : c.relocationError? m = none) (hs : (c.relocate m).1.store? node storage = some s) :
    Move.load rest node storage ≤ s.remaining ∧
      s.remaining + Move.freed rest node storage < Text.byteBound 8 := by
  rw [relocate_of_none hok, store?_applyMove, store?_called] at hs
  obtain ⟨s, hbefore, rfl⟩ := Option.map_eq_some_iff.1 hs
  have hroom := h.room hbefore
  have hcountable := h.countable hbefore
  have hle := hc.bounded hbefore
  rw [Move.load_cons] at hroom
  rw [Move.freed_cons] at hcountable
  by_cases ht : node = m.targetNode ∧ storage = m.targetStorage
  · rw [if_pos ht] at hroom
    by_cases hsrc : node = m.source.node ∧ storage = m.source.storage
    · rw [if_pos hsrc] at hcountable
      have hrefund : Store.refunded { s with remaining := s.remaining - m.block.len } m.block.len =
          min (s.remaining - m.block.len + m.block.len) s.capacity :=
        Store.refunded_eq (by dsimp only; omega)
      simp only [if_pos ht, if_pos hsrc, hrefund]
      omega
    · simp only [if_pos ht, if_neg hsrc] at hcountable ⊢
      omega
  · rw [if_neg ht] at hroom
    by_cases hsrc : node = m.source.node ∧ storage = m.source.storage
    · rw [if_pos hsrc] at hcountable
      have hrefund : s.refunded m.block.len = min (s.remaining + m.block.len) s.capacity :=
        Store.refunded_eq (by omega)
      simp only [if_neg ht, if_pos hsrc, hrefund]
      omega
    · simp only [if_neg ht, if_neg hsrc] at hcountable ⊢
      omega

/-- The plan still holds for the others once one of the moves is executed. -/
theorem Accepts.relocate (h : c.Accepts (m :: rest)) (hc : c.Placed)
    (hok : c.relocationError? m = none) : (c.relocate m).1.Accepts rest where
  toFitting := h.toFitting.relocate hok
  room := fun hs => (h.store?_relocate hc hok hs).1
  countable := fun hs => (h.store?_relocate hc hok hs).2

/-- A refused move leaves the plan as it is. -/
theorem Fitting.called (h : c.Fitting ms) : c.called.Fitting ms where
  fits := fun m hm => ⟨(h.fits m hm).held, (h.fits m hm).offered⟩
  apart := h.apart

/-! ### All moves one after another -/

/-- Executes moves one after another; the second component is their results. -/
def relocateAll (c : Cluster) : List Move → Cluster × List (Except TransferError Unit)
  | [] => (c, [])
  | m :: rest =>
      ((relocateAll (c.relocate m).1 rest).1, (c.relocate m).2 :: (relocateAll (c.relocate m).1 rest).2)

theorem missing_relocate (c : Cluster) (m : Move) : (c.relocate m).1.missing = c.missing := by
  obtain ⟨nodes, blocks, he, -⟩ := relocate_frame c m
  rw [he]

theorem refused_relocate (c : Cluster) (m : Move) : (c.relocate m).1.refused = c.refused := by
  obtain ⟨nodes, blocks, he, -⟩ := relocate_frame c m
  rw [he]

/-- All moves of a plan are executed, if no data is gone and every type accepts replicas. -/
theorem Accepts.relocateAll (h : c.Accepts ms) (hc : c.Placed) (hm : c.missing = [])
    (hr : c.refused = []) : (c.relocateAll ms).2 = List.replicate ms.length (.ok ()) := by
  induction ms generalizing c with
  | nil => rfl
  | cons m rest ih =>
    have hok := h.relocationError?_eq_none (by simp [hm]) (by simp [hr])
    have hm' : (c.relocate m).1.missing = [] := (missing_relocate c m).trans hm
    have hr' : (c.relocate m).1.refused = [] := (refused_relocate c m).trans hr
    rw [Cluster.relocateAll, ih (h.relocate hc hok) (hc.relocate m) hm' hr',
      relocate_ok_iff.2 hok, List.length_cons, List.replicate_succ]

end Cluster

end StorageTiering
