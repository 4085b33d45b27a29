import Mathlib.Algebra.GroupWithZero.Nat
import Mathlib.Algebra.Order.BigOperators.Group.List
import StorageTiering.Cluster.Disturbance
import StorageTiering.Proofs.Cluster.Placement
import StorageTiering.Proofs.Keyed
/-!
# The space on storages

The free bytes of a storage are counted apart from the replicas on it, and the two add up.

* `Cluster.bytesOn`, `Cluster.free` — the bytes of the replicas on a storage, and all bytes that are free.
* `Cluster.HasRoom`, `Cluster.Holds` — the replicas of a new block fit; a move is of a stored replica.
* `Cluster.Stocked` — clusters that are filled with blocks that fit, and in which stored replicas move.
* `Cluster.Balanced` — free and used bytes of every storage make its capacity;
  `Cluster.Balanced.addBlock` and `Cluster.Balanced.relocate` keep it so.
* `Cluster.Stocked.space` — the balance of every storage, and what no relocation changes.
-/

namespace StorageTiering

/-- Whether a replica is on a storage of a node. -/
def Replica.isOn (node : NodeId) (storage : StorageId) (r : Replica) : Bool :=
  r.node == node && r.storage == storage

/-- The free bytes of a node. -/
def Node.free (n : Node) : Nat := (n.stores.map Store.remaining).sum

namespace Cluster

/-- The lengths of all replicas on a storage of a node. -/
def bytesOn (c : Cluster) (node : NodeId) (storage : StorageId) : Nat :=
  (c.blocks.map fun b => b.block.len * b.replicas.countP (Replica.isOn node storage)).sum

/-- The free bytes of all nodes. -/
def free (c : Cluster) : Nat := (c.nodes.map fun n => n.2.free).sum

/-- Each replica of a new block finds a storage of its type on its node, with room for it at the time when
it is placed. -/
def HasRoom (len : Nat) : Cluster → List (NodeId × StorageType) → Prop
  | _, [] => True
  | c, (node, type) :: rest =>
      ∃ n s, c.nodes.find? node = some n ∧ n.firstOf? type = some s ∧ len ≤ s.remaining ∧
        HasRoom len (c.setRemaining node s.id fun s => s.remaining - len) rest

/-- A move of a block as the cluster has it, from one of its replicas. -/
def Holds (c : Cluster) (m : Move) : Prop :=
  ∃ b, c.block? m.block.id = some b ∧ b.block = m.block ∧ m.source ∈ b.replicas

/-- Clusters that come about by adding new nodes and blocks that fit, by relocations of stored replicas
whatever their results, and by anything that concerns the lease, the listings and the faults. The capacity of
a storage is a number of eight bytes. -/
inductive Stocked : Cluster → Prop
  | empty (id : NamespaceId) : Stocked (.empty id)
  | addNode {c : Cluster} (h : Stocked c) {id : NodeId} (hnew : c.nodes.find? id = none) (rack : String)
      {storages : List (StorageType × Nat)} (hcounted : ∀ x ∈ storages, x.2 < Text.byteBound 8) :
      Stocked (c.addNode id rack storages)
  | addBlock {c : Cluster} (h : Stocked c) {path policy : String} {layout : Layout} {block : Block}
      {replicas : List (NodeId × StorageType)}
      (hok : (c.addBlock path policy layout block replicas).2 = .ok ()) (hroom : c.HasRoom block.len replicas) :
      Stocked (c.addBlock path policy layout block replicas).1
  | relocate {c : Cluster} (h : Stocked c) {m : Move} (hm : c.Holds m) : Stocked (c.relocate m).1
  | disturb {c : Cluster} (h : Stocked c) {d : Disturbance}
      (hd : ∀ id rack storages, d ≠ .addNode id rack storages) : Stocked (d.apply c)
  | listPage {c : Cluster} (h : Stocked c) (path : String) (cursor : Option String) :
      Stocked (c.listPage path cursor).1
  | checkSatisfier {c : Cluster} (h : Stocked c) : Stocked c.checkSatisfier.1
  | acquireLease {c : Cluster} (h : Stocked c) (holder : String) : Stocked (c.acquireLease holder).1
  | releaseLease {c : Cluster} (h : Stocked c) (serial : Nat) : Stocked (c.releaseLease serial).1

/-- The free bytes of every storage and the bytes of the replicas on it make its capacity. -/
structure Balanced (c : Cluster) : Prop extends Placed c where
  balance : ∀ {node storage s}, c.store? node storage = some s →
    s.remaining + c.bytesOn node storage = s.capacity
  counted : ∀ {node storage s}, c.store? node storage = some s → s.capacity < Text.byteBound 8

variable {c c' : Cluster} {m : Move} {node : NodeId} {storage : StorageId} {s : Store} {len : Nat}

theorem Balanced.congr (h : c.Balanced) (hn : c'.nodes = c.nodes) (hb : c'.blocks = c.blocks) :
    c'.Balanced := by
  have hstore : ∀ node storage, c'.store? node storage = c.store? node storage := fun node storage => by
    rw [store?, hn, store?]
  refine ⟨h.toPlaced.congr hn hb, fun hs => ?_, fun hs => h.counted (hstore _ _ ▸ hs)⟩
  rw [bytesOn, hb]
  exact h.balance (hstore _ _ ▸ hs)

theorem balanced_empty (id : NamespaceId) : (empty id).Balanced :=
  ⟨placed_empty id, (fun hs => nomatch hs), (fun hs => nomatch hs)⟩

/-! ### New nodes -/

/-- The nodes of replicas are there. -/
theorem Placed.node_ne (h : c.Placed) {id : NodeId} (hnew : c.nodes.find? id = none) :
    ∀ b ∈ c.blocks, ∀ r ∈ b.replicas, r.node ≠ id := by
  rintro b hb r hr rfl
  obtain ⟨s, hs, -⟩ := h.housed b hb r hr
  rw [store?, hnew] at hs
  cases hs

/-- Nothing is on a node that holds no replica. -/
theorem bytesOn_eq_zero (hnone : ∀ b ∈ c.blocks, ∀ r ∈ b.replicas, r.node ≠ node) (storage : StorageId) :
    c.bytesOn node storage = 0 := by
  refine List.sum_eq_zero fun n hn => ?_
  obtain ⟨b, hb, rfl⟩ := List.mem_map.1 hn
  rw [List.countP_eq_zero.2 fun r hr => by simp [Replica.isOn, hnone b hb r hr], Nat.mul_zero]

theorem Balanced.addNode (h : c.Balanced) {id : NodeId} (hnew : c.nodes.find? id = none) (rack : String)
    {storages : List (StorageType × Nat)} (hcounted : ∀ x ∈ storages, x.2 < Text.byteBound 8) :
    (c.addNode id rack storages).Balanced := by
  have hne := h.toPlaced.node_ne hnew
  refine ⟨h.toPlaced.addNode hne rack storages, fun {node storage s} hs => ?_, fun hs => ?_⟩
  · change s.remaining + c.bytesOn node storage = s.capacity
    rcases store?_addNode hs with ⟨rfl, hs⟩ | ⟨-, hs⟩
    · rw [bytesOn_eq_zero hne, (mem_freshStores hs).2]
      rfl
    · exact h.balance hs
  · rcases store?_addNode hs with ⟨rfl, hs⟩ | ⟨-, hs⟩
    · obtain ⟨i, hi, rfl⟩ := List.mem_mapIdx.1 hs
      exact hcounted _ (List.getElem_mem hi)
    · exact h.counted hs

/-! ### New blocks -/

/-- What replicas take from a storage is their length for each of them that is on it. -/
theorem placeReplicas_takes {layout : Layout} {index : Nat} {replicas : List (NodeId × StorageType)}
    {placed : List Replica} (h : c.Laid) (hroom : c.HasRoom len replicas)
    (hp : placeReplicas layout len c index replicas = (c', .ok placed))
    (hs : c'.store? node storage = some s) :
    ∃ s₀, c.store? node storage = some s₀ ∧ s.capacity = s₀.capacity ∧
      s.remaining + len * placed.countP (Replica.isOn node storage) = s₀.remaining := by
  induction replicas generalizing c index placed with
  | nil =>
    obtain ⟨rfl, hplaced⟩ := Prod.mk.inj hp
    obtain rfl := Except.ok.inj hplaced
    exact ⟨s, hs, rfl, rfl⟩
  | cons x rest ih =>
    obtain ⟨first, type⟩ := x
    obtain ⟨n, s₁, hn, hs₁, hfits, hroom⟩ := hroom
    simp only [placeReplicas, hn, hs₁] at hp
    split at hp
    · cases hp
    · rename_i next replicas hnext
      obtain ⟨rfl, hplaced⟩ := Prod.mk.inj hp
      obtain rfl := Except.ok.inj hplaced
      obtain ⟨s₂, hs₂, hcap, htakes⟩ := ih (h.congr (shape_setRemaining c first s₁.id _)) hroom hnext
      have hstore : c.store? first s₁.id = some s₁ :=
        h.store?_of_mem (SortedTable.mem_of_find? hn) (List.mem_of_find?_eq_some hs₁)
      rw [store?_setRemaining] at hs₂
      by_cases hon : node = first ∧ storage = s₁.id
      · -- the first replica takes its bytes before the others do
        obtain ⟨rfl, rfl⟩ := hon
        rw [if_pos ⟨rfl, rfl⟩, hstore] at hs₂
        obtain rfl := Option.some.inj hs₂
        refine ⟨s₁, hstore, hcap, ?_⟩
        rw [List.countP_cons_of_pos (by simp [Replica.isOn]), Nat.mul_add]
        dsimp only at htakes
        omega
      · rw [if_neg hon] at hs₂
        refine ⟨s₂, hs₂, hcap, ?_⟩
        rwa [List.countP_cons_of_neg (by
          simpa [Replica.isOn] using fun hnode hstorage => hon ⟨hnode.symm, hstorage.symm⟩)]

/-- A block that fits takes from every storage what its replicas there are long. -/
theorem Balanced.addBlock (h : c.Balanced) {path policy : String} {layout : Layout} {block : Block}
    {replicas : List (NodeId × StorageType)}
    (hok : (c.addBlock path policy layout block replicas).2 = .ok ()) (hroom : c.HasRoom block.len replicas) :
    (c.addBlock path policy layout block replicas).1.Balanced := by
  obtain ⟨nodes, placed, -, hp, hadded⟩ := addBlock_ok hok
  have hstore : ∀ {node storage s},
      (c.addBlock path policy layout block replicas).1.store? node storage = some s →
        ∃ s₀, c.store? node storage = some s₀ ∧ s.capacity = s₀.capacity ∧
          s.remaining + block.len * placed.countP (Replica.isOn node storage) = s₀.remaining := by
    intro node storage s hs
    rw [hadded] at hs
    exact placeReplicas_takes h.toLaid hroom hp hs
  refine ⟨h.toPlaced.addBlock path policy layout block replicas, fun {node storage s} hs => ?_, fun hs => ?_⟩
  · obtain ⟨s₀, hs₀, hcap, htakes⟩ := hstore hs
    have hbytes : (c.addBlock path policy layout block replicas).1.bytesOn node storage =
        c.bytesOn node storage + block.len * placed.countP (Replica.isOn node storage) := by
      rw [hadded, bytesOn, List.map_append, List.sum_append, List.map_singleton, List.sum_singleton, bytesOn]
    have hbalance := h.balance hs₀
    omega
  · obtain ⟨s₀, hs₀, hcap, -⟩ := hstore hs
    exact hcap ▸ h.counted hs₀

/-! ### Relocations -/

theorem isOn_eq_true_iff {r : Replica} :
    r.isOn node storage = true ↔ r.node = node ∧ r.storage = storage := by
  simp [Replica.isOn]

/-- One replica leaves the source of a move, and one is on its target. -/
theorem countP_moveReplica {replicas : List Replica} (hm : ∃ r ∈ replicas, r.storage = m.source.storage)
    (hnode : ∀ r ∈ replicas, r.storage = m.source.storage → r.node = m.source.node) (node : NodeId)
    (storage : StorageId) :
    (moveReplica m replicas).countP (Replica.isOn node storage) +
        (if node = m.source.node ∧ storage = m.source.storage then 1 else 0) =
      replicas.countP (Replica.isOn node storage) +
        (if node = m.targetNode ∧ storage = m.targetStorage then 1 else 0) := by
  obtain ⟨front, r, back, rfl, hr, -, hmoved⟩ := moveReplica_split hm
  have hleft : r.isOn node storage = true ↔ node = m.source.node ∧ storage = m.source.storage := by
    rw [isOn_eq_true_iff, hnode r (by simp) hr, hr, eq_comm, @eq_comm _ m.source.storage]
  have harrived : (arrived m r).isOn node storage = true ↔ node = m.targetNode ∧ storage = m.targetStorage := by
    rw [isOn_eq_true_iff, arrived, eq_comm, @eq_comm _ m.targetStorage]
  rw [hmoved]
  simp only [List.countP_append, List.countP_cons, hleft, harrived]
  omega

/-- All replicas of a moved block that are on a storage of the source's name are on the source. -/
theorem Placed.source_node (h : c.Placed) (hm : c.Holds m) {b : PlacedBlock}
    (hb : c.block? m.block.id = some b) :
    m.source ∈ b.replicas ∧ ∀ r ∈ b.replicas, r.storage = m.source.storage → r.node = m.source.node := by
  obtain ⟨b', hb', -, hsource⟩ := hm
  obtain rfl := Option.some.inj (hb.symm.trans hb')
  refine ⟨hsource, fun r hr hstorage => ?_⟩
  obtain ⟨hmem, -⟩ := block?_eq_some hb
  obtain ⟨s, hs, -⟩ := h.housed b hmem r hr
  obtain ⟨s', hs', -⟩ := h.housed b hmem _ hsource
  exact h.toLaid.store?_inj (hstorage ▸ hs) hs'

/-- The bytes of a moved replica leave the source and are on the target. -/
theorem Placed.bytesOn_applyMove (h : c.Placed) (hm : c.Holds m) (node : NodeId) (storage : StorageId) :
    (c.applyMove m).bytesOn node storage +
        (if node = m.source.node ∧ storage = m.source.storage then m.block.len else 0) =
      c.bytesOn node storage +
        (if node = m.targetNode ∧ storage = m.targetStorage then m.block.len else 0) := by
  obtain ⟨b, hb, hblock, -⟩ := id hm
  obtain ⟨hmem, hid⟩ := block?_eq_some hb
  obtain ⟨hsource, hnode⟩ := h.source_node hm hb
  obtain ⟨front, back, hsplit⟩ := List.append_of_mem hmem
  have hmoved : (c.applyMove m).blocks =
      front ++ { b with replicas := moveReplica m b.replicas } :: back := by
    have hmap := Keyed.map_split (hsplit ▸ h.once) fun b => { b with replicas := moveReplica m b.replicas }
    rw [← hsplit, hid] at hmap
    exact hmap
  have hcount := congrArg (b.block.len * ·) (countP_moveReplica ⟨_, hsource, rfl⟩ hnode node storage)
  simp only [Nat.mul_add, mul_ite, Nat.mul_one, Nat.mul_zero, hblock] at hcount
  simp only [bytesOn, hmoved, hsplit, List.map_append, List.map_cons, List.sum_append, List.sum_cons, hblock]
  omega

/-- The source of a move has its bytes. -/
theorem Holds.len_le_bytesOn (hm : c.Holds m) : m.block.len ≤ c.bytesOn m.source.node m.source.storage := by
  obtain ⟨b, hb, hblock, hsource⟩ := hm
  have hcount : 1 ≤ b.replicas.countP (Replica.isOn m.source.node m.source.storage) :=
    List.countP_pos_iff.2 ⟨m.source, hsource, by simp [Replica.isOn]⟩
  calc m.block.len = b.block.len * 1 := by rw [hblock, Nat.mul_one]
    _ ≤ b.block.len * b.replicas.countP (Replica.isOn m.source.node m.source.storage) :=
        Nat.mul_le_mul_left _ hcount
    _ ≤ c.bytesOn m.source.node m.source.storage :=
        List.single_le_sum (fun _ _ => Nat.zero_le _) _ (List.mem_map_of_mem (block?_eq_some hb).1)

/-- The capacity of the source is never in the way of the bytes that it gets back. -/
theorem Balanced.uncapped (h : c.Balanced) (hm : c.Holds m) :
    ∃ s, (c.setRemaining m.targetNode m.targetStorage fun s => s.remaining - m.block.len).store?
        m.source.node m.source.storage = some s ∧ s.remaining + m.block.len ≤ s.capacity := by
  obtain ⟨b, hb, -, hsource⟩ := id hm
  obtain ⟨s, hs, -⟩ := h.housed b (block?_eq_some hb).1 _ hsource
  have hbytes := hm.len_le_bytesOn
  have hbalance := h.balance hs
  rw [store?_setRemaining, hs]
  split
  · refine ⟨_, rfl, ?_⟩
    dsimp only
    omega
  · exact ⟨s, rfl, by omega⟩

/-- A relocation of a stored replica keeps the balance of every storage. -/
theorem Balanced.balance_relocate (h : c.Balanced) (hm : c.Holds m)
    (hs : (c.relocate m).1.store? node storage = some s) :
    s.remaining + (c.relocate m).1.bytesOn node storage = s.capacity := by
  cases he : c.relocationError? m with
  | some e =>
    rw [relocate_of_error he] at hs ⊢
    exact h.balance hs
  | none =>
    obtain ⟨-, -, -, -, -, -, target, htarget, -, hfits⟩ := relocationError?_eq_none_iff.1 he
    rw [relocate_of_none he] at hs ⊢
    have hbytes := h.toPlaced.bytesOn_applyMove hm node storage
    have hsource := hm.len_le_bytesOn
    change (c.applyMove m).store? node storage = some s at hs
    change s.remaining + (c.applyMove m).bytesOn node storage = s.capacity
    rw [store?_applyMove] at hs
    obtain ⟨s₀, hs₀, rfl⟩ := Option.map_eq_some_iff.1 hs
    have hbalance := h.balance hs₀
    have hcounted := h.counted hs₀
    have hroom : node = m.targetNode ∧ storage = m.targetStorage → m.block.len ≤ s₀.remaining := by
      rintro ⟨rfl, rfl⟩
      obtain rfl := Option.some.inj (htarget.symm.trans hs₀)
      exact hfits
    have hused : node = m.source.node ∧ storage = m.source.storage → m.block.len ≤ c.bytesOn node storage := by
      rintro ⟨rfl, rfl⟩
      exact hm.len_le_bytesOn
    -- The storage may be the target of the move, its source, both or neither.
    by_cases ht : node = m.targetNode ∧ storage = m.targetStorage
    · have hroom := hroom ht
      by_cases hsrc : node = m.source.node ∧ storage = m.source.storage
      · have hrefund : Store.refunded { s₀ with remaining := s₀.remaining - m.block.len } m.block.len =
            min (s₀.remaining - m.block.len + m.block.len) s₀.capacity :=
          Store.refunded_eq (by dsimp only; omega)
        simp only [if_pos ht, if_pos hsrc, hrefund] at hbytes ⊢
        omega
      · simp only [if_pos ht, if_neg hsrc] at hbytes ⊢
        omega
    · by_cases hsrc : node = m.source.node ∧ storage = m.source.storage
      · have hused := hused hsrc
        have hrefund : s₀.refunded m.block.len = min (s₀.remaining + m.block.len) s₀.capacity :=
          Store.refunded_eq (by omega)
        simp only [if_neg ht, if_pos hsrc, hrefund] at hbytes ⊢
        omega
      · simp only [if_neg ht, if_neg hsrc] at hbytes ⊢
        omega

theorem Balanced.relocate (h : c.Balanced) (hm : c.Holds m) : (c.relocate m).1.Balanced := by
  refine ⟨h.toPlaced.relocate m, fun hs => h.balance_relocate hm hs, fun hs => ?_⟩
  obtain ⟨s₀, hs₀, -, hcapacity⟩ := store?_of_shape (shape_relocate c m).symm hs
  exact hcapacity ▸ h.counted hs₀

/-! ### All free bytes -/

/-- A change of the free bytes of one storage is all there is to the sum. -/
theorem Laid.free_setRemaining (h : c.Laid) (hs : c.store? node storage = some s) (f : Store → Nat) :
    (c.setRemaining node storage f).free + s.remaining = c.free + f s := by
  obtain ⟨n, hn, hmem, rfl⟩ := store?_eq_some hs
  obtain ⟨front, back, hnodes⟩ := List.append_of_mem hn
  obtain ⟨before, after, hstores⟩ := List.append_of_mem hmem
  have hkeys : (c.nodes.map Prod.fst).Nodup :=
    List.pairwise_map.2 (h.ascending.imp fun hlt => ne_of_lt hlt)
  have hadjusted : (c.setRemaining node s.id f).nodes = front ++ (node, n.setRemaining s.id f) :: back := by
    have hmap := Keyed.map_split (hnodes ▸ hkeys) fun entry => (entry.1, entry.2.setRemaining s.id f)
    rwa [← hnodes] at hmap
  have hset : (n.setRemaining s.id f).stores = before ++ { s with remaining := f s } :: after := by
    have hmap := Keyed.map_split (hstores ▸ h.distinct _ hn) fun s => { s with remaining := f s }
    rwa [← hstores] at hmap
  simp only [free, hadjusted, hnodes, Node.free, hset, hstores, List.map_append, List.map_cons,
    List.sum_append, List.sum_cons]
  omega

/-- What a relocation takes from the target it gives to the source. -/
theorem Balanced.free_relocate (h : c.Balanced) (hm : c.Holds m) : (c.relocate m).1.free = c.free := by
  cases he : c.relocationError? m with
  | some e =>
    rw [relocate_of_error he]
    rfl
  | none =>
    obtain ⟨-, -, -, -, -, -, target, htarget, -, hfits⟩ := relocationError?_eq_none_iff.1 he
    obtain ⟨s, hs, hcap⟩ := h.uncapped hm
    obtain ⟨s₀, hs₀, -, hcapacity⟩ := store?_of_shape
      (shape_setRemaining c m.targetNode m.targetStorage fun s => s.remaining - m.block.len).symm hs
    have hcounted : s.capacity < Text.byteBound 8 := hcapacity ▸ h.counted hs₀
    have htaken := h.toLaid.free_setRemaining htarget fun s => s.remaining - m.block.len
    have hlaid := h.toLaid.congr
      (shape_setRemaining c m.targetNode m.targetStorage fun s => s.remaining - m.block.len)
    have hgiven := hlaid.free_setRemaining hs fun s => s.refunded m.block.len
    rw [relocate_of_none he]
    change ((c.setRemaining m.targetNode m.targetStorage fun s => s.remaining - m.block.len).setRemaining
      m.source.node m.source.storage fun s => s.refunded m.block.len).free = c.free
    rw [Store.refunded_eq (hcap.trans_lt hcounted), Nat.min_eq_left hcap] at hgiven
    omega

/-! ### Stocked clusters -/

theorem Stocked.balanced (h : c.Stocked) : c.Balanced := by
  induction h with
  | empty id => exact balanced_empty id
  | addNode _ hnew rack hcounted ih => exact ih.addNode hnew rack hcounted
  | addBlock _ hok hroom ih => exact ih.addBlock hok hroom
  | relocate _ hm ih => exact ih.relocate hm
  | @disturb c _ d hd ih =>
    cases d with
    | addNode id rack storages => exact absurd rfl (hd id rack storages)
    | _ => exact ih.congr rfl rfl
  | @listPage c _ path cursor ih =>
    obtain ⟨grace, failures, he⟩ := listPage_frame c path cursor
    exact ih.congr (by rw [he]) (by rw [he])
  | checkSatisfier _ ih => exact ih.congr rfl rfl
  | acquireLease _ holder ih =>
    rw [Cluster.acquireLease]
    split
    · exact ih
    · exact ih.congr rfl rfl
  | releaseLease _ serial ih =>
    rw [Cluster.releaseLease]
    split
    · exact ih.congr rfl rfl
    · exact ih

/-- In a stocked cluster the free bytes of every storage and the lengths of the replicas on it make its
capacity. The bytes that the source of a move gets back fit there, so they are never cut off, and no
relocation of a stored replica changes the number of all free bytes. -/
theorem Stocked.space (h : c.Stocked) :
    (∀ n ∈ c.nodes, ∀ s ∈ n.2.stores, s.remaining + c.bytesOn n.1 s.id = s.capacity) ∧
    ∀ m, c.Holds m →
      (c.relocate m).1.free = c.free ∧
      ∃ s, (c.setRemaining m.targetNode m.targetStorage fun s => s.remaining - m.block.len).store?
        m.source.node m.source.storage = some s ∧ s.remaining + m.block.len ≤ s.capacity :=
  ⟨fun _ hn _ hs => h.balanced.balance (h.balanced.toLaid.store?_of_mem hn hs),
    fun _ hm => ⟨h.balanced.free_relocate hm, h.balanced.uncapped hm⟩⟩

/-- Two replicas of a block of four bytes, on two nodes. -/
def spaciousCluster : Cluster :=
  ((((empty "ns").addNode "a" "/r" [(.disk, 10), (.archive, 10)]).addNode "b" "/r" [(.disk, 10)]).addBlock
    "/f" "COLD" (.contiguous 2) ⟨1, 4, 1⟩ [("a", .disk), ("b", .disk)]).1

/-- The move of one of them to the other storage of its node. -/
def spaciousMove : Move := ⟨"/f", ⟨1, 4, 1⟩, ⟨"a", .disk, "a-s0", none⟩, .archive, "a", "a-s1"⟩

/-- The move is made, and six bytes of ten are left on its target. -/
theorem stocked_space_spacious : (spaciousCluster.relocate spaciousMove).2 = .ok () ∧
    (spaciousCluster.relocate spaciousMove).1.free = 22 ∧
    6 + (spaciousCluster.relocate spaciousMove).1.bytesOn "a" "a-s1" = 10 := by
  have hroom : (((empty "ns").addNode "a" "/r" [(.disk, 10), (.archive, 10)]).addNode "b" "/r"
      [(.disk, 10)]).HasRoom 4 [("a", .disk), ("b", .disk)] :=
    ⟨_, _, rfl, rfl, by decide, _, _, rfl, rfl, by decide, trivial⟩
  have h : spaciousCluster.Stocked :=
    .addBlock (.addNode (.addNode (.empty "ns") rfl "/r" (by decide)) rfl "/r" (by decide)) rfl hroom
  have hm : spaciousCluster.Holds spaciousMove := ⟨_, rfl, rfl, List.mem_cons_self⟩
  obtain ⟨hbalance, -⟩ := (Stocked.relocate h hm).space
  refine ⟨rfl, (h.space.2 spaciousMove hm).1, ?_⟩
  exact hbalance ("a", ⟨"/r", [⟨"a-s0", .disk, 10, 10⟩, ⟨"a-s1", .archive, 10, 6⟩]⟩) (by decide)
    ⟨"a-s1", .archive, 10, 6⟩ (by decide)

end Cluster

end StorageTiering
