import StorageTiering.Cluster.Description
import StorageTiering.Proofs.Cluster.Catalogue
import StorageTiering.Proofs.Cluster.Relocation
import StorageTiering.Proofs.Text.Digits
import Mathlib.Data.List.Nodup
/-!
# Where replicas are

In a described cluster every storage has a name of its own, no storage has more free bytes than it has
room for, and every replica is on a storage of its type. Relocations keep it so.

* `Cluster.shape` — the storages without their free bytes, which never change.
* `Cluster.Laid`, `Cluster.Placed` — the two parts of the invariant.
* `Cluster.Laid.store?_inj` — a storage is known by its name alone.
* `Cluster.Deployed`, `Cluster.Deployed.placed` — described clusters after any relocations.
-/

namespace StorageTiering

/-- What of a storage never changes. -/
def Store.kind (s : Store) : StorageId × StorageType × Nat := (s.id, s.type, s.capacity)

namespace Cluster

/-- The storages of every node without their free bytes. -/
def shape (c : Cluster) : SortedTable (List (StorageId × StorageType × Nat)) :=
  c.nodes.map fun n => (n.1, n.2.stores.map Store.kind)

/-- The nodes are in order, and the storages of each have names of their own that start with its
name. -/
structure Laid (c : Cluster) : Prop where
  ascending : c.nodes.Ascending
  named : ∀ n ∈ c.nodes, ∀ s ∈ n.2.stores, ∃ i : Nat, s.id = n.1 ++ "-s" ++ toString i
  distinct : ∀ n ∈ c.nodes, (n.2.stores.map Store.id).Nodup

/-- Every replica is on a storage of its type, and no storage has more free bytes than room. -/
structure Placed (c : Cluster) : Prop extends Laid c where
  bounded : ∀ {node storage s}, c.store? node storage = some s → s.remaining ≤ s.capacity
  once : (c.blocks.map fun b => b.block.id).Nodup
  housed : ∀ b ∈ c.blocks, ∀ r ∈ b.replicas, ∃ s, c.store? r.node r.storage = some s ∧ s.type = r.type

variable {c c' : Cluster} {node other : NodeId} {storage : StorageId} {s s' : Store}

/-! ### Look-ups of storages -/

theorem store?_eq_some (h : c.store? node storage = some s) :
    ∃ n, (node, n) ∈ c.nodes ∧ s ∈ n.stores ∧ s.id = storage := by
  obtain ⟨n, hn, hs⟩ := Option.bind_eq_some_iff.1 h
  exact ⟨n, SortedTable.mem_of_find? hn, List.mem_of_find?_eq_some hs,
    by simpa using List.find?_some hs⟩

theorem Laid.store?_of_mem (h : c.Laid) {n : Node} (hn : (node, n) ∈ c.nodes) (hs : s ∈ n.stores) :
    c.store? node s.id = some s := by
  have hd := h.distinct _ hn
  have hf : n.stores.find? (fun x => x.id == s.id) = some s := by
    obtain ⟨x, hx⟩ : ∃ x, n.stores.find? (fun x => x.id == s.id) = some x :=
      Option.isSome_iff_exists.1 (List.find?_isSome.2 ⟨s, hs, by simp⟩)
    have hid : x.id = s.id := by simpa using List.find?_some hx
    rw [hx, List.inj_on_of_nodup_map hd (List.mem_of_find?_eq_some hx) hs hid]
  rw [store?, h.ascending.find?_eq_some_iff.2 hn]
  exact hf

theorem storeName_inj {a b : NodeId} {i j : Nat}
    (h : a ++ "-s" ++ toString i = b ++ "-s" ++ toString j) : a = b ∧ i = j := by
  have hl : (a.toList ++ ['-']) ++ 's' :: Nat.toDigits 10 i =
      (b.toList ++ ['-']) ++ 's' :: Nat.toDigits 10 j := by
    simpa [String.toList_append] using congrArg String.toList h
  obtain ⟨hab, hij⟩ := Text.append_toDigits_inj (by decide) hl
  exact ⟨String.toList_inj.1 (List.append_cancel_right hab), hij⟩

/-- A storage is known by its name alone. -/
theorem Laid.store?_inj (h : c.Laid) (hs : c.store? node storage = some s)
    (hs' : c.store? other storage = some s') : node = other := by
  obtain ⟨n, hn, hmem, hid⟩ := store?_eq_some hs
  obtain ⟨n', hn', hmem', hid'⟩ := store?_eq_some hs'
  obtain ⟨i, hi⟩ := h.named _ hn s hmem
  obtain ⟨j, hj⟩ := h.named _ hn' s' hmem'
  exact (storeName_inj (hi.symm.trans (hid.trans (hid'.symm.trans hj)))).1

/-! ### Changes of free bytes -/

theorem kind_store? (c : Cluster) (node : NodeId) (storage : StorageId) :
    (c.store? node storage).map Store.kind =
      (c.shape.find? node).bind fun l => l.find? fun k => k.1 == storage := by
  have hfind : c.shape.find? node = (c.nodes.find? node).map fun n => n.stores.map Store.kind := by
    simp only [SortedTable.find?, shape, List.find?_map, Option.map_map]
    rfl
  rw [hfind, store?]
  cases c.nodes.find? node with
  | none => rfl
  | some n =>
    simp only [Option.bind_some, Option.map_some, Node.store?, List.find?_map]
    rfl

/-- A storage keeps its type and its capacity as long as the shape is the same. -/
theorem store?_of_shape (h : c'.shape = c.shape) (hs : c.store? node storage = some s) :
    ∃ s', c'.store? node storage = some s' ∧ s'.type = s.type ∧ s'.capacity = s.capacity := by
  have hk : (c'.store? node storage).map Store.kind = some s.kind := by
    rw [kind_store?, h, ← kind_store?, hs]
    rfl
  obtain ⟨s', hs', he⟩ := Option.map_eq_some_iff.1 hk
  simp only [Store.kind, Prod.mk.injEq] at he
  exact ⟨s', hs', he.2.1, he.2.2⟩

theorem Laid.congr (h : c.Laid) (hs : c'.shape = c.shape) : c'.Laid := by
  have hkeys : c'.nodes.map Prod.fst = c.nodes.map Prod.fst := by
    have := congrArg (List.map Prod.fst) hs
    simpa [shape, List.map_map, Function.comp_def] using this
  -- a node of the one cluster has the same storages as a node of the other
  have hnode : ∀ n ∈ c'.nodes, ∃ n' ∈ c.nodes, n'.1 = n.1 ∧
      n'.2.stores.map Store.kind = n.2.stores.map Store.kind := by
    intro n hn
    have hm : (n.1, n.2.stores.map Store.kind) ∈ c.shape := hs ▸ List.mem_map_of_mem hn
    obtain ⟨n', hn', he⟩ := List.mem_map.1 hm
    exact ⟨n', hn', (Prod.mk.inj he).1, (Prod.mk.inj he).2⟩
  refine ⟨?_, fun n hn s hs => ?_, fun n hn => ?_⟩
  · have hp : (c.nodes.map Prod.fst).Pairwise (· < ·) := List.pairwise_map.2 h.ascending
    rw [← hkeys] at hp
    exact List.pairwise_map.1 hp
  · obtain ⟨n', hn', hname, hk⟩ := hnode n hn
    obtain ⟨s', hs', he⟩ := List.mem_map.1 (hk ▸ List.mem_map_of_mem hs)
    obtain ⟨i, hi⟩ := h.named n' hn' s' hs'
    exact ⟨i, by rw [← hname, ← hi]; exact (Prod.mk.inj he).1.symm⟩
  · obtain ⟨n', hn', _, hk⟩ := hnode n hn
    have hid : n.2.stores.map Store.id = n'.2.stores.map Store.id := by
      have := congrArg (List.map Prod.fst) hk
      simpa [List.map_map, Function.comp_def, Store.kind] using this.symm
    rw [hid]
    exact h.distinct n' hn'

@[simp] theorem shape_setRemaining (c : Cluster) (node : NodeId) (id : StorageId) (f : Store → Nat) :
    (c.setRemaining node id f).shape = c.shape := by
  simp only [shape, setRemaining, SortedTable.adjust, List.map_map]
  refine List.map_congr_left fun n _ => ?_
  simp only [Function.comp_apply]
  split
  · simp only [Node.setRemaining, List.map_map, Prod.mk.injEq, true_and]
    refine List.map_congr_left fun s _ => ?_
    simp only [Function.comp_apply]
    split <;> rfl
  · rfl

/-! ### Relocations -/

theorem shape_relocate (c : Cluster) (m : Move) : (c.relocate m).1.shape = c.shape := by
  cases h : c.relocationError? m with
  | some e => rw [relocate_of_error h]; rfl
  | none =>
    rw [relocate_of_none h]
    exact (shape_setRemaining _ _ _ _).trans (shape_setRemaining _ _ _ _)

/-- A move keeps free bytes within the capacities: what it gives back is cut off there. -/
theorem remaining_le_applyMove {m : Move}
    (hle : ∀ {node storage s}, c.store? node storage = some s → s.remaining ≤ s.capacity)
    (hs : (c.applyMove m).store? node storage = some s) : s.remaining ≤ s.capacity := by
  rw [store?_applyMove] at hs
  obtain ⟨s, hs', rfl⟩ := Option.map_eq_some_iff.1 hs
  dsimp only
  split
  · exact Nat.le_trans (Store.refunded_le_capacity _ _) (by split <;> exact Nat.le_refl _)
  · split
    · exact Nat.le_trans (Nat.sub_le _ _) (hle hs')
    · exact hle hs'

/-- A relocation keeps free bytes within the capacity of a storage, and replicas on storages of their
type. -/
theorem Placed.relocate (h : c.Placed) (m : Move) : (c.relocate m).1.Placed := by
  cases he : c.relocationError? m with
  | some e =>
    rw [relocate_of_error he]
    exact ⟨h.toLaid.congr rfl, h.bounded, h.once, h.housed⟩
  | none =>
    have hshape := shape_relocate c m
    rw [relocate_of_none he] at hshape ⊢
    obtain ⟨_, _, b, hb, hsource, _, target, htarget, htype, _⟩ := relocationError?_eq_none_iff.1 he
    have hkeep : ∀ b ∈ c.blocks, ∀ r ∈ b.replicas, ∃ s,
        (c.called.applyMove m).store? r.node r.storage = some s ∧ s.type = r.type := by
      intro b hb r hr
      obtain ⟨s, hs, ht⟩ := h.housed b hb r hr
      obtain ⟨s', hs', ht', _⟩ := store?_of_shape hshape hs
      exact ⟨s', hs', ht'.trans ht⟩
    refine ⟨h.toLaid.congr hshape, fun hs => remaining_le_applyMove (c := c.called) h.bounded hs, ?_,
      fun b' hb' r hr => ?_⟩
    · rw [map_id_applyMove]
      exact h.once
    · obtain ⟨p, hp, rfl⟩ := List.mem_map.1 hb'
      split at hr
      · rename_i hid
        have hpb : p = b := by
          obtain ⟨hbm, hbid⟩ := block?_eq_some hb
          refine List.inj_on_of_nodup_map h.once hp hbm ?_
          exact (by simpa using hid : p.block.id = m.block.id).trans hbid.symm
        subst hpb
        -- the replica that has moved is on the target storage, and every other is where it was
        obtain ⟨front, r₀, back, hsplit, _, _, hmoved⟩ := moveReplica_split hsource
        have hr' : r ∈ front ++ arrived m r₀ :: back := hmoved ▸ hr
        rcases List.mem_append.1 hr' with hf | hf
        · exact hkeep p hp r (hsplit ▸ List.mem_append_left _ hf)
        · rcases List.mem_cons.1 hf with rfl | hf
          · obtain ⟨s', hs', ht', _⟩ := store?_of_shape hshape htarget
            exact ⟨s', hs', ht'.trans htype⟩
          · exact hkeep p hp r (hsplit ▸ List.mem_append_right _ (List.mem_cons_of_mem _ hf))
      · exact hkeep p hp r hr

/-! ### Described clusters -/

theorem Placed.congr (h : c.Placed) (hn : c'.nodes = c.nodes) (hb : c'.blocks = c.blocks) :
    c'.Placed := by
  have hstore : ∀ node storage, c'.store? node storage = c.store? node storage := by
    intro node storage
    rw [store?, store?, hn]
  refine ⟨h.toLaid.congr (by rw [shape, shape, hn]), fun {node storage s} hs => ?_, hb ▸ h.once, ?_⟩
  · exact h.bounded (hstore node storage ▸ hs)
  · rw [hb]
    intro b hm r hr
    rw [hstore]
    exact h.housed b hm r hr

theorem nodup_freshStores (node : NodeId) (storages : List (StorageType × Nat)) :
    ((freshStores node storages).map Store.id).Nodup := by
  refine List.nodup_iff_injective_getElem.2 fun i j hij => ?_
  simp only [freshStores, List.getElem_map, List.getElem_mapIdx] at hij
  exact Fin.ext (storeName_inj hij).2

/-- The storages of a new node bear its name and are all free. -/
theorem mem_freshStores {storages : List (StorageType × Nat)} (hs : s ∈ freshStores node storages) :
    (∃ i : Nat, s.id = node ++ "-s" ++ toString i) ∧ s.remaining = s.capacity := by
  obtain ⟨i, _, rfl⟩ := List.mem_mapIdx.1 hs
  exact ⟨⟨i, rfl⟩, rfl⟩

theorem Laid.addNode (h : c.Laid) (id : NodeId) (rack : String) (storages : List (StorageType × Nat)) :
    (c.addNode id rack storages).Laid := by
  have hnodes : ∀ n ∈ (c.addNode id rack storages).nodes,
      n = (id, ⟨rack, freshStores id storages⟩) ∨ n ∈ c.nodes := fun n => SortedTable.mem_put
  refine ⟨h.ascending.put, fun n hn s hs => ?_, fun n hn => ?_⟩
  · rcases hnodes n hn with rfl | hn
    · exact (mem_freshStores hs).1
    · exact h.named n hn s hs
  · rcases hnodes n hn with rfl | hn
    · exact nodup_freshStores id storages
    · exact h.distinct n hn

/-- A storage after a node has been added is one of the new ones, or one of another node. -/
theorem store?_addNode {id : NodeId} {rack : String} {storages : List (StorageType × Nat)}
    (hs : (c.addNode id rack storages).store? node storage = some s) :
    (node = id ∧ s ∈ freshStores id storages) ∨ (node ≠ id ∧ c.store? node storage = some s) := by
  rw [store?, Cluster.addNode, SortedTable.find?_put] at hs
  split at hs
  · exact .inl ⟨‹_›, List.mem_of_find?_eq_some hs⟩
  · exact .inr ⟨‹_›, hs⟩

/-- The storages of the other nodes are where they were. -/
theorem store?_addNode_of_ne {id : NodeId} (hne : node ≠ id) (rack : String)
    (storages : List (StorageType × Nat)) :
    (c.addNode id rack storages).store? node storage = c.store? node storage := by
  rw [store?, Cluster.addNode, SortedTable.find?_put, if_neg hne, store?]

theorem remaining_le_addNode {id : NodeId} {rack : String} {storages : List (StorageType × Nat)}
    (hle : ∀ {node storage s}, c.store? node storage = some s → s.remaining ≤ s.capacity)
    (hs : (c.addNode id rack storages).store? node storage = some s) : s.remaining ≤ s.capacity := by
  rcases store?_addNode hs with ⟨-, hs⟩ | ⟨-, hs⟩
  · exact (mem_freshStores hs).2.le
  · exact hle hs

/-- A node may be added as long as no replica is on a node of its name. -/
theorem Placed.addNode (h : c.Placed) {id : NodeId} (hnew : ∀ b ∈ c.blocks, ∀ r ∈ b.replicas, r.node ≠ id)
    (rack : String) (storages : List (StorageType × Nat)) : (c.addNode id rack storages).Placed := by
  refine ⟨h.toLaid.addNode id rack storages, remaining_le_addNode h.bounded, h.once, fun b hb r hr => ?_⟩
  rw [store?_addNode_of_ne (hnew b hb r hr)]
  exact h.housed b hb r hr

/-- Free bytes stay within the capacities if some of them are taken away. -/
theorem remaining_le_setRemaining {node' : NodeId} {storage' : StorageId} {len : Nat}
    (hle : ∀ {node storage s}, c.store? node storage = some s → s.remaining ≤ s.capacity)
    (hs : (c.setRemaining node storage fun s => s.remaining - len).store? node' storage' = some s) :
    s.remaining ≤ s.capacity := by
  rw [store?_setRemaining] at hs
  split at hs
  · obtain ⟨s₀, hs₀, rfl⟩ := Option.map_eq_some_iff.1 hs
    exact Nat.le_trans (Nat.sub_le _ _) (hle hs₀)
  · exact hle hs

/-- Replicas are placed on storages of their type, and take bytes away. -/
theorem placeReplicas_spec (layout : Layout) (len : Nat) (h : c.Laid)
    (hle : ∀ {node storage s}, c.store? node storage = some s → s.remaining ≤ s.capacity)
    (index : Nat) (replicas : List (NodeId × StorageType)) :
    let result := placeReplicas layout len c index replicas
    result.1.shape = c.shape ∧
      (∀ {node storage s}, result.1.store? node storage = some s → s.remaining ≤ s.capacity) ∧
      ∀ placed, result.2 = .ok placed → ∀ r ∈ placed, ∃ s,
        c.store? r.node r.storage = some s ∧ s.type = r.type := by
  induction replicas generalizing c index with
  | nil =>
    refine ⟨rfl, hle, fun placed hp r hr => ?_⟩
    exact absurd (Except.ok.inj hp ▸ hr) List.not_mem_nil
  | cons x rest ih =>
    obtain ⟨node, type⟩ := x
    rw [placeReplicas]
    split
    · refine ⟨rfl, hle, fun placed hp => ?_⟩
      cases hp
    · rename_i n hn
      split
      · refine ⟨rfl, hle, fun placed hp => ?_⟩
        cases hp
      · rename_i s hs
        have hstore : c.store? node s.id = some s :=
          h.store?_of_mem (SortedTable.mem_of_find? hn) (List.mem_of_find?_eq_some hs)
        have htype : s.type = type := by simpa using List.find?_some hs
        have hshape := shape_setRemaining c node s.id fun s => s.remaining - len
        -- the other replicas are placed once the bytes of the first are taken away
        have hrest := ih (h.congr hshape) (remaining_le_setRemaining hle) (index + 1)
        split
        · rename_i c' e heq
          rw [heq] at hrest
          refine ⟨hrest.1.trans hshape, hrest.2.1, fun placed hp => ?_⟩
          cases hp
        · rename_i c' placed heq
          rw [heq] at hrest
          refine ⟨hrest.1.trans hshape, hrest.2.1, fun all hall r hr => ?_⟩
          obtain rfl := Except.ok.inj hall
          rcases List.mem_cons.1 hr with rfl | hr
          · exact ⟨s, hstore, htype⟩
          · obtain ⟨s', hs', ht'⟩ := hrest.2.2 placed rfl r hr
            obtain ⟨s₀, hs₀, ht₀, -⟩ := store?_of_shape hshape.symm hs'
            exact ⟨s₀, hs₀, ht₀.trans ht'⟩

theorem Placed.addBlock (h : c.Placed) (path policy : String) (layout : Layout) (block : Block)
    (replicas : List (NodeId × StorageType)) :
    (c.addBlock path policy layout block replicas).1.Placed := by
  obtain ⟨hshape, hle, hplaced⟩ := placeReplicas_spec layout block.len h.toLaid h.bounded 0 replicas
  obtain ⟨nodes, hframe⟩ := placeReplicas_frame layout block.len c 0 replicas
  rw [Cluster.addBlock]
  split
  · exact h
  · rename_i hnew
    have hkeep : ∀ b ∈ c.blocks, ∀ r ∈ b.replicas, ∃ s,
        (placeReplicas layout block.len c 0 replicas).1.store? r.node r.storage = some s ∧
          s.type = r.type := by
      intro b hb r hr
      obtain ⟨s, hs, ht⟩ := h.housed b hb r hr
      obtain ⟨s', hs', ht', -⟩ := store?_of_shape hshape hs
      exact ⟨s', hs', ht'.trans ht⟩
    split
    · rename_i c' e heq
      rw [heq] at hshape hle hframe hkeep
      subst hframe
      exact ⟨h.toLaid.congr hshape, hle, h.once, hkeep⟩
    · rename_i c' placed heq
      rw [heq] at hshape hle hframe hkeep hplaced
      subst hframe
      refine ⟨h.toLaid.congr hshape, hle, ?_, fun b hb r hr => ?_⟩
      · have hfresh : block.id ∉ c.blocks.map fun b => b.block.id := by
          simpa [block?] using hnew
        simpa [List.nodup_append, List.nodup_singleton] using ⟨h.once, by simpa using hfresh⟩
      · rcases List.mem_append.1 hb with hb | hb
        · exact hkeep b hb r hr
        · obtain rfl := List.mem_singleton.1 hb
          obtain ⟨s, hs, ht⟩ := hplaced placed rfl r hr
          obtain ⟨s', hs', ht', -⟩ := store?_of_shape hshape hs
          exact ⟨s', hs', ht'.trans ht⟩

theorem Placed.addBlocks (h : c.Placed) (f : FileDescription) (blocks : List BlockDescription)
    (hc : f.addBlocks c blocks = .ok c') : c'.Placed := by
  induction blocks generalizing c with
  | nil => exact Except.ok.inj hc ▸ h
  | cons b rest ih =>
    rw [FileDescription.addBlocks] at hc
    split at hc
    · cases hc
    · rename_i next heq
      have hnext := h.addBlock f.path f.policy (f.layout.getD Layout.standard)
        ⟨b.id, b.len, b.generation⟩ (b.replicas.map fun r => (r.node, r.type))
      rw [heq] at hnext
      exact ih hnext hc

theorem Placed.addAll (h : c.Placed) (files : List FileDescription)
    (hc : FileDescription.addAll c files = .ok c') : c'.Placed := by
  induction files generalizing c with
  | nil => exact Except.ok.inj hc ▸ h
  | cons f rest ih =>
    rw [FileDescription.addAll] at hc
    split at hc
    · cases hc
    · rename_i next heq
      exact ih (h.addBlocks f f.blocks heq) hc

theorem Placed.addNodes (h : c.Placed) (hb : c.blocks = []) (nodes : List NodeDescription) :
    (nodes.foldl NodeDescription.addTo c).Placed := by
  induction nodes generalizing c with
  | nil => exact h
  | cons n rest ih =>
    have hnew : ∀ b ∈ c.blocks, ∀ r ∈ b.replicas, r.node ≠ n.id := by simp [hb]
    exact ih (h.addNode hnew n.rack _) hb

/-- Faults concern neither nodes nor blocks. -/
theorem Placed.addFaults (h : c.Placed) (f : FaultDescription) : (f.addTo c).Placed := by
  have hmissing : ∀ (blocks : List BlockId) {c : Cluster}, c.Placed →
      (blocks.foldl Cluster.loseSource c).Placed := fun blocks => by
    induction blocks with
    | nil => exact id
    | cons b rest ih => exact fun h => ih (h.congr rfl rfl)
  have hrefused : ∀ (types : List StorageType) {c : Cluster}, c.Placed →
      (types.foldl Cluster.refuse c).Placed := fun types => by
    induction types with
    | nil => exact id
    | cons t rest ih => exact fun h => ih (h.congr rfl rfl)
  have hfaults : ∀ {c : Cluster}, c.Placed →
      ((f.refused.foldl Cluster.refuse (f.missing.foldl Cluster.loseSource
        (c.setRejectsRenewal f.rejectsRenewal))).failListings f.listingFailures 0).Placed := by
    intro c h
    have hrenewal : (c.setRejectsRenewal f.rejectsRenewal).Placed := h.congr rfl rfl
    exact (hrefused f.refused (hmissing f.missing hrenewal)).congr rfl rfl
  rw [FaultDescription.addTo]
  split
  · exact hfaults (h.congr rfl rfl)
  · exact hfaults (h.congr rfl rfl)

theorem placed_empty (id : NamespaceId) : (Cluster.empty id).Placed where
  ascending := SortedTable.ascending_nil
  named := fun _ hn => nomatch hn
  distinct := fun _ hn => nomatch hn
  bounded := fun hs => nomatch hs
  once := List.nodup_nil
  housed := fun _ hb => nomatch hb

theorem placed_build {d : ClusterDescription} (h : d.build = .ok c) : c.Placed := by
  rw [ClusterDescription.build] at h
  split at h
  · cases h
  · rename_i filled heq
    refine Except.ok.inj h ▸ Placed.addFaults (Placed.addAll (Placed.addNodes ?_ ?_ _) d.files heq) _
    all_goals cases d.pageSize
    · exact placed_empty _
    · exact (placed_empty d.namespaceId).congr rfl rfl
    · rfl
    · rfl

/-- Described clusters after any relocations. -/
inductive Deployed : Cluster → Prop
  | described {d : ClusterDescription} {c : Cluster} (h : d.build = .ok c) : Deployed c
  | relocated {c : Cluster} (h : Deployed c) (m : Move) : Deployed (c.relocate m).1

/-- Every described cluster has its replicas in place, and relocations keep them so. -/
theorem Deployed.placed (h : c.Deployed) : c.Placed := by
  induction h with
  | described h => exact placed_build h
  | relocated _ m ih => exact ih.relocate m

end Cluster

end StorageTiering
