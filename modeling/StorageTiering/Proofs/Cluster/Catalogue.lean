import StorageTiering.Cluster.Description
import StorageTiering.Cluster.Disturbance
import StorageTiering.Cluster.Listing
import StorageTiering.Cluster.Relocation
import StorageTiering.Proofs.SortedTable
/-!
# The catalogue of a cluster

The files of a simulated cluster name each of its blocks once, whatever is done to the cluster.

* `Cluster.Reachable` — the clusters that come about by the operations of a simulated namespace.
* `Cluster.Catalogued` — files in order, blocks that are there and are named once, numbers of eight
  bytes, and pages with room for a block.
* `Cluster.Reachable.catalogued` — every reachable cluster is catalogued.
* `Cluster.reachable_build` — a described cluster is reachable.
-/

namespace StorageTiering

namespace Cluster

/-- The clusters that come about by the operations of a simulated namespace. Blocks are numbered by
eight bytes. -/
inductive Reachable : Cluster → Prop
  | empty (id : NamespaceId) : Reachable (.empty id)
  | addBlock {c : Cluster} (h : Reachable c) (path policy : String) (layout : Layout) (block : Block)
      (replicas : List (NodeId × StorageType)) (hid : block.id < Text.byteBound 8) :
      Reachable (c.addBlock path policy layout block replicas).1
  | disturb {c : Cluster} (h : Reachable c) (d : Disturbance) : Reachable (d.apply c)
  | listPage {c : Cluster} (h : Reachable c) (path : String) (cursor : Option String) :
      Reachable (c.listPage path cursor).1
  | relocate {c : Cluster} (h : Reachable c) (m : Move) : Reachable (c.relocate m).1
  | checkSatisfier {c : Cluster} (h : Reachable c) : Reachable c.checkSatisfier.1
  | acquireLease {c : Cluster} (h : Reachable c) (holder : String) :
      Reachable (c.acquireLease holder).1
  | releaseLease {c : Cluster} (h : Reachable c) (serial : Nat) :
      Reachable (c.releaseLease serial).1

/-- The numbers of the blocks that files name, file by file. -/
def namedBlocks (c : Cluster) : List BlockId := c.files.flatMap fun f => f.2.blocks

/-- The files of a cluster name each of its blocks once. -/
structure Catalogued (c : Cluster) : Prop where
  ascending : c.files.Ascending
  once : c.namedBlocks.Nodup
  present : ∀ id ∈ c.namedBlocks, (c.block? id).isSome
  numbered : ∀ id ∈ c.namedBlocks, id < Text.byteBound 8
  room : 1 ≤ c.pageSize

variable {c c' : Cluster}

theorem Catalogued.congr (h : c.Catalogued) (hf : c'.files = c.files)
    (hb : ∀ id, (c'.block? id).isSome = (c.block? id).isSome) (hp : 1 ≤ c'.pageSize) :
    c'.Catalogued := by
  have hn : c'.namedBlocks = c.namedBlocks := by simp only [namedBlocks, hf]
  refine ⟨hf ▸ h.ascending, hn ▸ h.once, fun id hid => ?_, hn ▸ h.numbered, hp⟩
  rw [hb]
  exact h.present id (hn ▸ hid)

/-! ### A new block -/

/-- Replicas that are placed change nothing but the nodes. -/
theorem placeReplicas_frame (layout : Layout) (len : Nat) (c : Cluster) (index : Nat)
    (replicas : List (NodeId × StorageType)) :
    ∃ nodes, (placeReplicas layout len c index replicas).1 = { c with nodes := nodes } := by
  induction replicas generalizing c index with
  | nil => exact ⟨c.nodes, rfl⟩
  | cons r rest ih =>
    obtain ⟨node, type⟩ := r
    rw [placeReplicas]
    split
    · exact ⟨c.nodes, rfl⟩
    · split
      · exact ⟨c.nodes, rfl⟩
      · rename_i n _ s _
        obtain ⟨nodes, hn⟩ := ih (c.setRemaining node s.id fun s => s.remaining - len) (index + 1)
        refine ⟨nodes, ?_⟩
        split
        · rename_i c' e heq
          exact (congrArg Prod.fst heq).symm.trans hn
        · rename_i c' placed heq
          exact (congrArg Prod.fst heq).symm.trans hn

/-- A block that is added is a new one, and stands behind the others of its file. Nothing else but the
nodes changes; if the block cannot be added, nothing else does either. -/
theorem addBlock_frame (c : Cluster) (path policy : String) (layout : Layout) (block : Block)
    (replicas : List (NodeId × StorageType)) :
    ∃ nodes, (c.addBlock path policy layout block replicas).1 = { c with nodes := nodes } ∨
      (c.block? block.id = none ∧ ∃ placed, (c.addBlock path policy layout block replicas).1 =
        { c with
          nodes := nodes,
          files := c.files.put path (c.fileWith path policy layout block.id),
          blocks := c.blocks ++ [⟨block, placed⟩] }) := by
  obtain ⟨nodes, hn⟩ := placeReplicas_frame layout block.len c 0 replicas
  rw [addBlock]
  split
  · exact ⟨c.nodes, .inl rfl⟩
  · rename_i hb
    refine ⟨nodes, ?_⟩
    split
    · rename_i c' e heq
      exact .inl ((congrArg Prod.fst heq).symm.trans hn)
    · rename_i c' placed heq
      have hc : c' = { c with nodes := nodes } := (congrArg Prod.fst heq).symm.trans hn
      subst hc
      exact .inr ⟨by simpa using hb, placed, rfl⟩

/-- A block that has been added is a new one and the last one, and its replicas have been placed. -/
theorem addBlock_ok {path policy : String} {layout : Layout} {block : Block}
    {replicas : List (NodeId × StorageType)}
    (hok : (c.addBlock path policy layout block replicas).2 = .ok ()) :
    ∃ nodes placed, c.block? block.id = none ∧
      placeReplicas layout block.len c 0 replicas = ({ c with nodes := nodes }, .ok placed) ∧
      (c.addBlock path policy layout block replicas).1 =
        { c with
          nodes := nodes,
          files := c.files.put path (c.fileWith path policy layout block.id),
          blocks := c.blocks ++ [⟨block, placed⟩] } := by
  obtain ⟨nodes, hframe⟩ := placeReplicas_frame layout block.len c 0 replicas
  rw [Cluster.addBlock] at hok ⊢
  split at hok
  · cases hok
  · rename_i hnew
    rw [if_neg hnew]
    cases hp : placeReplicas layout block.len c 0 replicas with
    | mk c' result =>
      rw [hp] at hframe hok
      cases result with
      | error e => cases hok
      | ok placed =>
        obtain rfl : c' = { c with nodes := nodes } := hframe
        exact ⟨nodes, placed, by simpa using hnew, rfl, rfl⟩

/-- The blocks that files name, with one more block. -/
theorem namedBlocks_put (h : c.files.Ascending) (path policy : String) (layout : Layout)
    (id : BlockId) :
    ((c.files.put path (c.fileWith path policy layout id)).flatMap fun f => f.2.blocks).Perm
      (id :: c.namedBlocks) := by
  rcases h.put_perm path (c.fileWith path policy layout id) with ⟨hn, hp⟩ | ⟨old, rest, hf, ht, hp⟩
  · refine (hp.flatMap_right _).trans ?_
    simp [fileWith, hn, namedBlocks]
  · refine (hp.flatMap_right _).trans (.trans ?_ ((ht.flatMap_right _).symm.cons id))
    simp only [fileWith, hf, List.flatMap_cons, List.append_assoc, List.singleton_append]
    exact List.perm_middle

theorem Catalogued.addBlock (h : c.Catalogued) (path policy : String) (layout : Layout)
    (block : Block) (replicas : List (NodeId × StorageType)) (hid : block.id < Text.byteBound 8) :
    (c.addBlock path policy layout block replicas).1.Catalogued := by
  obtain ⟨nodes, he | ⟨hnew, placed, he⟩⟩ := addBlock_frame c path policy layout block replicas
  · rw [he]
    exact h.congr rfl (fun _ => rfl) h.room
  · rw [he]
    have hp := namedBlocks_put h.ascending path policy layout block.id
    have hmem : ∀ {id}, id ∈ _ → id ∈ block.id :: c.namedBlocks := fun hm => hp.mem_iff.1 hm
    refine ⟨h.ascending.put, hp.nodup_iff.2 (List.nodup_cons.2 ⟨fun hm => ?_, h.once⟩), ?_, ?_, h.room⟩
    · have := h.present _ hm
      rw [hnew] at this
      exact absurd this (by decide)
    · intro id hm
      rcases List.mem_cons.1 (hmem hm) with rfl | hm
      · simp [block?]
      · have := h.present id hm
        simp only [block?, List.find?_append, Option.isSome_or] at this ⊢
        simp [this]
    · intro id hm
      rcases List.mem_cons.1 (hmem hm) with rfl | hm
      · exact hid
      · exact h.numbered id hm

/-! ### Every other operation -/

theorem Catalogued.disturb (h : c.Catalogued) (d : Disturbance) : (d.apply c).Catalogued := by
  cases d with
  | pageSize size => exact h.congr rfl (fun _ => rfl) (Nat.le_max_right _ _)
  | _ => exact h.congr rfl (fun _ => rfl) h.room

/-- A listing only counts calls, successes and failures. -/
theorem listPage_frame (c : Cluster) (path : String) (cursor : Option String) :
    ∃ grace failures, (c.listPage path cursor).1 =
      { c with
        listCalls := c.listCalls + 1, listingGrace := grace, listingFailures := failures } := by
  rw [listPage]
  split
  · exact ⟨_, _, rfl⟩
  · cases cursor with
    | none => exact ⟨_, _, rfl⟩
    | some text =>
      dsimp only
      split <;> exact ⟨_, _, rfl⟩

/-- A relocation changes nodes, replicas and the count of calls alone. -/
theorem relocate_frame (c : Cluster) (m : Move) :
    ∃ nodes blocks, (c.relocate m).1 =
        { c with nodes := nodes, blocks := blocks, relocateCalls := c.relocateCalls + 1 } ∧
      blocks.map PlacedBlock.block = c.blocks.map PlacedBlock.block := by
  rw [relocate]
  split
  · exact ⟨c.nodes, c.blocks, rfl, rfl⟩
  · refine ⟨_, _, rfl, ?_⟩
    rw [List.map_map]
    refine List.map_congr_left fun b _ => ?_
    simp only [Function.comp_apply]
    split <;> rfl

theorem isSome_block? (c : Cluster) (id : BlockId) :
    (c.block? id).isSome = decide (id ∈ (c.blocks.map PlacedBlock.block).map Block.id) := by
  rw [Bool.eq_iff_iff]
  simp [block?]

theorem Catalogued.relocate (h : c.Catalogued) (m : Move) : (c.relocate m).1.Catalogued := by
  obtain ⟨nodes, blocks, he, hb⟩ := relocate_frame c m
  rw [he]
  refine h.congr rfl (fun id => ?_) h.room
  rw [isSome_block?, isSome_block? c, hb]

/-- Every reachable cluster is catalogued. -/
theorem Reachable.catalogued (h : c.Reachable) : c.Catalogued := by
  induction h with
  | empty id =>
    exact ⟨SortedTable.ascending_nil, List.nodup_nil, (fun _ hid => nomatch hid),
      (fun _ hid => nomatch hid), show 1 ≤ 100 by decide⟩
  | addBlock _ path policy layout block replicas hid ih =>
    exact ih.addBlock path policy layout block replicas hid
  | disturb _ d ih => exact ih.disturb d
  | @listPage c _ path cursor ih =>
    obtain ⟨grace, failures, he⟩ := listPage_frame c path cursor
    exact he ▸ ih.congr rfl (fun _ => rfl) ih.room
  | relocate _ m ih => exact ih.relocate m
  | checkSatisfier _ ih => exact ih.congr rfl (fun _ => rfl) ih.room
  | acquireLease _ holder ih =>
    rw [Cluster.acquireLease]
    split
    · exact ih
    · exact ih.congr rfl (fun _ => rfl) ih.room
  | releaseLease _ serial ih =>
    rw [Cluster.releaseLease]
    split
    · exact ih.congr rfl (fun _ => rfl) ih.room
    · exact ih

/-! ### Described clusters -/

theorem Reachable.addBlocks (h : c.Reachable) (f : FileDescription) (blocks : List BlockDescription)
    (hid : ∀ b ∈ blocks, b.id < Text.byteBound 8) (hc : f.addBlocks c blocks = .ok c') :
    c'.Reachable := by
  induction blocks generalizing c with
  | nil => exact Except.ok.inj hc ▸ h
  | cons b rest ih =>
    rw [FileDescription.addBlocks] at hc
    split at hc
    · exact absurd hc nofun
    · rename_i next heq
      have hnext := h.addBlock f.path f.policy (f.layout.getD Layout.standard)
        ⟨b.id, b.len, b.generation⟩ (b.replicas.map fun r => (r.node, r.type))
        (hid b List.mem_cons_self)
      rw [heq] at hnext
      exact ih hnext (fun b hb => hid b (List.mem_cons_of_mem _ hb)) hc

theorem Reachable.addAll (h : c.Reachable) (files : List FileDescription)
    (hid : ∀ f ∈ files, ∀ b ∈ f.blocks, b.id < Text.byteBound 8)
    (hc : FileDescription.addAll c files = .ok c') : c'.Reachable := by
  induction files generalizing c with
  | nil => exact Except.ok.inj hc ▸ h
  | cons f rest ih =>
    rw [FileDescription.addAll] at hc
    split at hc
    · exact absurd hc nofun
    · rename_i next heq
      exact ih (h.addBlocks f f.blocks (hid f List.mem_cons_self) heq)
        (fun f hf => hid f (List.mem_cons_of_mem _ hf)) hc

theorem Reachable.addNodes (h : c.Reachable) (nodes : List NodeDescription) :
    (nodes.foldl NodeDescription.addTo c).Reachable := by
  induction nodes generalizing c with
  | nil => exact h
  | cons n rest ih => exact ih (h.disturb (.addNode n.id n.rack _))

theorem Reachable.addFaults (h : c.Reachable) (f : FaultDescription) : (f.addTo c).Reachable := by
  have hmissing : ∀ (blocks : List BlockId) {c : Cluster}, c.Reachable →
      (blocks.foldl Cluster.loseSource c).Reachable := fun blocks => by
    induction blocks with
    | nil => exact id
    | cons b rest ih => exact fun h => ih (h.disturb (.loseSource b))
  have hrefused : ∀ (types : List StorageType) {c : Cluster}, c.Reachable →
      (types.foldl Cluster.refuse c).Reachable := fun types => by
    induction types with
    | nil => exact id
    | cons t rest ih => exact fun h => ih (h.disturb (.refuse t))
  refine (hrefused _ (hmissing _ (Reachable.disturb ?_ (.rejectRenewal _)))).disturb (.failListings _ _)
  cases f.leaseHolder with
  | none => exact h.disturb (.satisfier _)
  | some holder => exact (h.disturb (.satisfier _)).disturb (.holdLease holder _)

end Cluster

/-- Every block of a description has a number of eight bytes. -/
def ClusterDescription.Numbered (d : ClusterDescription) : Prop :=
  ∀ f ∈ d.files, ∀ b ∈ f.blocks, b.id < Text.byteBound 8

/-- A described cluster is reachable. -/
theorem Cluster.reachable_build {d : ClusterDescription} {c : Cluster} (hd : d.Numbered)
    (h : d.build = .ok c) : c.Reachable := by
  rw [ClusterDescription.build] at h
  split at h
  · exact absurd h nofun
  · rename_i filled heq
    refine Except.ok.inj h ▸ Reachable.addFaults (Reachable.addAll (Reachable.addNodes ?_ _) d.files hd heq) _
    cases d.pageSize with
    | none => exact .empty _
    | some size => exact (Reachable.empty _).disturb (.pageSize size)

end StorageTiering
