import StorageTiering.Proofs.Cluster.Records
/-!
# What a cluster holds

Which blocks there are, and with which pieces, does not depend on where the pieces are.

* `Cluster.content` — the blocks with their pieces.
* `Cluster.Alike` — the same files, and the same blocks in the same places.
* `Cluster.Conserves` — the same files, the same blocks with the same pieces, and some of the blocks in the
  same places; `Cluster.Conserves.relocate` for a move of one of the others.
-/

namespace StorageTiering.Cluster

variable {c c' c'' : Cluster} {m : Move} {moved : BlockId → Prop} {b : ListedBlock} {paths : List String}

/-- The blocks of a cluster with their pieces, one for each place in its order. -/
def content (c : Cluster) : List (Block × List (Option Nat)) :=
  c.blocks.map fun b => (b.block, b.replicas.map Replica.piece)

/-! ### Clusters that show the same -/

/-- The same files, and the same blocks in the same places. -/
structure Alike (c c' : Cluster) : Prop where
  files : c'.files = c.files
  blocks : c'.blocks = c.blocks

theorem Alike.refl (c : Cluster) : c.Alike c := ⟨rfl, rfl⟩

theorem Alike.trans (h : c.Alike c') (h' : c'.Alike c'') : c.Alike c'' :=
  ⟨h'.files.trans h.files, h'.blocks.trans h.blocks⟩

/-- Disturbances leave files and blocks alone. -/
theorem alike_disturb (c : Cluster) (d : Disturbance) : c.Alike (d.apply c) := by
  cases d <;> exact ⟨rfl, rfl⟩

theorem alike_listPage (c : Cluster) (path : String) (cursor : Option String) :
    c.Alike (c.listPage path cursor).1 := by
  obtain ⟨grace, failures, he⟩ := listPage_frame c path cursor
  rw [he]
  exact ⟨rfl, rfl⟩

theorem alike_acquireLease (c : Cluster) (holder : String) : c.Alike (c.acquireLease holder).1 := by
  rw [Cluster.acquireLease]
  split <;> exact ⟨rfl, rfl⟩

/-- A page has records of its path alone. -/
theorem mem_records_of_listPage {path : String} {cursor : Option String} {page : Page}
    (h : (c.listPage path cursor).2 = .ok page) (hb : b ∈ page.blocks) :
    b ∈ (c.itemsUnder path).map ListingItem.listed := by
  have hpage : ∀ (c : Cluster) at?, c.pageUnder path at? = .ok page →
      b ∈ (c.itemsUnder path).map ListingItem.listed := by
    intro c at? h
    rw [pageUnder] at h
    split at h
    · cases h
    · obtain rfl := Except.ok.inj h
      refine List.map_subset _ (fun i hi => ?_) hb
      have hafter := List.mem_of_mem_take hi
      cases at? with
      | none => exact hafter
      | some cursor => exact List.mem_of_mem_filter hafter
  rw [Cluster.listPage] at h
  split at h
  · cases h
  · cases cursor with
    | none => exact hpage _ _ h
    | some text =>
      dsimp only at h
      split at h
      · cases h
      · exact hpage _ _ h

/-! ### Clusters that hold the same -/

/-- The same files, the same blocks with the same pieces, and all blocks in the same places but those that
may have moved. -/
structure Conserves (moved : BlockId → Prop) (c c' : Cluster) : Prop where
  files : c'.files = c.files
  content : c'.content = c.content
  others : ∀ id, ¬moved id → c'.block? id = c.block? id

theorem Conserves.trans (h : c.Conserves moved c') (h' : c'.Conserves moved c'') : c.Conserves moved c'' :=
  ⟨h'.files.trans h.files, h'.content.trans h.content,
    fun id hid => (h'.others id hid).trans (h.others id hid)⟩

theorem Alike.conserves (h : c.Alike c') (moved : BlockId → Prop) : c.Conserves moved c' :=
  ⟨h.files, by rw [Cluster.content, h.blocks]; rfl, fun id _ => by rw [block?, h.blocks]; rfl⟩

/-- A replica that is moved stays the same piece. -/
theorem map_piece_moveReplica (m : Move) (replicas : List Replica) :
    (moveReplica m replicas).map Replica.piece = replicas.map Replica.piece := by
  induction replicas with
  | nil => rfl
  | cons r rest ih =>
    rw [moveReplica]
    split
    · rfl
    · rw [List.map_cons, List.map_cons, ih]

theorem content_applyMove (c : Cluster) (m : Move) : (c.applyMove m).content = c.content := by
  simp only [content, applyMove, setRemaining, List.map_map]
  refine List.map_congr_left fun b _ => ?_
  simp only [Function.comp_apply]
  split
  · rw [map_piece_moveReplica]
  · rfl

/-- A relocation moves its own block, and keeps its pieces. -/
theorem conserves_relocate (c : Cluster) (hm : moved m.block.id) : c.Conserves moved (c.relocate m).1 := by
  cases herror : c.relocationError? m with
  | some e =>
    have hcalled : c.Alike c.called := ⟨rfl, rfl⟩
    rw [relocate_of_error herror]
    exact hcalled.conserves moved
  | none =>
    rw [relocate_of_none herror]
    refine ⟨rfl, content_applyMove c.called m, fun id hid => ?_⟩
    have hne : id ≠ m.block.id := fun he => hid (he ▸ hm)
    rw [block?_applyMove, block?_called]
    simp only [if_neg hne, Option.map_id']

/-- A record of a block that has not moved is the one that was there before. -/
theorem Conserves.listedBlock?_eq_some_iff (h : c.Conserves moved c') (hb : ¬moved b.block.id) (path : String)
    (f : File) (id : BlockId) : c'.listedBlock? path f id = some b ↔ c.listedBlock? path f id = some b := by
  by_cases hid : b.block.id = id
  · rw [listedBlock?, listedBlock?, h.others id (hid ▸ hb)]
  · exact ⟨fun he => absurd (id_of_listedBlock? he) hid, fun he => absurd (id_of_listedBlock? he) hid⟩

theorem Conserves.lists_iff (h : c.Conserves moved c') (hb : ¬moved b.block.id) : c'.Lists b ↔ c.Lists b := by
  simp only [Cluster.lists_iff, h.files, h.listedBlock?_eq_some_iff hb]

theorem Conserves.mem_listedUnder (h : c.Conserves moved c') (hb : ¬moved b.block.id) :
    b ∈ c'.listedUnder paths ↔ b ∈ c.listedUnder paths := by
  simp only [Cluster.mem_listedUnder, h.files, h.listedBlock?_eq_some_iff hb]

end StorageTiering.Cluster
