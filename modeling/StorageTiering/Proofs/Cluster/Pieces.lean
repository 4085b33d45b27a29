import StorageTiering.Proofs.Cluster.Content
import StorageTiering.Proofs.Cluster.Effects
import StorageTiering.Proofs.Cluster.Plan
import Mathlib.Data.List.Nodup
/-!
# The pieces of a striped group

The pieces of a new group are numbered in the order of its replicas, and a number is held in one byte. So the
first 256 pieces are told apart by their numbers, and the numbers of the next ones start again from zero.
Relocations move pieces and leave their numbers alone.

* `Cluster.piecesOf` — the numbers of the pieces of a block.
* `Cluster.piecesOf_addBlock`, `Cluster.piecesOf_eq_of_content` — how the numbers come about, and that they stay.
* `Cluster.nodup_pieces_iff` — how many pieces are told apart.
* `Cluster.addBlock_ok_of_landing` — a new block is added if each of its replicas finds a storage.
* `Cluster.addBlock_pieces` — the pieces of a new group, after whatever relocations.
* `Cluster.addBlock_repeats_piece` — a group with two pieces of one number.
-/

namespace StorageTiering.Cluster

variable {c c' : Cluster} {path policy : String} {layout : Layout} {block : Block}
  {replicas : List (NodeId × StorageType)} {placed : List Replica} {id : BlockId}

/-- The numbers of the pieces of a block, in the order of its replicas. -/
def piecesOf (c : Cluster) (id : BlockId) : List (Option Nat) := (c.replicasOf id).map Replica.piece

/-! ### How pieces are numbered -/

/-- Replicas that are placed are numbered from the index of the first one. -/
theorem map_piece_placeReplicas {len index : Nat}
    (h : placeReplicas layout len c index replicas = (c', .ok placed)) :
    placed.map Replica.piece = (List.range' index replicas.length).map (pieceOf layout) := by
  induction replicas generalizing c index placed with
  | nil =>
    obtain ⟨-, hplaced⟩ := Prod.mk.inj h
    obtain rfl := Except.ok.inj hplaced
    rfl
  | cons place rest ih =>
    rw [placeReplicas_cons] at h
    cases hplace : c.landing place with
    | error e =>
      rw [hplace] at h
      cases h
    | ok storage =>
      rw [hplace] at h
      dsimp only at h
      cases hnext : placeReplicas layout len (c.setRemaining place.1 storage fun s => s.remaining - len)
          (index + 1) rest with
      | mk next result =>
        rw [hnext] at h
        cases result with
        | error e => cases h
        | ok others =>
          obtain ⟨rfl, hplaced⟩ := Prod.mk.inj h
          obtain rfl := Except.ok.inj hplaced
          rw [List.map_cons, ih hnext, List.length_cons, List.range'_succ, List.map_cons]

/-- The pieces of a new block are numbered from zero. -/
theorem piecesOf_addBlock (hok : (c.addBlock path policy layout block replicas).2 = .ok ()) :
    (c.addBlock path policy layout block replicas).1.piecesOf block.id =
      (List.range replicas.length).map (pieceOf layout) := by
  obtain ⟨nodes, placed, hnew, hplaced, hadded⟩ := addBlock_ok hok
  have hblock : (c.addBlock path policy layout block replicas).1.block? block.id = some ⟨block, placed⟩ := by
    rw [block?] at hnew
    rw [hadded, block?, List.find?_append, hnew, Option.none_or]
    exact List.find?_cons_of_pos (beq_self_eq_true block.id)
  rw [piecesOf, replicasOf, hblock, map_piece_placeReplicas hplaced, List.range_eq_range']

/-- Of a group of more than 256 pieces the first one and the one behind the first 256 have one number. -/
theorem nodup_pieces_iff (data parity pieces : Nat) :
    ((List.range pieces).map (pieceOf (.striped data parity))).Nodup ↔ pieces ≤ 256 := by
  constructor
  · intro h
    by_contra hmany
    have hzero : 0 ∈ List.range pieces := List.mem_range.2 (by omega)
    have hnext : 256 ∈ List.range pieces := List.mem_range.2 (by omega)
    have hsame : pieceOf (.striped data parity) 0 = pieceOf (.striped data parity) 256 := rfl
    exact absurd (List.inj_on_of_nodup_map h hzero hnext hsame) (by decide)
  · intro hfew
    refine List.Nodup.map_on (fun i hi j hj he => ?_) List.nodup_range
    have hmod : i % 256 = j % 256 := Option.some.inj he
    rw [List.mem_range] at hi hj
    omega

/-! ### Relocations -/

/-- The numbers of pieces belong to what a cluster holds. -/
theorem piecesOf_eq_of_content (h : c'.content = c.content) (id : BlockId) : c'.piecesOf id = c.piecesOf id := by
  have hread : ∀ c : Cluster, c.piecesOf id =
      ((c.content.find? fun b => b.1.id == id).map Prod.snd).getD [] := fun c => by
    simp only [piecesOf, replicasOf, block?, content, List.find?_map, Function.comp_def]
    cases c.blocks.find? fun b => b.block.id == id <;> rfl
  rw [hread, hread, h]

/-- Relocations keep what a cluster holds. -/
theorem conserves_relocateAll (c : Cluster) (moves : List Move) :
    c.Conserves (fun _ => True) (c.relocateAll moves).1 := by
  induction moves generalizing c with
  | nil => exact (Alike.refl c).conserves _
  | cons m rest ih => exact (conserves_relocate c trivial).trans (ih (c.relocate m).1)

/-! ### New groups -/

/-- A block with a new number is added if each of its replicas finds a storage. -/
theorem addBlock_ok_of_landing (hnew : c.block? block.id = none)
    (hlanding : ∀ place ∈ replicas, ∃ storage, c.landing place = .ok storage) :
    (c.addBlock path policy layout block replicas).2 = .ok () := by
  rcases placeReplicas_cases layout block.len c 0 replicas with
    ⟨placed, hplaced⟩ | ⟨before, failing, after, e, rfl, -, hfailing, -⟩
  · rw [addBlock, hnew, if_neg (by decide), hplaced]
  · obtain ⟨storage, hstorage⟩ :=
      hlanding failing (List.mem_append_right before List.mem_cons_self)
    cases hstorage.symm.trans hfailing

/-- The file that a new block makes. -/
theorem find?_files_addBlock (hfile : c.files.find? path = none)
    (hok : (c.addBlock path policy layout block replicas).2 = .ok ()) :
    (c.addBlock path policy layout block replicas).1.files.find? path = some ⟨policy, layout, [block.id]⟩ := by
  obtain ⟨nodes, placed, -, -, hadded⟩ := addBlock_ok hok
  rw [hadded, SortedTable.find?_put, if_pos rfl, fileWith, hfile]

/-! ### A row of nodes -/

/-- The name of a node in a row. -/
def rowName (i : Nat) : NodeId := "n" ++ toString i

theorem rowName_injective : Function.Injective rowName := fun i j h =>
  Text.toDigits_inj (by simpa [rowName] using congrArg String.toList h)

/-- A cluster of nodes in a row, each of one disk. -/
def nodeRow : Nat → Cluster
  | 0 => empty "ns1"
  | n + 1 => (nodeRow n).addNode (rowName n) "/r" [(.disk, 9)]

/-- The disks of these nodes. -/
def rowDisks (n : Nat) : List (NodeId × StorageType) := (List.range n).map fun i => (rowName i, .disk)

theorem length_rowDisks (n : Nat) : (rowDisks n).length = n := by
  rw [rowDisks, List.length_map, List.length_range]

theorem nodup_rowDisks (n : Nat) : (rowDisks n).Nodup :=
  List.nodup_range.map fun _ _ h => rowName_injective (congrArg Prod.fst h)

/-- Nodes in a row come without files and blocks. -/
theorem nodeRow_frame (n : Nat) : ∃ nodes, nodeRow n = { empty "ns1" with nodes := nodes } := by
  induction n with
  | zero => exact ⟨[], rfl⟩
  | succ n ih =>
    obtain ⟨nodes, hrow⟩ := ih
    rw [nodeRow, hrow]
    exact ⟨_, rfl⟩

theorem find?_files_nodeRow (n : Nat) (path : String) : (nodeRow n).files.find? path = none := by
  obtain ⟨nodes, hrow⟩ := nodeRow_frame n
  rw [hrow]
  rfl

/-- A replica lands on the disk of its node. -/
theorem landing_nodeRow {i n : Nat} (h : i < n) :
    (nodeRow n).landing (rowName i, .disk) = .ok (rowName i ++ "-s" ++ toString 0) := by
  induction n with
  | zero => exact absurd h (Nat.not_lt_zero i)
  | succ n ih =>
    rw [nodeRow, landing, addNode, SortedTable.find?_put]
    by_cases hlast : i = n
    · subst hlast
      rw [if_pos rfl]
      rfl
    · rw [if_neg fun hname => hlast (rowName_injective hname)]
      exact ih (by omega)

/-- A block with a replica on each node in a row is added. -/
theorem addBlock_nodeRow (n : Nat) (path policy : String) (layout : Layout) (block : Block) :
    ((nodeRow n).addBlock path policy layout block (rowDisks n)).2 = .ok () := by
  refine addBlock_ok_of_landing ?_ fun place hplace => ?_
  · obtain ⟨nodes, hrow⟩ := nodeRow_frame n
    rw [hrow]
    rfl
  · obtain ⟨i, hi, rfl⟩ := List.mem_map.1 hplace
    exact ⟨_, landing_nodeRow (List.mem_range.1 hi)⟩

/-! ### Striped groups -/

/-- A striped group that makes its file, with no more replicas than the layout has slots, has them numbered by
the low byte of their index. Each number is one of a slot, and the replicas of the first 256 slots have their
index as it is; the numbers differ if and only if there are no more than these. All of this stays so under
relocations. -/
theorem addBlock_pieces {data parity : Nat} (hfile : c.files.find? path = none)
    (hok : (c.addBlock path policy (.striped data parity) block replicas).2 = .ok ())
    (hcount : replicas.length ≤ (Layout.striped data parity).slots) (moves : List Move) :
    let c' := ((c.addBlock path policy (.striped data parity) block replicas).1.relocateAll moves).1
    let placed := c'.replicasOf block.id
    c'.files.find? path = some ⟨policy, .striped data parity, [block.id]⟩ ∧
    placed.length = replicas.length ∧
    (∀ i, (h : i < placed.length) → placed[i].piece = some (i % 256)) ∧
    (∀ i, (h : i < placed.length) → (placed[i].piece = some i ↔ i < 256)) ∧
    (∀ r ∈ placed, ∃ i, r.piece = some i ∧ i < (Layout.striped data parity).slots) ∧
    ((placed.map Replica.piece).Nodup ↔ replicas.length ≤ 256) := by
  intro c' placed
  have hconserves := conserves_relocateAll (c.addBlock path policy (.striped data parity) block replicas).1 moves
  have hpieces : placed.map Replica.piece =
      (List.range replicas.length).map (pieceOf (.striped data parity)) :=
    (piecesOf_eq_of_content hconserves.content block.id).trans (piecesOf_addBlock hok)
  have hlength : placed.length = replicas.length := by
    simpa using congrArg List.length hpieces
  have hpiece : ∀ i, (h : i < placed.length) → placed[i].piece = some (i % 256) := fun i h => by
    have hget := congrArg (fun pieces => pieces[i]?) hpieces
    simpa [h, hlength ▸ h, pieceOf, Layout.isStriped] using hget
  refine ⟨?_, hlength, hpiece, fun i h => ?_, fun r hr => ?_, ?_⟩
  · rw [hconserves.files]
    exact find?_files_addBlock hfile hok
  · rw [hpiece i h, Option.some_inj]
    omega
  · obtain ⟨i, h, rfl⟩ := List.getElem_of_mem hr
    exact ⟨i % 256, hpiece i h, by omega⟩
  · rw [hpieces, nodup_pieces_iff]

/-- A move of the first piece of a group to the last of four nodes. -/
def rowMove : Move := ⟨"/g", ⟨1, 4, 1⟩, ⟨"n0", .disk, "n0-s0", some 0⟩, .disk, "n3", "n3-s0"⟩

/-- Three pieces on four nodes are told apart, also when the first of them has moved to the last node. -/
theorem addBlock_pieces_row :
    let added := (nodeRow 4).addBlock "/g" "COLD" (.striped 2 1) ⟨1, 4, 1⟩ (rowDisks 3)
    let placed := (added.1.relocateAll [rowMove]).1.replicasOf 1
    (nodeRow 4).files.find? "/g" = none ∧ added.2 = .ok () ∧
    (rowDisks 3).length ≤ (Layout.striped 2 1).slots ∧ (added.1.relocateAll [rowMove]).2 = [.ok ()] ∧
    (∀ i, (h : i < placed.length) → placed[i].piece = some (i % 256)) ∧ (placed.map Replica.piece).Nodup := by
  intro added placed
  have hfile : (nodeRow 4).files.find? "/g" = none := find?_files_nodeRow 4 "/g"
  have hok : added.2 = .ok () := by decide +kernel
  have hcount : (rowDisks 3).length ≤ (Layout.striped 2 1).slots := by decide
  have hmoved : (added.1.relocateAll [rowMove]).2 = [.ok ()] := by decide +kernel
  obtain ⟨-, -, hpiece, -, -, hnodup⟩ := addBlock_pieces hfile hok hcount [rowMove]
  exact ⟨hfile, hok, hcount, hmoved, hpiece, hnodup.2 (by decide)⟩

/-- A group of 257 pieces, each on a node of its own. -/
def wideGroup : Cluster × Except PlacementError Unit :=
  (nodeRow 257).addBlock "/g" "COLD" (.striped 255 2) ⟨1, 4, 1⟩ (rowDisks 257)

/-- Of these pieces the first and the last have number zero. -/
theorem addBlock_repeats_piece :
    (rowDisks 257).Nodup ∧ (nodeRow 257).files.find? "/g" = none ∧ wideGroup.2 = .ok () ∧
    (rowDisks 257).length ≤ (Layout.striped 255 2).slots ∧
    (wideGroup.1.piecesOf 1)[0]? = some (some 0) ∧ (wideGroup.1.piecesOf 1)[256]? = some (some 0) ∧
    ¬(wideGroup.1.piecesOf 1).Nodup := by
  have hok : wideGroup.2 = .ok () := addBlock_nodeRow 257 "/g" "COLD" (.striped 255 2) ⟨1, 4, 1⟩
  have hpieces : wideGroup.1.piecesOf 1 = (List.range (rowDisks 257).length).map (pieceOf (.striped 255 2)) :=
    piecesOf_addBlock hok
  rw [length_rowDisks] at hpieces
  refine ⟨nodup_rowDisks 257, find?_files_nodeRow 257 "/g", hok, (length_rowDisks 257).le, ?_, ?_, ?_⟩
  · rw [hpieces, List.getElem?_map, List.getElem?_range (by decide)]
    rfl
  · rw [hpieces, List.getElem?_map, List.getElem?_range (by decide)]
    rfl
  · rw [hpieces, nodup_pieces_iff]
    decide

end StorageTiering.Cluster
