import StorageTiering.Proofs.Cluster.Catalogue
import StorageTiering.Proofs.Cluster.Paging
import StorageTiering.Proofs.Cluster.Relocation
import Mathlib.Data.List.Nodup
import Mathlib.Data.List.Pairwise
/-!
# The records of a cluster

* `Cluster.Lists` — a record of a block in some listing of a cluster.
* `Cluster.listedUnder` — the records of all files at or below some of several paths, each once.
* `Cluster.Catalogued.lists_inj` — no two records are of one block.
* `Cluster.Catalogued.index_lt` — the index of a block in its file fits into eight bytes.
-/

namespace StorageTiering.Cluster

variable {c c' : Cluster} {b b' : ListedBlock} {path : String} {paths : List String}

/-- A record of a block in the listing of some path. -/
def Lists (c : Cluster) (b : ListedBlock) : Prop := ∃ path, ∃ i ∈ c.itemsUnder path, i.listed = b

theorem mem_records : b ∈ (c.itemsUnder path).map ListingItem.listed ↔
    ∃ f ∈ c.files, liesUnder f.1 path ∧ ∃ id ∈ f.2.blocks, c.listedBlock? f.1 f.2 id = some b := by
  constructor
  · intro h
    obtain ⟨i, hi, rfl⟩ := List.mem_map.1 h
    obtain ⟨f, hf, hunder, hi⟩ := mem_itemsUnder.1 hi
    obtain ⟨id, hid, hb⟩ := mem_fileItems.1 hi
    exact ⟨f, hf, hunder, id, List.mem_of_getElem? hid, hb⟩
  · rintro ⟨f, hf, hunder, id, hid, hb⟩
    obtain ⟨n, hn⟩ := List.mem_iff_getElem?.1 hid
    exact List.mem_map.2 ⟨⟨n, b⟩, mem_itemsUnder.2 ⟨f, hf, hunder, mem_fileItems.2 ⟨id, hn, hb⟩⟩, rfl⟩

theorem lists_iff : c.Lists b ↔ ∃ f ∈ c.files, ∃ id ∈ f.2.blocks,
    c.listedBlock? f.1 f.2 id = some b := by
  constructor
  · rintro ⟨path, hi⟩
    obtain ⟨f, hf, -, hb⟩ := mem_records.1 (List.mem_map.2 hi)
    exact ⟨f, hf, hb⟩
  · rintro ⟨f, hf, hb⟩
    exact ⟨"/", List.mem_map.1 (mem_records.2 ⟨f, hf, rfl, hb⟩)⟩

/-- A record shows the block and the replicas that are in the cluster. -/
theorem Lists.block? (h : c.Lists b) :
    ∃ p, c.block? b.block.id = some p ∧ p.block = b.block ∧ p.replicas = b.replicas := by
  obtain ⟨f, _, id, _, hb⟩ := lists_iff.1 h
  obtain ⟨p, hp, rfl⟩ := listedBlock?_eq_some.1 hb
  have hid : p.block.id = id := (block?_eq_some hp).2
  exact ⟨p, by rw [hid, hp], rfl, rfl⟩

theorem id_of_listedBlock? {f : File} {id : BlockId} (h : c.listedBlock? path f id = some b) :
    b.block.id = id := by
  obtain ⟨p, hp, rfl⟩ := listedBlock?_eq_some.1 h
  exact (block?_eq_some hp).2

/-! ### Each block once -/

/-- A block belongs to one file. -/
theorem Catalogued.file_eq (h : c.Catalogued) {f g : String × File} (hf : f ∈ c.files)
    (hg : g ∈ c.files) {id : BlockId} (hid : id ∈ f.2.blocks) (hid' : id ∈ g.2.blocks) : f = g := by
  have hdisjoint : c.files.Pairwise fun f g => List.Disjoint f.2.blocks g.2.blocks :=
    (List.nodup_flatMap.1 h.once).2
  by_contra hne
  have : Std.Symm fun f g : String × File => List.Disjoint f.2.blocks g.2.blocks :=
    ⟨fun _ _ hd _ ha hb => hd hb ha⟩
  exact hdisjoint.forall hf hg hne hid hid'

/-- No two records are of one block. -/
theorem Catalogued.lists_inj (h : c.Catalogued) (hb : c.Lists b) (hb' : c.Lists b')
    (hid : b.block.id = b'.block.id) : b = b' := by
  obtain ⟨f, hf, id, hmem, he⟩ := lists_iff.1 hb
  obtain ⟨g, hg, id', hmem', he'⟩ := lists_iff.1 hb'
  obtain rfl : id = id' := (id_of_listedBlock? he).symm.trans (hid.trans (id_of_listedBlock? he'))
  obtain rfl := h.file_eq hf hg hmem hmem'
  exact Option.some.inj (he.symm.trans he')

/-- The index of a block in its file fits into eight bytes, because the numbers of blocks do. -/
theorem Catalogued.index_lt (h : c.Catalogued) {i : ListingItem} (hi : i ∈ c.itemsUnder path) :
    i.index < Text.byteBound 8 := by
  obtain ⟨f, hf, -, hi⟩ := mem_itemsUnder.1 hi
  obtain ⟨id, hid, -⟩ := mem_fileItems.1 hi
  have hnodup : f.2.blocks.Nodup := (List.nodup_flatMap.1 h.once).1 f hf
  have hsub : f.2.blocks ⊆ List.range (Text.byteBound 8) := fun id hid =>
    List.mem_range.2 (h.numbered id (List.mem_flatMap.2 ⟨f, hf, hid⟩))
  have hlength := hnodup.length_le_of_subset hsub
  rw [List.length_range] at hlength
  exact Nat.lt_of_lt_of_le (List.getElem?_eq_some_iff.1 hid).1 hlength

/-! ### Several paths -/

/-- The records of all files at or below some of several paths, each once. -/
def listedUnder (c : Cluster) (paths : List String) : List ListedBlock :=
  (c.files.filter fun f => paths.any fun path => liesUnder f.1 path).flatMap fun f =>
    (c.fileItems f.1 f.2).map ListingItem.listed

theorem mem_listedUnder : b ∈ c.listedUnder paths ↔
    ∃ f ∈ c.files, (∃ path ∈ paths, liesUnder f.1 path) ∧ ∃ id ∈ f.2.blocks,
      c.listedBlock? f.1 f.2 id = some b := by
  simp only [listedUnder, List.mem_flatMap, List.mem_filter, List.any_eq_true, List.mem_map,
    mem_fileItems]
  constructor
  · rintro ⟨f, ⟨hf, hunder⟩, i, ⟨id, hid, hb⟩, rfl⟩
    exact ⟨f, hf, hunder, id, List.mem_of_getElem? hid, hb⟩
  · rintro ⟨f, hf, hunder, id, hid, hb⟩
    obtain ⟨n, hn⟩ := List.mem_iff_getElem?.1 hid
    exact ⟨f, ⟨hf, hunder⟩, ⟨n, b⟩, ⟨id, hn, hb⟩, rfl⟩

/-- A walk over the listings of several paths meets these records, some of them more than once. -/
theorem mem_walk : (b ∈ paths.flatMap fun path => (c.itemsUnder path).map ListingItem.listed) ↔
    b ∈ c.listedUnder paths := by
  rw [List.mem_flatMap, mem_listedUnder]
  constructor
  · rintro ⟨path, hpath, hb⟩
    obtain ⟨f, hf, hunder, hb⟩ := mem_records.1 hb
    exact ⟨f, hf, ⟨path, hpath, hunder⟩, hb⟩
  · rintro ⟨f, hf, ⟨path, hpath, hunder⟩, hb⟩
    exact ⟨path, hpath, mem_records.2 ⟨f, hf, hunder, hb⟩⟩

theorem lists_of_mem_listedUnder (h : b ∈ c.listedUnder paths) : c.Lists b := by
  obtain ⟨f, hf, -, hb⟩ := mem_listedUnder.1 h
  exact lists_iff.2 ⟨f, hf, hb⟩

/-- No two records at or below several paths are of one block. -/
theorem Catalogued.listedUnder_inj (h : c.Catalogued) (hb : b ∈ c.listedUnder paths)
    (hb' : b' ∈ c.listedUnder paths) (hid : b.block.id = b'.block.id) : b = b' :=
  h.lists_inj (lists_of_mem_listedUnder hb) (lists_of_mem_listedUnder hb') hid

/-- Listings depend on files and blocks alone. -/
theorem itemsUnder_congr (hf : c'.files = c.files) (hb : c'.blocks = c.blocks) (path : String) :
    c'.itemsUnder path = c.itemsUnder path := by
  simp only [itemsUnder, filesUnder, fileItems, listedBlock?, block?, hf, hb]

theorem listedUnder_congr (hf : c'.files = c.files) (hb : c'.blocks = c.blocks)
    (paths : List String) : c'.listedUnder paths = c.listedUnder paths := by
  simp only [listedUnder, fileItems, listedBlock?, block?, hf, hb]

end StorageTiering.Cluster
