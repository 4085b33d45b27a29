import StorageTiering.Proofs.Cluster.Records
import Mathlib.Data.List.Flatten
/-!
# All pages of a listing

A listing that is read page by page, each page behind the cursor of the one before it.

* `Cluster.Paged` — pages that hold the items of a listing one after another.
* `Cluster.Paged.blocks_eq`, `Cluster.Paged.split`, `Cluster.Paged.length_eq`, `Cluster.Paged.next` —
  nothing is lost or read twice, all pages but the last are full, how many there are, and where their
  cursors are.
* `Cluster.Reachable.exists_paged` — calls without a fault lead through all pages to the last.
* `Cluster.Catalogued.places_itemsUnder` — the items of a listing are the blocks of its files.
* `Cluster.Catalogued.nodup_listedUnder` — the records of several paths are of different blocks.
* `Cluster.Complete`, `Cluster.Reachable.listPages_complete` — a listing is complete.
-/

namespace StorageTiering.Cluster

variable {c c' : Cluster} {path : String} {items : List ListingItem} {pages : List Page} {size : Nat}

/-- Pages that hold items one after another: what has room on one page is on the last one, and behind a
page that leaves something out come the pages of what it leaves out. -/
inductive Paged (size : Nat) : List ListingItem → List Page → Prop
  | last {items : List ListingItem} (h : items.length ≤ size) :
      Paged size items [⟨items.map ListingItem.listed, none⟩]
  | more {items : List ListingItem} {pages : List Page} {i : ListingItem} (h : size < items.length)
      (hi : (items.take size).getLast? = some i) (hrest : Paged size (items.drop size) pages) :
      Paged size items
        (⟨(items.take size).map ListingItem.listed, some i.cursor.text⟩ :: pages)

/-- The pages together are all items in their order. -/
theorem Paged.blocks_eq (h : Paged size items pages) :
    pages.flatMap Page.blocks = items.map ListingItem.listed := by
  induction h with
  | last _ => exact List.flatMap_singleton _ _
  | more _ _ _ ih => rw [List.flatMap_cons, ih, ← List.map_append, List.take_append_drop]

/-- All pages but the last are full and have a cursor; the last has none, and is empty only if there is
no item at all. -/
theorem Paged.split (h : Paged size items pages) : ∃ full last, pages = full ++ [last] ∧
    (∀ page ∈ full, page.blocks.length = size ∧ page.next.isSome) ∧
      last.next = none ∧ last.blocks.length ≤ size ∧ (last.blocks = [] → items = []) := by
  induction h with
  | last hlen =>
    refine ⟨[], _, rfl, nofun, rfl, ?_, fun hnil => List.map_eq_nil_iff.1 hnil⟩
    rw [List.length_map]
    exact hlen
  | more hlt _ _ ih =>
    obtain ⟨full, last, rfl, hfull, hnext, hlen, hempty⟩ := ih
    refine ⟨_ :: full, last, rfl, fun page hpage => ?_, hnext, hlen, fun hnil => ?_⟩
    · rcases List.mem_cons.1 hpage with rfl | hpage
      · exact ⟨by rw [List.length_map, List.length_take_of_le hlt.le], rfl⟩
      · exact hfull page hpage
    · have hdrop := congrArg List.length (hempty hnil)
      rw [List.length_drop, List.length_nil] at hdrop
      omega

/-- There are as many pages as the items fill, and at least one. -/
theorem Paged.length_eq (hsize : 1 ≤ size) (h : Paged size items pages) :
    pages.length = max 1 ((items.length + size - 1) / size) := by
  induction h with
  | @last items hlen =>
    have hle : (items.length + size - 1) / size ≤ 1 :=
      Nat.lt_succ_iff.1 ((Nat.div_lt_iff_lt_mul hsize).2 (by omega))
    rw [max_eq_left hle]
    rfl
  | @more items pages i hlt _ _ ih =>
    -- the rest fills one page less
    have hrest : (items.length + size - 1) / size = (items.length - 1) / size + 1 := by
      rw [← Nat.add_div_right _ hsize]
      congr 1
      omega
    have hone : 1 ≤ (items.length - 1) / size := (Nat.one_le_div_iff hsize).2 (by omega)
    rw [List.length_drop, show items.length - size + size - 1 = items.length - 1 by omega,
      max_eq_right hone] at ih
    rw [List.length_cons, ih, hrest, max_eq_right (Nat.le_add_left _ _)]

/-- There is a page for each item, and one more. -/
theorem Paged.length_le (hsize : 1 ≤ size) (h : Paged size items pages) :
    pages.length ≤ items.length + 1 := by
  induction h with
  | last _ => exact Nat.le_add_left _ _
  | more hlt _ _ ih =>
    rw [List.length_drop] at ih
    rw [List.length_cons]
    omega

/-- The cursor of a page is the place of its last item. -/
theorem Paged.next {page : Page} {text : String} (h : Paged size items pages) (hpage : page ∈ pages)
    (htext : page.next = some text) :
    ∃ i ∈ items, page.blocks.getLast? = some i.listed ∧ text = i.cursor.text := by
  induction h with
  | last _ =>
    rw [List.mem_singleton.1 hpage] at htext
    cases htext
  | more _ hi _ ih =>
    rcases List.mem_cons.1 hpage with rfl | hpage
    · obtain rfl := Option.some.inj htext
      refine ⟨_, List.mem_of_mem_take (List.mem_of_getLast? hi), ?_, rfl⟩
      rw [List.getLast?_map, hi]
      rfl
    · obtain ⟨i, hmem, hlast, htext⟩ := ih hpage
      exact ⟨i, List.mem_of_mem_drop hmem, hlast, htext⟩

/-! ### The calls -/

/-- Without a pending fault, a listing call answers with the page to which its cursor leads, and only
counts. -/
theorem listPage_calm {cursor : Option String} (hfault : c.listingFailures = 0)
    (hpath : c.filesUnder path ≠ [] ∨ path = "/") (hl : Leads (c.itemsUnder path) items cursor) :
    ∃ grace, c.listPage path cursor =
      ({ c with listCalls := c.listCalls + 1, listingGrace := grace },
        .ok (pageOf c.pageSize items)) := by
  have hserved : ∀ cursor, itemsAfter (c.itemsUnder path) cursor = items →
      c.pageUnder path cursor = .ok (pageOf c.pageSize items) := by
    intro cursor hi
    rw [pageUnder, if_neg, hi]
    rw [Bool.and_eq_true, List.isEmpty_iff, bne_iff_ne]
    rintro ⟨hnone, hroot⟩
    exact hpath.elim (fun h => h hnone) hroot
  refine ⟨c.listingGrace - 1, ?_⟩
  rw [listPage, if_neg (fun h => absurd h.2 (by dsimp only; omega))]
  cases cursor with
  | none => exact congrArg (Prod.mk _) (hserved none hl.symm)
  | some text =>
    obtain ⟨cursor, hread, hi⟩ := hl
    dsimp only
    rw [hread]
    exact congrArg (Prod.mk _) (hserved (some cursor) hi)

/-- Without a pending fault, calls lead from a cursor through the pages of what it leads to, and come to
their end with the last of them. -/
theorem Reachable.exists_paged {cursor : Option String} (h : c.Reachable)
    (hfault : c.listingFailures = 0) (hpath : c.filesUnder path ≠ [] ∨ path = "/")
    (hl : Leads (c.itemsUnder path) items cursor) (hsuffix : items <:+ c.itemsUnder path) :
    ∃ pages, Paged c.pageSize items pages ∧ ∀ n, pages.length ≤ n →
      (listPages n c path cursor).2 = pages.map .ok ∧
        (listPages n c path cursor).1.listCalls = c.listCalls + pages.length := by
  -- on what the pages so far have left out
  induction hlen : items.length using Nat.strong_induction_on generalizing c items cursor with
  | _ len ih =>
  obtain ⟨grace, hcall⟩ := listPage_calm hfault hpath hl
  by_cases hroom : items.length ≤ c.pageSize
  · refine ⟨_, .last hroom, fun n hn => ?_⟩
    obtain ⟨n, rfl⟩ := Nat.exists_eq_add_of_le' hn
    rw [List.length_singleton, listPages, hcall, pageOf_last hroom]
    exact ⟨rfl, rfl⟩
  · have hmore : c.pageSize < items.length := Nat.lt_of_not_le hroom
    have hsize := h.catalogued.room
    obtain ⟨i, hi, hpage, hrest⟩ :=
      pageOf_more (pairwise_itemsUnder h.catalogued.ascending path) hsuffix hsize hmore
    have hread : Cursor.read? i.cursor.text = some i.cursor := by
      rw [Cursor.read?_text, if_pos]
      exact h.catalogued.index_lt (hsuffix.subset hi)
    have hlast : ∃ j, (items.take c.pageSize).getLast? = some j ∧ j.cursor.text = i.cursor.text := by
      have hnext := congrArg Page.next hpage
      rw [pageOf] at hnext
      dsimp only at hnext
      rwa [if_pos hmore, Option.map_eq_some_iff] at hnext
    obtain ⟨j, hj, htext⟩ := hlast
    rw [← htext] at hread hpage
    have hnext := h.listPage path cursor
    rw [hcall] at hnext
    have hleads : Leads (c.itemsUnder path) (items.drop c.pageSize) (some j.cursor.text) :=
      ⟨i.cursor, hread, hrest⟩
    obtain ⟨pages, hpages, hcalls⟩ := ih (items.drop c.pageSize).length
      (by rw [List.length_drop]; omega) hnext hfault hpath hleads
      ((List.drop_suffix _ _).trans hsuffix) rfl
    refine ⟨_, .more hmore hj hpages, fun n hn => ?_⟩
    obtain ⟨n, rfl⟩ := Nat.exists_eq_add_of_le' hn
    obtain ⟨hanswers, hcount⟩ := hcalls (n + pages.length) (Nat.le_add_left _ _)
    rw [List.length_cons, ← Nat.add_assoc, listPages, hcall, hpage]
    refine ⟨?_, ?_⟩
    · exact congrArg (List.cons _) hanswers
    · dsimp only at hcount ⊢
      rw [hcount]
      omega

/-! ### What is listed -/

/-- The records of a file, without their indices. -/
theorem map_listed_fileItems (c : Cluster) (path : String) (f : File) :
    (c.fileItems path f).map ListingItem.listed = f.blocks.filterMap (c.listedBlock? path f) := by
  have hlisted : ∀ p : BlockId × Nat,
      (((c.listedBlock? path f p.1).map (ListingItem.mk p.2)).map ListingItem.listed) =
        c.listedBlock? path f p.1 := fun p => by
    rw [Option.map_map]
    exact Option.map_id'
  have hfst : f.blocks.filterMap (c.listedBlock? path f) =
      f.blocks.zipIdx.filterMap fun p => c.listedBlock? path f p.1 := by
    conv_lhs => rw [← List.zipIdx_map_fst 0 f.blocks, List.filterMap_map]
    rfl
  rw [fileItems, List.map_filterMap, List.mapIdx_eq_zipIdx_map, List.filterMap_map, hfst]
  exact List.filterMap_congr fun p _ => hlisted p

/-- The records of a file are its blocks, each at its place. -/
theorem Catalogued.places_fileItems (h : c.Catalogued) {f : String × File} (hf : f ∈ c.files) :
    ((c.fileItems f.1 f.2).map ListingItem.listed).map (fun b => (b.path, b.block.id)) =
      f.2.blocks.map fun id => (f.1, id) := by
  rw [map_listed_fileItems, List.map_filterMap, ← List.filterMap_eq_map]
  refine List.filterMap_congr fun id hid => ?_
  have hnamed : id ∈ c.namedBlocks := List.mem_flatMap.2 ⟨f, hf, hid⟩
  obtain ⟨p, hp⟩ := Option.isSome_iff_exists.1 (h.present id hnamed)
  rw [listedBlock?, hp]
  exact congrArg (fun id => some (f.1, id)) (block?_eq_some hp).2

/-- The items of a listing are the blocks of its files, each at its place. -/
theorem Catalogued.places_itemsUnder (h : c.Catalogued) (path : String) :
    ((c.itemsUnder path).map ListingItem.listed).map (fun b => (b.path, b.block.id)) =
      (c.filesUnder path).flatMap fun f => f.2.blocks.map fun id => (f.1, id) := by
  rw [itemsUnder, List.map_flatMap, List.map_flatMap]
  exact List.flatMap_congr fun f hf => h.places_fileItems (List.mem_of_mem_filter hf)

/-- The records of several paths are of different blocks. -/
theorem Catalogued.nodup_listedUnder (h : c.Catalogued) (paths : List String) :
    ((c.listedUnder paths).map fun b => b.block.id).Nodup := by
  have hids : ((c.listedUnder paths).map fun b => b.block.id) =
      (c.files.filter fun f => paths.any fun path => liesUnder f.1 path).flatMap fun f => f.2.blocks := by
    rw [listedUnder, List.map_flatMap]
    refine List.flatMap_congr fun f hf => ?_
    have hplaces := congrArg (List.map Prod.snd) (h.places_fileItems (List.mem_of_mem_filter hf))
    rw [List.map_map, List.map_map, List.map_map] at hplaces
    rw [List.map_map]
    exact hplaces.trans (List.map_id' _)
  rw [hids]
  exact h.once.sublist (List.filter_sublist.flatMap _)

/-- The numbers of the blocks of all files at or below a path, file by file. -/
def blocksUnder (c : Cluster) (path : String) : List BlockId :=
  (c.filesUnder path).flatMap fun f => f.2.blocks

theorem Catalogued.ids_itemsUnder (h : c.Catalogued) (path : String) :
    ((c.itemsUnder path).map ListingItem.listed).map (fun b => b.block.id) = c.blocksUnder path := by
  have hplaces := congrArg (List.map Prod.snd) (h.places_itemsUnder path)
  rw [List.map_map, List.map_flatMap] at hplaces
  refine hplaces.trans (List.flatMap_congr fun f _ => ?_)
  rw [List.map_map]
  exact List.map_id' _

theorem Catalogued.nodup_blocksUnder (h : c.Catalogued) (path : String) :
    (c.blocksUnder path).Nodup :=
  h.once.sublist (List.filter_sublist.flatMap _)

/-- No file is without a block, because its first block makes it. -/
theorem Reachable.blocks_ne_nil (h : c.Reachable) : ∀ f ∈ c.files, f.2.blocks ≠ [] := by
  induction h with
  | empty id => exact fun f hf => nomatch hf
  | @addBlock c _ path policy layout block replicas _ ih =>
    obtain ⟨nodes, he | ⟨-, placed, he⟩⟩ := addBlock_frame c path policy layout block replicas
    · rw [he]
      exact ih
    · rw [he]
      intro f hf
      rcases SortedTable.mem_put hf with rfl | hf
      · dsimp only
        rw [fileWith]
        split
        · exact List.cons_ne_nil _ _
        · exact List.append_ne_nil_of_right_ne_nil _ (List.cons_ne_nil _ _)
      · exact ih f hf
  | disturb _ d ih => cases d <;> exact ih
  | @listPage c _ path cursor ih =>
    obtain ⟨grace, failures, he⟩ := listPage_frame c path cursor
    exact he ▸ ih
  | @relocate c _ m ih =>
    obtain ⟨nodes, blocks, he, -⟩ := relocate_frame c m
    exact he ▸ ih
  | checkSatisfier _ ih => exact ih
  | @acquireLease c _ holder ih =>
    rw [Cluster.acquireLease]
    split <;> exact ih
  | @releaseLease c _ serial ih =>
    rw [Cluster.releaseLease]
    split <;> exact ih

/-! ### Complete listings -/

/-- Pages that list the blocks of all files at or below a path. -/
structure Complete (c : Cluster) (path : String) (pages : List Page) : Prop where
  /-- Files come in the order of their paths. -/
  ascending : c.files.Ascending
  /-- The pages together are the blocks of all files at or below the path, in their order. -/
  places : (pages.flatMap Page.blocks).map (fun b => (b.path, b.block.id)) =
    (c.filesUnder path).flatMap fun f => f.2.blocks.map fun id => (f.1, id)
  once : ((pages.flatMap Page.blocks).map fun b => b.block.id).Nodup
  /-- Each record shows the file and the block that are in the cluster. -/
  records : ∀ b ∈ pages.flatMap Page.blocks, ∃ f p, c.files.find? b.path = some f ∧
    c.block? b.block.id = some p ∧ b = ⟨b.path, f.policy, p.block, f.layout, p.replicas⟩
  /-- All pages but the last are full, and the last is empty only if there is no file. -/
  split : ∃ full last, pages = full ++ [last] ∧
    (∀ page ∈ full, page.blocks.length = c.pageSize ∧ page.next.isSome) ∧
      last.next = none ∧ last.blocks.length ≤ c.pageSize ∧
        (last.blocks = [] → c.filesUnder path = [])
  length_eq : pages.length =
    max 1 (((c.blocksUnder path).length + c.pageSize - 1) / c.pageSize)
  /-- A cursor is written from the place of the last block of its page, and read back as this. -/
  cursors : ∀ page ∈ pages, ∀ text, page.next = some text → ∃ b f index,
    page.blocks.getLast? = some b ∧ c.files.find? b.path = some f ∧
      f.blocks[index]? = some b.block.id ∧ text = (Cursor.mk b.path index).text ∧
        Cursor.read? text = some ⟨b.path, index⟩

/-- The pages of all items of a listing are a complete one. -/
theorem Reachable.complete_of_paged (h : c.Reachable)
    (hpages : Paged c.pageSize (c.itemsUnder path) pages) : c.Complete path pages := by
  have hcatalogued := h.catalogued
  have hblocks := hpages.blocks_eq
  have hids := hcatalogued.ids_itemsUnder path
  have hlength : (c.itemsUnder path).length = (c.blocksUnder path).length := by
    rw [← hids, List.length_map, List.length_map]
  refine ⟨hcatalogued.ascending, ?_, ?_, fun b hb => ?_, ?_, ?_, fun page hpage text htext => ?_⟩
  · rw [hblocks]
    exact hcatalogued.places_itemsUnder path
  · rw [hblocks, hids]
    exact hcatalogued.nodup_blocksUnder path
  · rw [hblocks] at hb
    obtain ⟨f, hf, -, id, -, hlisted⟩ := mem_records.1 hb
    obtain ⟨p, hp, rfl⟩ := listedBlock?_eq_some.1 hlisted
    have hid : p.block.id = id := (block?_eq_some hp).2
    exact ⟨f.2, p, hcatalogued.ascending.find?_eq_some_iff.2 hf, hid ▸ hp, rfl⟩
  · obtain ⟨full, last, hsplit, hfull, hnext, hlen, hempty⟩ := hpages.split
    refine ⟨full, last, hsplit, hfull, hnext, hlen, fun hnil => ?_⟩
    -- a file has a block, and this would be an item
    have hnone : c.blocksUnder path = [] := by
      rw [← hids, hempty hnil]
      rfl
    refine List.eq_nil_iff_forall_not_mem.2 fun f hf => ?_
    exact h.blocks_ne_nil f (List.mem_of_mem_filter hf) (List.flatMap_eq_nil_iff.1 hnone f hf)
  · rw [hpages.length_eq hcatalogued.room, hlength]
  · obtain ⟨i, hi, hlast, rfl⟩ := hpages.next hpage htext
    obtain ⟨f, hf, -, hmem⟩ := mem_itemsUnder.1 hi
    obtain ⟨id, hid, hlisted⟩ := mem_fileItems.1 hmem
    have hpath := path_of_mem_fileItems hmem
    refine ⟨i.listed, f.2, i.index, hlast, ?_, ?_, rfl,
      (Cursor.read?_text _).trans (if_pos (hcatalogued.index_lt hi))⟩
    · rw [hpath]
      exact hcatalogued.ascending.find?_eq_some_iff.2 hf
    · rw [hid, id_of_listedBlock? hlisted]

/-- A listing is complete. If there is no pending fault, and a file at or below the path unless this is
the root, the calls that start without a cursor and follow each cursor come to an end, with as many calls
as there are pages, and their answers are pages that list the blocks of all files at or below the
path. -/
theorem Reachable.listPages_complete (h : c.Reachable) (hfault : c.listingFailures = 0)
    (hpath : (∃ f ∈ c.files, liesUnder f.1 path) ∨ path = "/") :
    ∃ pages, c.Complete path pages ∧ (c.listAll path).2 = pages.map .ok ∧
      ∀ n, pages.length ≤ n → (listPages n c path none).2 = pages.map .ok ∧
        (listPages n c path none).1.listCalls = c.listCalls + pages.length := by
  have hfiles : c.filesUnder path ≠ [] ∨ path = "/" :=
    hpath.imp_left fun ⟨_, hf, hunder⟩ => List.ne_nil_of_mem (List.mem_filter.2 ⟨hf, hunder⟩)
  have hleads : Leads (c.itemsUnder path) (c.itemsUnder path) none := rfl
  obtain ⟨pages, hpages, hcalls⟩ := h.exists_paged hfault hfiles hleads (List.suffix_refl _)
  have hlength := hpages.length_le h.catalogued.room
  exact ⟨pages, h.complete_of_paged hpages, (hcalls _ hlength).1, hcalls⟩

/-- Three blocks of two files whose paths have number signs, on pages of two blocks. -/
def signedSample : Cluster :=
  let c := (Disturbance.pageSize 2).apply (.empty "n")
  let c := (c.addBlock "/d/a#1" "HOT" (.contiguous 1) ⟨1, 4, 1⟩ []).1
  let c := (c.addBlock "/d/a#1" "HOT" (.contiguous 1) ⟨2, 4, 1⟩ []).1
  (c.addBlock "/d/a#1#1" "HOT" (.contiguous 1) ⟨3, 4, 1⟩ []).1

/-- Two pages list them. -/
theorem listPages_complete_signedSample :
    signedSample.Reachable ∧ signedSample.listingFailures = 0 ∧
      ∃ pages, signedSample.Complete "/d/" pages ∧ pages.length = 2 ∧
        (signedSample.listAll "/d/").2 = pages.map .ok := by
  have hreachable : signedSample.Reachable :=
    (((Reachable.disturb (.empty "n") (.pageSize 2)).addBlock _ _ _ _ _ (by decide)).addBlock
      _ _ _ _ _ (by decide)).addBlock _ _ _ _ _ (by decide)
  have hfile : ∃ f ∈ signedSample.files, liesUnder f.1 "/d/" :=
    ⟨_, List.mem_cons_self, by decide⟩
  obtain ⟨pages, hcomplete, hall, -⟩ := hreachable.listPages_complete rfl (.inl hfile)
  exact ⟨hreachable, rfl, pages, hcomplete, hcomplete.length_eq, hall⟩

end StorageTiering.Cluster
