import StorageTiering.Proofs.Cluster.Pages
/-!
# Directories and their listings

What lies at or below a directory is the directory itself, with any slashes at its end, and whatever goes on
behind it with a new component. A directory that lies below another one has a part of the listing of that.

* `withoutEndSlashes_append_slashes`, `withoutEndSlashes_append_name` — what the end of a path comes to.
* `liesUnder_refl`, `liesUnder_append_slashes`, `liesUnder_append_iff`, `liesUnder_sibling_iff` — containment.
* `IsContainment` — the laws of a containment of paths.
* `Cluster.itemsUnder_eq_filter` — the items of a directory below another one.
* `Cluster.readPages`, `Cluster.Reachable.readPages_eq` — all pages of a path brought together.
* `Cluster.liesUnder_orders_listings` — the laws of containment, and that listings follow it.
-/

namespace StorageTiering

/-! ### The end of a path -/

/-- Slashes at the end of a path do not count. -/
theorem withoutEndSlashes_append_slashes {path slashes : List Char} (h : ∀ c ∈ slashes, c = '/') :
    withoutEndSlashes (path ++ slashes) = withoutEndSlashes path := by
  rw [withoutEndSlashes, withoutEndSlashes, List.reverse_append, List.dropWhile_append_of_pos]
  exact fun c hc => beq_iff_eq.2 (h c (List.mem_reverse.1 hc))

/-- A path that ends in a name stays as it is. -/
theorem withoutEndSlashes_append_name {path name : List Char} (hne : name ≠ []) (h : '/' ∉ name) :
    withoutEndSlashes (path ++ name) = path ++ name := by
  refine List.rdropWhile_eq_self_iff.2 fun hl hlast => h ?_
  rw [List.getLast_append_of_ne_nil hl hne, beq_iff_eq] at hlast
  exact hlast ▸ List.getLast_mem hne

/-- Behind a path without the slashes at its end there are these slashes. -/
theorem exists_endSlashes (path : List Char) :
    ∃ slashes, path = withoutEndSlashes path ++ slashes ∧ ∀ c ∈ slashes, c = '/' :=
  ⟨path.rtakeWhile (· == '/'), (List.rdropWhile_append_rtakeWhile).symm,
    fun c hc => by simpa using List.mem_rtakeWhile_imp hc⟩

theorem startsComponent_iff {rest : List Char} :
    startsComponent rest ↔ rest = [] ∨ ∃ tail, rest = '/' :: tail := by
  cases rest with
  | nil => simp [startsComponent]
  | cons c tail => simp [startsComponent]

/-! ### Containment -/

theorem liesUnder_refl (path : String) : liesUnder path path := by
  obtain ⟨slashes, hpath, hslashes⟩ := exists_endSlashes path.toList
  refine liesUnderChars_iff.2 (.inr ⟨slashes, hpath, ?_⟩)
  cases slashes with
  | nil => rfl
  | cons c rest => exact beq_iff_eq.2 (hslashes c List.mem_cons_self)

theorem liesUnder_append_slashes (file dir : String) {slashes : String} (h : ∀ c ∈ slashes.toList, c = '/') :
    liesUnder file (dir ++ slashes) = liesUnder file dir := by
  rw [liesUnder, liesUnder, String.toList_append, withoutEndSlashes_append_slashes h]

/-- Below a path that ends in a name lies what goes on behind it with a new component. -/
theorem liesUnder_append_iff {file dir name : String} (hne : name ≠ "") (h : '/' ∉ name.toList) :
    liesUnder file (dir ++ name) ↔ file = dir ++ name ∨ ∃ tail, file = dir ++ name ++ "/" ++ tail := by
  have hname : name.toList ≠ [] := by simpa using hne
  rw [liesUnder, liesUnderChars_iff, String.toList_append, withoutEndSlashes_append_name hname h]
  constructor
  · rintro (hnil | ⟨rest, hfile, hrest⟩)
    · exact absurd (List.append_eq_nil_iff.1 hnil).2 hname
    · rcases startsComponent_iff.1 hrest with rfl | ⟨tail, rfl⟩
      · exact .inl (String.toList_inj.1 (by simpa using hfile))
      · exact .inr ⟨String.ofList tail, String.toList_inj.1 (by simpa using hfile)⟩
  · rintro (rfl | ⟨tail, rfl⟩)
    · exact .inr ⟨[], by simp, rfl⟩
    · exact .inr ⟨'/' :: tail.toList, by simp, rfl⟩

/-- Of two members of a directory none lies below the other. -/
theorem liesUnder_sibling_iff {parent name other : String} (hname : '/' ∉ name.toList)
    (hother : '/' ∉ other.toList) (hne : other ≠ "") :
    liesUnder (parent ++ "/" ++ name) (parent ++ "/" ++ other) ↔ name = other := by
  rw [liesUnder_append_iff hne hother]
  constructor
  · rintro (hsame | ⟨tail, hbelow⟩)
    · exact (String.append_right_inj _).1 hsame
    · -- the slash behind the other name would be one in this name
      have hchars : name.toList = other.toList ++ '/' :: tail.toList := by
        simpa using congrArg String.toList hbelow
      exact absurd (hchars ▸ List.mem_append_right _ List.mem_cons_self) hname
  · rintro rfl
    exact .inl rfl

/-- The laws of a containment of paths in directories. -/
structure IsContainment (under : String → String → Prop) : Prop where
  refl : ∀ path, under path path
  trans : ∀ file path dir, under file path → under path dir → under file dir
  root : ∀ file, under file ""
  /-- Slashes at the end of a directory do not count. -/
  endSlashes : ∀ file dir slashes, (∀ c ∈ slashes.toList, c = '/') →
    (under file (dir ++ slashes) ↔ under file dir)
  /-- Below a path that ends in a name lies what goes on behind it with a new component. -/
  component : ∀ file dir name, name ≠ "" → '/' ∉ name.toList →
    (under file (dir ++ name) ↔ file = dir ++ name ∨ ∃ tail, file = dir ++ name ++ "/" ++ tail)
  /-- Of two members of a directory none lies below the other, whatever their names have in common. -/
  siblings : ∀ parent name other, '/' ∉ name.toList → '/' ∉ other.toList → other ≠ "" →
    (under (parent ++ "/" ++ name) (parent ++ "/" ++ other) ↔ name = other)

theorem isContainment_liesUnder : IsContainment fun file dir => liesUnder file dir where
  refl := liesUnder_refl
  trans _ _ _ := liesUnder_trans
  root _ := rfl
  endSlashes file dir _ h := by rw [liesUnder_append_slashes file dir h]
  component _ _ _ := liesUnder_append_iff
  siblings _ _ _ := liesUnder_sibling_iff

namespace Cluster

variable {c : Cluster} {d e path : String} {n : Nat}

/-! ### Listings -/

/-- The items of a directory that lies at or below another one are those of the other one whose files lie at or
below it. -/
theorem itemsUnder_eq_filter (c : Cluster) (h : liesUnder d e) :
    c.itemsUnder d = (c.itemsUnder e).filter fun i => liesUnder i.listed.path d := by
  rw [itemsUnder, itemsUnder, filesUnder, filesUnder]
  induction c.files with
  | nil => rfl
  | cons f rest ih =>
    have hpath : ∀ i ∈ c.fileItems f.1 f.2, liesUnder i.listed.path d = liesUnder f.1 d := fun i hi => by
      rw [path_of_mem_fileItems hi]
    cases hd : liesUnder f.1 d with
    | true =>
      have he : liesUnder f.1 e = true := liesUnder_trans hd h
      rw [hd] at hpath
      simp only [List.filter_cons, hd, he, if_true, List.flatMap_cons, List.filter_append, ih,
        List.filter_eq_self.2 hpath]
    | false =>
      have hnone : (c.fileItems f.1 f.2).filter (fun i => liesUnder i.listed.path d) = [] :=
        List.filter_eq_nil_iff.2 fun i hi => by simp [hpath i hi, hd]
      cases he : liesUnder f.1 e with
      | true =>
        simp only [List.filter_cons, hd, he, if_true, Bool.false_eq_true, if_false, List.flatMap_cons,
          List.filter_append, hnone, List.nil_append, ih]
      | false => simp only [List.filter_cons, hd, he, Bool.false_eq_true, if_false, ih]

/-- The records that at most so many calls for pages of a path bring together, each call behind the one before
it. A path that is not found has none; another call that fails fails them all. -/
def readPages (n : Nat) (c : Cluster) (path : String) : Except ListingError (List ListedBlock) :=
  match (listPages n c path none).2.mapM id with
  | .ok pages => .ok (pages.flatMap Page.blocks)
  | .error (.pathNotFound _) => .ok []
  | .error e => .error e

/-- Without a pending fault, a path without a file is not found. -/
theorem listPages_notFound (hfault : c.listingFailures = 0) (hnone : c.filesUnder path = []) (hroot : path ≠ "/")
    (hn : 0 < n) : (listPages n c path none).2 = [.error (.pathNotFound path)] := by
  obtain ⟨n, rfl⟩ := Nat.exists_eq_add_of_le' hn
  have hpage : ∀ c' : Cluster, c'.files = c.files → c'.pageUnder path none = .error (.pathNotFound path) :=
    fun c' hfiles => by
      rw [pageUnder, filesUnder, hfiles, ← filesUnder, hnone, if_pos (by simpa using hroot)]
  have hcall : (c.listPage path none).2 = .error (.pathNotFound path) := by
    rw [listPage, if_neg fun h => absurd h.2 (by dsimp only; omega)]
    exact hpage _ rfl
  rw [listPages]
  cases hresult : c.listPage path none with
  | mk c' answer =>
    rw [hresult] at hcall
    obtain rfl : answer = .error (.pathNotFound path) := hcall
    rfl

/-- Without a pending fault, calls that are more than the items of a path bring their records together. -/
theorem Reachable.readPages_eq (h : c.Reachable) (hfault : c.listingFailures = 0)
    (hn : (c.itemsUnder path).length < n) :
    readPages n c path = .ok ((c.itemsUnder path).map ListingItem.listed) := by
  by_cases hfiles : c.filesUnder path ≠ [] ∨ path = "/"
  · have hleads : Leads (c.itemsUnder path) (c.itemsUnder path) none := rfl
    obtain ⟨pages, hpages, hcalls⟩ := h.exists_paged hfault hfiles hleads (List.suffix_refl _)
    have hlength := hpages.length_le h.catalogued.room
    have hanswers := (hcalls n (by omega)).1
    have hall : (pages.map Except.ok).mapM id = (.ok pages : Except ListingError (List Page)) := by
      rw [List.mapM_map]
      exact (List.mapM_pure (f := id)).trans (congrArg Except.ok (List.map_id pages))
    rw [readPages, hanswers, hall]
    exact congrArg Except.ok hpages.blocks_eq
  · obtain ⟨hnone, hroot⟩ := not_or.1 hfiles
    have hnone : c.filesUnder path = [] := not_not.1 hnone
    have hitems : c.itemsUnder path = [] := by rw [itemsUnder, hnone, List.flatMap_nil]
    rw [readPages, listPages_notFound hfault hnone hroot (by omega), hitems]
    rfl

/-- Containment of paths is a preorder that goes by components and for which slashes at the end of a directory
do not count, and listings follow it. If a path lies at or below another one, and no fault is pending, then the
calls that list all pages of the two bring together, for each of them, the records of the blocks below it, or
none if it is not found; and those of the first path are, in their order, the ones among those of the second
whose files lie at or below the first. -/
theorem liesUnder_orders_listings : IsContainment (fun file dir => liesUnder file dir) ∧
    ∀ {c : Cluster}, c.Reachable → c.listingFailures = 0 → ∀ {d e : String}, liesUnder d e →
      ∃ below above, (∀ n, (c.blocksUnder d).length < n → readPages n c d = .ok below) ∧
        (∀ n, (c.blocksUnder e).length < n → readPages n c e = .ok above) ∧
        below.Sublist above ∧ below = above.filter fun b => liesUnder b.path d := by
  refine ⟨isContainment_liesUnder, fun {c} h hfault {d e} hde => ?_⟩
  have hlength : ∀ path, (c.itemsUnder path).length = (c.blocksUnder path).length := fun path => by
    rw [← h.catalogued.ids_itemsUnder path, List.length_map, List.length_map]
  have hbelow : (c.itemsUnder d).map ListingItem.listed =
      ((c.itemsUnder e).map ListingItem.listed).filter fun b => liesUnder b.path d := by
    rw [c.itemsUnder_eq_filter hde, List.filter_map]
    rfl
  refine ⟨_, _, fun n hn => h.readPages_eq hfault (hlength d ▸ hn),
    fun n hn => h.readPages_eq hfault (hlength e ▸ hn), ?_, hbelow⟩
  rw [hbelow]
  exact List.filter_sublist

/-- Three blocks on pages of one block. The second file lies below the path of the first; the path of the third
only begins like it. -/
def nestedSample : Cluster :=
  let c := (Disturbance.pageSize 1).apply (.empty "n")
  let c := (c.addBlock "/d/a" "HOT" (.contiguous 1) ⟨1, 4, 1⟩ []).1
  let c := (c.addBlock "/d/a/b" "HOT" (.contiguous 1) ⟨2, 4, 1⟩ []).1
  (c.addBlock "/d/ab" "HOT" (.contiguous 1) ⟨3, 4, 1⟩ []).1

/-- The listing of the first path has two of the three blocks that are below its directory. -/
theorem liesUnder_orders_listings_nested :
    nestedSample.Reachable ∧ nestedSample.listingFailures = 0 ∧ liesUnder "/d/a//" "/d" ∧
    ∃ below above, readPages 4 nestedSample "/d/a//" = .ok below ∧ readPages 4 nestedSample "/d" = .ok above ∧
      below.Sublist above ∧ below.map (fun b => b.block.id) = [1, 2] ∧
        above.map (fun b => b.block.id) = [1, 2, 3] := by
  have hreachable : nestedSample.Reachable :=
    (((Reachable.disturb (.empty "n") (.pageSize 1)).addBlock _ _ _ _ _ (by decide)).addBlock
      _ _ _ _ _ (by decide)).addBlock _ _ _ _ _ (by decide)
  have hunder : liesUnder "/d/a//" "/d" := by decide
  obtain ⟨below, above, hbelow, habove, hsub, -⟩ := liesUnder_orders_listings.2 hreachable rfl hunder
  have hbelow : readPages 4 nestedSample "/d/a//" = .ok below := hbelow 4 (by decide +kernel)
  have habove : readPages 4 nestedSample "/d" = .ok above := habove 4 (by decide +kernel)
  have hids : (readPages 4 nestedSample "/d/a//").map (·.map fun b => b.block.id) = .ok [1, 2] := by
    decide +kernel
  have hids' : (readPages 4 nestedSample "/d").map (·.map fun b => b.block.id) = .ok [1, 2, 3] := by
    decide +kernel
  rw [hbelow] at hids
  rw [habove] at hids'
  exact ⟨hreachable, rfl, hunder, below, above, hbelow, habove, hsub, Except.ok.inj hids, Except.ok.inj hids'⟩

end Cluster

end StorageTiering
