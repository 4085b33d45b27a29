import StorageTiering.Cluster.Listing
import StorageTiering.Proofs.SortedTable
import StorageTiering.Proofs.Text.Digits
import Mathlib.Data.List.DropRight
/-!
# Pages of a listing

* `liesUnder_trans` — what lies below a path below a directory lies below the directory.
* `Cursor.read?_text` — a written cursor is read back, unless its index is out of bounds.
* `Cluster.pairwise_itemsUnder` — the items of a listing come in the order of their places.
* `Cluster.itemsAfter_cursor` — behind the place of an item are the items that come after it.
* `Cluster.pageOf_last`, `Cluster.pageOf_more` — a page holds everything that is left, or it is full
  and its cursor leads to exactly what it has left out.
* `Cluster.Leads`, `Cluster.listPage_cases` — what a listing call answers to a cursor.
-/

namespace StorageTiering

/-! ### Directories -/

theorem withoutEndSlashes_append {dir rest : List Char} (h : withoutEndSlashes dir = dir) :
    withoutEndSlashes (dir ++ rest) = dir ++ withoutEndSlashes rest := by
  have hdir : dir.reverse.dropWhile (· == '/') = dir.reverse := by
    have hreversed := congrArg List.reverse h
    rwa [withoutEndSlashes, List.reverse_reverse] at hreversed
  rw [withoutEndSlashes, withoutEndSlashes, List.reverse_append, List.dropWhile_append]
  split
  · rename_i hnone
    rw [List.isEmpty_iff.1 hnone, hdir, List.reverse_reverse, List.reverse_nil, List.append_nil]
  · rw [List.reverse_append, List.reverse_reverse]

theorem withoutEndSlashes_idem (path : List Char) :
    withoutEndSlashes (withoutEndSlashes path) = withoutEndSlashes path :=
  List.rdropWhile_idempotent _ _

theorem isPrefix_withoutEndSlashes (path : List Char) : withoutEndSlashes path <+: path :=
  List.rdropWhile_prefix _ _

/-- What is at the start of a new component starts one. -/
theorem startsComponent_of_isPrefix {front path : List Char} (h : front <+: path)
    (hpath : startsComponent path) : startsComponent front := by
  obtain ⟨rest, rfl⟩ := h
  cases front with
  | nil => rfl
  | cons c _ => exact hpath

theorem liesUnderChars_iff {file dir : List Char} :
    liesUnderChars file dir ↔ dir = [] ∨ ∃ rest, file = dir ++ rest ∧ startsComponent rest := by
  rw [liesUnderChars, Bool.or_eq_true, Bool.and_eq_true, List.isEmpty_iff, List.isPrefixOf_iff_prefix]
  refine or_congr_right ⟨?_, ?_⟩
  · rintro ⟨⟨rest, rfl⟩, hrest⟩
    rw [List.drop_left] at hrest
    exact ⟨rest, rfl, hrest⟩
  · rintro ⟨rest, rfl, hrest⟩
    rw [List.drop_left]
    exact ⟨List.prefix_append _ _, hrest⟩

/-- What lies at or below a path that lies at or below a directory lies at or below the directory. -/
theorem liesUnder_trans {file path dir : String} (h : liesUnder file path) (h' : liesUnder path dir) :
    liesUnder file dir := by
  rw [liesUnder] at h h' ⊢
  generalize file.toList = file at *
  generalize path.toList = path at *
  have hdir := withoutEndSlashes_idem dir.toList
  generalize withoutEndSlashes dir.toList = dir at *
  rw [liesUnderChars_iff] at h h' ⊢
  rcases h' with rfl | ⟨below, rfl, hbelow⟩
  · exact .inl rfl
  · rw [withoutEndSlashes_append hdir] at h
    rcases h with hnil | ⟨rest, rfl, hrest⟩
    · exact .inl (List.append_eq_nil_iff.1 hnil).1
    · refine .inr ⟨withoutEndSlashes below ++ rest, List.append_assoc _ _ _, ?_⟩
      have hstart := startsComponent_of_isPrefix (isPrefix_withoutEndSlashes below) hbelow
      generalize withoutEndSlashes below = below at *
      cases below with
      | nil => exact hrest
      | cons c _ => exact hstart
/-! ### Written cursors -/

namespace Cursor

theorem readReversed?_append (path : List Char) :
    ∀ (digits index : List Char), '#' ∉ digits →
      readReversed? index (digits ++ '#' :: path) =
        (Text.natural? (Text.byteBound 8) (digits.reverse ++ index)).map fun i =>
          ⟨String.ofList path.reverse, i⟩ := by
  intro digits
  induction digits with
  | nil => intro index _; rfl
  | cons d rest ih =>
    intro index h
    have hd : d ≠ '#' := fun e => h (e ▸ List.mem_cons_self)
    have hrest : '#' ∉ rest := fun hm => h (List.mem_cons_of_mem _ hm)
    rw [List.cons_append, readReversed?, ih (d :: index) hrest, List.reverse_cons,
      List.append_assoc, List.singleton_append]
    intro e
    exact absurd e hd

/-- A written cursor is read back, if its index fits into eight bytes. -/
theorem read?_text (c : Cursor) :
    read? c.text = if c.index < Text.byteBound 8 then some c else none := by
  have hmark : '#' ∉ (Nat.toDigits 10 c.index).reverse := fun h =>
    absurd (Text.isDigit_of_mem_toDigits (List.mem_reverse.1 h)) (by decide)
  have htext : c.text.toList.reverse =
      (Nat.toDigits 10 c.index).reverse ++ '#' :: c.path.toList.reverse := by
    simp [text, String.toList_append]
  rw [read?, htext, readReversed?_append _ _ _ hmark, List.reverse_reverse, List.append_nil,
    List.reverse_reverse, Text.natural?_toDigits, String.ofList_toList]
  split <;> rfl

theorem isBefore_irrefl (c : Cursor) : c.isBefore c.path c.index = false := by
  simp [isBefore]

theorem isBefore_asymm {a b : Cursor} (h : a.isBefore b.path b.index) :
    b.isBefore a.path a.index = false := by
  simp only [isBefore, Bool.or_eq_true, Bool.and_eq_true, decide_eq_true_eq, beq_iff_eq] at h
  simp only [isBefore, Bool.or_eq_false_iff, Bool.and_eq_false_iff, decide_eq_false_iff_not]
  rcases h with h | ⟨h, hi⟩
  · refine ⟨fun h' => String.lt_irrefl _ (String.lt_trans h h'), .inl ?_⟩
    exact beq_false_of_ne fun e => String.lt_irrefl _ (e ▸ h)
  · exact ⟨fun h' => String.lt_irrefl _ (h ▸ h'), .inr (by omega)⟩

end Cursor

/-! ### The order of a listing -/

namespace ListingItem

/-- An item comes before another in a listing. -/
def Precedes (a b : ListingItem) : Prop := a.cursor.isBefore b.listed.path b.index

end ListingItem

namespace Cluster

variable {c : Cluster} {path : String} {f : File} {id : BlockId} {b : ListedBlock}
  {i : ListingItem} {items rest : List ListingItem} {size : Nat}

theorem listedBlock?_eq_some : c.listedBlock? path f id = some b ↔
    ∃ p, c.block? id = some p ∧ b = ⟨path, f.policy, p.block, f.layout, p.replicas⟩ := by
  rw [listedBlock?, Option.map_eq_some_iff]
  exact exists_congr fun p => and_congr_right fun _ => eq_comm

theorem mem_fileItems : i ∈ c.fileItems path f ↔
    ∃ id, f.blocks[i.index]? = some id ∧ c.listedBlock? path f id = some i.listed := by
  simp only [fileItems, List.mem_filterMap, exists_eq_right, List.mem_mapIdx, Option.map_eq_some_iff]
  constructor
  · rintro ⟨n, hn, b, hb, rfl⟩
    exact ⟨_, List.getElem?_eq_getElem hn, hb⟩
  · rintro ⟨id, hid, hb⟩
    obtain ⟨hn, rfl⟩ := List.getElem?_eq_some_iff.1 hid
    exact ⟨i.index, hn, i.listed, hb, rfl⟩

theorem path_of_mem_fileItems (h : i ∈ c.fileItems path f) : i.listed.path = path := by
  obtain ⟨id, _, hb⟩ := mem_fileItems.1 h
  obtain ⟨p, _, hb⟩ := listedBlock?_eq_some.1 hb
  rw [hb]

theorem mem_itemsUnder : i ∈ c.itemsUnder path ↔
    ∃ f ∈ c.files, liesUnder f.1 path ∧ i ∈ c.fileItems f.1 f.2 := by
  simp only [itemsUnder, filesUnder, List.mem_flatMap, List.mem_filter]
  exact ⟨fun ⟨f, h, hi⟩ => ⟨f, h.1, h.2, hi⟩, fun ⟨f, hf, hl, hi⟩ => ⟨f, ⟨hf, hl⟩, hi⟩⟩

theorem pairwise_fileItems (c : Cluster) (path : String) (f : File) :
    (c.fileItems path f).Pairwise ListingItem.Precedes := by
  refine List.pairwise_filterMap.2 (List.pairwise_iff_getElem.2 ?_)
  intro m n hm hn hlt a ha b hb
  simp only [List.getElem_mapIdx, Option.map_eq_some_iff] at ha hb
  obtain ⟨la, hla, rfl⟩ := ha
  obtain ⟨lb, hlb, rfl⟩ := hb
  obtain ⟨pa, _, rfl⟩ := listedBlock?_eq_some.1 hla
  obtain ⟨pb, _, rfl⟩ := listedBlock?_eq_some.1 hlb
  simp [ListingItem.Precedes, ListingItem.cursor, Cursor.isBefore, hlt]

/-- The items of a listing come in the order of their places. -/
theorem pairwise_itemsUnder (h : c.files.Ascending) (path : String) :
    (c.itemsUnder path).Pairwise ListingItem.Precedes := by
  refine List.pairwise_flatMap.2 ⟨fun f _ => pairwise_fileItems c f.1 f.2, ?_⟩
  refine (List.Pairwise.filter _ h).imp fun {f g} hfg a ha b hb => ?_
  simp [ListingItem.Precedes, ListingItem.cursor, Cursor.isBefore, path_of_mem_fileItems ha,
    path_of_mem_fileItems hb, hfg]

/-! ### What is behind a cursor -/

/-- Behind the place of an item are the items that come after it. -/
theorem itemsAfter_cursor {front : List ListingItem} {last : ListingItem}
    (h : (front ++ last :: rest).Pairwise ListingItem.Precedes) :
    itemsAfter (front ++ last :: rest) (some last.cursor) = rest := by
  obtain ⟨_, hlast, hfront⟩ := List.pairwise_append.1 h
  obtain ⟨hrest, _⟩ := List.pairwise_cons.1 hlast
  have hf : front.filter (fun i => last.cursor.isBefore i.listed.path i.index) = [] :=
    List.filter_eq_nil_iff.2 fun i hi => by
      have := Cursor.isBefore_asymm (b := last.cursor) (hfront i hi last List.mem_cons_self)
      simpa [ListingItem.cursor] using this
  have hr : rest.filter (fun i => last.cursor.isBefore i.listed.path i.index) = rest :=
    List.filter_eq_self.2 fun i hi => hrest i hi
  have hl : last.cursor.isBefore last.listed.path last.index = false :=
    last.cursor.isBefore_irrefl
  rw [itemsAfter, List.filter_append, hf, List.filter_cons, hl, hr]
  rfl

/-- A page on which everything has room is the last one. -/
theorem pageOf_last (h : items.length ≤ size) :
    pageOf size items = ⟨items.map ListingItem.listed, none⟩ := by
  simp [pageOf, List.take_of_length_le h, Nat.not_lt.2 h]

/-- A page that leaves something out is full, and its cursor leads to exactly that. -/
theorem pageOf_more {all : List ListingItem} (hall : all.Pairwise ListingItem.Precedes)
    (hsuffix : items <:+ all) (hsize : 1 ≤ size) (h : size < items.length) :
    ∃ last ∈ items, pageOf size items =
        ⟨(items.take size).map ListingItem.listed, some last.cursor.text⟩ ∧
      itemsAfter all (some last.cursor) = items.drop size := by
  obtain ⟨pre, rfl⟩ := hsuffix
  have hne : items.take size ≠ [] := by
    have hlen : (items.take size).length = size := List.length_take_of_le h.le
    exact List.ne_nil_of_length_pos (by omega)
  have hmem : (items.take size).getLast hne ∈ items := List.mem_of_mem_take (List.getLast_mem hne)
  refine ⟨(items.take size).getLast hne, hmem, ?_, ?_⟩
  · simp [pageOf, h, List.getLast?_eq_some_getLast hne]
  · have hsplit : pre ++ items = (pre ++ (items.take size).dropLast) ++
        (items.take size).getLast hne :: items.drop size := by
      conv_lhs => rw [← List.take_append_drop size items, ← List.dropLast_append_getLast hne]
      simp only [List.append_assoc, List.singleton_append]
    rw [hsplit] at hall ⊢
    exact itemsAfter_cursor hall

/-! ### Listing calls -/

/-- What a written cursor leads to; without a cursor these are all items. -/
def Leads (all items : List ListingItem) : Option String → Prop
  | none => items = all
  | some text => ∃ cursor, Cursor.read? text = some cursor ∧ itemsAfter all (some cursor) = items

/-- A listing call fails as injected, finds no file, or answers with the page to which its cursor
leads. -/
theorem listPage_cases {cursor : Option String} (h : Leads (c.itemsUnder path) items cursor) :
    (∃ text, (c.listPage path cursor).2 = .error (.transient text) ∧
      (c.listPage path cursor).1.listingFailures + 1 = c.listingFailures) ∨
    ((c.listPage path cursor).1.listingFailures = c.listingFailures ∧
      ((c.filesUnder path = [] ∧ (c.listPage path cursor).2 = .error (.pathNotFound path)) ∨
        (c.listPage path cursor).2 = .ok (pageOf c.pageSize items))) := by
  have hpage : ∀ cursor, itemsAfter (c.itemsUnder path) cursor = items →
      (c.filesUnder path = [] ∧ c.pageUnder path cursor = .error (.pathNotFound path)) ∨
        c.pageUnder path cursor = .ok (pageOf c.pageSize items) := by
    intro cursor hi
    rw [pageUnder, hi]
    split
    · rename_i hnone
      exact .inl ⟨List.isEmpty_iff.1 (Bool.and_eq_true _ _ ▸ hnone).1, rfl⟩
    · exact .inr rfl
  rw [listPage]
  split
  · rename_i hfails
    refine .inl ⟨_, rfl, ?_⟩
    have := hfails.2
    dsimp only at this ⊢
    omega
  · refine .inr ?_
    cases cursor with
    | none => exact ⟨rfl, hpage none h.symm⟩
    | some text =>
      obtain ⟨cursor, hread, hi⟩ := h
      dsimp only
      rw [hread]
      exact ⟨rfl, hpage (some cursor) hi⟩

end Cluster

end StorageTiering
