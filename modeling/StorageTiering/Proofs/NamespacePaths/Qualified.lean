import StorageTiering.Proofs.NamespacePaths.Gathered
import StorageTiering.Proofs.Text.Fields
import StorageTiering.Proofs.Url.Percent
/-!
# Paths that name their namespace

A path of a file that is written behind the name of its namespace is read as an address, and what an address
cannot hold is encoded there. Nothing takes the encoding back, so a path with such a character is not the path
of the file any more.

* `NamespacePaths.PlainName`, `NamespacePaths.Literal` — names and paths that no other rule of addresses changes.
* `NamespacePaths.read?_qualified` — such a path behind the name of its namespace, as an address.
* `NamespacePaths.resolvePaths_qualified` — it is resolved to its encoding; and the paths that can be named at
  all where there are several namespaces.
-/

namespace StorageTiering.NamespacePaths

variable {reader : AddressReader} {keeps : Char → Bool} {ns : NamespaceId} {path : String}
  {known : List NamespaceId}

/-- The name of a namespace in letters, digits and hyphens. -/
def PlainName (ns : NamespaceId) : Prop := ns ≠ "" ∧ ∀ c ∈ ns.toList, Address.IsPlain c

/-- An absolute path without marks of an address, controls, a space at its end and steps. -/
structure Literal (path : String) : Prop where
  absolute : isAbsolute path
  noMark : ∀ c ∈ path.toList, c ≠ '?' ∧ c ≠ '#' ∧ c ≠ '%'
  noControl : ∀ c ∈ path.toList, 0x20 ≤ c.toNat
  noSpaceAtEnd : path.toList.getLast? ≠ some ' '
  noStep : ∀ segment ∈ Text.fields '/' path.toList, segment ≠ ['.'] ∧ segment ≠ ['.', '.']

/-- A path behind the name of its namespace. -/
def qualified (ns : NamespaceId) (path : String) : String := "ns://" ++ ns ++ path

/-- A path in which everything is encoded that is not kept. The slashes between segments stay. -/
def encoded (keeps : Char → Bool) (path : String) : String :=
  String.ofList (Url.percentEncode (fun c => c == '/' || keeps c) path.toList)

/-- A path is its own encoding if and only if it has nothing to encode. -/
theorem encoded_eq_self_iff : encoded keeps path = path ↔ ∀ c ∈ path.toList, c = '/' ∨ keeps c := by
  rw [← String.toList_inj, encoded, String.toList_ofList, Url.percentEncode_eq_self_iff]
  simp

theorem exists_toList_eq_cons (h : isAbsolute path) : ∃ rest, path.toList = '/' :: rest :=
  List.head?_eq_some_iff.1 (beq_iff_eq.1 h)

/-! ### Reading -/

/-- The segments of a path. -/
def segmentsOf (path : String) : List (List Char) := Text.fields '/' path.toList.tail

theorem joined_segmentsOf (h : isAbsolute path) : Text.joined '/' (segmentsOf path) = path.toList := by
  obtain ⟨rest, hrest⟩ := exists_toList_eq_cons h
  rw [segmentsOf, Text.joined_fields, hrest, List.tail_cons]

/-- The encodings of its segments make up the encoding of a path. -/
theorem ofList_joined_segmentsOf (h : isAbsolute path) (keeps : Char → Bool) :
    String.ofList (Text.joined '/' ((segmentsOf path).map (Url.percentEncode keeps))) = encoded keeps path := by
  obtain ⟨rest, hrest⟩ := exists_toList_eq_cons h
  have hsegments : (segmentsOf path).map (Url.percentEncode keeps) =
      (segmentsOf path).map (Url.percentEncode fun c => c == '/' || keeps c) := by
    refine List.map_congr_left fun segment hs => ?_
    rw [Url.percentEncode, Url.percentEncode]
    refine List.flatMap_congr fun c hc => ?_
    rw [beq_false_of_ne (Text.mem_of_mem_fields hs hc).1, Bool.false_or]
  rw [hsegments, segmentsOf, encoded, hrest, List.tail_cons, Url.percentEncode_cons, if_pos (by simp)]
  exact congrArg String.ofList (Text.joined_map_fields rfl rest)

/-- There is nothing to interpret in the segments of such a path. -/
theorem Literal.isSegment (h : Literal path) : ∀ segment ∈ segmentsOf path, Address.IsSegment segment := by
  obtain ⟨rest, hrest⟩ := exists_toList_eq_cons h.absolute
  intro segment hs
  rw [segmentsOf, hrest, List.tail_cons] at hs
  have hmem : ∀ c ∈ segment, c ≠ '/' ∧ c ∈ path.toList := fun c hc =>
    (Text.mem_of_mem_fields hs hc).imp_right fun hc => hrest ▸ List.mem_cons_of_mem _ hc
  refine ⟨fun c hc => h.noControl c (hmem c hc).2, fun c hc => ?_, h.noStep segment ?_⟩
  · obtain ⟨hslash, hc⟩ := hmem c hc
    obtain ⟨hquery, hfragment, hpercent⟩ := h.noMark c hc
    simp [hslash, hquery, hfragment, hpercent]
  · -- what stands before the first slash is empty, and no segment of the address
    have hfields : Text.fields '/' path.toList = [] :: Text.fields '/' rest := by
      rw [hrest, Text.fields, if_pos rfl]
    exact hfields ▸ List.mem_cons_of_mem _ hs

/-- Nor does the last of them end in a space. -/
theorem Literal.noSpace (h : Literal path) : ∀ segment ∈ (segmentsOf path).getLast?, segment.getLast? ≠ some ' ' := by
  intro segment hs hspace
  obtain ⟨front, hfront⟩ := List.getLast?_eq_some_iff.1 hs
  have hpath : path.toList = Text.joined '/' front ++ '/' :: segment := by
    rw [← joined_segmentsOf h.absolute, hfront, Text.joined, List.flatMap_append, List.flatMap_singleton]
    rfl
  refine h.noSpaceAtEnd ?_
  rw [hpath, List.getLast?_append_of_ne_nil _ (List.cons_ne_nil _ _), List.getLast?_cons, hspace]
  rfl

theorem isOrdinaryScheme_namespaceScheme : Address.IsOrdinaryScheme Target.namespaceScheme :=
  ⟨by decide, List.forall_iff_forall_mem.1 (by decide), by decide⟩

/-- A path behind the name of its namespace is an address, whose path is the encoded one. -/
theorem read?_qualified (hr : reader.ReadsSegments keeps) (hns : PlainName ns) (hpath : Literal path) :
    reader.read? (qualified ns path) = some ⟨Target.namespaceScheme, some ns, encoded keeps path⟩ := by
  have hread := hr Target.namespaceScheme ns (segmentsOf path) isOrdinaryScheme_namespaceScheme hns.1 hns.2
    hpath.isSegment hpath.noSpace
  rwa [joined_segmentsOf hpath.absolute, String.ofList_toList, ofList_joined_segmentsOf hpath.absolute] at hread

/-! ### Naming -/

theorem encoded_ne_empty (h : isAbsolute path) : encoded keeps path ≠ "" := by
  obtain ⟨rest, hrest⟩ := exists_toList_eq_cons h
  intro hempty
  have hnone := congrArg String.toList hempty
  rw [encoded, String.toList_ofList, hrest, Url.percentEncode_cons, if_pos (by simp)] at hnone
  cases hnone

/-- A path behind the name of its namespace names its encoding. -/
theorem namedIn?_qualified (hr : reader.ReadsSegments keeps) (hns : PlainName ns) (hpath : Literal path)
    (hknown : ns ∈ known) : namedIn? reader known ns (qualified ns path) = some (encoded keeps path) := by
  have hsome : ¬(encoded keeps path).isEmpty := by
    simpa using encoded_ne_empty hpath.absolute
  have hhost : (some ns).filter (fun host => !host.isEmpty) = some ns := by
    simp [hns.1]
  have hplaced : Target.ofPath reader (qualified ns path) =
      .placed Target.namespaceScheme ns (encoded keeps path) := by
    rw [Target.ofPath, read?_qualified hr hns hpath]
    dsimp only
    rw [hhost, if_neg hsome]
  rw [namedIn?, hplaced]
  exact if_pos ⟨rfl, rfl, hknown⟩

/-- Where there are other namespaces, a path that is named has nothing left to encode. -/
theorem encoded_of_namedIn? (hr : reader.Encodes keeps) {raw : String} (hknown : known.length ≠ 1)
    (h : namedIn? reader known ns raw = some path) : ∀ c ∈ path.toList, c = '/' ∨ keeps c := by
  rw [namedIn?] at h
  split at h
  · rw [if_neg fun hplain : known = [ns] ∧ _ => hknown (hplain.1 ▸ rfl)] at h
    cases h
  · cases h
  · rename_i hplaced
    split at h
    · exact Option.some.inj h ▸ Target.encoded_of_placed hr hplaced
    · cases h

theorem resolvePaths_singleton_of_namedIn? {raw : String} (h : namedIn? reader known ns raw = some path) :
    resolvePaths known [raw] reader = .ok [(ns, some [path])] := by
  rw [resolvePaths_singleton, resolveAlone_eq_ok_iff.2 h]
  rfl

/-- A path of a command line names itself, and behind the name of its namespace it names its encoding. So both
mean the same file if and only if the path has nothing to encode; and where there are other namespaces, other
paths cannot be named in any way. This is so whichever characters the reader of addresses keeps. -/
theorem resolvePaths_qualified (hscheme : reader.NeedsScheme) (hsegments : reader.HasSegments)
    (hencodes : reader.Encodes keeps) (hreads : reader.ReadsSegments keeps) (hns : PlainName ns)
    (hpath : Literal path) :
    resolvePaths [ns] [path] reader = .ok [(ns, some [path])] ∧
    (∀ known, ns ∈ known →
      resolvePaths known [qualified ns path] reader = .ok [(ns, some [encoded keeps path])]) ∧
    (resolvePaths [ns] [qualified ns path] reader = resolvePaths [ns] [path] reader ↔
      ∀ c ∈ path.toList, c = '/' ∨ keeps c) ∧
    ∀ known, ns ∈ known → known.length ≠ 1 →
      ((∃ paths t list, paths ≠ [] ∧ resolvePaths known paths reader = .ok t ∧ (ns, some list) ∈ t ∧
        path ∈ list) ↔ ∀ c ∈ path.toList, c = '/' ∨ keeps c) := by
  have hplain : namedIn? reader [ns] ns path = some path := by
    rw [namedIn?, Target.ofPath_of_isAbsolute hscheme hpath.absolute]
    exact if_pos ⟨rfl, hpath.absolute⟩
  have halone := resolvePaths_singleton_of_namedIn? hplain
  have hqualified : ∀ known, ns ∈ known →
      resolvePaths known [qualified ns path] reader = .ok [(ns, some [encoded keeps path])] :=
    fun known hknown => resolvePaths_singleton_of_namedIn? (namedIn?_qualified hreads hns hpath hknown)
  refine ⟨halone, hqualified, ?_, fun known hknown hothers => ⟨?_, fun hkept => ?_⟩⟩
  · rw [halone, hqualified [ns] (List.mem_singleton_self ns), ← encoded_eq_self_iff]
    simp
  · rintro ⟨paths, t, list, hne, ht, hmem, hpath⟩
    obtain ⟨t', ht', hgathers, -⟩ | ⟨-, -, -, e, -, -, -, herror⟩ := resolvePaths_cases hsegments known hne
    · obtain rfl := Except.ok.inj (ht.symm.trans ht')
      obtain ⟨_, heq, -, -, -, hlist⟩ := hgathers.value ns (some list) hmem
      obtain rfl := Option.some.inj heq
      obtain ⟨raw, -, hraw⟩ := List.mem_filterMap.1 (List.mem_eraseDups.1 (hlist ▸ hpath))
      exact encoded_of_namedIn? hencodes hothers hraw
    · cases ht.symm.trans herror
  · have hencoded : encoded keeps path = path := encoded_eq_self_iff.2 hkept
    refine ⟨[qualified ns path], _, [path], List.cons_ne_nil _ _, hqualified known hknown, ?_, List.mem_singleton_self _⟩
    rw [hencoded]
    exact List.mem_singleton_self _

/-- A letter beyond ASCII: without other namespaces the path can be given alone, with them it cannot be named. -/
theorem resolvePaths_qualified_umlaut :
    Url.reader.NeedsScheme ∧ Url.reader.HasSegments ∧ Url.reader.Encodes Url.keptInPaths ∧
      Url.reader.ReadsSegments Url.keptInPaths ∧ PlainName "ns1" ∧ Literal "/x/ü" ∧
      resolvePaths ["ns1"] ["/x/ü"] Url.reader = .ok [("ns1", some ["/x/ü"])] ∧
      resolvePaths ["ns1", "ns2"] ["ns://ns1/x/ü"] Url.reader = .ok [("ns1", some ["/x/%C3%BC"])] ∧
      ¬∃ paths t list, paths ≠ [] ∧ resolvePaths ["ns1", "ns2"] paths Url.reader = .ok t ∧
        ("ns1", some list) ∈ t ∧ "/x/ü" ∈ list := by
  have hns : PlainName "ns1" := ⟨by decide, List.forall_iff_forall_mem.1 (by decide)⟩
  have hpath : Literal "/x/ü" :=
    ⟨by decide, List.forall_iff_forall_mem.1 (by decide), List.forall_iff_forall_mem.1 (by decide), by decide, by decide⟩
  obtain ⟨halone, hqualified, -, hnamed⟩ := resolvePaths_qualified Url.reader_needsScheme Url.reader_hasSegments
    Url.reader_encodes Url.reader_readsSegments hns hpath
  refine ⟨Url.reader_needsScheme, Url.reader_hasSegments, Url.reader_encodes, Url.reader_readsSegments, hns, hpath,
    halone, hqualified ["ns1", "ns2"] (by decide), ?_⟩
  rw [hnamed ["ns1", "ns2"] (by decide) (by decide)]
  intro hkept
  exact absurd (hkept 'ü' (by decide)) (by decide)

/-- A space inside a path: behind the name of its namespace the path is another one. -/
theorem resolvePaths_qualified_space :
    PlainName "ns1" ∧ Literal "/a b" ∧
      resolvePaths ["ns1"] [qualified "ns1" "/a b"] Url.reader = .ok [("ns1", some ["/a%20b"])] ∧
      resolvePaths ["ns1"] ["/a b"] Url.reader = .ok [("ns1", some ["/a b"])] ∧
      resolvePaths ["ns1"] [qualified "ns1" "/a b"] Url.reader ≠ resolvePaths ["ns1"] ["/a b"] Url.reader := by
  have hqualified : resolvePaths ["ns1"] [qualified "ns1" "/a b"] Url.reader = .ok [("ns1", some ["/a%20b"])] := rfl
  have halone : resolvePaths ["ns1"] ["/a b"] Url.reader = .ok [("ns1", some ["/a b"])] := rfl
  have hns : PlainName "ns1" := ⟨by decide, List.forall_iff_forall_mem.1 (by decide)⟩
  have hpath : Literal "/a b" :=
    ⟨by decide, List.forall_iff_forall_mem.1 (by decide), List.forall_iff_forall_mem.1 (by decide), by decide, by decide⟩
  refine ⟨hns, hpath, hqualified, halone, ?_⟩
  rw [hqualified, halone]
  simp

end StorageTiering.NamespacePaths
