import StorageTiering.Proofs.Url.Path
import Mathlib.Data.List.TakeDrop
import Mathlib.Data.List.TakeWhile
/-!
# Reading addresses

The reader of the command line does what is known of readers.

* `Url.reader_needsScheme` — an address starts with a letter.
* `Url.isPath_of_read?` — the path of an address is empty, or what is left of a path after every step;
  `Url.reader_hasSegments`, `Url.reader_encodes`.
* `Url.readOpaque?_of_plain` — a plain host and a path behind it; `Url.reader_readsSegments`.
-/

namespace StorageTiering.Url

open Address (IsPlain IsSegment IsOrdinaryScheme)

variable {c : Char} {cs host rest : List Char} {scheme : String} {segments : List (List Char)}

/-! ### The characters that count -/

/-- A first character that is not dropped stays the first. -/
theorem head?_stripEnds {drop : Char → Bool} (h : drop c = false) (cs : List Char) :
    (Text.stripEnds drop (c :: cs)).head? = some c := by
  rw [Text.stripEnds, List.dropWhile_cons_of_neg (by simp [h]), List.reverse_cons, List.dropWhile_append,
    List.head?_reverse]
  split
  · rw [List.dropWhile_cons_of_neg (by simp [h])]
    rfl
  · exact List.getLast?_concat

/-- Only controls are left out. -/
theorem isIgnored_eq_false (h : 0x20 ≤ c.toNat) : isIgnored c = false := by
  have hne : ∀ x : Char, x.toNat < 0x20 → c ≠ x := fun x hx hc => by
    subst hc
    omega
  simp [isIgnored, hne '\t' (by decide), hne '\n' (by decide), hne '\r' (by decide)]

/-- All characters count where none is left out and the ends are neither controls nor spaces. -/
theorem significant_eq_toList {s : String} (hfirst : ∀ c ∈ s.toList.head?, isTrimmed c = false)
    (hlast : ∀ c ∈ s.toList.getLast?, isTrimmed c = false) (h : ∀ c ∈ s.toList, isIgnored c = false) :
    significant s = s.toList := by
  have hkept : ∀ l : List Char, (∀ c ∈ l.head?, isTrimmed c = false) → l.dropWhile isTrimmed = l := by
    intro l hl
    cases l with
    | nil => rfl
    | cons c l => exact List.dropWhile_cons_of_neg (by simp [hl c rfl])
  rw [significant, Text.stripEnds, hkept _ hfirst, hkept _ (by rwa [List.head?_reverse]), List.reverse_reverse]
  exact List.filter_eq_self.2 fun c hc => by simp [h c hc]

/-- What starts with a character that is no letter has no scheme. -/
theorem splitScheme?_of_not_alpha (h : ¬c.isAlpha) (cs : List Char) : splitScheme? (c :: cs) = none := by
  rw [splitScheme?, List.span_eq_takeWhile_dropWhile, List.takeWhile_cons]
  split
  · rename_i first scheme rest heq
    split at heq
    · obtain ⟨rfl, -⟩ := List.cons.inj (congrArg Prod.fst heq)
      exact if_neg h
    · cases heq
  · rfl

/-- An address starts with a letter. -/
theorem reader_needsScheme : reader.NeedsScheme := by
  intro text c hfirst hc hletter
  obtain ⟨cs, htext⟩ : ∃ cs, text.toList = c :: cs := List.head?_eq_some_iff.1 hfirst
  have htrimmed : isTrimmed c = false := decide_eq_false (by omega)
  obtain ⟨rest, hsignificant⟩ : ∃ rest, significant text = c :: rest := by
    obtain ⟨kept, hkept⟩ := List.head?_eq_some_iff.1 (head?_stripEnds htrimmed cs)
    rw [significant, htext, hkept]
    exact ⟨_, List.filter_cons_of_pos (by simp [isIgnored_eq_false (Nat.le_of_lt hc)])⟩
  show read? text = none
  rw [read?, hsignificant, splitScheme?_of_not_alpha hletter]
  rfl

/-! ### The path of an address -/

/-- A path that is empty, or what is left of a path after every step. -/
def IsPath (path : String) : Prop := path = "" ∨ ∃ cs, path = normalPath cs

theorem isPath_of_readOpaque? {s h p : String} (hr : readOpaque? scheme cs = some ⟨s, some h, p⟩) : IsPath p := by
  rw [readOpaque?.eq_def] at hr
  split at hr
  · obtain ⟨⟨host, gap⟩, -, hr⟩ := Option.bind_eq_some_iff.1 hr
    dsimp only at hr
    split at hr
    · cases hr
    · split at hr
      · cases hr
        exact .inl rfl
      · cases hr
        exact .inr ⟨_, rfl⟩
  · cases hr

theorem isPath_of_readWeb? {s h p : String} (hr : readWeb? scheme cs = some ⟨s, some h, p⟩) : IsPath p := by
  rw [readWeb?] at hr
  obtain ⟨⟨host, gap⟩, -, hr⟩ := Option.bind_eq_some_iff.1 hr
  cases host with
  | none => cases hr
  | some host =>
    cases hr
    exact .inr ⟨_, rfl⟩

theorem isPath_of_readFile? {s h p : String} (hr : readFile? cs = some ⟨s, some h, p⟩) : IsPath p := by
  rw [readFile?] at hr
  split at hr
  · dsimp only at hr
    split at hr
    · cases hr
    · obtain ⟨host, -, hr⟩ := Option.bind_eq_some_iff.1 hr
      split at hr
      · cases hr
      · cases hr
        exact .inr ⟨_, rfl⟩
  · cases hr

/-- The path of an address is empty, or what is left of a path after every step. -/
theorem isPath_of_read? {s scheme h p : String} (hr : read? s = some ⟨scheme, some h, p⟩) : IsPath p := by
  rw [read?] at hr
  obtain ⟨⟨_, rest⟩, -, hr⟩ := Option.bind_eq_some_iff.1 hr
  dsimp only at hr
  split at hr
  · exact isPath_of_readFile? hr
  · split at hr
    · exact isPath_of_readWeb? hr
    · exact isPath_of_readOpaque? hr

/-- The path of an address with a host is made of segments. -/
theorem reader_hasSegments : reader.HasSegments := by
  rintro text ⟨scheme, _, path⟩ host hread rfl
  rcases isPath_of_read? hread with rfl | ⟨cs, rfl⟩
  · exact ⟨[], rfl⟩
  · exact ⟨_, toList_normalPath cs⟩

/-- Everything in it is encoded that has to be. -/
theorem reader_encodes : reader.Encodes keptInPaths := by
  rintro text ⟨scheme, _, path⟩ host hread rfl c hc
  rcases isPath_of_read? hread with rfl | ⟨cs, rfl⟩
  · cases hc
  · exact .inr (keptInPaths_of_mem_normalPath hc)

/-! ### A plain host and what stands behind it -/

theorem toNat_of_isPlain (h : IsPlain c) : 0x2D ≤ c.toNat ∧ c.toNat ≤ 0x7A := by
  rcases h with h | rfl
  · have hval : c.val.toNat = c.toNat := rfl
    change (decide ('A'.val ≤ c.val ∧ c.val ≤ 'Z'.val) || decide ('a'.val ≤ c.val) && decide (c.val ≤ 'z'.val) ||
      decide ('0'.val ≤ c.val) && decide (c.val ≤ '9'.val)) = true at h
    simp only [Char.reduceVal, UInt32.le_iff_toNat_le, UInt32.reduceToNat, hval, Bool.or_eq_true, Bool.and_eq_true,
      decide_eq_true_eq] at h
    omega
  · decide

theorem not_forbidden_of_isPlain (h : IsPlain c) : c ∉ forbiddenInHosts := by
  have hall : ∀ x ∈ forbiddenInHosts, ¬IsPlain x := List.forall_iff_forall_mem.1 (by decide)
  exact fun hmem => hall c hmem h

theorem ne_of_isPlain (h : IsPlain c) {x : Char} (hx : x ∈ forbiddenInHosts) : c ≠ x :=
  fun hc => not_forbidden_of_isPlain h (hc ▸ hx)

variable (hhost : ∀ c ∈ host, IsPlain c) (hne : host ≠ [])

include hhost

theorem spanHost_of_plain : spanHost false host = (host, []) := by
  induction host with
  | nil => rfl
  | cons c cs ih =>
    obtain ⟨hc, hcs⟩ := List.forall_mem_cons.1 hhost
    have hcolon : c ≠ ':' := ne_of_isPlain hc (by decide)
    have hinside : staysInside false c = false := by
      simpa [staysInside] using ne_of_isPlain hc (x := '[') (by decide)
    rw [spanHost, if_neg (by simp [hcolon]), hinside, ih hcs]

/-- A plain host stays as it is. -/
theorem opaqueHost?_of_plain : opaqueHost? host = some (String.ofList host) := by
  have hallowed : ¬host.any fun c => forbiddenInHosts.contains c := by
    simpa using fun c hc => not_forbidden_of_isPlain (hhost c hc)
  have hkept : percentEncode isPrinting host = host := by
    refine percentEncode_eq_self fun c hc => ?_
    have hrange := toNat_of_isPlain (hhost c hc)
    rw [isPrinting, Bool.and_eq_true, decide_eq_true_eq, decide_eq_true_eq]
    omega
  rw [opaqueHost?, if_neg hallowed, hkept]
  rintro cs rfl
  exact ne_of_isPlain (hhost '[' List.mem_cons_self) (by decide) rfl

theorem cutAtLastSign_of_plain : cutAtLastSign host = none := by
  refine if_neg fun hsign => ?_
  exact ne_of_isPlain (hhost '@' (List.contains_iff_mem.1 hsign)) (by decide) rfl

include hne

/-- An authority that is a plain host. -/
theorem readAuthority?_of_plain (rest : List Char) :
    readAuthority? opaqueHost? host rest = some (some (String.ofList host), []) := by
  rw [readAuthority?, cutAtLastSign_of_plain hhost, Option.getD_none]
  dsimp only
  rw [if_neg fun h => hne h.2.2.1, spanHost_of_plain hhost]
  dsimp only
  rw [if_neg hne, opaqueHost?_of_plain hhost]
  rfl

/-- A plain host and a path behind it are read as they stand, but for what is done to the path. -/
theorem readOpaque?_of_plain (hfirst : ∀ c ∈ rest.head?, c = '/') (hpath : ∀ c ∈ rest, endsPath c = false) :
    readOpaque? scheme ('/' :: '/' :: (host ++ rest)) =
      some ⟨scheme, some (String.ofList host), if rest = [] then "" else normalPath rest⟩ := by
  have hspan : (host ++ rest).span (fun c => !endsAuthority c) = (host, rest) := by
    have hplain : ∀ c ∈ host, (!endsAuthority c) = true := fun c hc => by
      simp [endsAuthority, ne_of_isPlain (hhost c hc) (x := '/') (by decide),
        ne_of_isPlain (hhost c hc) (x := '?') (by decide), ne_of_isPlain (hhost c hc) (x := '#') (by decide)]
    rw [List.span_eq_takeWhile_dropWhile, List.takeWhile_append_of_pos hplain,
      List.dropWhile_append_of_pos hplain]
    cases rest with
    | nil => simp
    | cons c rest =>
      obtain rfl := hfirst c rfl
      rw [List.takeWhile_cons_of_neg (by decide), List.dropWhile_cons_of_neg (by decide), List.append_nil]
  have hpart : pathPart rest = rest :=
    List.takeWhile_eq_self_iff.2 fun c hc => by simp [hpath c hc]
  rw [readOpaque?, hspan]
  dsimp only
  rw [readAuthority?_of_plain hhost hne]
  dsimp only [Option.bind_eq_bind, Option.bind_some]
  rw [List.nil_append, hpart]
  cases rest <;> rfl

omit hhost hne

/-! ### A scheme, a host and segments -/

theorem toNat_of_isLower (h : c.isLower) : 0x61 ≤ c.toNat ∧ c.toNat ≤ 0x7A := by
  have hval : c.val.toNat = c.toNat := rfl
  change (decide ('a'.val ≤ c.val) && decide (c.val ≤ 'z'.val)) = true at h
  simpa only [Bool.and_eq_true, decide_eq_true_eq, UInt32.le_iff_toNat_le, Char.reduceVal, UInt32.reduceToNat,
    hval] using h

theorem isAlpha_of_isLower (h : c.isLower) : c.isAlpha :=
  (congrArg (c.isUpper || ·) h).trans (Bool.or_true _)

theorem toLower_of_isLower (h : c.isLower) : c.toLower = c := by
  refine dif_neg fun hupper => ?_
  have hle : c.val.toNat ≤ 0x5A := UInt32.le_iff_toNat_le.1 hupper.2
  have hval : c.val.toNat = c.toNat := rfl
  have := toNat_of_isLower h
  omega

/-- An ordinary scheme is cut off as it stands. -/
theorem splitScheme?_of_ordinary (h : IsOrdinaryScheme scheme) (cs : List Char) :
    splitScheme? (scheme.toList ++ ':' :: cs) = some (scheme, cs) := by
  obtain ⟨first, letters, hscheme⟩ := List.exists_cons_of_ne_nil (mt String.toList_eq_nil_iff.1 h.ne_empty)
  have hin : ∀ c ∈ scheme.toList, inScheme c := fun c hc => by
    simp [inScheme, Char.isAlphanum, isAlpha_of_isLower (h.lower c hc)]
  have hfirst : first.isAlpha := isAlpha_of_isLower (h.lower first (hscheme ▸ List.mem_cons_self))
  have hlower : scheme.toList.map Char.toLower = scheme.toList :=
    (List.map_congr_left fun c hc => toLower_of_isLower (h.lower c hc)).trans (List.map_id _)
  rw [splitScheme?, List.span_eq_takeWhile_dropWhile, List.takeWhile_append_of_pos hin,
    List.dropWhile_append_of_pos hin, List.takeWhile_cons_of_neg (by decide), List.dropWhile_cons_of_neg (by decide),
    List.append_nil, hscheme]
  refine (if_pos hfirst).trans ?_
  rw [← hscheme, hlower, String.ofList_toList]

theorem isTrimmed_eq_false (h : 0x20 ≤ c.toNat) (hspace : c ≠ ' ') : isTrimmed c = false := by
  have hne : c.toNat ≠ 0x20 := fun heq => hspace (@Char.toNat_inj c ' ' |>.1 heq)
  exact decide_eq_false (by omega)

/-- Segments without a space at the end are not shortened. -/
theorem isTrimmed_getLast?_joined (h : ∀ segment ∈ segments, IsSegment segment)
    (hspace : ∀ segment ∈ segments.getLast?, segment.getLast? ≠ some ' ') :
    ∀ c ∈ (Text.joined '/' segments).getLast?, isTrimmed c = false := by
  rcases List.eq_nil_or_concat' segments with rfl | ⟨front, last, rfl⟩
  · exact fun c hc => nomatch hc
  · intro c hc
    have hlast : (Text.joined '/' (front ++ [last])).getLast? = ('/' :: last).getLast? := by
      rw [Text.joined, List.flatMap_append, List.getLast?_append_of_ne_nil _ (by simp)]
      simp
    rw [hlast, List.getLast?_cons] at hc
    cases hend : last.getLast? with
    | none =>
      rw [hend] at hc
      obtain rfl : '/' = c := Option.some.inj hc
      decide
    | some d =>
      rw [hend] at hc
      obtain rfl : d = c := Option.some.inj hc
      have hsegment := h last (List.mem_append_right _ List.mem_cons_self)
      refine isTrimmed_eq_false (hsegment.noControl d (List.mem_of_getLast? hend)) ?_
      rintro rfl
      exact hspace last List.getLast?_concat hend

/-- The characters of segments are neither controls nor marks of other parts of an address. -/
theorem of_mem_joined (h : ∀ segment ∈ segments, IsSegment segment) (hc : c ∈ Text.joined '/' segments) :
    0x20 ≤ c.toNat ∧ endsPath c = false := by
  obtain ⟨segment, hs, hc⟩ := List.mem_flatMap.1 hc
  rcases List.mem_cons.1 hc with rfl | hc
  · decide
  · refine ⟨(h segment hs).noControl c hc, ?_⟩
    have hmark := (h segment hs).noMark c hc
    simp only [List.mem_cons, not_or] at hmark
    simp [endsPath, hmark.2.1, hmark.2.2.1]

/-- Nothing of such an address is left out. -/
theorem significant_of_segments {text : String} {path : List Char} (hscheme : IsOrdinaryScheme scheme)
    (htext : text.toList = scheme.toList ++ ':' :: '/' :: '/' :: (host ++ path)) (hne : host ≠ [])
    (hhost : ∀ c ∈ host, IsPlain c) (hpath : ∀ c ∈ path, 0x20 ≤ c.toNat)
    (hlast : ∀ c ∈ path.getLast?, isTrimmed c = false) : significant text = text.toList := by
  obtain ⟨first, letters, hfirst⟩ := List.exists_cons_of_ne_nil (mt String.toList_eq_nil_iff.1 hscheme.ne_empty)
  refine significant_eq_toList (fun c hc => ?_) (fun c hc => ?_) (fun c hc => isIgnored_eq_false ?_)
  · rw [htext, hfirst] at hc
    obtain rfl : first = c := Option.some.inj hc
    have hlower := toNat_of_isLower (hscheme.lower first (hfirst ▸ List.mem_cons_self))
    exact decide_eq_false (by omega)
  · have hend : text.toList.getLast? = (host ++ path).getLast? := by
      rw [htext, List.getLast?_append_of_ne_nil _ (List.cons_ne_nil _ _)]
      exact List.getLast?_append_of_ne_nil [':', '/', '/'] (List.append_ne_nil_of_left_ne_nil hne _)
    rw [hend] at hc
    by_cases hnone : path = []
    · rw [hnone, List.append_nil] at hc
      have hplain := toNat_of_isPlain (hhost c (List.mem_of_getLast? hc))
      exact decide_eq_false (by omega)
    · rw [List.getLast?_append_of_ne_nil _ hnone] at hc
      exact hlast c hc
  · rw [htext] at hc
    simp only [List.mem_append, List.mem_cons] at hc
    rcases hc with hc | rfl | rfl | rfl | hc | hc
    · have hlower := toNat_of_isLower (hscheme.lower c hc)
      omega
    · decide
    · decide
    · decide
    · have hplain := toNat_of_isPlain (hhost c hc)
      omega
    · exact hpath c hc

/-- A plain host behind an ordinary scheme, and segments behind it, are read as they stand, but for the encoding
of the segments. -/
theorem reader_readsSegments : reader.ReadsSegments keptInPaths := by
  intro scheme host segments hscheme hne hhost hsegments hspace
  obtain ⟨text, htext⟩ : ∃ text, scheme ++ "://" ++ host ++ String.ofList (Text.joined '/' segments) = text :=
    ⟨_, rfl⟩
  have hlist : text.toList = scheme.toList ++ ':' :: '/' :: '/' :: (host.toList ++ Text.joined '/' segments) := by
    rw [← htext]
    simp
  have hhost' : host.toList ≠ [] := mt String.toList_eq_nil_iff.1 hne
  have hsignificant : significant text = text.toList :=
    significant_of_segments hscheme hlist hhost' hhost (fun c hc => (of_mem_joined hsegments hc).1)
      (isTrimmed_getLast?_joined hsegments hspace)
  have hspecial := hscheme.ordinary
  simp only [Address.specialSchemes, List.mem_cons, List.not_mem_nil, or_false, not_or] at hspecial
  have hweb : ¬webSchemes.contains scheme := by
    simp [webSchemes, hspecial]
  have hslash : ∀ c ∈ (Text.joined '/' segments).head?, c = '/' := by
    cases segments with
    | nil => exact fun c hc => nomatch hc
    | cons segment rest => exact fun c hc => (Option.some.inj hc).symm
  have hpath : (if Text.joined '/' segments = [] then "" else normalPath (Text.joined '/' segments)) =
      String.ofList (Text.joined '/' (segments.map (percentEncode keptInPaths))) := by
    cases segments with
    | nil => rfl
    | cons segment rest =>
      exact (if_neg (List.cons_ne_nil _ _)).trans (normalPath_joined (List.cons_ne_nil _ _) hsegments)
  rw [htext]
  show read? text = _
  rw [read?, hsignificant, hlist, splitScheme?_of_ordinary hscheme]
  dsimp only [Option.bind_eq_bind, Option.bind_some]
  rw [if_neg hspecial.2.1, if_neg hweb,
    readOpaque?_of_plain hhost hhost' hslash fun c hc => (of_mem_joined hsegments hc).2, hpath, String.ofList_toList]

end StorageTiering.Url
