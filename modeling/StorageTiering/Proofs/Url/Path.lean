import StorageTiering.Proofs.Address
import StorageTiering.Proofs.Text.Fields
import StorageTiering.Proofs.Url.Percent
import StorageTiering.Url
/-!
# What a path of an address can be

* `Url.keptInPaths_of_mem_percentEncode` — an encoded text has nothing left to encode.
* `Url.segmentKind_percentEncode` — encoding makes no step of a name.
* `Url.resolveSegments_of_names` — where there is no step, all segments are left.
* `Url.keptInPaths_of_mem_normalPath`, `Url.normalPath_joined` — the text of a path.
-/

namespace StorageTiering

namespace Url

variable {c : Char} {cs segment : List Char} {names segments : List (List Char)}

/-! ### Percent encoding -/

theorem keptInPaths_hexDigit : ∀ n < 16, keptInPaths (Nat.digitChar n).toUpper := by
  decide

/-- A percent sign and two digits need no encoding. -/
theorem keptInPaths_of_mem_percentByte {b : UInt8} (h : c ∈ percentByte b) : keptInPaths c := by
  have hb := b.toNat_lt
  simp only [percentByte, List.mem_cons, List.not_mem_nil, or_false] at h
  rcases h with rfl | rfl | rfl
  · decide
  · exact keptInPaths_hexDigit _ (by omega)
  · exact keptInPaths_hexDigit _ (by omega)

/-- An encoded text has nothing left to encode. -/
theorem keptInPaths_of_mem_percentEncode (h : c ∈ percentEncode keptInPaths cs) : keptInPaths c := by
  obtain ⟨x, -, hx⟩ := List.mem_flatMap.1 h
  split at hx
  · rename_i hkept
    rwa [List.mem_singleton.1 hx]
  · obtain ⟨b, -, hb⟩ := List.mem_flatMap.1 hx
    exact keptInPaths_of_mem_percentByte hb

/-! ### Steps and names -/

/-- The first byte of a character is that of a dot only if it is a dot. -/
theorem utf8EncodeChar_eq_cons (hc : c ≠ '.') :
    ∃ b rest, String.utf8EncodeChar c = b :: rest ∧ b.toNat ≠ 0x2E := by
  have hne : c.toNat ≠ 0x2E := fun h => hc (Char.toNat_inj.1 h)
  have hval : c.val.toNat ≠ 0x2E := hne
  fun_cases String.utf8EncodeChar c
  all_goals
    refine ⟨_, _, rfl, ?_⟩
    rw [UInt8.toNat_ofNat']
    omega

/-- Two digits behind a percent sign stand for a dot only if the byte is that of a dot. -/
theorem percentByte_of_dot : ∀ high < 16, ∀ low < 16, (Nat.digitChar high).toUpper = '2' →
    (Nat.digitChar low).toUpper = 'e' ∨ (Nat.digitChar low).toUpper = 'E' → high * 16 + low = 0x2E := by
  decide

theorem dotCount?_percentByte {b : UInt8} (hb : b.toNat ≠ 0x2E) (cs : List Char) :
    dotCount? (percentByte b ++ cs) = none := by
  have hlt := b.toNat_lt
  simp only [percentByte, List.cons_append, List.nil_append]
  by_cases hhigh : (Nat.digitChar (b.toNat / 16)).toUpper = '2'
  · rw [hhigh, dotCount?, if_neg]
    intro hlow
    have := percentByte_of_dot (b.toNat / 16) (by omega) (b.toNat % 16) (by omega) hhigh hlow
    omega
  · simp [dotCount?, hhigh]

theorem dotCount?_cons_ne (hdot : c ≠ '.') (hp : c ≠ '%') (cs : List Char) : dotCount? (c :: cs) = none := by
  simp [dotCount?, hdot, hp]

/-- Only dots are encoded as dots. -/
theorem eq_replicate_of_dotCount? {n : Nat} (hp : '%' ∉ segment)
    (h : dotCount? (percentEncode keptInPaths segment) = some n) : segment = List.replicate n '.' := by
  induction segment generalizing n with
  | nil =>
    obtain rfl : 0 = n := Option.some.inj h
    rfl
  | cons c cs ih =>
    obtain ⟨hc, hcs⟩ := not_or.1 (mt List.mem_cons.2 hp)
    rw [percentEncode_cons] at h
    by_cases hdot : c = '.'
    · subst hdot
      have hkept : keptInPaths '.' := by decide
      rw [if_pos hkept, List.singleton_append, dotCount?, Option.map_eq_some_iff] at h
      obtain ⟨m, hm, rfl⟩ := h
      rw [ih hcs hm, List.replicate_succ]
    · split at h
      · rw [List.singleton_append, dotCount?_cons_ne hdot (Ne.symm hc)] at h
        cases h
      · obtain ⟨b, rest, hbytes, hb⟩ := utf8EncodeChar_eq_cons hdot
        rw [hbytes, List.flatMap_cons, List.append_assoc, dotCount?_percentByte hb] at h
        cases h

/-- Encoding makes no step of a name. -/
theorem segmentKind_percentEncode (hp : '%' ∉ segment) (hhere : segment ≠ ['.']) (hup : segment ≠ ['.', '.']) :
    segmentKind (percentEncode keptInPaths segment) = .name := by
  rw [segmentKind]
  split
  · rename_i hone
    exact absurd (eq_replicate_of_dotCount? hp hone) hhere
  · rename_i htwo
    exact absurd (eq_replicate_of_dotCount? hp htwo) hup
  · rfl

/-- Where there is no step, all segments are left. -/
theorem resolveSegments_of_names (h : ∀ segment ∈ segments, segmentKind segment = .name) :
    resolveSegments names segments = names.reverse ++ segments := by
  induction segments generalizing names with
  | nil => rw [resolveSegments, List.append_nil]
  | cons segment rest ih =>
    obtain ⟨hsegment, hrest⟩ := List.forall_mem_cons.1 h
    cases rest with
    | nil => simp only [resolveSegments, hsegment, List.reverse_cons]
    | cons next rest =>
      rw [resolveSegments, hsegment]
      · simp only [ih hrest, List.reverse_cons, List.append_assoc, List.singleton_append]
      · exact List.cons_ne_nil _ _

theorem mem_of_mem_parent (h : segment ∈ parent names) : segment ∈ names := by
  cases names with
  | nil => exact h
  | cons name above =>
    rw [parent] at h
    split at h
    · exact h
    · exact List.mem_cons_of_mem _ h

/-- What is left of segments are some of them, and the empty name behind a step at the end. -/
theorem mem_resolveSegments (h : segment ∈ resolveSegments names segments) :
    segment ∈ names ∨ segment ∈ segments ∨ segment = [] := by
  fun_induction resolveSegments names segments with
  | case1 names => exact .inl (List.mem_reverse.1 h)
  | case2 names last hkind =>
    rcases List.mem_cons.1 (List.mem_reverse.1 h) with rfl | h
    · exact .inr (.inr rfl)
    · exact .inl h
  | case3 names last hkind =>
    rcases List.mem_cons.1 (List.mem_reverse.1 h) with rfl | h
    · exact .inr (.inr rfl)
    · exact .inl (mem_of_mem_parent h)
  | case4 names last hkind =>
    rcases List.mem_cons.1 (List.mem_reverse.1 h) with rfl | h
    · exact .inr (.inl List.mem_cons_self)
    · exact .inl h
  | case5 names first rest hrest hkind ih =>
    exact (ih h).imp_right (Or.imp_left (List.mem_cons_of_mem _))
  | case6 names first rest hrest hkind ih =>
    exact (ih h).imp mem_of_mem_parent (Or.imp_left (List.mem_cons_of_mem _))
  | case7 names first rest hrest hkind ih =>
    rcases ih h with hnames | hsegments | hempty
    · exact (List.mem_cons.1 hnames).elim (fun he => .inr (.inl (he ▸ List.mem_cons_self))) .inl
    · exact .inr (.inl (List.mem_cons_of_mem _ hsegments))
    · exact .inr (.inr hempty)

/-! ### The text of a path -/

theorem toList_normalPath (path : List Char) :
    (normalPath path).toList = Text.joined '/' (pathNames path) :=
  String.toList_ofList

/-- The path of an address has nothing left to encode. -/
theorem keptInPaths_of_mem_normalPath {path : List Char} (h : c ∈ (normalPath path).toList) : keptInPaths c := by
  rw [toList_normalPath] at h
  obtain ⟨name, hname, hc⟩ := List.mem_flatMap.1 h
  rcases List.mem_cons.1 hc with rfl | hc
  · decide
  · rcases mem_resolveSegments hname with hname | hname | rfl
    · cases hname
    · obtain ⟨segment, -, rfl⟩ := List.mem_map.1 hname
      exact keptInPaths_of_mem_percentEncode hc
    · cases hc

/-- Segments in which there is nothing to interpret are encoded, and stay as they are otherwise. -/
theorem normalPath_joined (hne : segments ≠ []) (h : ∀ segment ∈ segments, Address.IsSegment segment) :
    normalPath (Text.joined '/' segments) =
      String.ofList (Text.joined '/' (segments.map (percentEncode keptInPaths))) := by
  have hmark : ∀ segment ∈ segments, '/' ∉ segment ∧ '%' ∉ segment := fun segment hs =>
    ⟨fun hmem => (h segment hs).noMark '/' hmem (by decide), fun hmem => (h segment hs).noMark '%' hmem (by decide)⟩
  have hnames : ∀ segment ∈ segments.map (percentEncode keptInPaths), segmentKind segment = .name :=
    List.forall_mem_map.2 fun segment hs =>
      segmentKind_percentEncode (hmark segment hs).2 (h segment hs).noStep.1 (h segment hs).noStep.2
  obtain ⟨cs, hjoined, hfields⟩ := Text.fields_joined hne fun segment hs => (hmark segment hs).1
  rw [normalPath, hjoined, pathNames, hfields, resolveSegments_of_names hnames]
  rfl

end Url

end StorageTiering
