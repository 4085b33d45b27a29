import StorageTiering.NamespacePaths
import StorageTiering.Proofs.Address
/-!
# What a path names

* `Target.isAbsolute_of_placed`, `Target.encoded_of_placed` — the path of an address starts at the root, and
  everything in it is encoded that has to be.
* `NamespacePaths.namedIn?` — the path that a path of a command line names in a namespace.
* `NamespacePaths.resolvePath_eq_ok_iff` — a path is resolved to the namespace in which it names one.
* `NamespacePaths.resolveAlone` — a path on its own; `NamespacePaths.resolvePaths_singleton`.
-/

namespace StorageTiering

namespace Target

variable {reader : AddressReader} {keeps : Char → Bool} {raw scheme host path : String}

/-- An absolute path is no address. -/
theorem ofPath_of_isAbsolute (hr : reader.NeedsScheme) (h : NamespacePaths.isAbsolute raw) :
    ofPath reader raw = .plain := by
  rw [ofPath, hr raw '/' (beq_iff_eq.1 h) (by decide) (by decide)]

/-- A place is an address with a host, whose path is the root if it has none. -/
theorem exists_address_of_placed (h : ofPath reader raw = .placed scheme host path) :
    ∃ address, reader.read? raw = some address ∧ address.host = some host ∧
      path = if address.path.isEmpty then "/" else address.path := by
  rw [ofPath] at h
  split at h
  · cases h
  · rename_i address hread
    split at h
    · cases h
    · rename_i host' hhost
      cases h
      exact ⟨address, hread, (Option.filter_eq_some_iff.1 hhost).1, rfl⟩

/-- The path of a place starts at the root. -/
theorem isAbsolute_of_placed (hr : reader.HasSegments) (h : ofPath reader raw = .placed scheme host path) :
    NamespacePaths.isAbsolute path := by
  obtain ⟨address, hread, hhost, rfl⟩ := exists_address_of_placed h
  obtain ⟨segments, hsegments⟩ := hr raw address host hread hhost
  split
  · decide
  · rename_i hne
    rw [NamespacePaths.isAbsolute, hsegments]
    cases segments with
    | nil => exact absurd (String.isEmpty_iff.2 (String.toList_eq_nil_iff.1 hsegments)) hne
    | cons segment rest => rfl

/-- Everything in the path of a place is encoded that has to be. -/
theorem encoded_of_placed (hr : reader.Encodes keeps) (h : ofPath reader raw = .placed scheme host path) :
    ∀ c ∈ path.toList, c = '/' ∨ keeps c := by
  obtain ⟨address, hread, hhost, rfl⟩ := exists_address_of_placed h
  split
  · exact fun c hc => .inl (List.mem_singleton.1 hc)
  · exact hr raw address host hread hhost

end Target

namespace NamespacePaths

variable {reader : AddressReader} {known : List NamespaceId} {raw path : String} {id : NamespaceId}
  {target : NamespaceId × String}

/-- The path that a path of a command line names in a namespace, if it does: an absolute path names itself
where there is no other namespace, and an address names its path where its host is the namespace. -/
def namedIn? (reader : AddressReader) (known : List NamespaceId) (id : NamespaceId) (raw : String) : Option String :=
  match Target.ofPath reader raw with
  | .plain => if known = [id] ∧ isAbsolute raw then some raw else none
  | .unplaced => none
  | .placed scheme host path => if scheme = Target.namespaceScheme ∧ host = id ∧ id ∈ known then some path else none

theorem mem_of_namedIn? (h : namedIn? reader known id raw = some path) : id ∈ known := by
  rw [namedIn?] at h
  split at h
  · split at h
    · rename_i hplain
      rw [hplain.1]
      exact List.mem_singleton_self id
    · cases h
  · cases h
  · split at h
    · rename_i hplaced
      exact hplaced.2.2
    · cases h

theorem isAbsolute_of_namedIn? (hr : reader.HasSegments) (h : namedIn? reader known id raw = some path) :
    isAbsolute path := by
  rw [namedIn?] at h
  split at h
  · split at h
    · rename_i hplain
      exact Option.some.inj h ▸ hplain.2
    · cases h
  · cases h
  · rename_i hread
    split at h
    · exact Option.some.inj h ▸ Target.isAbsolute_of_placed hr hread
    · cases h

/-- A path is resolved to the namespace in which it names one. -/
theorem resolvePath_eq_ok_iff :
    resolvePath reader known raw = .ok (id, path) ↔ namedIn? reader known id raw = some path := by
  unfold resolvePath namedIn?
  cases Target.ofPath reader raw with
  | plain =>
    dsimp only
    split
    · rename_i only
      by_cases habsolute : isAbsolute raw <;> simp [habsolute]
    · rename_i hmany
      rw [if_neg fun h => hmany id h.1]
      exact ⟨nofun, nofun⟩
  | unplaced => exact ⟨nofun, nofun⟩
  | placed scheme host p =>
    dsimp only
    by_cases hscheme : scheme = Target.namespaceScheme
    · by_cases hhost : host = id
      · subst hhost
        by_cases hmem : host ∈ known <;> simp [hscheme, hmem]
      · by_cases hmem : host ∈ known <;> simp [hscheme, hhost, hmem]
    · simp [hscheme]

/-- A path of a command line on its own. -/
def resolveAlone (reader : AddressReader) (known : List NamespaceId) (raw : String) :
    Except PathError (NamespaceId × String) :=
  if known = [] then .error .noNamespaces else resolvePath reader known raw

theorem resolveAlone_eq_ok_iff :
    resolveAlone reader known raw = .ok (id, path) ↔ namedIn? reader known id raw = some path := by
  rw [resolveAlone]
  split
  · rename_i hnone
    refine ⟨nofun, fun h => ?_⟩
    exact absurd (mem_of_namedIn? h) (hnone ▸ List.not_mem_nil)
  · exact resolvePath_eq_ok_iff

/-- The paths of targets by namespace. -/
def gather (targets : List (NamespaceId × String)) : NamespacePaths := targets.foldl addPath []

/-- Paths are resolved one after another, and then gathered. -/
theorem resolvePaths_eq_mapM {paths : List String} (h : paths ≠ []) :
    resolvePaths known paths reader = (paths.mapM (resolveAlone reader known)).map gather := by
  have hsome : ¬paths.isEmpty := fun hnone => h (List.isEmpty_iff.1 hnone)
  rw [resolvePaths, if_neg hsome]
  cases known with
  | nil =>
    obtain ⟨raw, rest, rfl⟩ := List.exists_cons_of_ne_nil h
    rw [List.mapM_cons]
    rfl
  | cons first others =>
    have halone : resolveAlone reader (first :: others) = resolvePath reader (first :: others) :=
      funext fun raw => if_neg (List.cons_ne_nil _ _)
    rw [halone]
    cases paths.mapM (resolvePath reader (first :: others)) <;> rfl

/-- A path on its own. -/
theorem resolvePaths_singleton :
    resolvePaths known [raw] reader =
      (resolveAlone reader known raw).map fun target => [(target.1, some [target.2])] := by
  rw [resolvePaths_eq_mapM (List.cons_ne_nil _ _), List.mapM_cons, List.mapM_nil]
  cases resolveAlone reader known raw <;> rfl

end NamespacePaths

end StorageTiering
