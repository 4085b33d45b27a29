import StorageTiering.Federation
import StorageTiering.Proofs.Distinct
import StorageTiering.Proofs.NamespacePaths.Named
import StorageTiering.Proofs.SortedTable
import StorageTiering.Proofs.Url.Read
import Mathlib.Data.List.Forall2
import Mathlib.Data.List.Induction
/-!
# The paths of a command line, gathered by namespace

Paths are resolved one after another until one of them fails. If none does, every namespace that one of them
names has its paths, each once and in the order in which they first appear.

* `NamespacePaths.mapM_cases` — a list is processed if every member is, and otherwise fails as the first member
  that does.
* `NamespacePaths.find?_gather` — the paths that are gathered for a namespace.
* `NamespacePaths.merge`, `NamespacePaths.merge_gather` — two tables in one.
* `NamespacePaths.Gathers`, `NamespacePaths.resolvePaths_gathers` — what a command line resolves to.
-/

namespace StorageTiering.NamespacePaths

variable {reader : AddressReader} {known : List NamespaceId} {paths : List String} {id : NamespaceId}
  {t a b : NamespacePaths}

/-! ### One member after another -/

section Members

variable {α β ε : Type} {f : α → Except ε β}

/-- A list fails as the first of its members that fails. -/
theorem mapM_append_of_error {front back : List α} {x : α} {e : ε} (hfront : ∀ y ∈ front, ∃ v, f y = .ok v)
    (hx : f x = .error e) : (front ++ x :: back).mapM f = .error e := by
  induction front with
  | nil =>
    rw [List.nil_append, List.mapM_cons, hx]
    rfl
  | cons y front ih =>
    obtain ⟨⟨v, hv⟩, hfront⟩ := List.forall_mem_cons.1 hfront
    rw [List.cons_append, List.mapM_cons, hv, ih hfront]
    rfl

/-- A list is processed if every member is, and otherwise fails as the first member that does. -/
theorem mapM_cases (f : α → Except ε β) (l : List α) :
    (∃ r, l.mapM f = .ok r ∧ List.Forall₂ (fun x v => f x = .ok v) l r ∧ ∀ x ∈ l, ∃ v, f x = .ok v) ∨
    ∃ front x back e, l = front ++ x :: back ∧ (∀ y ∈ front, ∃ v, f y = .ok v) ∧ f x = .error e := by
  induction l with
  | nil => exact .inl ⟨[], rfl, .nil, fun _ hx => (nomatch hx)⟩
  | cons x l ih =>
    cases hx : f x with
    | error e => exact .inr ⟨[], x, l, e, rfl, fun _ hy => (nomatch hy), hx⟩
    | ok v =>
      rcases ih with ⟨r, hr, hpairs, hall⟩ | ⟨front, y, back, e, rfl, hfront, hy⟩
      · refine .inl ⟨v :: r, ?_, .cons hx hpairs, List.forall_mem_cons.2 ⟨⟨v, hx⟩, hall⟩⟩
        rw [List.mapM_cons, hx, hr]
        rfl
      · exact .inr ⟨x :: front, y, back, e, rfl, List.forall_mem_cons.2 ⟨⟨v, hx⟩, hfront⟩, hy⟩

end Members

/-! ### The gathered paths -/

/-- The paths among targets that are in a namespace. -/
def targetsIn (id : NamespaceId) (targets : List (NamespaceId × String)) : List String :=
  targets.filterMap fun target => if target.1 = id then some target.2 else none

theorem ascending_addPath (h : t.Ascending) (target : NamespaceId × String) : (t.addPath target).Ascending := by
  rw [addPath]
  split
  · split
    · exact h
    · exact SortedTable.Ascending.put h
  · exact SortedTable.Ascending.put h

theorem ascending_gather (targets : List (NamespaceId × String)) : (gather targets).Ascending := by
  induction targets using List.reverseRecOn with
  | nil => exact SortedTable.ascending_nil
  | append_singleton targets target ih =>
    rw [gather, List.foldl_append]
    exact ascending_addPath ih target

/-- Distinct paths as the value of a namespace that has any. -/
def valueOf (paths : List String) : Option (Option (List String)) :=
  if paths = [] then none else some (some paths.eraseDups)

theorem targetsIn_append (id : NamespaceId) (first second : List (NamespaceId × String)) :
    targetsIn id (first ++ second) = targetsIn id first ++ targetsIn id second :=
  List.filterMap_append

theorem valueOf_of_ne_nil (h : paths ≠ []) : valueOf paths = some (some paths.eraseDups) := if_neg h

/-- One path more in a namespace. -/
theorem find?_addPath (h : t.find? id = valueOf paths) (path : String) :
    (t.addPath (id, path)).find? id = valueOf (paths ++ [path]) := by
  rw [valueOf_of_ne_nil (List.append_ne_nil_of_right_ne_nil _ (List.cons_ne_nil _ _)),
    Distinct.eraseDups_concat, addPath, h]
  by_cases hnone : paths = []
  · subst hnone
    exact SortedTable.find?_put.trans (if_pos rfl)
  · rw [valueOf_of_ne_nil hnone]
    dsimp only
    by_cases hmem : path ∈ paths
    · rw [if_pos (List.mem_eraseDups.2 hmem), if_pos (List.contains_iff_mem.2 hmem), h, valueOf_of_ne_nil hnone]
    · rw [if_neg (mt List.mem_eraseDups.1 hmem), if_neg (mt List.contains_iff_mem.1 hmem)]
      exact SortedTable.find?_put.trans (if_pos rfl)

theorem find?_addPath_of_ne {target : NamespaceId × String} (h : target.1 ≠ id) :
    (t.addPath target).find? id = t.find? id := by
  have hput : ∀ value, (t.put target.1 value).find? id = t.find? id := fun value =>
    SortedTable.find?_put.trans (if_neg (Ne.symm h))
  rw [addPath]
  split
  · split
    · rfl
    · exact hput _
  · exact hput _

/-- The paths that are gathered for a namespace. -/
theorem find?_gather (targets : List (NamespaceId × String)) (id : NamespaceId) :
    (gather targets).find? id = valueOf (targetsIn id targets) := by
  induction targets using List.reverseRecOn with
  | nil => rfl
  | append_singleton targets target ih =>
    rw [gather, List.foldl_append, targetsIn_append]
    by_cases hid : target.1 = id
    · subst hid
      have hone : targetsIn target.1 [target] = [target.2] := by simp [targetsIn]
      rw [hone]
      exact find?_addPath ih target.2
    · have hnone : targetsIn id [target] = [] := by simp [targetsIn, hid]
      rw [hnone, List.append_nil, ← ih]
      exact find?_addPath_of_ne hid

/-! ### Two tables in one -/

/-- The value of a namespace in two tables: the paths of both, each once. A namespace as a whole stays whole. -/
def mergeValue : Option (Option (List String)) → Option (List String) → Option (List String)
  | none, paths => paths
  | some (some held), some paths => some (held ++ paths.filter fun path => !held.contains path)
  | some _, _ => none

/-- Two tables in one. -/
def merge (a b : NamespacePaths) : NamespacePaths :=
  b.foldl (fun t entry => t.put entry.1 (mergeValue (a.find? entry.1) entry.2)) a

theorem find?_merge (hb : b.Ascending) (id : NamespaceId) :
    (merge a b).find? id = match b.find? id with
      | none => a.find? id
      | some value => some (mergeValue (a.find? id) value) := by
  -- the table so far is arbitrary, since each entry of the second one changes it
  have hfold : ∀ t : NamespacePaths,
      (b.foldl (fun t entry => t.put entry.1 (mergeValue (a.find? entry.1) entry.2)) t).find? id =
        match b.find? id with
        | none => t.find? id
        | some value => some (mergeValue (a.find? id) value) := by
    induction hb with
    | nil => exact fun t => rfl
    | @cons entry rest hentry _ ih =>
      intro t
      rw [List.foldl_cons, ih, SortedTable.find?_cons]
      by_cases hid : entry.1 = id
      · have hrest : SortedTable.find? rest id = none :=
          SortedTable.find?_eq_none_iff.2 fun e he heq =>
            String.lt_irrefl id (by simpa [hid, heq] using hentry e he)
        rw [hrest, if_pos hid]
        dsimp only
        rw [SortedTable.find?_put, if_pos hid.symm, hid]
      · rw [if_neg hid, SortedTable.find?_put, if_neg (Ne.symm hid)]
  exact hfold a

theorem ascending_merge (ha : a.Ascending) (b : NamespacePaths) : (merge a b).Ascending := by
  rw [merge]
  induction b using List.reverseRecOn with
  | nil => exact ha
  | append_singleton b entry ih =>
    rw [List.foldl_append]
    exact SortedTable.Ascending.put ih

/-- What is gathered from two lists one after the other is what is gathered from each. -/
theorem merge_gather (first second : List (NamespaceId × String)) :
    merge (gather first) (gather second) = gather (first ++ second) := by
  refine (ascending_merge (ascending_gather first) _).ext (ascending_gather _) fun id => ?_
  rw [find?_merge (ascending_gather second), find?_gather, find?_gather, find?_gather, targetsIn_append]
  by_cases hsecond : targetsIn id second = []
  · rw [hsecond, List.append_nil]
    rfl
  · rw [valueOf_of_ne_nil hsecond, valueOf_of_ne_nil (List.append_ne_nil_of_right_ne_nil _ hsecond)]
    by_cases hfirst : targetsIn id first = []
    · rw [hfirst]
      rfl
    · rw [valueOf_of_ne_nil hfirst, Distinct.eraseDups_append]
      rfl

/-! ### What a command line resolves to -/

/-- What paths of a command line amount to, each of which names a path in one of the known namespaces. -/
structure Gathers (reader : AddressReader) (known : List NamespaceId) (paths : List String) (t : NamespacePaths) :
    Prop where
  ascending : t.Ascending
  mem_keys_iff : ∀ id, id ∈ t.keys ↔ id ∈ known ∧ ∃ raw ∈ paths, ∃ path, namedIn? reader known id raw = some path
  /-- The paths of a namespace are those that are named in it, in the order of first appearance. -/
  value : ∀ id value, (id, value) ∈ t → ∃ list, value = some list ∧ list ≠ [] ∧ list.Nodup ∧
    (∀ path ∈ list, isAbsolute path) ∧ list = (paths.filterMap (namedIn? reader known id)).eraseDups

/-- The targets of paths in a namespace are the paths that these name in it. -/
theorem targetsIn_eq {targets : List (NamespaceId × String)} (id : NamespaceId)
    (h : List.Forall₂ (fun raw target => resolveAlone reader known raw = .ok target) paths targets) :
    targetsIn id targets = paths.filterMap (namedIn? reader known id) := by
  induction h with
  | nil => rfl
  | @cons raw target rest targets hraw _ ih =>
    have hnamed : namedIn? reader known id raw = if target.1 = id then some target.2 else none := by
      split
      · rename_i hid
        exact resolveAlone_eq_ok_iff.1 (hid ▸ hraw)
      · rename_i hid
        refine Option.eq_none_iff_forall_ne_some.2 fun path hpath => hid ?_
        rw [← resolveAlone_eq_ok_iff, hraw] at hpath
        exact congrArg Prod.fst (Except.ok.inj hpath)
    rw [List.filterMap_cons, hnamed, ← ih, targetsIn, List.filterMap_cons]
    rfl

theorem gathers_of_forall₂ (hr : reader.HasSegments) {targets : List (NamespaceId × String)}
    (h : List.Forall₂ (fun raw target => resolveAlone reader known raw = .ok target) paths targets) :
    Gathers reader known paths (gather targets) := by
  have hentry : ∀ id value, (id, value) ∈ gather targets ↔ paths.filterMap (namedIn? reader known id) ≠ [] ∧
      value = some (paths.filterMap (namedIn? reader known id)).eraseDups := by
    intro id value
    rw [← (ascending_gather targets).find?_eq_some_iff, find?_gather, targetsIn_eq id h, valueOf]
    split
    · rename_i hnone
      exact ⟨nofun, fun hsome => absurd hnone hsome.1⟩
    · rename_i hsome
      exact ⟨fun heq => ⟨hsome, (Option.some.inj heq).symm⟩, fun heq => congrArg some heq.2.symm⟩
  refine ⟨ascending_gather targets, fun id => ?_, fun id value hmem => ?_⟩
  · have hkey : id ∈ (gather targets).keys ↔ ∃ value, (id, value) ∈ gather targets := by
      simp [SortedTable.keys]
    rw [hkey]
    constructor
    · rintro ⟨value, hmem⟩
      obtain ⟨path, hpath⟩ := List.exists_mem_of_ne_nil _ ((hentry id value).1 hmem).1
      obtain ⟨raw, hraw, hnamed⟩ := List.mem_filterMap.1 hpath
      exact ⟨mem_of_namedIn? hnamed, raw, hraw, path, hnamed⟩
    · rintro ⟨-, raw, hraw, path, hnamed⟩
      exact ⟨_, (hentry id _).2 ⟨List.ne_nil_of_mem (List.mem_filterMap.2 ⟨raw, hraw, hnamed⟩), rfl⟩⟩
  · obtain ⟨hsome, hvalue⟩ := (hentry id value).1 hmem
    refine ⟨_, hvalue, mt Distinct.eraseDups_eq_nil_iff.1 hsome, Distinct.nodup_eraseDups _, fun path hpath => ?_, rfl⟩
    obtain ⟨raw, -, hnamed⟩ := List.mem_filterMap.1 (List.mem_eraseDups.1 hpath)
    exact isAbsolute_of_namedIn? hr hnamed

theorem Gathers.relativePath?_eq_none (h : Gathers reader known paths t) :
    ∀ member ∈ t, Federation.relativePath? member.2 = none := by
  rintro ⟨id, value⟩ hmem
  obtain ⟨list, rfl, -, -, habsolute, -⟩ := h.value id value hmem
  exact List.find?_eq_none.2 fun path hpath => by simp [habsolute path hpath]

theorem head?_notAbsolute (path : String) : (PathError.notAbsolute path).message.toList.head? = some 'T' := by
  change ("The path " ++ path ++ " is not absolute").toList.head? = some 'T'
  simp

theorem head?_settingError (e : SettingError) : e.message.toList.head? = some 'I' := by
  change ("Invalid value for " ++ e.name ++ ": " ++ e.value).toList.head? = some 'I'
  simp

/-- A federation does not refuse absolute paths as not absolute. -/
theorem fault?_ne_notAbsolute (h : ∀ member ∈ t, Federation.relativePath? member.2 = none) (settings : Settings)
    (connected : NamespaceId → Bool) (path : String) :
    Federation.fault? settings connected t ≠ some (PathError.notAbsolute path).message := by
  -- each of the other texts has another first letter
  have hother : ∀ text : String, text.toList.head? ≠ some 'T' → some text ≠ some (PathError.notAbsolute path).message :=
    fun text htext heq => htext (Option.some.inj heq ▸ head?_notAbsolute path)
  rw [Federation.fault?]
  split
  · exact hother _ (by simp [head?_settingError])
  · split
    · exact hother _ (by simp)
    · intro heq
      obtain ⟨member, hmember, hfault⟩ := List.exists_of_findSome?_eq_some heq
      rw [Federation.memberFault?, h member hmember] at hfault
      split at hfault
      · exact hother _ (by simp) hfault
      · dsimp only at hfault
        split at hfault
        · cases hfault
        · exact hother _ (by simp) hfault

theorem exists_resolvePaths_singleton {raw : String} :
    (∃ t, resolvePaths known [raw] reader = .ok t) ↔ ∃ target, resolveAlone reader known raw = .ok target := by
  rw [resolvePaths_singleton]
  cases resolveAlone reader known raw <;> simp [Except.map]

theorem resolvePaths_singleton_eq_error_iff {raw : String} {e : PathError} :
    resolvePaths known [raw] reader = .error e ↔ resolveAlone reader known raw = .error e := by
  rw [resolvePaths_singleton]
  cases resolveAlone reader known raw <;> simp [Except.map]

/-- Paths fail as the first of them that does. -/
theorem resolvePaths_of_error {front back : List String} {raw : String} {e : PathError}
    (hfront : ∀ r ∈ front, ∃ t, resolvePaths known [r] reader = .ok t)
    (hraw : resolvePaths known [raw] reader = .error e) :
    resolvePaths known (front ++ raw :: back) reader = .error e := by
  rw [resolvePaths_eq_mapM (by simp),
    mapM_append_of_error (fun r hr => exists_resolvePaths_singleton.1 (hfront r hr))
      (resolvePaths_singleton_eq_error_iff.1 hraw)]
  rfl

/-- Either each path is resolved on its own, and all of them are gathered, or there is a first that is not. -/
theorem resolvePaths_cases (hr : reader.HasSegments) (known : List NamespaceId) (h : paths ≠ []) :
    (∃ t, resolvePaths known paths reader = .ok t ∧ Gathers reader known paths t ∧
      ∀ raw ∈ paths, ∃ t, resolvePaths known [raw] reader = .ok t) ∨
    ∃ front raw back e, paths = front ++ raw :: back ∧ (∀ r ∈ front, ∃ t, resolvePaths known [r] reader = .ok t) ∧
      resolvePaths known [raw] reader = .error e ∧ resolvePaths known paths reader = .error e := by
  rcases mapM_cases (resolveAlone reader known) paths with
    ⟨targets, htargets, hpairs, hall⟩ | ⟨front, raw, back, e, hsplit, hfront, hraw⟩
  · refine .inl ⟨gather targets, ?_, gathers_of_forall₂ hr hpairs, fun raw hraw =>
      exists_resolvePaths_singleton.2 (hall raw hraw)⟩
    rw [resolvePaths_eq_mapM h, htargets]
    rfl
  · have hfront' : ∀ r ∈ front, ∃ t, resolvePaths known [r] reader = .ok t := fun r hr =>
      exists_resolvePaths_singleton.2 (hfront r hr)
    have hraw' := resolvePaths_singleton_eq_error_iff.2 hraw
    exact .inr ⟨front, raw, back, e, hsplit, hfront', hraw', hsplit ▸ resolvePaths_of_error hfront' hraw'⟩

/-- Paths behind others add what is new. -/
theorem resolvePaths_append (known : List NamespaceId) {more : List String} (h : paths ≠ []) (hmore : more ≠ []) :
    resolvePaths known (paths ++ more) reader =
      do return merge (← resolvePaths known paths reader) (← resolvePaths known more reader) := by
  rw [resolvePaths_eq_mapM h, resolvePaths_eq_mapM hmore,
    resolvePaths_eq_mapM (List.append_ne_nil_of_right_ne_nil _ hmore), List.mapM_append]
  cases paths.mapM (resolveAlone reader known) with
  | error e => rfl
  | ok first =>
    cases more.mapM (resolveAlone reader known) with
    | error e => rfl
    | ok second => exact congrArg Except.ok (merge_gather first second).symm

/-- Paths are resolved if each of them is on its own, and otherwise fail as the first that does not. Every
namespace that is named has its paths, each once and in the order of first appearance, and all of them
absolute, so that a federation does not refuse them. Paths behind others add what is new. Of the reader of
addresses it only has to be known that the path of an address with a host is made of segments. -/
theorem resolvePaths_gathers (hr : reader.HasSegments) (known : List NamespaceId) (h : paths ≠ []) :
    ((∃ t, resolvePaths known paths reader = .ok t) ↔ ∀ raw ∈ paths, ∃ t, resolvePaths known [raw] reader = .ok t) ∧
    (∀ e, resolvePaths known paths reader = .error e ↔ ∃ front raw back, paths = front ++ raw :: back ∧
      (∀ r ∈ front, ∃ t, resolvePaths known [r] reader = .ok t) ∧ resolvePaths known [raw] reader = .error e) ∧
    (∀ t, resolvePaths known paths reader = .ok t → Gathers reader known paths t ∧ ∀ settings connected path,
      Federation.fault? settings connected t ≠ some (PathError.notAbsolute path).message) ∧
    ∀ more, more ≠ [] → resolvePaths known (paths ++ more) reader =
      do return merge (← resolvePaths known paths reader) (← resolvePaths known more reader) := by
  have hfails : ∀ e, (∃ front raw back, paths = front ++ raw :: back ∧
      (∀ r ∈ front, ∃ t, resolvePaths known [r] reader = .ok t) ∧ resolvePaths known [raw] reader = .error e) →
      resolvePaths known paths reader = .error e := by
    rintro e ⟨front, raw, back, rfl, hfront, hraw⟩
    exact resolvePaths_of_error hfront hraw
  rcases resolvePaths_cases hr known h with
    ⟨t, ht, hgathers, hall⟩ | ⟨front, raw, back, e, hsplit, hfront, hraw, herror⟩
  · refine ⟨⟨fun _ => hall, fun _ => ⟨t, ht⟩⟩, fun e => ⟨fun he => ?_, hfails e⟩, fun t' ht' => ?_,
      fun more => resolvePaths_append known h⟩
    · exact nomatch ht.symm.trans he
    · obtain rfl := Except.ok.inj (ht.symm.trans ht')
      exact ⟨hgathers, fault?_ne_notAbsolute hgathers.relativePath?_eq_none⟩
  · refine ⟨⟨?_, fun hall => ?_⟩, fun e' => ⟨fun he' => ?_, hfails e'⟩, fun t ht => ?_,
      fun more => resolvePaths_append known h⟩
    · rintro ⟨t, ht⟩
      exact nomatch ht.symm.trans herror
    · obtain ⟨t, ht⟩ := hall raw (hsplit ▸ List.mem_append_right _ List.mem_cons_self)
      exact nomatch ht.symm.trans hraw
    · obtain rfl := Except.error.inj (herror.symm.trans he')
      exact ⟨front, raw, back, hsplit, hfront, hraw⟩
    · exact nomatch ht.symm.trans herror

/-- Three paths name the last namespace, two of them the same path in it; no path names the first one. -/
theorem resolvePaths_gathers_federation :
    let known := ["ns1", "ns2", "ns3"]
    let paths := ["ns://ns3/b", "ns://ns2", "ns://ns3/./a?b", "ns://ns3/b"]
    let t : NamespacePaths := [("ns2", some ["/"]), ("ns3", some ["/b", "/a"])]
    Url.reader.HasSegments ∧ paths ≠ [] ∧ resolvePaths known paths Url.reader = .ok t ∧
      Gathers Url.reader known paths t ∧ (∀ raw ∈ paths, ∃ t, resolvePaths known [raw] Url.reader = .ok t) ∧
      resolvePaths known (paths ++ ["/c"]) Url.reader = .error (.missingAuthority "/c") := by
  intro known paths t
  have hne : paths ≠ [] := List.cons_ne_nil _ _
  have ht : resolvePaths known paths Url.reader = .ok t := rfl
  have hc : resolvePaths known ["/c"] Url.reader = .error (.missingAuthority "/c") := rfl
  obtain ⟨hresolved, -, hgathers, happend⟩ := resolvePaths_gathers Url.reader_hasSegments known hne
  refine ⟨Url.reader_hasSegments, hne, ht, (hgathers t ht).1, hresolved.1 ⟨t, ht⟩, ?_⟩
  rw [happend ["/c"] (List.cons_ne_nil _ _), ht, hc]
  rfl

end StorageTiering.NamespacePaths
