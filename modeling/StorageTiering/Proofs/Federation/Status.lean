import StorageTiering.Federation
import Mathlib.Data.List.Basic
/-!
# What a federation answers

* `Federation.Unfit` — what keeps a federation from running anything; `Federation.isSome_fault?_iff`.
* `Federation.IsWorst` — a status that no other one exceeds, the first of its rank.
* `Federation.isWorst_status`, `Federation.status_eq_success_iff` — the status of the whole.
-/

namespace StorageTiering

theorem Status.severity_eq_zero_iff {s : Status} : s.severity = 0 ↔ s = .success := by
  cases s <;> simp [Status.severity]

/-- Settings are refused for one that must not be zero and is. -/
theorem Settings.check_eq_ok_iff {s : Settings} : s.check = .ok () ↔ ∀ k ∈ Setting.positive, s.get k ≠ 0 := by
  rw [Settings.check]
  split
  · rename_i k hk
    have hzero := List.find?_some hk
    exact ⟨nofun, fun h => absurd (by simpa using hzero) (h k (List.mem_of_find?_eq_some hk))⟩
  · rename_i hnone
    exact ⟨fun _ k hk => by simpa using List.find?_eq_none.1 hnone k hk, fun _ => rfl⟩

namespace Federation

variable {settings : Settings} {known : NamespaceId → Bool} {paths : NamespacePaths} {a s : Status}
  {members : List Status}

/-! ### Why nothing is run -/

/-- A setting that must not be zero is, there is no namespace, or one of them has a blank name, a path that is
not absolute or no connector. -/
def Unfit (settings : Settings) (known : NamespaceId → Bool) (paths : NamespacePaths) : Prop :=
  (∃ k ∈ Setting.positive, settings.get k = 0) ∨ paths = [] ∨
    ∃ p ∈ paths, NamespaceId.isVoid p.1 ∨ (∃ path ∈ p.2.getD [], NamespacePaths.isAbsolute path = false) ∨
      known p.1 = false

theorem isSome_memberFault?_iff {id : NamespaceId} {paths : Option (List String)} :
    (memberFault? known id paths).isSome ↔ NamespaceId.isVoid id ∨
      (∃ path ∈ paths.getD [], NamespacePaths.isAbsolute path = false) ∨ known id = false := by
  rw [memberFault?, relativePath?]
  split
  · simp [*]
  · split
    · rename_i path hpath
      have hmem := List.mem_of_find?_eq_some hpath
      have hrelative : NamespacePaths.isAbsolute path = false := by simpa using List.find?_some hpath
      exact ⟨fun _ => .inr (.inl ⟨path, hmem, hrelative⟩), fun _ => rfl⟩
    · rename_i hnone
      have habsolute : ¬∃ path ∈ paths.getD [], NamespacePaths.isAbsolute path = false := by
        simpa [List.find?_eq_none] using hnone
      cases known id <;> simp [*]

/-- Nothing is run exactly if there is something wrong. -/
theorem isSome_fault?_iff : (fault? settings known paths).isSome ↔ Unfit settings known paths := by
  have hcheck := Settings.check_eq_ok_iff (s := settings)
  rw [fault?, Unfit]
  split
  · rename_i e he
    have hzero : ∃ k ∈ Setting.positive, settings.get k = 0 := by simpa [he] using hcheck
    exact ⟨fun _ => .inl hzero, fun _ => rfl⟩
  · rename_i hok
    have hpositive : ¬∃ k ∈ Setting.positive, settings.get k = 0 := by simpa using hcheck.1 hok
    simp only [hpositive, false_or]
    cases paths with
    | nil => simp
    | cons p rest => simp only [List.isEmpty_cons, Bool.false_eq_true, if_false, List.isSome_findSome?,
        List.any_eq_true, isSome_memberFault?_iff, reduceCtorEq, false_or]

theorem fault?_eq_none_iff : fault? settings known paths = none ↔ ¬Unfit settings known paths := by
  rw [← isSome_fault?_iff, Option.isSome_iff_ne_none, not_not]

/-- A federation with nothing wrong has namespaces, and knows them all. -/
theorem known_of_fit (h : ¬Unfit settings known paths) : paths ≠ [] ∧ ∀ p ∈ paths, known p.1 := by
  obtain ⟨-, hpaths, hmembers⟩ : _ ∧ paths ≠ [] ∧ _ := by simpa only [Unfit, not_or] using h
  exact ⟨hpaths, fun p hp => eq_true_of_ne_false fun hunknown => hmembers ⟨p, hp, .inr (.inr hunknown)⟩⟩

/-! ### The worst status -/

/-- A status of which all that come before are less bad, and none that comes behind is worse. -/
def IsWorst (s : Status) (members : List Status) : Prop :=
  ∃ front back, members = front ++ s :: back ∧ (∀ t ∈ front, t.severity < s.severity) ∧
    ∀ t ∈ back, t.severity ≤ s.severity

theorem IsWorst.mem (h : IsWorst s members) : s ∈ members := by
  obtain ⟨front, back, rfl, -⟩ := h
  simp

theorem IsWorst.severity_le (h : IsWorst s members) {t : Status} (ht : t ∈ members) :
    t.severity ≤ s.severity := by
  obtain ⟨front, back, rfl, hfront, hback⟩ := h
  rcases List.mem_append.1 ht with ht | ht
  · exact Nat.le_of_lt (hfront t ht)
  · rcases List.mem_cons.1 ht with rfl | ht
    · exact Nat.le_refl _
    · exact hback t ht

/-- The worst of a status and those behind it: it is this one unless one of them is worse, and then the first
of the worst. -/
theorem foldl_worst (a : Status) (members : List Status) :
    (members.foldl Status.worst a = a ∧ ∀ t ∈ members, t.severity ≤ a.severity) ∨
      a.severity < (members.foldl Status.worst a).severity ∧
        IsWorst (members.foldl Status.worst a) members := by
  -- the status so far is arbitrary, since each status that is worse takes its place
  induction members generalizing a with
  | nil => exact .inl ⟨rfl, nofun⟩
  | cons b rest ih =>
    rw [List.foldl_cons, Status.worst]
    split
    · rename_i hworse
      rcases ih b with ⟨heq, hrest⟩ | ⟨hlt, front, back, hsplit, hfront, hback⟩
      · rw [heq]
        exact .inr ⟨hworse, [], rest, rfl, nofun, hrest⟩
      · refine .inr ⟨Nat.lt_trans hworse hlt, b :: front, back, by rw [List.cons_append, ← hsplit], ?_, hback⟩
        exact List.forall_mem_cons.2 ⟨hlt, hfront⟩
    · rename_i hkept
      rcases ih a with ⟨heq, hrest⟩ | ⟨hlt, front, back, hsplit, hfront, hback⟩
      · exact .inl ⟨heq, List.forall_mem_cons.2 ⟨Nat.not_lt.1 hkept, hrest⟩⟩
      · refine .inr ⟨hlt, b :: front, back, by rw [List.cons_append, ← hsplit], ?_, hback⟩
        exact List.forall_mem_cons.2 ⟨Nat.lt_of_le_of_lt (Nat.not_lt.1 hkept) hlt, hfront⟩

/-- The status of the whole is the first of the worst. -/
theorem isWorst_status (h : members ≠ []) : IsWorst (status members) members := by
  rcases foldl_worst .success members with ⟨hsuccess, hall⟩ | ⟨-, hworst⟩
  · rw [status, hsuccess]
    obtain ⟨t, rest, rfl⟩ := List.exists_cons_of_ne_nil h
    obtain ⟨ht, hrest⟩ := List.forall_mem_cons.1 hall
    obtain rfl := Status.severity_eq_zero_iff.1 (Nat.le_zero.1 ht)
    exact ⟨[], rest, rfl, nofun, hrest⟩
  · exact hworst

/-- The whole succeeds exactly if every namespace does. -/
theorem status_eq_success_iff : status members = .success ↔ ∀ t ∈ members, t = .success := by
  by_cases h : members = []
  · simp [h, status]
  · have hworst := isWorst_status h
    constructor
    · intro hsuccess t ht
      have hle := hworst.severity_le ht
      rw [hsuccess] at hle
      exact Status.severity_eq_zero_iff.1 (Nat.le_zero.1 hle)
    · exact fun hall => hall _ hworst.mem

end Federation

end StorageTiering
