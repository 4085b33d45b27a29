import StorageTiering.Proofs.Pass.Survey
import StorageTiering.Proofs.World.Plain
import StorageTiering.Run.Scan
/-!
# What a scan examines

A scan without a fault examines every block at or below the paths of its run, page by page and whatever
calls had to be repeated.

* `World.withRetries_preserves`, `Run.scan_preserves` — what single calls preserve, a scan preserves.
* `World.withRetries_ok` — what a call with its repetitions answers, one of the calls has answered.
* `Run.retrying_listPage` — a listing call with its repetitions.
* `Run.scanPages_spec`, `Run.scanPaths_spec` — the pages of one path, and of all paths.
* `Run.scan_spec` — the report of a scan is that of a pass over all records.
-/

namespace StorageTiering

/-! ### Single calls and a whole scan -/

theorem World.withRetries_preserves {α : Type} {Q : World → Prop}
    {call : World → World × Except CallFault α} (hcall : ∀ w, Q w → Q (call w).1)
    (hwait : ∀ w ms, Q w → Q (w.wait ms)) (delayMs n : Nat) {w : World} (h : Q w) :
    Q (withRetries call delayMs n w).1 := by
  induction n generalizing w with
  | zero => exact hcall w h
  | succ n ih =>
    have hc := hcall w h
    rw [withRetries]
    split
    · rename_i heq
      rw [heq] at hc
      split
      · exact ih (hwait _ _ hc)
      · exact hc
    · exact hc

/-- What a call with its repetitions answers, one of the calls has answered. -/
theorem World.withRetries_ok {α : Type} {P : World → α → Prop} {call : World → World × Except CallFault α}
    (hcall : ∀ w w' a, call w = (w', .ok a) → P w' a) (delayMs n : Nat) {w w' : World} {a : α}
    (h : withRetries call delayMs n w = (w', .ok a)) : P w' a := by
  induction n generalizing w with
  | zero => exact hcall w w' a h
  | succ n ih =>
    rw [withRetries] at h
    split at h
    · split at h
      · exact ih h
      · cases h
    · exact hcall w w' a h

namespace Run

variable {r : Run} {w : World} {c : Cluster} {p : Pass} {path : String} {cursor : Option String}
  {items : List ListingItem}

section Preserves

variable {Q : World → Prop} (hlist : ∀ (w : World) path cursor, Q w → Q (w.listPage path cursor).1)
  (hwait : ∀ (w : World) ms, Q w → Q (w.wait ms))

include hlist hwait

theorem scanPages_preserves (r : Run) (path : String) (n : Nat) (p : Pass) (cursor : Option String)
    (h : Q w) : Q (r.scanPages path n w p cursor).1 := by
  induction n generalizing w p cursor with
  | zero => exact h
  | succ n ih =>
    have hcall : Q (r.retrying (fun w => w.listPage path cursor) w).1 :=
      World.withRetries_preserves (fun w hw => hlist w path cursor hw) hwait _ _ h
    rw [scanPages]
    split
    all_goals
      rename_i heq
      rw [heq] at hcall
    · exact hcall
    · exact hcall
    · dsimp only
      split
      · exact ih _ _ hcall
      · exact hcall

theorem scanPaths_preserves (r : Run) (paths : List String) (p : Pass) (h : Q w) :
    Q (r.scanPaths paths w p).1 := by
  induction paths generalizing w p with
  | nil => exact h
  | cons path rest ih =>
    have hpath : Q (r.scanPath path w p).1 := scanPages_preserves hlist hwait r path _ p none h
    rw [scanPaths]
    split
    all_goals
      rename_i heq
      rw [heq] at hpath
    · exact ih _ hpath
    · exact hpath

/-- What listing calls, reports and waiting preserve, a scan preserves. -/
theorem scan_preserves (hreport : ∀ w, Q w → Q (World.report w).1) (r : Run) (h : Q w) :
    Q (r.scan w).1 := by
  have hcall : Q (r.retrying World.report w).1 := World.withRetries_preserves hreport hwait _ _ h
  rw [scan]
  split
  all_goals
    rename_i heq
    rw [heq] at hcall
  · exact hcall
  · exact scanPaths_preserves hlist hwait r r.paths _ hcall

end Preserves

/-! ### The reports -/

/-- Without scripted answers the cluster reports. -/
theorem retrying_report (r : Run) (h : w.script.reports = []) : r.retrying World.report w =
    (w.wait w.script.reportDelayMs, .ok (w.wait w.script.reportDelayMs).cluster.reports) := by
  have hscript : (w.wait w.script.reportDelayMs).script = w.script :=
    World.wait_preserves (Q := fun w' => w'.script = w.script) (fun _ _ _ _ h => h)
      (fun w' e _ _ h => (World.script_apply w' e).trans h) _ rfl
  have hreport : w.report =
      (w.wait w.script.reportDelayMs, .ok (w.wait w.script.reportDelayMs).cluster.reports) := by
    simp only [World.report, hscript, h]
  rw [retrying]
  cases r.settings.get .listingRetries with
  | zero => exact hreport
  | succ n => simp only [World.withRetries, hreport]

/-! ### The pages of one path -/

/-- A listing call with its repetitions fails for good, finds no file, or answers with the page to which
its cursor leads; it does not fail if no more calls fail than are repeated. -/
theorem retrying_listPage (r : Run) (h : w.Shows c)
    (hl : Cluster.Leads (c.itemsUnder path) items cursor) :
    let result := r.retrying (fun w => w.listPage path cursor) w
    result.1.Shows c ∧ (∀ n, w.Spared n → result.1.Spared n) ∧
      ((∃ size, 1 ≤ size ∧ result.2 = .ok (Cluster.pageOf size items)) ∨
        (c.filesUnder path = [] ∧ result.2 = .error (.failed (.pathNotFound path))) ∨
        ∃ text, result.2 = .error (.failed (.transient text)) ∧
          ¬w.Spared (r.settings.get .listingRetries)) := by
  rw [retrying]
  generalize r.settings.get .listingRetries = n
  induction n generalizing w with
  | zero =>
    refine ⟨h.listPage path cursor, ?_⟩
    rcases h.listPage_cases hl with ⟨text, he, hfail⟩ | ⟨hkeep, hnone | hpage⟩
    · refine ⟨fun n hn => ?_, .inr (.inr ⟨text, he, fun hn => ?_⟩)⟩
      · obtain ⟨k, rfl, hk⟩ := hfail n hn
        exact ⟨Nat.le_succ_of_le hk.failures, hk.events⟩
      · obtain ⟨k, hk, -⟩ := hfail 0 hn
        cases hk
    · exact ⟨hkeep, .inr (.inl hnone)⟩
    · exact ⟨hkeep, .inl hpage⟩
  | succ n ih =>
    have hshows := h.listPage path cursor
    simp only [World.withRetries]
    rcases h.listPage_cases hl with ⟨text, he, hfail⟩ | ⟨hkeep, ⟨hnone, he⟩ | ⟨size, hsize, he⟩⟩
    all_goals
      generalize w.listPage path cursor = result at *
      obtain ⟨w', answer⟩ := result
      obtain rfl := he
    · obtain ⟨hshows', hspared', hcases⟩ := ih (hshows.wait (r.settings.get .retryDelayMs))
      refine ⟨hshows', fun m hm => ?_, ?_⟩
      · obtain ⟨k, rfl, hk⟩ := hfail m hm
        have := hspared' k (hk.wait _)
        exact ⟨Nat.le_succ_of_le this.failures, this.events⟩
      · refine hcases.imp_right (Or.imp_right ?_)
        rintro ⟨text, he, hn⟩
        refine ⟨text, he, fun hm => hn ?_⟩
        obtain ⟨k, hk, hspared⟩ := hfail (n + 1) hm
        obtain rfl : n = k := Nat.succ.inj hk
        exact hspared.wait _
    · exact ⟨hshows, hkeep, .inr (.inl ⟨hnone, rfl⟩)⟩
    · exact ⟨hshows, hkeep, .inl ⟨size, hsize, rfl⟩⟩

theorem scheduleAll_append (p : Pass) (xs ys : List ListedBlock) :
    p.scheduleAll (xs ++ ys) = (p.scheduleAll xs).scheduleAll ys := List.foldl_append

/-- The pages from a cursor on hold everything to which the cursor leads, each block once. -/
theorem scanPages_spec (r : Run) {fuel : Nat} (h : w.Shows c)
    (hl : Cluster.Leads (c.itemsUnder path) items cursor) (hsuffix : items <:+ c.itemsUnder path)
    (hfuel : items.length < fuel) (p : Pass) :
    let result := r.scanPages path fuel w p cursor
    result.1.Shows c ∧ (∀ n, w.Spared n → result.1.Spared n) ∧
      (result.2.2 = none → result.2.1 = p.scheduleAll (items.map ListingItem.listed)) ∧
      (w.Spared (r.settings.get .listingRetries) → result.2.2 = none) := by
  induction fuel generalizing w p cursor items with
  | zero => omega
  | succ fuel ih =>
    have hcat := h.reachable.catalogued
    have hordered : (c.itemsUnder path).Pairwise ListingItem.Precedes :=
      Cluster.pairwise_itemsUnder (h.files ▸ hcat.ascending) path
    obtain ⟨hshows, hspared, hcases⟩ := retrying_listPage r h hl
    simp only [scanPages]
    generalize r.retrying (fun w => w.listPage path cursor) w = call at *
    obtain ⟨w', answer⟩ := call
    rcases hcases with ⟨size, hsize, rfl⟩ | ⟨hnone, rfl⟩ | ⟨text, rfl, hn⟩
    · rcases Nat.lt_or_ge size items.length with hmore | hlast
      · obtain ⟨last, hmem, hpage, hafter⟩ :=
          Cluster.pageOf_more hordered hsuffix hsize hmore
        have hindex : last.index < Text.byteBound 8 := by
          have hitem : last ∈ w.cluster.itemsUnder path := by
            rw [Cluster.itemsUnder_congr h.files h.blocks]
            exact hsuffix.subset hmem
          exact hcat.index_lt hitem
        have hleads : Cluster.Leads (c.itemsUnder path) (items.drop size) (some last.cursor.text) :=
          ⟨last.cursor, Cursor.read?_text _ ▸ if_pos hindex, hafter⟩
        have hlength : (items.drop size).length < fuel := by
          rw [List.length_drop]
          omega
        obtain ⟨hshows', hspared', hpass, hfault⟩ := ih hshows hleads
          ((List.drop_suffix size items).trans hsuffix) hlength
          (p.scheduleAll ((items.take size).map ListingItem.listed))
        simp only [hpage]
        refine ⟨hshows', fun n hn => hspared' n (hspared n hn), fun hnone => ?_,
          fun hn => hfault (hspared _ hn)⟩
        rw [hpass hnone, ← scheduleAll_append, ← List.map_append, List.take_append_drop]
      · rw [Cluster.pageOf_last hlast]
        exact ⟨hshows, hspared, fun _ => rfl, fun _ => rfl⟩
    · have hempty : items = [] := by
        rw [Cluster.itemsUnder, hnone] at hsuffix
        exact List.suffix_nil.1 hsuffix
      rw [hempty]
      exact ⟨hshows, hspared, fun _ => rfl, fun _ => rfl⟩
    · refine ⟨hshows, hspared, fun hf => ?_, fun hspare => absurd hspare hn⟩
      cases hf

/-! ### All paths -/

/-- The records that a walk over the paths of a run meets. -/
def walk (c : Cluster) (paths : List String) : List ListedBlock :=
  paths.flatMap fun path => (c.itemsUnder path).map ListingItem.listed

theorem scanPaths_spec (r : Run) (paths : List String) (h : w.Shows c) (p : Pass) :
    let result := r.scanPaths paths w p
    result.1.Shows c ∧ (∀ n, w.Spared n → result.1.Spared n) ∧
      (result.2.2 = none → result.2.1 = p.scheduleAll (walk c paths)) ∧
      (w.Spared (r.settings.get .listingRetries) → result.2.2 = none) := by
  induction paths generalizing w p with
  | nil => exact ⟨h, fun _ hn => hn, fun _ => rfl, fun _ => rfl⟩
  | cons path rest ih =>
    have hitems := Cluster.itemsUnder_congr h.files h.blocks path
    have hfuel : (c.itemsUnder path).length < (w.cluster.itemsUnder path).length + 1 := by
      rw [hitems]
      exact Nat.lt_succ_self _
    have hleads : Cluster.Leads (c.itemsUnder path) (c.itemsUnder path) none := rfl
    obtain ⟨hshows, hspared, hpass, hfault⟩ :=
      scanPages_spec r h hleads (List.suffix_refl _) hfuel p
    simp only [scanPaths, scanPath]
    generalize r.scanPages path _ w p none = call at *
    obtain ⟨w', q, fault⟩ := call
    cases fault with
    | some fault =>
      refine ⟨hshows, hspared, fun hf => ?_, fun hn => ?_⟩
      · cases hf
      · cases hfault hn
    | none =>
      obtain ⟨hshows', hspared', hpass', hfault'⟩ := ih hshows q
      refine ⟨hshows', fun n hn => hspared' n (hspared n hn), fun hn => ?_,
        fun hn => hfault' (hspared _ hn)⟩
      have hq : q = p.scheduleAll ((c.itemsUnder path).map ListingItem.listed) := hpass rfl
      rw [hpass' hn, hq, ← scheduleAll_append]
      rfl

/-- A scan that gets its storage reports examines every record, or is ended by a listing call that fails
more often than it is repeated. -/
theorem scan_spec {w' : World} {reports : List NodeReport}
    (hr : r.retrying World.report w = (w', .ok reports)) (h : w'.Shows c) :
    let result := r.scan w
    let q := (r.newPass reports).scheduleAll (walk c r.paths)
    result.1.Shows c ∧ (∀ n, w'.Spared n → result.1.Spared n) ∧
      ((∃ fault, result.2.2 = .error fault ∧ ¬w'.Spared (r.settings.get .listingRetries)) ∨
        result.2 = ({ r with ledger := q.ledger }.recordUnsatisfiable q.report.unsatisfiable,
          .ok q.report)) := by
  obtain ⟨hshows, hspared, hpass, hfault⟩ := scanPaths_spec r r.paths h (r.newPass reports)
  simp only [scan, hr]
  generalize r.scanPaths r.paths w' (r.newPass reports) = call at *
  obtain ⟨w'', q, fault⟩ := call
  refine ⟨hshows, hspared, ?_⟩
  cases fault with
  | some fault =>
    refine .inl ⟨fault, rfl, fun hn => ?_⟩
    cases hfault hn
  | none =>
    obtain rfl : q = _ := hpass rfl
    exact .inr rfl

end Run

end StorageTiering
