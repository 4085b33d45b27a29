import StorageTiering.Proofs.Cluster.Pages
import StorageTiering.Proofs.Pass.Examined
import StorageTiering.Proofs.Run.Round
/-!
# How a listing is delivered

A scan comes to the same whatever the size of pages is, and whichever listing calls fail for the moment, as
long as they are repeated often enough.

* `World.failing`, `World.delivering` — a namespace in which listing calls will fail, and one with pages of
  some size.
* `World.Spotless` — a namespace in which none will fail.
* `Run.retrying_spotless`, `Run.retries_failing` — a call that comes before the failures, and one that is
  repeated in vain.
* `Run.Concerned` — what failures do to a scan of paths, beside one without them; `Run.scanPages_concerned`,
  `Run.scanPaths_concerned`.
* `Run.exists_distinct_walk`, `Run.scheduleAll_walk_append` — paths that overlap.
* `Run.scan_delivering` — the result of a scan, however the listing is delivered.
-/

namespace StorageTiering

/-! ### Single calls -/

namespace Cluster

variable {c : Cluster} {path : String} {cursor : Option String}

/-- Without failures to come, a listing call counts, and does not fail for the moment. -/
theorem listPage_unconcerned (h : c.listingFailures = 0) (path : String) (cursor : Option String) :
    (c.listPage path cursor).1.listingFailures = 0 ∧
      (c.listPage path cursor).1.listCalls = c.listCalls + 1 ∧
        ∀ e, (c.listPage path cursor).2 = .error e → e.isTransient = false := by
  have hserved : ∀ cursor e, c.pageUnder path cursor = .error e → e.isTransient = false := by
    intro cursor e he
    rw [pageUnder] at he
    split at he <;> cases he
    rfl
  rw [listPage, if_neg (fun hfails => absurd h (Nat.ne_of_gt hfails.2))]
  cases cursor with
  | none => exact ⟨h, rfl, hserved none⟩
  | some text =>
    dsimp only
    cases Cursor.read? text with
    | none => exact ⟨h, rfl, fun e he => by cases he; rfl⟩
    | some cursor => exact ⟨h, rfl, hserved (some cursor)⟩

/-- A listing call before the first that fails answers as if none would fail. -/
theorem listPage_failListings (h : c.listingFailures = 0) (failures after : Nat) (path : String)
    (cursor : Option String) : (c.failListings failures (after + 1)).listPage path cursor =
      ((c.listPage path cursor).1.failListings failures after, (c.listPage path cursor).2) := by
  rw [listPage, if_neg (fun hfails => absurd hfails.1 (Nat.succ_ne_zero after)), listPage,
    if_neg (fun hfails => absurd h (Nat.ne_of_gt hfails.2))]
  cases cursor with
  | none => rfl
  | some text =>
    dsimp only
    cases Cursor.read? text <;> rfl

/-- What is said of a listing call that fails for the moment. -/
def interruption (path : String) : ListingError := .transient ("listing " ++ path ++ " interrupted")

theorem listPage_failing (hgrace : c.listingGrace = 0) (hfailures : 0 < c.listingFailures) (path : String)
    (cursor : Option String) : c.listPage path cursor =
      ({ c with listCalls := c.listCalls + 1, listingFailures := c.listingFailures - 1 },
        .error (interruption path)) := by
  rw [listPage, if_pos ⟨hgrace, hfailures⟩]
  rfl

end Cluster

namespace World

variable {w : World} {n : Nat}

/-- The namespace in which so many listing calls will fail, after so many that do not. -/
def failing (w : World) (failures after : Nat) : World :=
  { w with cluster := w.cluster.failListings failures after }

/-- The namespace with pages of a size, in which so many listing calls will fail, after so many that do
not. -/
def delivering (w : World) (size failures after : Nat) : World :=
  { w with cluster := (w.cluster.setPageSize size).failListings failures after }

theorem Still.failing (h : w.Still) (failures after : Nat) : (w.failing failures after).Still :=
  ⟨h.script, h.events, h.signal, h.shutdown⟩

theorem Still.delivering (h : w.Still) (size failures after : Nat) :
    (w.delivering size failures after).Still := ⟨h.script, h.events, h.signal, h.shutdown⟩

/-- A call that does not fail for the moment is not repeated. -/
theorem withRetries_of_final {α : Type} {call : World → World × Except CallFault α}
    (h : ∀ e, (call w).2 = .error (.failed e) → e.isTransient = false) (delayMs n : Nat) :
    withRetries call delayMs n w = call w := by
  cases n with
  | zero => rfl
  | succ n =>
    rw [withRetries]
    split
    · rename_i w' e heq
      rw [heq] at h ⊢
      rw [h e rfl]
      rfl
    · rfl

/-- A namespace in which no listing call will fail. -/
structure Spotless (w : World) : Prop extends Still w where
  failures : w.cluster.listingFailures = 0

theorem Still.spotless (h : w.Still) (size : Nat) : (w.delivering size 0 0).Spotless :=
  ⟨h.delivering size 0 0, rfl⟩

theorem Spotless.wait (h : w.Spotless) (ms : Nat) : (w.wait ms).Spotless := by
  have helapsed := h.toStill.wait_elapsed ms
  exact ⟨helapsed.still h.toStill, by rw [helapsed.cluster]; exact h.failures⟩

theorem Spotless.listPage (h : w.Spotless) (path : String) (cursor : Option String) :
    (w.listPage path cursor).1.Spotless ∧
      (w.listPage path cursor).1.cluster.listCalls = w.cluster.listCalls + 1 := by
  obtain ⟨hfailures, hcalls, -⟩ := Cluster.listPage_unconcerned h.failures path cursor
  rw [h.toStill.listPage_eq]
  exact ⟨⟨⟨h.script, h.events, h.signal, h.shutdown⟩, hfailures⟩, hcalls⟩

end World

namespace Run

variable {r : Run} {w : World} {path : String} {cursor : Option String}

/-- The end of a scan in which the listing of a path failed more often than it was repeated. -/
def listingFault (path : String) : ScanFault :=
  .status (.serviceFailure ("listing " ++ path ++ " failed: " ++ (Cluster.interruption path).message))

/-- Without failures to come a call is made once, and it is answered alike if the next call will not fail. -/
theorem retrying_spotless (r : Run) (h : w.Spotless) (path : String) (cursor : Option String) :
    let result := r.retrying (fun w => w.listPage path cursor) w
    result.1.Spotless ∧ result.1.cluster.listCalls = w.cluster.listCalls + 1 ∧
      ∀ failures after, r.retrying (fun w => w.listPage path cursor) (w.failing failures (after + 1)) =
        (result.1.failing failures after, result.2) := by
  obtain ⟨-, -, hfinal⟩ := Cluster.listPage_unconcerned h.failures path cursor
  obtain ⟨hspotless, hcalls⟩ := h.listPage path cursor
  have hlist := h.toStill.listPage_eq path cursor
  have hlist' : ∀ failures after, (w.failing failures (after + 1)).listPage path cursor =
      ((w.listPage path cursor).1.failing failures after, (w.listPage path cursor).2) := by
    intro failures after
    have hcall := Cluster.listPage_failListings h.failures failures after path cursor
    rw [(h.failing failures (after + 1)).listPage_eq, hlist]
    simp only [World.failing, hcall]
  have hanswer : ∀ e, (w.listPage path cursor).2 = .error (.failed e) → e.isTransient = false := by
    intro e he
    rw [hlist] at he
    dsimp only at he
    split at he
    · cases he
    · rename_i e' heq
      cases he
      exact hfinal _ heq
  have hretry : r.retrying (fun w => w.listPage path cursor) w = w.listPage path cursor :=
    World.withRetries_of_final hanswer _ _
  have hretry' : ∀ failures after, r.retrying (fun w => w.listPage path cursor)
      (w.failing failures (after + 1)) = (w.failing failures (after + 1)).listPage path cursor := by
    intro failures after
    refine World.withRetries_of_final (fun e he => hanswer e ?_) _ _
    rw [hlist'] at he
    exact he
  dsimp only
  rw [hretry]
  exact ⟨hspotless, hcalls, fun failures after => (hretry' failures after).trans (hlist' failures after)⟩

/-- A listing call that fails more often than it is repeated is made once, and repeated as often as can
be. -/
theorem retries_failing (h : w.Still) (hgrace : w.cluster.listingGrace = 0) {n : Nat}
    (hn : n < w.cluster.listingFailures) (delayMs : Nat) (path : String) (cursor : Option String) :
    let result := World.withRetries (fun w => w.listPage path cursor) delayMs n w
    result.2 = .error (.failed (Cluster.interruption path)) ∧
      result.1.cluster.listCalls = w.cluster.listCalls + (n + 1) ∧
        result.1.cluster.listingFailures + (n + 1) = w.cluster.listingFailures := by
  induction n generalizing w with
  | zero =>
    have hlist := h.listPage_eq path cursor
    rw [Cluster.listPage_failing hgrace hn] at hlist
    dsimp only [World.withRetries]
    rw [hlist]
    exact ⟨rfl, rfl, Nat.sub_add_cancel hn⟩
  | succ n ih =>
    have hlist := h.listPage_eq path cursor
    rw [Cluster.listPage_failing hgrace (Nat.zero_lt_of_lt hn)] at hlist
    dsimp only at hlist
    generalize hw' : World.mk .. = w' at hlist
    have hstill : w'.Still := hw' ▸ ⟨h.script, h.events, h.signal, h.shutdown⟩
    have helapsed := hstill.wait_elapsed delayMs
    have hcluster : (w'.wait delayMs).cluster = { w.cluster with
        listCalls := w.cluster.listCalls + 1, listingFailures := w.cluster.listingFailures - 1 } := by
      rw [helapsed.cluster, ← hw']
    obtain ⟨herror, hcalls, hleft⟩ := ih (helapsed.still hstill) (by rw [hcluster]; exact hgrace)
      (by rw [hcluster]; exact Nat.lt_sub_of_add_lt hn)
    have hagain : World.withRetries (fun w => w.listPage path cursor) delayMs (n + 1) w =
        World.withRetries (fun w => w.listPage path cursor) delayMs n (w'.wait delayMs) := by
      rw [World.withRetries, hlist]
      rfl
    dsimp only at *
    rw [hagain, hcluster] at *
    refine ⟨herror, hcalls.trans (by dsimp only; omega), ?_⟩
    dsimp only at hleft
    omega

/-! ### Scans -/

theorem scanPages_spotless (r : Run) (path : String) (n : Nat) (p : Pass) (cursor : Option String)
    (h : w.Spotless) : (r.scanPages path n w p cursor).1.Spotless ∧
      w.cluster.listCalls ≤ (r.scanPages path n w p cursor).1.cluster.listCalls := by
  refine scanPages_preserves (Q := fun w' => w'.Spotless ∧ w.cluster.listCalls ≤ w'.cluster.listCalls)
    (fun w' path cursor hw => ?_) (fun w' ms hw => ⟨hw.1.wait ms, ?_⟩) r path n p cursor ⟨h, le_rfl⟩
  · obtain ⟨hspotless, hcalls⟩ := hw.1.listPage path cursor
    exact ⟨hspotless, by rw [hcalls]; exact Nat.le_succ_of_le hw.2⟩
  · rw [(hw.1.toStill.wait_elapsed ms).cluster]
    exact hw.2

theorem scanPaths_spotless (r : Run) (paths : List String) (p : Pass) (h : w.Spotless) :
    (r.scanPaths paths w p).1.Spotless ∧
      w.cluster.listCalls ≤ (r.scanPaths paths w p).1.cluster.listCalls := by
  induction paths generalizing w p with
  | nil => exact ⟨h, le_rfl⟩
  | cons path rest ih =>
    have hpath := scanPages_spotless r path ((w.cluster.itemsUnder path).length + 1) p none h
    rw [scanPaths, scanPath]
    generalize r.scanPages path _ w p none = call at *
    obtain ⟨w', q, fault⟩ := call
    cases fault with
    | none =>
      obtain ⟨hspotless, hcalls⟩ := ih q hpath.1
      exact ⟨hspotless, hpath.2.trans hcalls⟩
    | some fault => exact hpath

/-- A scan of pages makes a listing call at least. -/
theorem listCalls_scanPages_succ (r : Run) (path : String) (n : Nat) (p : Pass) (cursor : Option String)
    (h : w.Spotless) :
    w.cluster.listCalls < (r.scanPages path (n + 1) w p cursor).1.cluster.listCalls := by
  obtain ⟨hspotless, hcalls, -⟩ := retrying_spotless r h path cursor
  have hrest := fun q next => (scanPages_spotless r path n q next hspotless).2
  rw [scanPages]
  split
  all_goals
    rename_i heq
    rw [heq] at hcalls hrest
  · exact Nat.lt_of_succ_le hcalls.ge
  · exact Nat.lt_of_succ_le hcalls.ge
  · dsimp only
    split
    · exact Nat.lt_of_succ_le (hcalls.ge.trans (hrest _ _))
    · exact Nat.lt_of_succ_le hcalls.ge

/-- What failures of listing calls, of which the first is behind a number of calls, do to a scan of paths:
nothing if the scan does not come to them, and otherwise the listing of a path is repeated in vain. -/
inductive Concerned (r : Run) (paths : List String) (failures last : Nat)
    (calm : World × Pass × Option ScanFault) : World × Pass × Option ScanFault → Prop
  | spared (hcalls : calm.1.cluster.listCalls ≤ last) : r.Concerned paths failures last calm
      (calm.1.failing failures (last - calm.1.cluster.listCalls), calm.2)
  | interrupted {path : String} {w : World} {p : Pass} (hpath : path ∈ paths)
      (hreached : last < calm.1.cluster.listCalls)
      (hcalls : w.cluster.listCalls = last + (r.settings.get .listingRetries + 1))
      (hleft : w.cluster.listingFailures + (r.settings.get .listingRetries + 1) = failures) :
      r.Concerned paths failures last calm (w, p, some (listingFault path))

theorem Concerned.mono {paths paths' : List String} {failures last : Nat}
    {calm call : World × Pass × Option ScanFault} (h : r.Concerned paths failures last calm call)
    (hsub : paths ⊆ paths') : r.Concerned paths' failures last calm call := by
  cases h with
  | spared hcalls => exact .spared hcalls
  | interrupted hpath hreached hcalls hleft => exact .interrupted (hsub hpath) hreached hcalls hleft

/-- The pages of a path with and without failures: the two scans go on alike up to the first failure. -/
theorem scanPages_concerned (r : Run) (path : String) {failures last : Nat}
    (hfailures : r.settings.get .listingRetries < failures) (n : Nat) (p : Pass) (cursor : Option String)
    (h : w.Spotless) (hlast : w.cluster.listCalls ≤ last) :
    r.Concerned [path] failures last (r.scanPages path n w p cursor)
      (r.scanPages path n (w.failing failures (last - w.cluster.listCalls)) p cursor) := by
  induction n generalizing w p cursor with
  | zero => exact .spared hlast
  | succ n ih =>
    obtain ⟨hspotless, hcalls, hsame⟩ := retrying_spotless r h path cursor
    rcases Nat.eq_or_lt_of_le hlast with heq | hlt
    · -- the next call is the first that fails
      obtain ⟨hvain, hmade, hleft⟩ := retries_failing (h.toStill.failing failures 0) rfl hfailures
        (r.settings.get .retryDelayMs) path cursor
      have hreached := listCalls_scanPages_succ r path n p cursor h
      rw [heq] at hreached
      have hcall : r.retrying (fun w => w.listPage path cursor) (w.failing failures 0) =
          (_, .error (.failed (Cluster.interruption path))) := Prod.ext rfl hvain
      have hend : r.scanPages path (n + 1) (w.failing failures 0) p cursor =
          ((r.retrying (fun w => w.listPage path cursor) (w.failing failures 0)).1, p,
            some (listingFault path)) := by
        rw [scanPages, hcall]
        rfl
      rw [heq, Nat.sub_self, hend]
      exact .interrupted List.mem_cons_self hreached (heq ▸ hmade) hleft
    · have hle : (r.retrying (fun w => w.listPage path cursor) w).1.cluster.listCalls ≤ last :=
        hcalls.trans_le hlt
      have hafter : last - w.cluster.listCalls =
          last - (r.retrying (fun w => w.listPage path cursor) w).1.cluster.listCalls + 1 := by
        rw [hcalls]
        omega
      rw [hafter]
      simp only [scanPages, hsame]
      generalize r.retrying (fun w => w.listPage path cursor) w = call at *
      obtain ⟨w', answer⟩ := call
      rcases answer with (e | -) | ⟨blocks, - | next⟩
      · cases e <;> exact .spared hle
      · exact .spared hle
      · exact .spared hle
      · exact ih (p.scheduleAll blocks) (some next) hspotless hle

theorem scanPaths_concerned (r : Run) {failures last : Nat}
    (hfailures : r.settings.get .listingRetries < failures) (paths : List String) (p : Pass)
    (h : w.Spotless) (hlast : w.cluster.listCalls ≤ last) :
    r.Concerned paths failures last (r.scanPaths paths w p)
      (r.scanPaths paths (w.failing failures (last - w.cluster.listCalls)) p) := by
  induction paths generalizing w p with
  | nil => exact .spared hlast
  | cons path rest ih =>
    obtain ⟨hspotless, -⟩ := scanPages_spotless r path ((w.cluster.itemsUnder path).length + 1) p none h
    have hpath := scanPages_concerned r path hfailures ((w.cluster.itemsUnder path).length + 1) p none h hlast
    have hsame : ((w.failing failures (last - w.cluster.listCalls)).cluster.itemsUnder path) =
        w.cluster.itemsUnder path := rfl
    simp only [scanPaths, scanPath, hsame]
    generalize r.scanPages path _ w p none = calm at *
    generalize r.scanPages path _ (w.failing failures (last - w.cluster.listCalls)) p none = call at *
    obtain ⟨w', q, fault⟩ := calm
    cases hpath with
    | spared hcalls =>
      cases fault with
      | none => exact (ih q hspotless hcalls).mono (List.subset_cons_self _ _)
      | some fault => exact .spared hcalls
    | interrupted hmem hreached hcalls hleft =>
      obtain rfl := List.mem_singleton.1 hmem
      refine .interrupted List.mem_cons_self (hreached.trans_le ?_) hcalls hleft
      cases fault with
      | none => exact (scanPaths_spotless r rest q hspotless).2
      | some fault => exact le_rfl

/-! ### Whatever way the listing is delivered -/

/-- The listing calls of a scan. -/
def listingCalls (r : Run) (w : World) : Nat := (r.scan w).1.cluster.listCalls - w.cluster.listCalls

/-- A scan in a still namespace is one over its paths. -/
theorem scan_still (r : Run) (h : w.Still) : r.scan w =
    ((r.scanPaths r.paths w (r.newPass w.cluster.reports)).1,
      r.afterPass (r.scanPaths r.paths w (r.newPass w.cluster.reports)).2.1
        (r.scanPaths r.paths w (r.newPass w.cluster.reports)).2.2) := by
  rw [scan, retrying_report_still r h]

/-- A scan that is spared examines the blocks at or below its paths. -/
theorem scan_spared (r : Run) (h : w.Still) (hr : w.cluster.Reachable) (size : Nat) {failures : Nat}
    (hfailures : failures ≤ r.settings.get .listingRetries) (after : Nat) :
    (r.scan (w.delivering size failures after)).2 =
      r.afterPass ((r.newPass w.cluster.reports).scheduleAll (walk w.cluster r.paths)) none := by
  have hstill := h.delivering size failures after
  have hreach : (w.delivering size failures after).cluster.Reachable :=
    (hr.disturb (.pageSize size)).disturb (.failListings failures after)
  have hplain : (w.delivering size failures after).Plain := ⟨hreach, congrArg Script.listings h.script⟩
  have hspared : (w.delivering size failures after).Spared (r.settings.get .listingRetries) :=
    ⟨hfailures, by rw [hstill.events]; nofun⟩
  obtain ⟨-, -, ⟨fault, -, hn⟩ | hok⟩ :=
    scan_spec (c := w.cluster) (retrying_report_still r hstill) ⟨hplain, rfl, rfl⟩
  · exact absurd hspared hn
  · exact hok

/-- A pass over the records that a walk meets is one over the records of its blocks, each once. -/
theorem exists_distinct_walk {c : Cluster} (h : c.Catalogued) (paths : List String) {p : Pass}
    (hp : p.seen = []) : ∃ blocks : List ListedBlock, blocks.Perm (c.listedUnder paths) ∧
      p.scheduleAll (walk c paths) = p.scheduleAll blocks ∧
        (p.scheduleAll (walk c paths)).report.examined = p.report.examined + (c.listedUnder paths).length := by
  obtain ⟨kept, hsub, hnodup, -, hall, hpass, hcount⟩ := p.exists_distinct (walk c paths)
  have hkept : kept.Nodup := List.Nodup.of_map _ hnodup
  have hlisted : (c.listedUnder paths).Nodup := List.Nodup.of_map _ (h.nodup_listedUnder paths)
  have hperm : kept.Perm (c.listedUnder paths) := by
    refine (List.perm_ext_iff_of_nodup hkept hlisted).2 fun b => ⟨fun hb => ?_, fun hb => ?_⟩
    · exact Cluster.mem_walk.1 (hsub.subset hb)
    · rcases hall b (Cluster.mem_walk.2 hb) with hseen | ⟨b', hb', hid⟩
      · exact absurd (hp ▸ hseen) List.not_mem_nil
      · exact h.listedUnder_inj (Cluster.mem_walk.1 (hsub.subset hb')) hb hid ▸ hb'
  exact ⟨kept, hperm, hpass, hperm.length_eq ▸ hcount⟩

/-- A path at or below one of a walk adds nothing to it. -/
theorem scheduleAll_walk_append {c : Cluster} {paths : List String} {q : String} (hq : q ∈ paths)
    (hunder : liesUnder path q) (p : Pass) :
    p.scheduleAll (walk c (paths ++ [path])) = p.scheduleAll (walk c paths) := by
  obtain ⟨ms, hs⟩ := Pass.exists_surveys p (walk c paths)
  have hseen : ∀ b ∈ walk c [path], b.block.id ∈ (p.scheduleAll (walk c paths)).seen := by
    intro b hb
    obtain ⟨f, hf, ⟨path', hpath', hbelow⟩, hrecord⟩ := Cluster.mem_listedUnder.1 (Cluster.mem_walk.1 hb)
    obtain rfl := List.mem_singleton.1 hpath'
    have hmem := Cluster.mem_listedUnder.2 ⟨f, hf, ⟨q, hq, liesUnder_trans hbelow hunder⟩, hrecord⟩
    exact (hs.seen _).2 (.inr ⟨b, Cluster.mem_walk.2 hmem, rfl⟩)
  rw [walk, List.flatMap_append, scheduleAll_append]
  exact Pass.scheduleAll_of_seen hseen

theorem scanPaths_delivering (r : Run) (h : w.Still) (size : Nat) {failures : Nat}
    (hfailures : r.settings.get .listingRetries < failures) (after : Nat) (p : Pass) :
    r.Concerned r.paths failures (w.cluster.listCalls + after)
      (r.scanPaths r.paths (w.delivering size 0 0) p)
      (r.scanPaths r.paths (w.delivering size failures after) p) := by
  have hcalls : w.cluster.listCalls + after - (w.delivering size 0 0).cluster.listCalls = after :=
    Nat.add_sub_cancel_left _ _
  have hconcerned := scanPaths_concerned r hfailures r.paths p (h.spotless size)
    (Nat.le_add_right w.cluster.listCalls after)
  rw [hcalls] at hconcerned
  exact hconcerned

/-- Listing calls that fail behind those of a scan do not concern it, and a scan that comes to more
failures than it repeats calls ends with them. -/
theorem scan_concerned (r : Run) (h : w.Still) (size : Nat) {failures : Nat}
    (hfailures : r.settings.get .listingRetries < failures) (after : Nat) :
    let scanned := r.scan (w.delivering size failures after)
    (r.listingCalls (w.delivering size 0 0) ≤ after → scanned.2 = (r.scan (w.delivering size 0 0)).2) ∧
      (after < r.listingCalls (w.delivering size 0 0) → ∃ path ∈ r.paths,
        scanned.2.2 = .error (listingFault path) ∧
          scanned.1.cluster.listCalls =
            w.cluster.listCalls + after + (r.settings.get .listingRetries + 1) ∧
          scanned.1.cluster.listingFailures + (r.settings.get .listingRetries + 1) = failures) := by
  have hcalls : (w.delivering size 0 0).cluster.listCalls = w.cluster.listCalls := rfl
  have hconcerned := scanPaths_delivering r h size hfailures after (r.newPass w.cluster.reports)
  have hcalm := scan_still r (h.delivering size 0 0)
  have hscan := scan_still r (h.delivering size failures after)
  have hreports : ∀ failures after, (w.delivering size failures after).cluster.reports =
    w.cluster.reports := fun _ _ => rfl
  rw [hreports] at hcalm hscan
  rw [listingCalls, hcalls, hscan, hcalm]
  generalize r.scanPaths r.paths (w.delivering size 0 0) _ = calm at *
  generalize r.scanPaths r.paths (w.delivering size failures after) _ = call at *
  cases hconcerned with
  | spared hspared => exact ⟨fun _ => rfl, fun hn => absurd hspared (by dsimp only at hn; omega)⟩
  | interrupted hpath hreached hmade hleft =>
    exact ⟨fun hn => absurd hreached (by dsimp only at hn; omega), fun _ => ⟨_, hpath, rfl, hmade, hleft⟩⟩

/-- A scan whose listing calls fail no more often than they are repeated, or only behind those that it makes,
comes to what one makes of pages of any size without failures: it examines each block at or below its paths
once, and no other. A scan that comes to more failures ends with them, after as many calls in vain as a
call and its repetitions are. A path at or below another one adds nothing. -/
theorem scan_delivering (h : w.Still) (hr : w.cluster.Reachable) (r : Run) (size failures after : Nat) :
    let retries := r.settings.get .listingRetries
    let scanned := r.scan (w.delivering size failures after)
    (failures ≤ retries ∨ r.listingCalls (w.delivering size 0 0) ≤ after →
      (∀ whole, scanned.2 = (r.scan (w.delivering whole 0 0)).2) ∧
        ∃ blocks : List ListedBlock, blocks.Perm (w.cluster.listedUnder r.paths) ∧
          (blocks.map fun b => b.block.id).Nodup ∧
          scanned.2 = r.afterPass ((r.newPass w.cluster.reports).scheduleAll blocks) none ∧
          ((r.newPass w.cluster.reports).scheduleAll blocks).report.examined =
            (w.cluster.listedUnder r.paths).length) ∧
    (retries < failures → after < r.listingCalls (w.delivering size 0 0) → ∃ path ∈ r.paths,
      scanned.2.2 = .error (listingFault path) ∧
        scanned.1.cluster.listCalls = w.cluster.listCalls + after + (retries + 1) ∧
        scanned.1.cluster.listingFailures + (retries + 1) = failures) ∧
    ∀ q ∈ r.paths, ∀ path, liesUnder path q → failures ≤ retries →
      ({ r with paths := r.paths ++ [path] }.scan (w.delivering size failures after)).2 =
        ({ scanned.2.1 with paths := r.paths ++ [path] }, scanned.2.2) := by
  intro retries scanned
  have hcat := hr.catalogued
  have hcalm : ∀ size, (r.scan (w.delivering size 0 0)).2 =
      r.afterPass ((r.newPass w.cluster.reports).scheduleAll (walk w.cluster r.paths)) none := fun size =>
    scan_spared r h hr size (Nat.zero_le _) 0
  have hspared : failures ≤ retries ∨ r.listingCalls (w.delivering size 0 0) ≤ after → scanned.2 =
      r.afterPass ((r.newPass w.cluster.reports).scheduleAll (walk w.cluster r.paths)) none := by
    intro hs
    rcases Nat.lt_or_ge retries failures with hmore | hle
    · have hbehind := hs.resolve_left (Nat.not_le.2 hmore)
      exact ((scan_concerned r h size hmore after).1 hbehind).trans (hcalm size)
    · exact scan_spared r h hr size hle after
  refine ⟨fun hs => ⟨fun whole => (hspared hs).trans (hcalm whole).symm, ?_⟩, fun hmore =>
    (scan_concerned r h size hmore after).2, fun q hq path hunder hle => ?_⟩
  · obtain ⟨blocks, hperm, hpass, hcount⟩ :=
      exists_distinct_walk hcat r.paths (p := r.newPass w.cluster.reports) rfl
    refine ⟨blocks, hperm, (hperm.map _).nodup_iff.2 (hcat.nodup_listedUnder r.paths), ?_, ?_⟩
    · rw [hspared hs, hpass]
    · rw [← hpass, hcount]
      exact Nat.zero_add _
  · have happend := scan_spared { r with paths := r.paths ++ [path] } h hr size hle after
    have hwalk := scheduleAll_walk_append (c := w.cluster) hq hunder (r.newPass w.cluster.reports)
    rw [hspared (.inl hle)]
    refine happend.trans ?_
    show Run.afterPass _ ((r.newPass w.cluster.reports).scheduleAll _) none = _
    rw [hwalk]
    rfl

/-- Two paths, of which one is below the other, on pages of two blocks: three failures of listing calls
change nothing, and four end the scan. -/
theorem scan_delivering_signedSample :
    let w := World.start Cluster.signedSample .none []
    let r := start (some ["/d/", "/d/a#1"]) .standard .standard "h"
    w.Still ∧ w.cluster.Reachable ∧
      (r.scan (w.delivering 2 3 1)).2 = (r.scan (w.delivering 3 0 0)).2 ∧
      (∃ report, (r.scan (w.delivering 2 3 1)).2.2 = .ok report ∧ report.examined = 3) ∧
      (∃ path ∈ r.paths, (r.scan (w.delivering 2 4 2)).2.2 = .error (listingFault path) ∧
        (r.scan (w.delivering 2 4 2)).1.cluster.listCalls = 6) ∧
      ({ r with paths := r.paths ++ ["/d/a#1#1"] }.scan (w.delivering 2 3 1)).2.2 =
        (r.scan (w.delivering 2 3 1)).2.2 := by
  intro w r
  have hstill : w.Still := ⟨rfl, List.mergeSort_nil, rfl, rfl⟩
  have hreachable : w.cluster.Reachable :=
    (((Cluster.Reachable.disturb (.empty "n") (.pageSize 2)).addBlock _ _ _ _ _ (by decide)).addBlock
      _ _ _ _ _ (by decide)).addBlock _ _ _ _ _ (by decide)
  obtain ⟨hspared, -, hbelow⟩ := scan_delivering hstill hreachable r 2 3 1
  obtain ⟨hsame, blocks, -, -, hpass, hcount⟩ := hspared (.inl (by decide +kernel))
  obtain ⟨-, hconcerned, -⟩ := scan_delivering hstill hreachable r 2 4 2
  obtain ⟨path, hpath, hfault, hcalls, -⟩ := hconcerned (by decide +kernel) (by decide +kernel)
  have hthree : (w.cluster.listedUnder r.paths).length = 3 := by decide +kernel
  have happend := hbelow "/d/" List.mem_cons_self "/d/a#1#1" (by decide +kernel) (by decide +kernel)
  have hreport := congrArg Prod.snd happend
  exact ⟨hstill, hreachable, hsame 3, ⟨_, congrArg Prod.snd hpass, hcount.trans hthree⟩,
    ⟨path, hpath, hfault, hcalls.trans (by decide +kernel)⟩, hreport⟩

end Run

end StorageTiering
