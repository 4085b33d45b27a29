import StorageTiering.Proofs.Run.Course
/-!
# What success means

A run is successful exactly if its last scan has found every block at or below its paths settled, and
nothing moves a block after that.

* `Cluster.Settled` — every block at or below several paths is settled.
* `Run.scan_settled` — a scan that needs no movement has seen a settled cluster, and the other way round.
* `Run.round_settled`, `Run.run_settled` — what is true of an iteration that succeeds, and of a run.
* `Run.run_success` — a successful run leaves a settled cluster, and leaves a settled cluster alone.
-/

namespace StorageTiering

/-- Every block of a file at or below one of several paths is listed, and its record is settled. -/
def Cluster.Settled (suite : Suite) (paths : List String) (c : Cluster) : Prop :=
  ∀ f ∈ c.files, (∃ path ∈ paths, liesUnder f.1 path) → ∀ id ∈ f.2.blocks,
    ∃ b, c.listedBlock? f.1 f.2 id = some b ∧ b.Settled suite

namespace Cluster

variable {c c' : Cluster} {suite : Suite} {paths : List String}

theorem Catalogued.settled_iff (h : c.Catalogued) :
    c.Settled suite paths ↔ ∀ b ∈ c.listedUnder paths, b.Settled suite := by
  constructor
  · intro hs b hb
    obtain ⟨f, hf, hunder, id, hid, hlisted⟩ := mem_listedUnder.1 hb
    obtain ⟨b', hb', hsettled⟩ := hs f hf hunder id hid
    exact Option.some.inj (hb'.symm.trans hlisted) ▸ hsettled
  · intro hs f hf hunder id hid
    obtain ⟨p, hp⟩ := Option.isSome_iff_exists.1 (h.present id (List.mem_flatMap.2 ⟨f, hf, hid⟩))
    have hlisted : c.listedBlock? f.1 f.2 id = some _ := listedBlock?_eq_some.2 ⟨p, hp, rfl⟩
    exact ⟨_, hlisted, hs _ (mem_listedUnder.2 ⟨f, hf, hunder, id, hid, hlisted⟩)⟩

theorem Settled.congr (h : c.Settled suite paths) (hf : c'.files = c.files)
    (hb : c'.blocks = c.blocks) : c'.Settled suite paths := by
  rw [Settled, hf]
  simp only [listedBlock?, block?, hb]
  exact h

end Cluster

/-! ### Plain namespaces stay plain -/

theorem World.Plain.checkSatisfier {w : World} (h : w.Plain) : w.checkSatisfier.1.Plain := by
  rw [World.checkSatisfier]
  split
  · exact ⟨h.reachable.checkSatisfier, h.listings⟩
  · exact h
  · exact h

theorem World.Plain.acquireLease {w : World} (h : w.Plain) (holder : String) (intervalMs : Nat) :
    (w.acquireLease holder intervalMs).1.Plain := by
  have hr := h.reachable.acquireLease holder
  rw [World.acquireLease]
  split
  · exact h
  · split
    all_goals
      rename_i heq
      rw [heq] at hr
      exact ⟨hr, h.listings⟩

theorem World.lasting_plain : World.Lasting World.Plain where
  begins := fun _ m h => h.beginAttempt m
  settles := fun _ m a h => h.settleAttempt m a
  noted := fun _ _ _ h => ⟨h.reachable, h.listings⟩
  elapses := fun _ stop t h => h.advance stop t
  signals := fun _ _ h => ⟨h.reachable, h.listings⟩
  lists := fun _ path cursor h => h.listPage path cursor
  reports := fun _ h => h.report
  checks := fun _ h => h.checkSatisfier
  acquires := fun _ holder intervalMs h => h.acquireLease holder intervalMs

namespace Run

variable {r : Run} {w w' : World} {n number : Nat}

/-! ### Scans -/

/-- A scan in a plain namespace needs no movement exactly if it leaves a settled cluster. -/
theorem scan_settled (r : Run) (h : w.Plain) : let result := r.scan w
    result.1.Plain ∧ (∃ ledger unsatisfiable, result.2.1 =
      { r with ledger := ledger, unsatisfiable := unsatisfiable }) ∧
      ∀ report, result.2.2 = .ok report →
        (report.needsMovement = false ↔ result.1.cluster.Settled r.suite r.paths) := by
  have hplain : (r.retrying World.report w).1.Plain := World.withRetries_preserves
    (fun w hw => hw.report) (fun w ms hw => hw.wait ms) _ _ h
  cases hreport : r.retrying World.report w with
  | mk w' answer =>
    rw [hreport] at hplain
    cases answer with
    | error fault =>
      simp only [scan, hreport]
      refine ⟨hplain, ⟨_, _, rfl⟩, fun report he => ?_⟩
      cases he
    | ok reports =>
      obtain ⟨hshows, -, hcases⟩ := scan_spec hreport hplain.shows
      refine ⟨hshows.toPlain, (scan_frame r w).1, fun report he => ?_⟩
      rcases hcases with ⟨fault, hfault, -⟩ | hok
      · cases hfault.symm.trans he
      · rw [hok] at he
        obtain rfl := Except.ok.inj he
        have hcat := hplain.reachable.catalogued
        have hneeding := Pass.needingMove_scheduleAll (r.newPass reports) (walk w'.cluster r.paths)
          fun b hb b' hb' => hcat.listedUnder_inj (Cluster.mem_walk.1 hb) (Cluster.mem_walk.1 hb')
        have hsettled : w'.cluster.Settled r.suite r.paths ↔
            (r.scan w).1.cluster.Settled r.suite r.paths :=
          ⟨fun hs => hs.congr hshows.files hshows.blocks,
            fun hs => hs.congr hshows.files.symm hshows.blocks.symm⟩
        rw [← hsettled, hcat.settled_iff, ScanReport.needsMovement, decide_eq_false_iff_not, Nat.not_lt,
          Nat.le_zero]
        refine hneeding.trans ⟨fun hall b hb => ?_, fun hall b hb _ => ?_⟩
        · exact hall b (Cluster.mem_walk.2 hb) List.not_mem_nil
        · exact hall b (Cluster.mem_walk.1 hb)

/-! ### Iterations -/

/-- An iteration in which a run succeeds leaves a settled cluster. -/
theorem round_settled {r' : Run} (h : w.Plain)
    (hround : r.round number w = (w', r', some (.status .success))) : w'.cluster.Settled r.suite r.paths := by
  have hi := round_iterates r number w
  rw [hround] at hi
  cases hi with
  | forced ledger stage unsatisfiable he => rcases he _ rfl with hs | ⟨reason, hs⟩ <;> cases hs
  | @judged _ _ report _ hscan hs =>
    obtain ⟨-, -, hsettled⟩ := scan_settled { r with stage := .scanning } h
    rw [hscan] at hsettled
    refine (hsettled report rfl).1 ?_
    cases concludes_of_statusAfterScan hs with
    | settled hmove => exact hmove
    | @interrupted i _ hi he => cases i <;> cases he
  | rested hscan hs hdispatch hstalls he => rcases he _ rfl _ rfl with hs | ⟨reason, hs⟩ <;> cases hs

/-! ### A settled cluster -/

/-- No relocation is asked for in a scan. -/
theorem scan_relocateCalls (r : Run) (h : w.Plain) :
    (r.scan w).1.cluster.relocateCalls = w.cluster.relocateCalls := by
  have hwait : ∀ (w' : World) ms, w'.Plain ∧ w'.cluster.relocateCalls = w.cluster.relocateCalls →
      (w'.wait ms).Plain ∧ (w'.wait ms).cluster.relocateCalls = w.cluster.relocateCalls := by
    refine fun w' ms hw => ⟨hw.1.wait ms, ?_⟩
    rw [World.relocateCalls_wait, hw.2]
  refine (scan_preserves (Q := fun w' => w'.Plain ∧ w'.cluster.relocateCalls = w.cluster.relocateCalls)
    (fun w' path cursor hw => ⟨hw.1.listPage path cursor, ?_⟩) hwait (fun w' hw => ⟨hw.1.report, ?_⟩)
    r ⟨h, rfl⟩).2
  · obtain ⟨grace, failures, he⟩ := Cluster.listPage_frame
      (w'.wait w'.script.listingDelayMs).cluster path cursor
    rw [hw.1.listPage_eq, World.listOnCluster_eq, he]
    exact (hwait w' _ hw).2
  · exact World.report_of_wait (Q := fun v => v.cluster.relocateCalls = w.cluster.relocateCalls)
      (hwait w' _ hw).2 fun _ _ h => h

/-- A run gets as far as its first scan, in the namespace `w'`. -/
def Reaches (r : Run) (w w' : World) : Prop :=
  ∃ w₀ token, w.checkSatisfier = (w₀, .ok false) ∧
    w₀.acquireLease r.holder (r.settings.get .leaseRenewIntervalMs) = (w', .ok token) ∧
    w'.interruption? = none

/-- A run that finds a settled cluster in its first scan ends there. -/
theorem round_of_settled (r : Run) (h : w.Plain) (hi : w.interruption? = none)
    (hreports : w.script.reports = []) (hspared : w.Spared (r.settings.get .listingRetries))
    (hs : w.cluster.Settled r.suite r.paths) (number : Nat) : let result := r.round number w
    result.2.2 = some (.status .success) ∧ result.2.1.history = r.history ∧
      result.1.cluster.relocateCalls = w.cluster.relocateCalls := by
  have hspec := scan_spec (r := { r with stage := .scanning }) (retrying_report _ hreports)
    (h.wait w.script.reportDelayMs).shows
  obtain ⟨-, ⟨ledger, unsatisfiable, hr'⟩, hsettled⟩ := scan_settled { r with stage := .scanning } h
  have hcalls := scan_relocateCalls { r with stage := .scanning } h
  have hfiles : (scan { r with stage := .scanning } w).1.cluster.Settled r.suite r.paths := by
    have hwait := h.shows.wait w.script.reportDelayMs
    exact hs.congr (hspec.1.files.trans hwait.files) (hspec.1.blocks.trans hwait.blocks)
  rw [round, hi]
  dsimp only
  generalize scan _ w = result at *
  obtain ⟨w', r', answer⟩ := result
  obtain rfl := hr'
  rcases hspec.2.2 with ⟨fault, -, hn⟩ | hok
  · exact absurd (hspared.wait _) hn
  · obtain ⟨report, rfl⟩ : ∃ report, answer = .ok report := ⟨_, congrArg Prod.snd hok⟩
    have hmove : report.needsMovement = false := (hsettled report rfl).2 hfiles
    simp only [statusAfterScan, hmove]
    exact ⟨rfl, rfl, hcalls⟩

/-! ### Whole runs -/

theorem relocateCalls_of_reaches {w₀ : World} {answer : Except CallFault Bool} {holder : String}
    {intervalMs : Nat} {lease : Except LeaseError LeaseToken} (hc : w.checkSatisfier = (w₀, answer))
    (ha : w₀.acquireLease holder intervalMs = (w', lease)) :
    w'.cluster.relocateCalls = w.cluster.relocateCalls := by
  have h₀ : w.checkSatisfier.1.cluster.relocateCalls = w.cluster.relocateCalls := by
    rw [World.checkSatisfier]
    split <;> rfl
  have h' : (w₀.acquireLease holder intervalMs).1.cluster.relocateCalls =
      w₀.cluster.relocateCalls := by
    rw [World.acquireLease, Cluster.acquireLease]
    cases w₀.script.acquireError with
    | some e => rfl
    | none => cases w₀.cluster.lease <;> rfl
  rw [hc] at h₀
  rw [ha] at h'
  exact h'.trans h₀

/-- A successful run leaves a settled cluster. -/
theorem run_settled (r : Run) (h : w.Plain) (rounds : Nat) : let result := r.run rounds w
    result.2.2 = some (.status .success) → result.1.cluster.Settled r.suite r.paths := by
  have hcomes := run_comes r w rounds
  dsimp only
  generalize r.run rounds w = result at *
  intro hsuccess
  cases hcomes with
  | refused stage he =>
    obtain rfl := Option.some.inj hsuccess
    rcases he _ rfl with hs | ⟨holder, hs⟩ | ⟨reason, hs⟩ <;> cases hs
  | ended stage hb hn hround hw =>
    obtain rfl := Option.some.inj hsuccess
    have hsettled := round_settled (hb.lasting World.lasting_plain h) hround
    rw [hb.same.suite, hb.same.paths] at hsettled
    obtain ⟨lease, hlease⟩ := hw
    exact hsettled.congr (by rw [hlease]) (by rw [hlease])
  | unfinished hb hw => cases hsuccess

/-- A run that finds a settled cluster in its first scan succeeds without an iteration. -/
theorem run_of_settled (r : Run) (h : w.Plain) (hreach : r.Reaches w w')
    (hreports : w'.script.reports = []) (hspared : w'.Spared (r.settings.get .listingRetries))
    (hs : w'.cluster.Settled r.suite r.paths) (rounds : Nat) : let result := r.run (rounds + 1) w
    result.2.2 = some (.status .success) ∧ result.2.1.history = r.history ∧
      result.1.cluster.relocateCalls = w.cluster.relocateCalls := by
  obtain ⟨w₀, token, hcheck, hacquire, hi⟩ := hreach
  have hplain₀ := h.checkSatisfier
  rw [hcheck] at hplain₀
  have hplain := World.Plain.acquireLease (w := w₀) hplain₀ r.holder (r.settings.get .leaseRenewIntervalMs)
  rw [hacquire] at hplain
  obtain ⟨hsuccess, hhistory, hcalls⟩ := round_of_settled r hplain hi hreports hspared hs 1
  simp only [run, hcheck, satisfierVerdict, underLease, hacquire, iterate]
  generalize round r 1 w' = result at *
  obtain ⟨w₂, r₂, e⟩ := result
  obtain rfl : e = some (.status .success) := hsuccess
  obtain ⟨lease, hl⟩ := exists_lease_releaseLease w₂ token
  refine ⟨rfl, hhistory, ?_⟩
  dsimp only at hcalls ⊢
  rw [hl, ← relocateCalls_of_reaches hcheck hacquire]
  exact hcalls

/-- A successful run leaves a cluster in which every block at or below its paths is settled; and a run
that finds such a cluster in its first scan is successful, moves nothing, and makes no iteration. -/
theorem run_success (h : w.Plain) (paths : Option (List String)) (settings : Settings) (suite : Suite)
    (holder : String) (rounds : Nat) :
    let r := start paths settings suite holder
    let result := r.run rounds w
    (result.2.2 = some (.status .success) → result.1.cluster.Settled suite r.paths) ∧
      ∀ w', r.Reaches w w' → w'.script.reports = [] → w'.Spared (settings.get .listingRetries) →
        w'.cluster.Settled suite r.paths → 1 ≤ rounds →
          result.2.2 = some (.status .success) ∧ result.2.1.history = [] ∧
            result.1.cluster.relocateCalls = w.cluster.relocateCalls := by
  intro r result
  refine ⟨run_settled r h rounds, fun w' hreach hreports hspared hs hrounds => ?_⟩
  obtain ⟨n, rfl⟩ : ∃ n, rounds = n + 1 := ⟨rounds - 1, by omega⟩
  exact run_of_settled r h hreach hreports hspared hs n

/-- A hot block on disk. -/
def settledDescription : ClusterDescription where
  namespaceId := "ns"
  pageSize := none
  nodes := [⟨"a", "/r", [⟨.disk, 10⟩, ⟨.archive, 10⟩]⟩]
  files := [⟨"/f", "HOT", some (.contiguous 1), [⟨1, 4, 1, [⟨"a", .disk⟩]⟩]⟩]
  faults := { FaultDescription.none with listingFailures := 2 }

/-- The cluster of this description. -/
def settledSample : Cluster :=
  match settledDescription.build with
  | .ok c => c
  | .error _ => .empty ""

/-- Two listing calls fail, and the run succeeds all the same. -/
theorem run_success_settledSample :
    let result := (start none .standard .standard "h").run 1 (World.start settledSample .none [])
    result.2.2 = some (.status .success) ∧ result.2.1.history = [] ∧
      result.1.cluster.relocateCalls = 0 ∧ result.1.cluster.Settled .standard ["/"] := by
  have hnumbered : settledDescription.Numbered := by
    unfold ClusterDescription.Numbered
    decide
  have hreachable : settledSample.Reachable := Cluster.reachable_build hnumbered rfl
  have hplain : (World.start settledSample .none []).Plain := ⟨hreachable, rfl⟩
  have hsettled : settledSample.Settled .standard ["/"] := by
    refine hreachable.catalogued.settled_iff.2 fun b hb => ?_
    have hlisted : settledSample.listedUnder ["/"] =
        [⟨"/f", "HOT", ⟨1, 4, 1⟩, .contiguous 1, [⟨"a", .disk, "a-s0", none⟩]⟩] := rfl
    rw [hlisted, List.mem_singleton] at hb
    rw [hb]
    exact ⟨rfl, .inr ⟨[.disk], by decide +kernel, rfl⟩⟩
  have hreaches : (start none .standard .standard "h").Reaches (World.start settledSample .none [])
      _ := ⟨_, _, rfl, rfl, rfl⟩
  obtain ⟨hsound, hcomplete⟩ := run_success hplain none .standard .standard "h" 1
  obtain ⟨hsuccess, hhistory, hcalls⟩ := hcomplete _ hreaches rfl
    ⟨by decide, fun e he => absurd he (by simp [World.start, World.sortEvents])⟩ hsettled
    (Nat.le_refl 1)
  exact ⟨hsuccess, hhistory, hcalls, hsound hsuccess⟩

end Run

end StorageTiering
