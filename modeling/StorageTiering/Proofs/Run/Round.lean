import StorageTiering.Proofs.Cluster.Countable
import StorageTiering.Proofs.Cluster.Deficit
import StorageTiering.Proofs.Dispatch.Executor
import StorageTiering.Proofs.Pass.Agreement
import StorageTiering.Proofs.Run.Course
/-!
# One iteration in a still namespace

In a namespace that is left to itself an iteration comes to the same, whoever executes its moves, as long as
tasks take turns.

* `Cluster.Placed.underway_scheduled` — what a pass schedules aims at the policies of sound records.
* `Run.scan_rested`, `Run.dispatch_still` — the two halves of an iteration.
* `Run.Rested` — a run between two iterations; `Run.Rounds` — what an iteration comes to.
-/

namespace StorageTiering

namespace Settings

variable {s : Settings}

theorem pos_of_check (h : s.check = .ok ()) {k : Setting} (hk : k ∈ Setting.positive) : 0 < s.get k := by
  rw [check] at h
  split at h
  · cases h
  · rename_i hnone
    exact Nat.pos_of_ne_zero (by simpa using List.find?_eq_none.1 hnone k hk)

theorem permits_of_check (h : s.check = .ok ()) (p : Permit) : 0 < p.limit s.limits := by
  cases p with
  | everywhere => exact pos_of_check (k := .maxConcurrentMoves) h (by decide)
  | source => exact pos_of_check (k := .maxMovesPerNode) h (by decide)
  | target => exact pos_of_check (k := .maxMovesPerNode) h (by decide)

end Settings

namespace Cluster

variable {c c' : Cluster} {suite : Suite} {paths : List String} {maxMoves : Nat} {l : Ledger}
  {ms : List Move} {q : Pass} {moved failed : Nat}

theorem deficit_congr (hf : c'.files = c.files) (hb : c'.blocks = c.blocks) (suite : Suite)
    (paths : List String) : c'.deficit suite paths = c.deficit suite paths := by
  rw [deficit, deficit, listedUnder_congr hf hb]

/-- The moves of a pass over the records at or below several paths aim at the policies of sound
records. -/
theorem Placed.underway_scheduled (h : c.Placed) (hcat : c.Catalogued)
    (hs : (Pass.start maxMoves (.ofReports c.reports) suite l).Surveys (Run.walk c paths) ms q) :
    Underway suite paths c c ms 0 id := by
  have hlists : ∀ b ∈ Run.walk c paths, c.Lists b := fun b hb =>
    lists_of_mem_listedUnder (mem_walk.1 hb)
  have hone : ∀ b ∈ Run.walk c paths, ∀ b' ∈ Run.walk c paths, b.block.id = b'.block.id → b = b' :=
    fun b hb b' hb' => hcat.listedUnder_inj (mem_walk.1 hb) (mem_walk.1 hb')
  have howned : ∀ m ∈ ms, ∃ b ∈ Run.walk c paths, b.Valid ∧ b.block.id = m.block.id := by
    intro m hm
    obtain ⟨b, source, o, rfl, ⟨hb, -, hv, -⟩, -⟩ := hs.schedules.offered m hm
    exact ⟨b, hb, hv, rfl⟩
  refine ⟨h, h.fitting_scheduled hs hlists, (List.map_id _).symm, fun b hb => ?_, fun b hb => ?_,
    fun m hm => ?_, Nat.le_refl _⟩
  · exact hs.aims hone b (mem_walk.2 hb)
  · by_cases hv : b.Valid
    · exact .inl hv
    · refine .inr ⟨rfl, fun m hm he => hv ?_⟩
      obtain ⟨b', hb', hv', hid⟩ := howned m hm
      exact hone b' hb' b (mem_walk.2 hb) (hid.trans he) ▸ hv'
  · obtain ⟨b, hb, hv, hid⟩ := howned m hm
    exact ⟨b, mem_walk.1 hb, hv, hid⟩

/-- Executing the moves of a pass lowers the deficit by each move that is done. If bytes can be counted, they
still can, and no move is given up if no data is gone and every type accepts replicas. -/
theorem Placed.executes_scheduled (h : c.Placed) (hcat : c.Catalogued)
    (hs : (Pass.start maxMoves (.ofReports c.reports) suite l).Surveys (Run.walk c paths) ms q)
    (hexec : c.Executes ms.reverse c' [] moved failed) :
    c'.Placed ∧ c'.deficit suite paths + moved ≤ c.deficit suite paths ∧
      moved + failed = (Pass.start maxMoves (.ofReports c.reports) suite l).report.moves + ms.length ∧
      (c.Countable → c'.Countable ∧ (c.missing = [] → c.refused = [] → failed = 0)) := by
  have hreversed : ms.Perm ms.reverse := (List.reverse_perm ms).symm
  have hunderway := (h.underway_scheduled hcat hs).perm hreversed
  obtain ⟨g, hafter⟩ := hexec.underway hunderway
  have hcount := hexec.count
  rw [List.length_nil, Nat.zero_add, List.length_reverse] at hcount
  refine ⟨hafter.placed, hafter.deficit_le, hcount.trans (Nat.zero_add _).symm, fun hcountable => ?_⟩
  have haccepts := hcountable.accepts hunderway.fitting fun hs' =>
    (Move.load_perm hreversed).symm.trans_le (h.room_scheduled hs hs')
  exact ⟨hexec.countable h hunderway.fitting hcountable, hexec.failed_eq_zero h haccepts⟩

end Cluster

namespace Run

variable {P : Prop} {r : Run} {w : World} {execute : Executor}

/-! ### The scan -/

/-- In a still namespace the cluster reports at once. -/
theorem retrying_report_still (r : Run) (h : w.Still) :
    r.retrying World.report w = (w, .ok w.cluster.reports) := by
  rw [retrying_report r (by rw [h.script]; rfl), h.script]
  rfl

theorem scan_consulted (r : Run) (h : w.Still) : w.Consulted (r.scan w).1 := by
  have hrefl : w.Consulted w := (World.Elapsed.refl w).consulted h
  refine scan_preserves (Q := w.Consulted) (fun w' path cursor hw => ?_) (fun w' ms hw => ?_)
    (fun w' hw => ?_) r hrefl
  · exact hw.trans (hw.still.listPage path cursor)
  · exact hw.trans ((hw.still.wait_elapsed ms).consulted hw.still)
  · rw [hw.still.report]
    exact hw

/-- A run between two iterations, in a namespace that is left to itself: no move is live. If `P` is true,
the lease is held. -/
structure Rested (P : Prop) (r : Run) (w : World) : Prop extends World.Plain w where
  placed : w.cluster.Placed
  still : w.Still
  clear : r.ledger.Clear
  secure : P → w.Secure ∧ w.lost = none

/-- A pass with a clear ledger knows no block. -/
theorem not_knows_newPass (hl : r.ledger.Clear) (reports : List NodeReport) (id : BlockId) :
    ¬(r.newPass reports).Knows id := by
  rintro (⟨storage, hs⟩ | ⟨sourceType, targetType, ht⟩)
  · exact absurd hs List.not_mem_nil
  · have hkey := (Ledger.takes_iff_mem _ _).1 ht
    rw [show (r.newPass reports).ledger.keys = [] from hl.2] at hkey
    exact absurd hkey List.not_mem_nil

/-- A scan between two iterations comes to what a pass over the records makes of them, or is ended by a
listing call that fails more often than it is repeated. -/
theorem scan_rested (h : r.Rested P w) : let result := r.scan w
    w.Consulted result.1 ∧ result.1.Plain ∧ (∀ n, w.Spared n → result.1.Spared n) ∧
      ((∃ fault ledger, result.2 = ({ r with ledger := ledger }, .error fault) ∧
          ¬w.Spared (r.settings.get .listingRetries)) ∨
        ∃ ms q, (Pass.start (r.settings.get .maxMovesPerIteration)
            (.ofReports result.1.cluster.reports) r.suite r.ledger).Surveys
              (walk result.1.cluster r.paths) ms q ∧ q.report.pending = 0 ∧
          result.2 = ({ r with ledger := q.ledger }.recordUnsatisfiable q.report.unsatisfiable,
            .ok q.report)) := by
  have hconsulted := scan_consulted r h.still
  obtain ⟨hshows, hspared, hcases⟩ := scan_spec (retrying_report_still r h.still) h.toPlain.shows
  have hfault : ∀ fault, (r.scan w).2.2 = .error fault → ∃ ledger,
      (r.scan w).2.1 = { r with ledger := ledger } := by
    intro fault hf
    simp only [scan, retrying_report_still r h.still] at hf ⊢
    generalize r.scanPaths r.paths w (r.newPass w.cluster.reports) = call at *
    obtain ⟨w', p, stop⟩ := call
    cases stop with
    | none => cases hf
    | some stop => exact ⟨_, rfl⟩
  refine ⟨hconsulted, hshows.toPlain, hspared, hcases.imp ?_ fun hok => ?_⟩
  · rintro ⟨fault, hf, hn⟩
    obtain ⟨ledger, hl⟩ := hfault fault hf
    exact ⟨fault, ledger, Prod.ext hl hf, hn⟩
  · obtain ⟨calls, grace, failures, hc⟩ := hconsulted.counted
    have hreports : (r.scan w).1.cluster.reports = w.cluster.reports := by
      rw [hc]
      rfl
    have hwalk : walk (r.scan w).1.cluster r.paths = walk w.cluster r.paths := by
      rw [hc]
      rfl
    obtain ⟨ms, hs⟩ := Pass.exists_surveys (r.newPass w.cluster.reports) (walk w.cluster r.paths)
    refine ⟨ms, _, by rw [hreports, hwalk]; exact hs, ?_, hok⟩
    exact Pass.pending_scheduleAll _ h.clear.consistent h.clear.fresh fun id hk =>
      absurd hk (not_knows_newPass h.clear _ id)

/-! ### The dispatch -/

/-- A dispatch of moves that wait for their first attempts is interrupted by the loss of the lease, or
every move is done or given up. -/
theorem dispatch_still (he : execute.TakesTurns) (hs : r.settings.check = .ok ())
    (hc : r.ledger.Consistent) (hf : r.ledger.Fresh) (hw : w.Still)
    (hsecure : P → w.Secure ∧ w.lost = none) :
    let result := r.dispatch w execute
    (∃ ledger, result.2.1 = { r with ledger := ledger }) ∧
    ((∃ i, result.2.2 = .error i ∧ ¬P) ∨
      ∃ report, result.2.2 = .ok report ∧ report.cancelled = 0 ∧
        w.cluster.Executes (r.ledger.entries.map Entry.move) result.1.cluster [] report.moved
          report.failed.length ∧
        result.2.1.ledger.Clear ∧ result.1.Still ∧ (P → result.1.Secure ∧ result.1.lost = none)) := by
  have hmax : 0 < r.settings.limits.maxAttempts :=
    Settings.pos_of_check (k := .maxRetryAttempts) hs (by decide)
  exact ⟨⟨_, rfl⟩, he.attempts (Settings.permits_of_check hs) hmax hc hf hw hsecure⟩

/-! ### A whole iteration -/

/-- The end of a run in which nothing more can be moved. -/
def Concluded (e : RunEnd) : Prop := e = .status .success ∨ ∃ n, e = .status (.noMoveBlock n)

/-- What an iteration has done that dispatched moves: each of them is done or given up, and the run is at
rest again. -/
structure Iterated (P : Prop) (r : Run) (w : World) (i : Iteration) (r' : Run) (w' : World) : Prop
    extends Rested P r' w' where
  frame : ∃ ledger unsatisfiable, r' = { r with
    ledger := ledger, stage := .dispatching, unsatisfiable := unsatisfiable, history := r.history ++ [i],
    stalls := if i.isStalled then r.stalls + 1 else 0 }
  scheduled : 1 ≤ i.scheduled
  counts : i.moved + i.failed = i.scheduled ∧ i.cancelled = 0
  lowered : w'.cluster.deficit r.suite r.paths + i.moved ≤ w.cluster.deficit r.suite r.paths
  faults : w'.cluster.missing = w.cluster.missing ∧ w'.cluster.refused = w.cluster.refused
  countable : w.cluster.Countable → w'.cluster.Countable
  sound : w.cluster.missing = [] → w.cluster.refused = [] → w.cluster.Countable → i.failed = 0
  spared : ∀ n, w.Spared n → w'.Spared n

/-- What an iteration comes to: the run ends without a dispatch, or it dispatches moves, and ends if it
has stalled too often. -/
inductive Rounds (P : Prop) (r : Run) (w : World) : World × Run × Option RunEnd → Prop
  | ended {w' : World} {r' : Run} {e : RunEnd} (hkept : r'.history = r.history)
      (hend : P → w.Spared (r.settings.get .listingRetries) → r.settings.get .maxIterations = 0 →
        Concluded e) : Rounds P r w (w', r', some e)
  | iterated {w' : World} {r' : Run} {e : Option RunEnd} {i : Iteration} (h : Iterated P r w i r' w')
      (hgo : e = none → r'.stalls < r.settings.get .maxNoProgressIterations)
      (hend : P → r'.stalls < r.settings.get .maxNoProgressIterations → e = none) :
      Rounds P r w (w', r', e)

/-- A scan that ends a run without an interruption or a limit of iterations finds that nothing more can be
moved. -/
theorem concluded_of_statusAfterScan {number : Nat} {scan : ScanReport} {s : Status}
    (h : r.statusAfterScan number scan w = some s) (hi : w.interruption? = none)
    (hmax : r.settings.get .maxIterations = 0) : Concluded (.status s) := by
  cases concludes_of_statusAfterScan h with
  | settled hsettled => exact .inl rfl
  | stuck hneeds hstuck => exact .inr ⟨_, rfl⟩
  | exhausted hmovable hexhausted =>
    rw [isExhausted, hmax] at hexhausted
    cases hexhausted
  | interrupted hi' hs => cases hi.symm.trans hi'

/-- A scan that does not find the run stuck has scheduled moves: one that has scheduled nothing has left the
ledger clear. -/
theorem one_le_moves_of_isStuck {p q : Pass} {blocks : List ListedBlock} {ms : List Move}
    (hs : p.Surveys blocks ms q) (hl : p.ledger.Clear) (hp : p.report.moves = 0)
    (hpending : q.report.pending = 0) (hr : r.ledger = q.ledger) (h : r.isStuck q.report = false) :
    1 ≤ q.report.moves := by
  by_contra hzero
  have hmoves : q.report.moves = 0 := Nat.lt_one_iff.1 (Nat.not_le.1 hzero)
  have hnil : ms = [] := by
    have hcount := hs.moves
    exact List.length_eq_zero_iff.1 (by omega)
  have hledger : q.ledger.entries = [] := by
    rw [(hs.schedules.eq_of_nil hnil).2]
    exact hl.1
  have hstuck : r.isStuck q.report = true := by
    simp [isStuck, hmoves, hpending, Ledger.isEmpty, hr, hledger]
  exact absurd (hstuck.symm.trans h) nofun

/-- A record of an iteration in which the moves of a pass were executed. -/
theorem iterated_of_executes {w₁ w₂ w₃ : World} {ms : List Move} {q : Pass} {report : DispatchReport}
    {ledger : Ledger} (hw : w.Consulted w₁)
    (hspared : ∀ n, w.Spared n → w₁.Spared n) (hplain : w₁.Plain) (hplaced : w₁.cluster.Placed)
    (hq : (Pass.start (r.settings.get .maxMovesPerIteration) (.ofReports w₁.cluster.reports) r.suite
      r.ledger).Surveys (walk w₁.cluster r.paths) ms q)
    (hmoves : 1 ≤ q.report.moves) (hcancelled : report.cancelled = 0)
    (hexec : w₁.cluster.Executes ms.reverse w₂.cluster [] report.moved report.failed.length)
    (hclear : ledger.Clear) (hstill : w₂.Still) (hsecure : P → w₂.Secure ∧ w₂.lost = none)
    (he : w₂.Elapsed w₃) (number : Nat) (unsatisfiable : List BlockId) :
    Iterated P r w ⟨counter number, q.report.needingMove, q.report.moves, report.moved, report.failed.length,
        report.cancelled, ledger.tally.failedBlocks⟩
      ({ r with ledger := ledger, stage := .dispatching, unsatisfiable := unsatisfiable }.record
        number q.report report) w₃ := by
  obtain ⟨hplaced₂, hlowered, hcount, hsound⟩ :=
    hplaced.executes_scheduled hplain.reachable.catalogued hq hexec
  obtain ⟨hmissing, hrefused, hfailures⟩ := hexec.faults
  obtain ⟨calls, grace, failures, hcluster⟩ := hw.counted
  have hstill₃ := he.still hstill
  have hplain₃ : w₃.Plain := by
    refine ⟨?_, ?_⟩
    · rw [he.cluster]
      exact hexec.preserves (fun c m hc => hc.relocate m) hplain.reachable
    · rw [hstill₃.script]
      rfl
  have hsecure₃ : P → w₃.Secure ∧ w₃.lost = none := by
    intro hp
    obtain ⟨hs, hlost⟩ := hsecure hp
    obtain ⟨hs₃, hlost₃⟩ := he.secure hs
    exact ⟨hs₃, hlost₃.trans hlost⟩
  have hbefore : w₁.cluster.deficit r.suite r.paths = w.cluster.deficit r.suite r.paths := by
    rw [hcluster]
    exact Cluster.deficit_congr rfl rfl _ _
  have hcountable₁ : w.cluster.Countable → w₁.cluster.Countable := fun hcountable =>
    hcountable.congr (by rw [hcluster]) (by rw [hcluster])
  refine ⟨⟨hplain₃, he.cluster.symm ▸ hplaced₂, hstill₃, hclear, hsecure₃⟩, ⟨_, _, rfl⟩, hmoves,
    ⟨hcount.trans hq.moves.symm, hcancelled⟩, ?_, ?_, fun hcountable => ?_, fun hm hn hcountable => ?_,
    fun n hn => ⟨?_, ?_⟩⟩
  · rw [he.cluster, ← hbefore]
    exact hlowered
  · rw [he.cluster, hmissing, hrefused, hcluster]
    exact ⟨rfl, rfl⟩
  · exact he.cluster.symm ▸ (hsound (hcountable₁ hcountable)).1
  · exact (hsound (hcountable₁ hcountable)).2 (by rw [hcluster]; exact hm) (by rw [hcluster]; exact hn)
  · rw [he.cluster, hfailures]
    exact (hspared n hn).failures
  · rw [hstill₃.events]
    exact fun e he => nomatch he

/-- A dispatch of what a pass has scheduled moves blocks towards their policies, or fails to. -/
theorem rounds_dispatchAndRest {w₁ : World} {r' : Run} {ms : List Move} {q : Pass}
    (he : execute.TakesTurns) (hs : r.settings.check = .ok ()) (hw : w.Consulted w₁)
    (hspared : ∀ n, w.Spared n → w₁.Spared n) (hplain : w₁.Plain) (hplaced : w₁.cluster.Placed) (hl : r.ledger.Clear)
    (hsecure : P → w₁.Secure ∧ w₁.lost = none)
    (hq : (Pass.start (r.settings.get .maxMovesPerIteration) (.ofReports w₁.cluster.reports) r.suite
      r.ledger).Surveys (walk w₁.cluster r.paths) ms q)
    (hmoves : 1 ≤ q.report.moves)
    (hr : ∃ stage unsatisfiable,
      r' = { r with ledger := q.ledger, stage := stage, unsatisfiable := unsatisfiable })
    (number : Nat) : Rounds P r w (r'.dispatchAndRest number q.report w₁ execute) := by
  obtain ⟨stage, unsatisfiable, rfl⟩ := hr
  obtain ⟨hentries, hconsistent, hfresh, -⟩ := hq.schedules.ledgered hl.consistent hl.fresh
  rw [show (Pass.start (r.settings.get .maxMovesPerIteration) (.ofReports w₁.cluster.reports) r.suite
    r.ledger).ledger.entries = [] from hl.1, List.map_nil, List.nil_append] at hentries
  obtain ⟨⟨ledger, hledger⟩, hcases⟩ := dispatch_still (r := { r with
    ledger := q.ledger, stage := .dispatching, unsatisfiable := unsatisfiable }) he hs hconsistent hfresh
    hw.still hsecure
  simp only [dispatchAndRest]
  generalize dispatch _ w₁ execute = result at *
  obtain ⟨w₂, r₂, answer⟩ := result
  obtain rfl := hledger
  rcases hcases with ⟨i, rfl, hP⟩ | ⟨report, rfl, hcancelled, hexec, hclear, hstill, hsecure₂⟩
  · exact .ended rfl fun hp => absurd hp hP
  · rw [hentries] at hexec
    have hiterated := fun w₃ (he : w₂.Elapsed w₃) => iterated_of_executes (P := P) hw hspared
      hplain hplaced hq hmoves hcancelled hexec hclear hstill hsecure₂ he number
      unsatisfiable
    dsimp only
    split
    · rename_i hstalls
      exact .iterated (hiterated w₂ (.refl _)) (fun he => absurd he (Option.some_ne_none _)) fun _ hlt =>
        absurd hlt (Nat.not_lt.2 hstalls)
    · rename_i hstalls
      have hrest := hstill.rest_elapsed (r.settings.get .iterationIntervalMs)
      refine .iterated (hiterated _ hrest) (fun _ => Nat.not_le.1 hstalls) fun hp _ => ?_
      have hlost₃ := (hrest.secure (hsecure₂ hp).1).2.trans (hsecure₂ hp).2
      exact Option.map_eq_none_iff.2 ((hrest.still hstill).interruption?_eq_none_iff.2 hlost₃)

/-- What an iteration comes to between two rests. -/
theorem Rested.rounds (h : r.Rested P w) (he : execute.TakesTurns) (hs : r.settings.check = .ok ())
    (number : Nat) : Rounds P r w (r.round number w execute) := by
  rw [round]
  split
  · rename_i i hi
    refine .ended rfl fun hp => absurd hi ?_
    rw [h.still.interruption?_eq_none_iff.2 (h.secure hp).2]
    exact (Option.some_ne_none i).symm
  · have h' : Rested P { r with stage := .scanning } w := ⟨h.toPlain, h.placed, h.still, h.clear, h.secure⟩
    obtain ⟨hconsulted, hplain, hspared, hcases⟩ := scan_rested h'
    dsimp only
    generalize scan _ w = result at *
    obtain ⟨w', answer⟩ := result
    rcases hcases with ⟨fault, ledger, rfl, hn⟩ | ⟨ms, q, hq, hpending, rfl⟩
    · exact .ended rfl fun _ hn' _ => absurd hn' hn
    · dsimp only
      split
      · rename_i s hstatus
        refine .ended rfl fun hp _ hmax => concluded_of_statusAfterScan hstatus ?_ hmax
        obtain ⟨hsecure, hlost⟩ := h.secure hp
        exact hconsulted.still.interruption?_eq_none_iff.2 ((hconsulted.secure hsecure).2.trans hlost)
      · rename_i hstatus
        obtain ⟨hstuck, -, hinterruption⟩ := goesOn_of_statusAfterScan hstatus
        obtain ⟨calls, grace, failures, hc⟩ := hconsulted.counted
        have hplaced : w'.cluster.Placed := by
          rw [hc]
          exact h.placed.congr rfl rfl
        have hmoves : 1 ≤ q.report.moves := one_le_moves_of_isStuck hq h.clear rfl hpending rfl hstuck
        have hsecure : P → w'.Secure ∧ w'.lost = none := fun hp =>
          ⟨(hconsulted.secure (h.secure hp).1).1, hconsulted.still.interruption?_eq_none_iff.1 hinterruption⟩
        exact rounds_dispatchAndRest he hs hconsulted hspared hplain hplaced h.clear hsecure hq hmoves
          ⟨_, _, rfl⟩ number

end Run

end StorageTiering
