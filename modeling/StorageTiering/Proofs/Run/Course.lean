import StorageTiering.Proofs.Dispatch.Namespace
import StorageTiering.Proofs.Run.Scan
import StorageTiering.Run.Iterate
/-!
# The course of a run

A run that gets the lease goes from iteration to iteration, and each of them is one of a few things.

* `World.Lasting` — what calls, waiting and dispatches preserve.
* `Run.Concludes` — what a run makes of a scan; `Run.concludes_of_statusAfterScan`.
* `Run.Iterates` — what an iteration can come to; `Run.round_iterates`.
* `Run.BeginsWith`, `Run.Begins` — a run begins an iteration; `Run.BeginsWith.same`,
  `Run.BeginsWith.lasting`.
* `Run.Comes` — what a run can come to; `Run.run_comes`.

All of this holds whoever executes the moves. What lasts is shown of dispatches in time.
-/

namespace StorageTiering

/-- A property of namespaces that lasts through the calls of a run and through what it waits for. -/
structure World.Lasting (Q : World → Prop) : Prop extends World.Kept Q where
  lists : ∀ (w : World) path cursor, Q w → Q (w.listPage path cursor).1
  reports : ∀ (w : World), Q w → Q w.report.1
  checks : ∀ (w : World), Q w → Q w.checkSatisfier.1
  acquires : ∀ (w : World) holder intervalMs, Q w → Q (w.acquireLease holder intervalMs).1

namespace World

variable {Q : World → Prop}

theorem Kept.waits (hQ : Kept Q) (w : World) (ms : Nat) (h : Q w) : Q (w.wait ms) :=
  wait_of_advance h (fun stop t => hQ.elapses w stop t h) ms

end World

/-- The ends of a run that are not of its own making: an interruption, or a call that fails or breaks
down. -/
def RunEnd.IsForced (e : RunEnd) : Prop :=
  ∀ s, e = .status s → s = .interrupted ∨ ∃ reason, s = .serviceFailure reason

theorem Interruption.isForced_status (i : Interruption) : (RunEnd.status i.status).IsForced := by
  rintro s ⟨⟩
  cases i with
  | leaseLost reason => exact .inr ⟨_, rfl⟩
  | shutdown => exact .inl rfl

theorem Interruption.isForced_statusFound (i : Interruption) : (RunEnd.status i.statusFound).IsForced := by
  rintro s ⟨⟩
  cases i with
  | leaseLost reason => exact .inr ⟨_, rfl⟩
  | shutdown => exact .inl rfl

theorem ScanFault.isForced_ofCall (heading : String) (fault : CallFault) :
    (ofCall heading fault).runEnd.IsForced := by
  rintro s hs
  cases fault with
  | failed e =>
    obtain rfl := RunEnd.status.inj hs
    exact .inr ⟨_, rfl⟩
  | broke => cases hs

/-- The ends of a run that does not begin: another one or the satisfier is at work, or a call fails or
breaks down. -/
def RunEnd.IsRefusal (e : RunEnd) : Prop :=
  ∀ s, e = .status s →
    s = .skipped ∨ (∃ holder, s = .alreadyRunning holder) ∨ ∃ reason, s = .serviceFailure reason

namespace Run

theorem isRefusal_leaseRefused (e : LeaseError) : (RunEnd.status (leaseRefused e)).IsRefusal := by
  rintro s ⟨⟩
  cases e with
  | alreadyHeld holder bySatisfier =>
    cases bySatisfier
    · exact .inr (.inl ⟨_, rfl⟩)
    · exact .inl rfl
  | _ => exact .inr (.inr ⟨_, rfl⟩)

theorem isRefusal_satisfierVerdict {answer : Except CallFault Bool} {e : RunEnd}
    (h : satisfierVerdict answer = some e) : e.IsRefusal := by
  rintro s rfl
  rcases answer with (error | _) | (_ | _)
  · cases h
    exact .inr (.inr ⟨_, rfl⟩)
  · cases h
  · cases h
  · cases h
    exact .inl rfl

variable {r r' r₁ r₂ : Run} {w w' w₁ w₂ : World} {n number rounds : Nat} {Q : World → Prop}
  {execute : Executor} {executors : Nat → Executor}

/-! ### Faults of scans -/

theorem isForced_scanPages (r : Run) (path : String) (n : Nat) (w : World) (p : Pass)
    (cursor : Option String) {fault : ScanFault}
    (h : (r.scanPages path n w p cursor).2.2 = some fault) : fault.runEnd.IsForced := by
  induction n generalizing w p cursor with
  | zero => cases h
  | succ n ih =>
    rw [scanPages] at h
    split at h
    · cases h
    · exact Option.some.inj h ▸ ScanFault.isForced_ofCall _ _
    · dsimp only at h
      split at h
      · exact ih _ _ _ h
      · cases h

theorem isForced_scanPaths (r : Run) (paths : List String) (w : World) (p : Pass) {fault : ScanFault}
    (h : (r.scanPaths paths w p).2.2 = some fault) : fault.runEnd.IsForced := by
  induction paths generalizing w p with
  | nil => cases h
  | cons path rest ih =>
    rw [scanPaths] at h
    split at h
    · exact ih _ _ h
    · rename_i heq
      exact isForced_scanPages r path _ w p none ((congrArg (fun x => x.2.2) heq).trans h)

/-- A scan leaves all of a run as it was but its ledger and the blocks that it cannot move, and ends the run
only because of a call. -/
theorem scan_frame (r : Run) (w : World) :
    (∃ ledger unsatisfiable, (r.scan w).2.1 = { r with ledger := ledger, unsatisfiable := unsatisfiable }) ∧
      ∀ fault, (r.scan w).2.2 = .error fault → fault.runEnd.IsForced := by
  rw [scan]
  split
  · rename_i w' fault heq
    exact ⟨⟨_, _, rfl⟩, fun fault' h => Except.error.inj h ▸ ScanFault.isForced_ofCall _ _⟩
  · rename_i w' reports heq
    have hpaths := fun fault => @isForced_scanPaths r r.paths w' (r.newPass reports) fault
    generalize r.scanPaths r.paths w' (r.newPass reports) = result at *
    obtain ⟨w', p, _ | stop⟩ := result
    · refine ⟨⟨_, _, rfl⟩, fun fault h => ?_⟩
      cases h
    · exact ⟨⟨_, _, rfl⟩, fun fault h => Except.error.inj h ▸ hpaths stop rfl⟩

/-! ### One iteration -/

/-- What a run makes of a scan, in the order in which it looks: it has succeeded, nothing can be moved, its
iterations are used up, it is interrupted, or it goes on. -/
inductive Concludes (r : Run) (number : Nat) (scan : ScanReport) (w : World) : Option Status → Prop
  | settled (hsettled : scan.needsMovement = false) : Concludes r number scan w (some .success)
  | stuck (hneeds : scan.needsMovement) (hstuck : r.isStuck scan) :
      Concludes r number scan w (some (.noMoveBlock r.unsatisfiable.length))
  | exhausted (hmovable : r.isStuck scan = false) (hexhausted : r.isExhausted number) :
      Concludes r number scan w (some (.noMoveProgress (r.settings.get .maxIterations)))
  | interrupted {i : Interruption} {s : Status} (hi : w.interruption? = some i) (hs : s = i.statusFound) :
      Concludes r number scan w (some s)
  | goesOn (hmovable : r.isStuck scan = false) (hspare : r.isExhausted number = false)
      (hi : w.interruption? = none) : Concludes r number scan w none

theorem concludes_of_statusAfterScan {scan : ScanReport} {e : Option Status}
    (h : r.statusAfterScan number scan w = e) : r.Concludes number scan w e := by
  rw [← h, statusAfterScan]
  split
  · exact .settled (by simpa using ‹(!scan.needsMovement) = true›)
  · rename_i hneeds
    split
    · exact .stuck (by simpa using hneeds) ‹_›
    · rename_i hmovable
      split
      · exact .exhausted (Bool.eq_false_iff.2 hmovable) ‹_›
      · rename_i hspare
        cases hi : w.interruption? with
        | none => exact .goesOn (Bool.eq_false_iff.2 hmovable) (Bool.eq_false_iff.2 hspare) hi
        | some i => exact .interrupted hi rfl

/-- A run that goes on after a scan can move something, has iterations left, and is not interrupted. -/
theorem goesOn_of_statusAfterScan {scan : ScanReport} (h : r.statusAfterScan number scan w = none) :
    r.isStuck scan = false ∧ r.isExhausted number = false ∧ w.interruption? = none := by
  cases concludes_of_statusAfterScan h with
  | goesOn hmovable hspare hi => exact ⟨hmovable, hspare, hi⟩

/-- What an iteration can come to: it is ended from outside, its scan ends the run, or what the scan has
scheduled is dispatched and recorded. -/
inductive Iterates (r : Run) (execute : Executor) (number : Nat) (w : World) :
    World × Run × Option RunEnd → Prop
  | forced {w' : World} {e : RunEnd} (ledger : Ledger) (stage : Stage) (unsatisfiable : List BlockId)
      (he : e.IsForced) : Iterates r execute number w
        (w', { r with ledger := ledger, stage := stage, unsatisfiable := unsatisfiable }, some e)
  | judged {w₁ : World} {r₁ : Run} {report : ScanReport} {s : Status}
      (hscan : scan { r with stage := .scanning } w = (w₁, r₁, .ok report))
      (hs : r₁.statusAfterScan number report w₁ = some s) : Iterates r execute number w (w₁, r₁, some (.status s))
  | stalled {w₁ w₂ : World} {r₁ r₂ : Run} {scanned : ScanReport} {report : DispatchReport}
      (hscan : scan { r with stage := .scanning } w = (w₁, r₁, .ok scanned))
      (hs : r₁.statusAfterScan number scanned w₁ = none)
      (hdispatch : dispatch { r₁ with stage := .dispatching } w₁ execute = (w₂, r₂, .ok report))
      (hstalls : r.settings.get .maxNoProgressIterations ≤ (r₂.record number scanned report).stalls) :
      Iterates r execute number w (w₂, r₂.record number scanned report,
        some (.status (.noMoveProgress (r₂.record number scanned report).stalls)))
  | rested {w₁ w₂ : World} {r₁ r₂ : Run} {scanned : ScanReport} {report : DispatchReport}
      {e : Option RunEnd}
      (hscan : scan { r with stage := .scanning } w = (w₁, r₁, .ok scanned))
      (hs : r₁.statusAfterScan number scanned w₁ = none)
      (hdispatch : dispatch { r₁ with stage := .dispatching } w₁ execute = (w₂, r₂, .ok report))
      (hstalls : (r₂.record number scanned report).stalls < r.settings.get .maxNoProgressIterations)
      (he : ∀ e', e = some e' → e'.IsForced) : Iterates r execute number w
        (w₂.rest (r.settings.get .iterationIntervalMs), r₂.record number scanned report, e)

/-- A dispatch leaves all of a run as it was but its ledger. -/
theorem dispatch_frame (r : Run) (w : World) (execute : Executor := Timeline.execute) :
    ∃ ledger, (r.dispatch w execute).2.1 = { r with ledger := ledger } := ⟨_, rfl⟩

theorem round_iterates (r : Run) (number : Nat) (w : World) (execute : Executor := Timeline.execute) :
    r.Iterates execute number w (r.round number w execute) := by
  rw [round]
  split
  · rename_i i hi
    exact .forced r.ledger r.stage r.unsatisfiable i.isForced_statusFound
  · obtain ⟨⟨ledger, unsatisfiable, hr₁⟩, hfault⟩ := scan_frame { r with stage := .scanning } w
    dsimp only
    cases hscan : scan { r with stage := .scanning } w with
    | mk w₁ rest =>
      obtain ⟨r₁, answer⟩ := rest
      rw [hscan] at hr₁ hfault
      obtain rfl := hr₁
      cases answer with
      | error fault => exact .forced ledger .scanning unsatisfiable (hfault fault rfl)
      | ok scanned =>
        dsimp only
        split
        · exact .judged hscan ‹_›
        · rename_i hs
          rw [dispatchAndRest]
          obtain ⟨ledger', hr₂⟩ := dispatch_frame { r with
            ledger := ledger, unsatisfiable := unsatisfiable, stage := .dispatching } w₁ execute
          cases hdispatch : dispatch { r with
              ledger := ledger, unsatisfiable := unsatisfiable, stage := .dispatching } w₁ execute with
          | mk w₂ rest =>
            obtain ⟨r₂, answer⟩ := rest
            rw [hdispatch] at hr₂
            obtain rfl := hr₂
            cases answer with
            | error i => exact .forced ledger' .dispatching unsatisfiable i.isForced_status
            | ok report =>
              dsimp only
              split
              · exact .stalled hscan hs hdispatch ‹_›
              · refine .rested hscan hs hdispatch (Nat.not_le.1 ‹_›) fun e he => ?_
                obtain ⟨i, -, rfl⟩ := Option.map_eq_some_iff.1 he
                exact i.isForced_status

/-- What no iteration changes of a run: its paths, settings, suite and holder. -/
structure Same (r r' : Run) : Prop where
  paths : r'.paths = r.paths
  settings : r'.settings = r.settings
  suite : r'.suite = r.suite
  holder : r'.holder = r.holder

theorem Same.trans (h : r.Same r₁) (h' : r₁.Same r₂) : r.Same r₂ :=
  ⟨h'.paths.trans h.paths, h'.settings.trans h.settings, h'.suite.trans h.suite, h'.holder.trans h.holder⟩

/-- A scan, and a dispatch that is recorded, leave a run the same. -/
theorem same_of_dispatch {scanned : ScanReport} {report : DispatchReport}
    (hscan : scan { r with stage := .scanning } w = (w₁, r₁, .ok scanned))
    (hdispatch : dispatch { r₁ with stage := .dispatching } w₁ execute = (w₂, r₂, .ok report)) :
    r.Same (r₂.record number scanned report) := by
  obtain ⟨⟨ledger, unsatisfiable, hr₁⟩, -⟩ := scan_frame { r with stage := .scanning } w
  obtain ⟨ledger', hr₂⟩ := dispatch_frame { r₁ with stage := .dispatching } w₁ execute
  rw [hscan] at hr₁
  rw [hdispatch] at hr₂
  subst hr₁ hr₂
  exact ⟨rfl, rfl, rfl, rfl⟩

theorem Iterates.same {e : Option RunEnd} (h : r.Iterates execute number w (w', r', e)) : r.Same r' := by
  cases h with
  | forced ledger stage unsatisfiable he => exact ⟨rfl, rfl, rfl, rfl⟩
  | judged hscan hs =>
    obtain ⟨⟨ledger, unsatisfiable, hr₁⟩, -⟩ := scan_frame { r with stage := .scanning } w
    rw [hscan] at hr₁
    subst hr₁
    exact ⟨rfl, rfl, rfl, rfl⟩
  | stalled hscan hs hdispatch hstalls => exact same_of_dispatch hscan hdispatch
  | rested hscan hs hdispatch hstalls he => exact same_of_dispatch hscan hdispatch

/-! ### What lasts -/

theorem scan_lasting (hQ : World.Lasting Q) (r : Run) (h : Q w) : Q (r.scan w).1 :=
  scan_preserves hQ.lists hQ.toKept.waits hQ.reports r h

theorem dispatch_lasting (hQ : World.Lasting Q) (r : Run) (h : Q w) : Q (r.dispatch w).1 :=
  Timeline.run_kept hQ.toKept h

theorem round_lasting (hQ : World.Lasting Q) (r : Run) (number : Nat) (h : Q w) :
    Q (r.round number w).1 := by
  rw [round]
  split
  · exact h
  · have hscan := scan_lasting hQ { r with stage := .scanning } h
    dsimp only
    generalize scan { r with stage := .scanning } w = result at *
    obtain ⟨w₁, r₁, fault | scanned⟩ := result
    · exact hscan
    · dsimp only
      split
      · exact hscan
      · have hdispatch := dispatch_lasting hQ { r₁ with stage := .dispatching } hscan
        rw [dispatchAndRest]
        generalize dispatch { r₁ with stage := .dispatching } w₁ = result at *
        obtain ⟨w₂, r₂, i | report⟩ := result
        · exact hdispatch
        · dsimp only
          split
          · exact hdispatch
          · show Q (w₂.rest _)
            exact hQ.elapses w₂ _ _ hdispatch

theorem iterate_lasting (hQ : World.Lasting Q) (rounds number : Nat) (r : Run) (h : Q w) :
    Q (iterate rounds number r w).1 := by
  induction rounds generalizing number r w with
  | zero => exact h
  | succ rounds ih =>
    have hround := round_lasting hQ r number h
    rw [iterate]
    generalize r.round number w = result at *
    obtain ⟨w₁, r₁, _ | e⟩ := result
    · exact ih _ _ hround
    · exact hround

/-! ### Many iterations -/

/-- A run begins an iteration: the first one once it has the lease, and another one after each that goes
on. -/
inductive BeginsWith (r : Run) (executors : Nat → Executor) (w : World) : Nat → Run → World → Prop
  | first {w₀ w₁ : World} {token : LeaseToken} (hcheck : w.checkSatisfier = (w₀, .ok false))
      (hacquire : w₀.acquireLease r.holder (r.settings.get .leaseRenewIntervalMs) = (w₁, .ok token)) :
      BeginsWith r executors w 1 r w₁
  | next {n : Nat} {r₁ r₂ : Run} {w₁ w₂ : World} (h : BeginsWith r executors w n r₁ w₁)
      (hround : r₁.round n w₁ (executors n) = (w₂, r₂, none)) : BeginsWith r executors w (n + 1) r₂ w₂

/-- A run whose moves are dispatched in time begins an iteration. -/
abbrev Begins (r : Run) (w : World) (n : Nat) (r' : Run) (w' : World) : Prop :=
  r.BeginsWith (fun _ => Timeline.execute) w n r' w'

theorem BeginsWith.same (h : r.BeginsWith executors w n r' w') : r.Same r' := by
  induction h with
  | first hcheck hacquire => exact ⟨rfl, rfl, rfl, rfl⟩
  | @next n r₁ r₂ w₁ w₂ _ hround ih =>
    exact ih.trans (hround ▸ round_iterates r₁ n w₁ (executors n)).same

theorem BeginsWith.lasting (hQ : World.Lasting Q) (h : Q w) (hb : r.Begins w n r' w') : Q w' := by
  induction hb with
  | first hcheck hacquire =>
    have hchecked := hQ.checks w h
    rw [hcheck] at hchecked
    have hacquired := hQ.acquires _ r.holder (r.settings.get .leaseRenewIntervalMs) hchecked
    rw [hacquire] at hacquired
    exact hacquired
  | @next n r₁ r₂ w₁ w₂ _ hround ih =>
    have hdone := round_lasting hQ r₁ n ih
    rw [hround] at hdone
    exact hdone

/-- Iterations go on until one ends the run, or all are used up. -/
theorem BeginsWith.iterate (hb : r.BeginsWith executors w number r₁ w₁) (k : Nat) :
    let result := Run.iterate k number r₁ w₁ executors
    (∃ n r₂ w₂ e, r.BeginsWith executors w n r₂ w₂ ∧ n < number + k ∧
      r₂.round n w₂ (executors n) = result ∧ result.2.2 = some e) ∨
      r.BeginsWith executors w (number + k) result.2.1 result.1 ∧ result.2.2 = none := by
  induction k generalizing number r₁ w₁ with
  | zero => exact .inr ⟨hb, rfl⟩
  | succ k ih =>
    rw [Run.iterate]
    cases hround : r₁.round number w₁ (executors number) with
    | mk w₂ rest =>
      obtain ⟨r₂, _ | e⟩ := rest
      · have hrest := ih (hb.next hround)
        rw [Nat.add_assoc, Nat.add_comm 1 k] at hrest
        exact hrest
      · exact .inl ⟨number, r₁, w₁, e, hb, by omega, hround, rfl⟩

/-! ### Whole runs -/

/-- What a run can come to: it does not begin, an iteration ends it, or it is not finished after all of its
rounds. Giving the lease back changes nothing else of the cluster. -/
inductive Comes (r : Run) (executors : Nat → Executor) (w : World) (rounds : Nat) :
    World × Run × Option RunEnd → Prop
  | refused {w' : World} {e : RunEnd} (stage : Stage) (he : e.IsRefusal) :
      Comes r executors w rounds (w', { r with stage := stage }, some e)
  | ended {n : Nat} {r₁ r₂ : Run} {w₁ w₂ w' : World} {e : RunEnd} (stage : Stage)
      (hb : r.BeginsWith executors w n r₁ w₁) (hn : n ≤ rounds)
      (hround : r₁.round n w₁ (executors n) = (w₂, r₂, some e))
      (hw : ∃ lease, w'.cluster = { w₂.cluster with lease := lease }) :
      Comes r executors w rounds (w', { r₂ with stage := stage }, some e)
  | unfinished {r₂ : Run} {w₂ w' : World} (hb : r.BeginsWith executors w (rounds + 1) r₂ w₂)
      (hw : w'.cluster = w₂.cluster) : Comes r executors w rounds (w', r₂, none)

/-- Giving the lease back changes nothing else of the cluster. -/
theorem exists_lease_releaseLease (w : World) (token : LeaseToken) :
    ∃ lease, (w.releaseLease token).cluster = { w.cluster with lease := lease } := by
  rw [World.releaseLease]
  dsimp only
  split
  · exact ⟨_, rfl⟩
  · rw [Cluster.releaseLease]
    split <;> exact ⟨_, rfl⟩

theorem underLease_comes {w₀ : World} (hcheck : w.checkSatisfier = (w₀, .ok false)) (rounds : Nat) :
    r.Comes executors w rounds (r.underLease rounds w₀ executors) := by
  rw [underLease]
  cases hacquire : w₀.acquireLease r.holder (r.settings.get .leaseRenewIntervalMs) with
  | mk w₁ answer =>
    cases answer with
    | error e => exact .refused r.stage (isRefusal_leaseRefused e)
    | ok token =>
      have hbegins : r.BeginsWith executors w 1 r w₁ := .first hcheck hacquire
      have hcourse := hbegins.iterate rounds
      dsimp only at hcourse ⊢
      generalize iterate rounds 1 r w₁ executors = result at *
      obtain ⟨w₂, r₂, e⟩ := result
      rcases hcourse with ⟨n, r₁, w₁', e, hb, hn, hround, rfl⟩ | ⟨hb, rfl⟩
      · cases e with
        | status s =>
          exact .ended r₂.stage hb (by omega) hround (exists_lease_releaseLease w₂ token)
        | broken => exact .ended r₂.stage hb (by omega) hround ⟨_, rfl⟩
      · rw [Nat.add_comm] at hb
        exact .unfinished hb rfl

theorem run_comes (r : Run) (w : World) (rounds : Nat)
    (executors : Nat → Executor := fun _ => Timeline.execute) :
    r.Comes executors w rounds (r.run rounds w executors) := by
  rw [run]
  cases hcheck : w.checkSatisfier with
  | mk w₀ answer =>
    dsimp only
    cases hverdict : satisfierVerdict answer with
    | some e =>
      have hrefusal := isRefusal_satisfierVerdict hverdict
      cases e with
      | status s => exact .refused .terminated hrefusal
      | broken => exact .refused r.stage hrefusal
    | none =>
      obtain rfl : answer = .ok false := by
        rcases answer with (_ | _) | (_ | _) <;> first | rfl | cases hverdict
      have hcourse : r.Comes executors w rounds (r.underLease rounds w₀ executors) :=
        underLease_comes hcheck rounds
      dsimp only
      generalize underLease r rounds w₀ executors = result at *
      cases hcourse with
      | @refused w' e stage he =>
        cases e with
        | status s => exact .refused .terminated he
        | broken => exact .refused stage he
      | @ended n r₁ r₂ w₁ w₂ w' e stage hb hn hround hw =>
        cases e with
        | status s =>
          show r.Comes executors w rounds (w', { r₂ with stage := .terminated }, _)
          exact .ended .terminated hb hn hround hw
        | broken => exact .ended stage hb hn hround hw
      | unfinished hb hw => exact .unfinished hb hw

end Run

end StorageTiering
