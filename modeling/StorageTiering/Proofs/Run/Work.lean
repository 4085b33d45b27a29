import StorageTiering.Proofs.World.Work
import StorageTiering.Run.Iterate
/-!
# A run in single steps

A run can pause at each call to its namespace, whenever it waits, and between the steps of a dispatch.

* `Work.withRetries`, `Work.scanPages`, `Work.scanPaths`, `Work.scan` — a scan.
* `Work.dispatch`, `Work.round`, `Work.iterate` — an iteration, and many.
* `Work.run` — a whole run; `Work.alone_run` — without a break it is the run.
-/

namespace StorageTiering.Work

variable {α : Type}

/-! ### Scans -/

/-- A call with its repetitions. -/
def withRetries (call : World → World × Except CallFault α) (delayMs : Nat) :
    Nat → Work (Except CallFault α)
  | 0 => once call
  | n + 1 => (once call).bind fun
      | .error (.failed e) =>
          if e.isTransient then (once fun w => (w.wait delayMs, ())).bind fun _ => withRetries call delayMs n
          else done (.error (.failed e))
      | answer => done answer

theorem alone_withRetries (call : World → World × Except CallFault α) (delayMs n : Nat) (w : World) :
    (withRetries call delayMs n).alone w = World.withRetries call delayMs n w := by
  induction n generalizing w with
  | zero => rfl
  | succ n ih =>
    rw [withRetries, World.withRetries, alone_bind, alone_once]
    obtain ⟨w', (e | _) | a⟩ := call w
    · dsimp only
      split
      · rw [alone_bind, alone_once, ih]
      · rfl
    · rfl
    · rfl

/-- A call with the repetitions that the settings allow. -/
def retrying (r : Run) (call : World → World × Except CallFault α) : Work (Except CallFault α) :=
  withRetries call (r.settings.get .retryDelayMs) (r.settings.get .listingRetries)

@[simp] theorem alone_retrying (r : Run) (call : World → World × Except CallFault α) (w : World) :
    (retrying r call).alone w = r.retrying call w :=
  alone_withRetries _ _ _ w

/-- The pages of a path from a cursor on, at most so many. -/
def scanPages (r : Run) (path : String) : Nat → Pass → Option String → Work (Pass × Option ScanFault)
  | 0, p, _ => done (p, none)
  | n + 1, p, cursor => (retrying r fun w => w.listPage path cursor).bind fun
      | .error (.failed (.pathNotFound _)) => done (p, none)
      | .error fault => done (p, some (ScanFault.ofCall ("listing " ++ path) fault))
      | .ok page =>
          match page.next with
          | some next => scanPages r path n (p.scheduleAll page.blocks) (some next)
          | none => done (p.scheduleAll page.blocks, none)

theorem alone_scanPages (r : Run) (path : String) (n : Nat) (p : Pass) (cursor : Option String) (w : World) :
    (scanPages r path n p cursor).alone w = r.scanPages path n w p cursor := by
  induction n generalizing p cursor w with
  | zero => rfl
  | succ n ih =>
    rw [scanPages, Run.scanPages, alone_bind, alone_retrying]
    generalize r.retrying (fun w => w.listPage path cursor) w = answer
    obtain ⟨w', (e | _) | page⟩ := answer
    · cases e <;> rfl
    · rfl
    · dsimp only
      cases page.next with
      | none => rfl
      | some next => exact ih _ _ _

/-- All pages of several paths. -/
def scanPaths (r : Run) : List String → Pass → Work (Pass × Option ScanFault)
  | [], p => done (p, none)
  | path :: rest, p =>
      (look fun w => (w.cluster.itemsUnder path).length + 1).bind fun most =>
      (scanPages r path most p none).bind fun
        | (p, none) => scanPaths r rest p
        | (p, some fault) => done (p, some fault)

theorem alone_scanPaths (r : Run) (paths : List String) (p : Pass) (w : World) :
    (scanPaths r paths p).alone w = r.scanPaths paths w p := by
  induction paths generalizing p w with
  | nil => rfl
  | cons path rest ih =>
    rw [scanPaths, Run.scanPaths, alone_bind, alone_look, alone_bind, alone_scanPages, Run.scanPath]
    generalize r.scanPages path _ w p none = answer
    obtain ⟨w', p', _ | fault⟩ := answer
    · exact ih p' w'
    · rfl

/-- A whole scan. -/
def scan (r : Run) : Work (Run × Except ScanFault ScanReport) :=
  (retrying r World.report).bind fun
    | .error fault => done (r, .error (ScanFault.ofCall "storage report" fault))
    | .ok reports =>
        (scanPaths r r.paths (r.newPass reports)).bind fun result => done (r.afterPass result.1 result.2)

@[simp] theorem alone_scan (r : Run) (w : World) : (scan r).alone w = r.scan w := by
  rw [scan, Run.scan, alone_bind, alone_retrying]
  generalize r.retrying World.report w = answer
  obtain ⟨w', fault | reports⟩ := answer
  · rfl
  · rw [alone_bind, alone_scanPaths]
    rfl

/-! ### Dispatches -/

/-- At most so many steps of a dispatch. -/
def dispatchSteps : Nat → Timeline → Work Timeline
  | 0, s => done s
  | n + 1, s =>
      if s.isOver then done s
      else step (fun w => { s with world := w }.step.world) fun w => dispatchSteps n { s with world := w }.step

theorem alone_dispatchSteps (n : Nat) (s : Timeline) :
    (dispatchSteps n s).alone s.world = ((Timeline.runSteps n s).world, Timeline.runSteps n s) := by
  induction n generalizing s with
  | zero => rfl
  | succ n ih =>
    rw [dispatchSteps, Timeline.runSteps]
    split
    · rfl
    · exact ih s.step

/-- The dispatch of the pending moves. -/
def dispatch (r : Run) : Work (Run × Except Interruption DispatchReport) :=
  (look fun w => Timeline.start r.settings.limits r.ledger w (r.settings.get .leaseGracePeriodMs) none).bind
    fun s => (dispatchSteps s.enough s).bind fun s =>
      done ({ r with ledger := s.ledger },
        match s.interruption with
        | some i => .error i
        | none => .ok s.report)

@[simp] theorem alone_dispatch (r : Run) (w : World) : (dispatch r).alone w = r.dispatch w := by
  have hsteps (s : Timeline) (hs : s.world = w) : (dispatchSteps s.enough s).alone w = (s.run.world, s.run) :=
    hs ▸ alone_dispatchSteps s.enough s
  rw [dispatch, alone_bind, alone_look, alone_bind, hsteps _ rfl]
  rfl

/-- The dispatch of an iteration, and the pause after it. -/
def dispatchAndRest (r : Run) (number : Nat) (scan : ScanReport) : Work (Run × Option RunEnd) :=
  (dispatch { r with stage := .dispatching }).bind fun
    | (r, .error i) => done (r, some (.status i.status))
    | (r, .ok report) =>
        let r := r.record number scan report
        if r.settings.get .maxNoProgressIterations ≤ r.stalls then
          done (r, some (.status (.noMoveProgress r.stalls)))
        else
          (once fun w => (w.rest (r.settings.get .iterationIntervalMs), ())).bind fun _ =>
          (look World.interruption?).bind fun i => done (r, i.map fun i => .status i.status)

@[simp] theorem alone_dispatchAndRest (r : Run) (number : Nat) (scan : ScanReport) (w : World) :
    (dispatchAndRest r number scan).alone w = r.dispatchAndRest number scan w := by
  rw [dispatchAndRest, Run.dispatchAndRest, alone_bind, alone_dispatch]
  generalize Run.dispatch _ w = answer
  obtain ⟨w', r', i | report⟩ := answer
  · rfl
  · dsimp only
    split <;> rfl

/-! ### Iterations -/

/-- One iteration. -/
def round (r : Run) (number : Nat) : Work (Run × Option RunEnd) :=
  (look World.interruption?).bind fun
    | some i => done (r, some (.status i.statusFound))
    | none => (scan { r with stage := .scanning }).bind fun
        | (r, .error fault) => done (r, some fault.runEnd)
        | (r, .ok report) => (look (r.statusAfterScan number report)).bind fun
            | some s => done (r, some (.status s))
            | none => dispatchAndRest r number report

@[simp] theorem alone_round (r : Run) (number : Nat) (w : World) :
    (round r number).alone w = r.round number w := by
  rw [round, Run.round, alone_bind, alone_look]
  cases w.interruption? with
  | some i => rfl
  | none =>
    dsimp only
    rw [alone_bind, alone_scan]
    generalize Run.scan _ w = answer
    obtain ⟨w', r', fault | report⟩ := answer
    · rfl
    · dsimp only
      rw [alone_bind, alone_look]
      cases r'.statusAfterScan number report w' with
      | some s => rfl
      | none => exact alone_dispatchAndRest _ _ _ _

/-- At most so many iterations. -/
def iterate : Nat → Nat → Run → Work (Run × Option RunEnd)
  | 0, _, r => done (r, none)
  | n + 1, number, r => (round r number).bind fun
      | (r, some e) => done (r, some e)
      | (r, none) => iterate n (number + 1) r

@[simp] theorem alone_iterate (n number : Nat) (r : Run) (w : World) :
    (iterate n number r).alone w = Run.iterate n number r w := by
  induction n generalizing number r w with
  | zero => rfl
  | succ n ih =>
    rw [iterate, Run.iterate, alone_bind, alone_round]
    generalize r.round number w = answer
    obtain ⟨w', r', _ | e⟩ := answer
    · exact ih _ _ _
    · rfl

/-! ### Whole runs -/

/-- The iterations between acquiring the lease and giving it back. -/
def underLease (r : Run) (rounds : Nat) : Work (Run × Option RunEnd) :=
  (once fun w => w.acquireLease r.holder (r.settings.get .leaseRenewIntervalMs)).bind fun
    | .error e => done (r, some (.status (Run.leaseRefused e)))
    | .ok token => (iterate rounds 1 r).bind fun
        | (r, some (.status s)) =>
            (once fun w => (w.releaseLease token, ())).bind fun _ => done (r, some (.status s))
        | (r, e) => (once fun w => (w.dropLease, ())).bind fun _ => done (r, e)

@[simp] theorem alone_underLease (r : Run) (rounds : Nat) (w : World) :
    (underLease r rounds).alone w = r.underLease rounds w := by
  rw [underLease, Run.underLease, alone_bind, alone_once]
  generalize w.acquireLease r.holder (r.settings.get .leaseRenewIntervalMs) = answer
  obtain ⟨w', e | token⟩ := answer
  · rfl
  · dsimp only
    rw [alone_bind, alone_iterate]
    generalize Run.iterate rounds 1 r w' = result
    obtain ⟨w₁, r₁, _ | ⟨s | _⟩⟩ := result <;> rfl

/-- A whole run of at most so many iterations. -/
def run (r : Run) (rounds : Nat) : Work (Run × Option RunEnd) :=
  (once World.checkSatisfier).bind fun answer =>
    Work.bind
      (match Run.satisfierVerdict answer with
      | some e => done (r, some e)
      | none => underLease r rounds)
      fun
      | (r, some (.status s)) => done ({ r with stage := .terminated }, some (.status s))
      | (r, e) => done (r, e)

/-- Without a break the steps of a run are the run. -/
theorem alone_run (r : Run) (rounds : Nat) (w : World) : (run r rounds).alone w = r.run rounds w := by
  rw [run, Run.run, alone_bind, alone_once]
  generalize w.checkSatisfier = call
  obtain ⟨w', answer⟩ := call
  dsimp only
  rw [alone_bind]
  cases Run.satisfierVerdict answer with
  | some e => cases e <;> rfl
  | none =>
    dsimp only
    rw [alone_underLease]
    generalize r.underLease rounds w' = result
    obtain ⟨w₁, r₁, _ | ⟨s | _⟩⟩ := result <;> rfl

end StorageTiering.Work
