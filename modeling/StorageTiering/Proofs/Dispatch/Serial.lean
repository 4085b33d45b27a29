import StorageTiering.Dispatch.Timeline
import StorageTiering.Proofs.Dispatch.Orderly
import StorageTiering.Proofs.World.Bare
/-!
# Dispatches one attempt at a time

In a namespace without a script a task goes through an attempt without anybody coming between, so a
dispatch is a sequence of whole attempts, whatever happens to the cluster between them.

* `Timeline.Serial` — a dispatch between two attempts.
* `Timeline.potential` — a bound on the steps that are left.
* `Timeline.Answered`, `Timeline.Advances` — what an attempt comes to, and how such a dispatch goes on.
* `Timeline.Serial.advance`, `Timeline.Serial.runSteps` — it goes on until all tasks have ended, or the run
  is interrupted.
-/

namespace StorageTiering.Timeline

variable {s s' : Timeline} {t t' : Task} {front back : List Task} {rest : List (MoveId × Wake)}
  {p q : Permit} {l : Ledger}

/-- Why an idle task goes on. -/
def wakeOf (t : Task) : Wake := if t.phase = .resting then .rested else .go

/-- A dispatch between two attempts, in a namespace without a script: every open task is in line or has its
moment. -/
structure Serial (s : Timeline) : Prop where
  orderly : s.dispatch.Orderly
  bare : s.world.Bare
  steady : s.interruption = none ∧ s.graceEnds = none ∧ s.dropsAt = none ∧ s.dropped = false
  covered : (s.line ++ s.alarms.map fun a => (a.id, a.wake)).Perm
    (s.dispatch.openTasks.map fun t => (t.id, wakeOf t))

/-- The steps of the attempts that the open ones among tasks have left, at seven for each attempt: one
of them is for the clock, and one for the end of the rest after it. -/
def weight (limits : DispatchLimits) : List Task → Nat
  | [] => 0
  | t :: rest => weight limits rest + if t.isOpen then 7 * (limits.maxAttempts - t.attempts) else 0

theorem weight_split (limits : DispatchLimits) (front : List Task) (t : Task) (back : List Task) :
    weight limits (front ++ t :: back) = weight limits (front ++ back) +
      if t.isOpen then 7 * (limits.maxAttempts - t.attempts) else 0 := by
  induction front with
  | nil => rfl
  | cons first front ih =>
    rw [List.cons_append, List.cons_append, weight, weight, ih]
    omega

theorem weight_open (limits : DispatchLimits) (front back : List Task) (ho : t.isOpen) :
    weight limits (front ++ t :: back) =
      weight limits (front ++ back) + 7 * (limits.maxAttempts - t.attempts) := by
  rw [weight_split, if_pos ho]

theorem weight_ended (limits : DispatchLimits) (front back : List Task) (ho : t.isOpen = false) :
    weight limits (front ++ t :: back) = weight limits (front ++ back) := by
  rw [weight_split, ho]
  rfl

/-- A bound on the steps that are left. -/
def potential (s : Timeline) : Nat :=
  weight s.dispatch.limits s.dispatch.tasks + s.line.countP (fun w => w.2 == .rested) +
    2 * s.alarms.length

/-! ### The steps of an attempt -/

/-- The dispatch with a permit for a task. -/
def granting (s : Timeline) (t : Task) (p : Permit) : Timeline :=
  { s with dispatch := s.dispatch.setPhase t.id (.granted p) }

theorem step_eq {wake : Wake} (hline : s.line = (t.id, wake) :: rest)
    (ht : s.dispatch.task? t.id = some t) : s.step = { s with line := rest }.stepTask t wake := by
  simp only [step, hline, ht]

theorem step_ready (h : s.dispatch.Orderly) (hs : s.dispatch.tasks = front ++ t :: back)
    (hline : s.line = (t.id, .go) :: rest) (hp : t.phase = .ready) :
    s.step = s.granting t .everywhere := by
  have ht := Dispatch.task?_setPhase h.distinct hs (.granted .everywhere)
  rw [step_eq hline (Dispatch.task?_split h.distinct hs)]
  obtain ⟨dispatch, world, line, alarms, graceMs, interruption, graceEnds, dropsAt, dropped⟩ := s
  obtain rfl : line = (t.id, .go) :: rest := hline
  simp only [stepTask, stepGo, hp, apply, Dispatch.begin_idle h, continueIfAble, ht, goOn, granting,
    List.map_nil, List.append_nil]

theorem step_granting (h : s.dispatch.Orderly) (hs : s.dispatch.tasks = front ++ t :: back)
    (hline : s.line = (t.id, .go) :: rest) (hq : p.next? = some q) :
    (s.granting t p).step = s.granting t q := by
  have ht := Dispatch.task?_setPhase h.distinct hs (.granted p)
  have ht' := Dispatch.task?_setPhase h.distinct hs (.granted q)
  have hproceed : (s.dispatch.setPhase t.id (.granted p)).proceed { t with phase := .granted p } p =
      (s.dispatch.setPhase t.id (.granted q), []) :=
    Dispatch.proceed_setPhase (t := { t with phase := .granted p }) h hq
  obtain ⟨dispatch, world, line, alarms, graceMs, interruption, graceEnds, dropsAt, dropped⟩ := s
  obtain rfl : line = (t.id, .go) :: rest := hline
  simp only [step, granting, ht, stepTask, stepGo, apply, hproceed, continueIfAble, ht', goOn,
    List.map_nil, List.append_nil]
  simp

/-- The dispatch with a task inside an attempt. -/
def running (s : Timeline) (t : Task) (rest : List (MoveId × Wake)) : Timeline :=
  { s with
    dispatch := s.dispatch.setPhase t.id .running,
    world := s.world.note .start t.move,
    line := (t.id, .answer .perform) :: rest }

theorem step_granting_last (h : s.dispatch.Orderly) (hw : s.world.Bare)
    (hs : s.dispatch.tasks = front ++ t :: back) (hline : s.line = (t.id, .go) :: rest) :
    (s.granting t .target).step = s.running t rest := by
  have ht := Dispatch.task?_setPhase h.distinct hs (.granted .target)
  have ht' := Dispatch.task?_setPhase h.distinct hs .running
  have hproceed : (s.dispatch.setPhase t.id (.granted .target)).proceed
      { t with phase := .granted .target } .target = (s.dispatch.setPhase t.id .running, []) :=
    Dispatch.proceed_last (t := { t with phase := .granted .target }) h
  obtain ⟨dispatch, world, line, alarms, graceMs, interruption, graceEnds, dropsAt, dropped⟩ := s
  obtain rfl : line = (t.id, .go) :: rest := hline
  simp only [step, granting, ht, stepTask, stepGo, apply, hproceed, ht', startAttempt, goOnAfter, goOn,
    hw.beginAttempt, Nat.zero_le, if_true, List.map_nil, List.append_nil, running]

/-- The namespace after an attempt that its cluster answers. -/
def attempted (w : World) (m : Move) : World := ((w.note .start m).settleAttempt m .perform).1

/-- The dispatch after an attempt of a task; a task that rests gets its moment. -/
def settled (s : Timeline) (m : Move) (d : Dispatch) (t : Task) (rest : List (MoveId × Wake)) :
    Timeline :=
  let s := { s with dispatch := d, world := attempted s.world m, line := rest }
  if t.phase = .resting then s.goOnAfter s.dispatch.limits.retryDelayMs t.id .rested else s

theorem step_running {t' : Task} {l : Ledger} (h : s.dispatch.Orderly)
    (hs : s.dispatch.tasks = front ++ t :: back) (hid : t'.id = t.id)
    (hf : (s.dispatch.setPhase t.id .running).finish { t with phase := .running }
      (.answered (s.world.cluster.relocate t.move).2) = (s.dispatch.put front t' back l, [])) :
    (s.running t rest).step = s.settled t.move (s.dispatch.put front t' back l) t' rest := by
  have ht := Dispatch.task?_setPhase h.distinct hs .running
  have ht' : (s.dispatch.put front t' back l).task? t.id = some t' := by
    rw [← hid]
    exact Dispatch.task?_split (Dispatch.nodup_put h.distinct hs hid) rfl
  have hsettle : ((s.world.note .start t.move).settleAttempt t.move .perform) =
      (attempted s.world t.move, .answered (s.world.cluster.relocate t.move).2) := rfl
  obtain ⟨dispatch, world, line, alarms, graceMs, interruption, graceEnds, dropsAt, dropped⟩ := s
  simp only [step, running, ht, stepTask, hsettle, stepFinish, apply, hf, ht', settled, List.map_nil,
    List.append_nil, hid]

/-! ### Whole attempts -/

theorem isOver_eq_false (hd : s.dropped = false) (ht : t ∈ s.dispatch.tasks) (ho : t.isOpen) :
    s.isOver = false := by
  rw [isOver, hd, Bool.false_or, Dispatch.isOver, List.all_eq_false]
  exact ⟨t, ht, by simpa [Task.isOpen] using ho⟩

theorem runSteps_succ (h : s.isOver = false) (n : Nat) : runSteps (n + 1) s = runSteps n s.step := by
  rw [runSteps, h]
  rfl

/-- A ready task that is first in line goes through a whole attempt. -/
theorem runSteps_attempt (t' : Task) {l : Ledger} (h : s.dispatch.Orderly) (hw : s.world.Bare)
    (hd : s.dropped = false) (hs : s.dispatch.tasks = front ++ t :: back)
    (hline : s.line = (t.id, .go) :: rest) (hp : t.phase = .ready) (hid : t'.id = t.id)
    (hf : (s.dispatch.setPhase t.id .running).finish { t with phase := .running }
      (.answered (s.world.cluster.relocate t.move).2) = (s.dispatch.put front t' back l, [])) (n : Nat) :
    runSteps (n + 5) s = runSteps n (s.settled t.move (s.dispatch.put front t' back l) t' rest) := by
  have hopen : ∀ (s' : Timeline) (ph : Phase), s'.dropped = false →
      s'.dispatch = s.dispatch.setPhase t.id ph → ph.isEnded = false → s'.isOver = false := by
    intro s' ph hd' hs' hph
    refine isOver_eq_false (t := { t with phase := ph }) hd' ?_ (Task.isOpen_of_phase rfl hph)
    rw [hs', Dispatch.setPhase_put h.distinct hs]
    exact List.mem_append_right _ List.mem_cons_self
  have hready : s.isOver = false := by
    refine isOver_eq_false (t := t) hd ?_ ?_
    · rw [hs]
      exact List.mem_append_right _ List.mem_cons_self
    · exact Task.isOpen_of_phase hp rfl
  have hgranting : ∀ p, (s.granting t p).isOver = false := fun p => hopen _ (.granted p) hd rfl rfl
  have hrunning : (s.running t rest).isOver = false := hopen _ .running hd rfl rfl
  calc runSteps (n + 5) s
      = runSteps (n + 4) (s.granting t .everywhere) := by
        rw [runSteps_succ hready, step_ready h hs hline hp]
    _ = runSteps (n + 3) (s.granting t .source) := by
        rw [runSteps_succ (hgranting _), step_granting h hs hline rfl]
    _ = runSteps (n + 2) (s.granting t .target) := by
        rw [runSteps_succ (hgranting _), step_granting h hs hline rfl]
    _ = runSteps (n + 1) (s.running t rest) := by
        rw [runSteps_succ (hgranting _), step_granting_last h hw hs hline]
    _ = runSteps n (s.settled t.move (s.dispatch.put front t' back l) t' rest) := by
        rw [runSteps_succ hrunning, step_running h hs hid hf]

/-- The task that is first in line is an open one among others. -/
theorem Serial.first {id : MoveId} {wake : Wake} (h : s.Serial)
    (hline : s.line = (id, wake) :: rest) : ∃ front t back, s.dispatch.tasks = front ++ t :: back ∧
      t.isOpen ∧ t.id = id ∧ wakeOf t = wake ∧
      (rest ++ s.alarms.map fun a => (a.id, a.wake)).Perm
        ((front.filter Task.isOpen ++ back.filter Task.isOpen).map fun t => (t.id, wakeOf t)) := by
  have hcovered := h.covered
  rw [hline, List.cons_append] at hcovered
  obtain ⟨t, ht, he⟩ := List.mem_map.1 (hcovered.subset List.mem_cons_self)
  obtain ⟨htasks, ho⟩ := List.mem_filter.1 ht
  obtain ⟨front, back, hs⟩ := List.append_of_mem htasks
  refine ⟨front, t, back, hs, ho, congrArg Prod.fst he, congrArg Prod.snd he, ?_⟩
  rw [Dispatch.openTasks_split hs ho, List.map_append, List.map_cons, he] at hcovered
  rw [List.map_append]
  exact (hcovered.trans List.perm_middle).cons_inv

theorem ready_of_wakeOf (hidle : t.Idle) (ho : t.isOpen) (hw : wakeOf t = .go) : t.phase = .ready := by
  rcases hidle.ready_or_resting ho with hp | hp
  · exact hp
  · rw [wakeOf, if_pos hp] at hw
    exact absurd hw (by decide)

theorem resting_of_wakeOf (hw : wakeOf t = .rested) : t.phase = .resting := by
  rw [wakeOf] at hw
  split at hw
  · assumption
  · exact absurd hw (by decide)

/-- What an attempt makes of a task: it is done, or it is refused, and rests or is given up. -/
inductive Answered (s : Timeline) (t : Task) : Task → Prop
  | done (hr : s.world.cluster.relocationError? t.move = none) :
      Answered s t { t with phase := .ended .succeeded }
  | again {e : TransferError} (hr : s.world.cluster.relocationError? t.move = some e)
      (hlt : t.attempts + 1 < s.dispatch.limits.maxAttempts) :
      Answered s t { t with phase := .resting, attempts := t.attempts + 1 }
  | givenUp {e : TransferError} (hr : s.world.cluster.relocationError? t.move = some e)
      (hle : s.dispatch.limits.maxAttempts ≤ t.attempts + 1) :
      Answered s t { t with phase := .ended (.failed e), attempts := t.attempts + 1 }

theorem exists_answered (s : Timeline) (t : Task) : ∃ t', s.Answered t t' := by
  cases hr : s.world.cluster.relocationError? t.move with
  | none => exact ⟨_, .done hr⟩
  | some e =>
    by_cases hlt : t.attempts + 1 < s.dispatch.limits.maxAttempts
    · exact ⟨_, .again hr hlt⟩
    · exact ⟨_, .givenUp hr (Nat.not_lt.1 hlt)⟩

namespace Answered

theorem id (h : s.Answered t t') : t'.id = t.id := by
  cases h <;> rfl

theorem ended_or_resting (h : s.Answered t t') : t'.isOpen = false ∨ t'.phase = .resting := by
  cases h with
  | again _ _ => exact .inr rfl
  | _ => exact .inl rfl

/-- How the attempt ends in the dispatch. -/
theorem finish (h : s.Answered t t') (ho : s.dispatch.Orderly) (hs : s.dispatch.tasks = front ++ t :: back)
    (hopen : t.isOpen) : ∃ l, (s.dispatch.setPhase t.id .running).finish { t with phase := .running }
        (.answered (s.world.cluster.relocate t.move).2) = (s.dispatch.put front t' back l, []) ∧
      (s.dispatch.put front t' back l).Orderly := by
  cases h with
  | done hr =>
    rw [Cluster.relocate_ok_iff.2 hr]
    exact Dispatch.finish_ok ho hs hopen
  | @again e hr hlt =>
    rw [Cluster.relocate_of_error hr]
    exact Dispatch.finish_again ho hs hopen hlt e
  | @givenUp e hr hle =>
    rw [Cluster.relocate_of_error hr]
    exact Dispatch.finish_giveUp ho hs hopen hle e

/-- An attempt uses up what its five steps weigh, and the two that a rest takes. -/
theorem weight_le (h : s.Answered t t') (hopen : t.isOpen) (hspare : t.attempts < s.dispatch.limits.maxAttempts)
    (front back : List Task) : weight s.dispatch.limits (front ++ t' :: back) +
      (if t'.phase = .resting then 2 else 0) + 5 ≤ weight s.dispatch.limits (front ++ t :: back) := by
  have hweight := weight_open s.dispatch.limits front back hopen
  cases h with
  | done hr =>
    rw [weight_ended _ _ _ rfl, hweight, if_neg (by simp)]
    omega
  | again hr hlt =>
    rw [weight_open _ _ _ rfl, hweight, if_pos rfl]
    dsimp only
    omega
  | givenUp hr hle =>
    rw [weight_ended _ _ _ rfl, hweight, if_neg (by simp)]
    omega

end Answered

/-- How a dispatch goes on from one moment between attempts to the next: a ready task goes through an
attempt, or one has rested, or the clock goes on. -/
inductive Advances (s : Timeline) : Timeline → Prop
  | attempt {front back : List Task} {t t' : Task} {l : Ledger} {rest : List (MoveId × Wake)}
      (hs : s.dispatch.tasks = front ++ t :: back) (hp : t.phase = .ready)
      (hf : (s.dispatch.setPhase t.id .running).finish { t with phase := .running }
        (.answered (s.world.cluster.relocate t.move).2) = (s.dispatch.put front t' back l, [])) :
      Advances s (s.settled t.move (s.dispatch.put front t' back l) t' rest)
  | wake {front back : List Task} {t : Task} {l : Ledger} {rest : List (MoveId × Wake)}
      (hs : s.dispatch.tasks = front ++ t :: back) (hp : t.phase = .resting)
      (hw : s.dispatch.wake t = s.dispatch.put front { t with phase := .ready } back l) : Advances s { s with
        dispatch := s.dispatch.put front { t with phase := .ready } back l, line := (t.id, .go) :: rest }
  | ring (stop : World → Bool) (moment : Nat) (hi : (s.world.advance stop moment).interruption? = none) :
      Advances s { s with world := s.world.advance stop moment }.ring

/-- A dispatch is between two attempts after an attempt of a task that has ended by it, or rests. -/
theorem Serial.settled (h : s.Serial) (hput : (s.dispatch.put front t' back l).Orderly)
    (ht' : t'.isOpen = false ∨ t'.phase = .resting)
    (hrest : (rest ++ s.alarms.map fun a => (a.id, a.wake)).Perm
      ((front.filter Task.isOpen ++ back.filter Task.isOpen).map fun t => (t.id, wakeOf t))) :
    (s.settled t.move (s.dispatch.put front t' back l) t' rest).Serial := by
  have hbare : (attempted s.world t.move).Bare := ⟨h.bare.script, h.bare.signal, h.bare.unasked⟩
  rw [Timeline.settled]
  rcases ht' with hended | hresting
  · have hp : t'.phase ≠ .resting := by
      intro hp
      rw [Task.isOpen_of_phase hp rfl] at hended
      cases hended
    rw [if_neg hp]
    exact ⟨hput, hbare, h.steady, Dispatch.openTasks_put_ended hended ▸ hrest⟩
  · have hopen : (s.dispatch.put front t' back l).openTasks =
        front.filter Task.isOpen ++ t' :: back.filter Task.isOpen :=
      Dispatch.openTasks_put_open (Task.isOpen_of_phase hresting rfl)
    have hwake : wakeOf t' = .rested := if_pos hresting
    have htail : ((t'.id, Wake.rested) :: (rest ++ s.alarms.map fun a => (a.id, a.wake))).Perm
        ((s.dispatch.put front t' back l).openTasks.map fun t => (t.id, wakeOf t)) := by
      rw [hopen, List.map_append, List.map_cons, hwake]
      rw [List.map_append] at hrest
      exact (hrest.cons _).trans List.perm_middle.symm
    rw [if_pos hresting, goOnAfter]
    split
    · exact ⟨hput, hbare, h.steady, htail⟩
    · refine ⟨hput, hbare, h.steady, .trans ?_ htail⟩
      dsimp only
      rw [List.map_append, List.map_cons, List.map_nil, ← List.append_assoc]
      exact List.perm_append_singleton _ _

theorem potential_settled_le (s : Timeline) (m : Move) (front : List Task) (t' : Task)
    (back : List Task) (l : Ledger) (rest : List (MoveId × Wake)) :
    (s.settled m (s.dispatch.put front t' back l) t' rest).potential ≤
      weight s.dispatch.limits (front ++ t' :: back) + rest.countP (fun w => w.2 == .rested) +
        2 * s.alarms.length + if t'.phase = .resting then 2 else 0 := by
  rw [Timeline.settled]
  split
  · rw [goOnAfter]
    split
    · simp only [potential, goOn, Dispatch.put, List.countP_cons_of_pos, beq_self_eq_true]
      omega
    · simp only [potential, Dispatch.put, List.length_append, List.length_singleton]
      omega
  · exact Nat.le_refl _

/-- A ready task that is first in line goes through a whole attempt. -/
theorem Serial.attempt {id : MoveId} (h : s.Serial) (hline : s.line = (id, .go) :: rest) :
    ∃ s', (∀ n, runSteps (n + 5) s = runSteps n s') ∧ s.Advances s' ∧ s'.Serial ∧
      s'.potential + 5 ≤ s.potential := by
  obtain ⟨front, t, back, hs, ho, rfl, hgo, hrest⟩ := h.first hline
  have hp := ready_of_wakeOf (h.orderly.idle t (hs ▸ List.mem_append_right _ List.mem_cons_self)) ho hgo
  have hspare : t.attempts < s.dispatch.limits.maxAttempts := h.orderly.spare t
    (Dispatch.openTasks_split hs ho ▸ List.mem_append_right _ List.mem_cons_self)
  obtain ⟨t', ht'⟩ := exists_answered s t
  obtain ⟨l, hf, hput⟩ := ht'.finish h.orderly hs ho
  refine ⟨_, runSteps_attempt t' h.orderly h.bare h.steady.2.2.2 hs hline hp ht'.id hf,
    .attempt hs hp hf, h.settled hput ht'.ended_or_resting hrest, ?_⟩
  have hpotential : s.potential = weight s.dispatch.limits (front ++ t :: back) +
      rest.countP (fun w => w.2 == .rested) + 2 * s.alarms.length := by
    rw [potential, hline, List.countP_cons_of_neg (by simp), hs]
  have hle := potential_settled_le s t.move front t' back l rest
  have hweight := ht'.weight_le ho hspare front back
  omega

/-! ### Rests and the clock -/

/-- A task that has rested is ready again. -/
theorem Serial.wake {id : MoveId} (h : s.Serial) (hline : s.line = (id, .rested) :: rest) :
    s.Advances s.step ∧ s.step.Serial ∧ s.step.potential + 1 ≤ s.potential := by
  obtain ⟨front, t, back, hs, ho, rfl, hrested, hrest⟩ := h.first hline
  have hp := resting_of_wakeOf hrested
  obtain ⟨l, hwake, hput⟩ := Dispatch.wake_resting h.orderly hs hp
  have hstep : s.step = { s with
      dispatch := s.dispatch.put front { t with phase := .ready } back l, line := (t.id, .go) :: rest } := by
    rw [step_eq hline (Dispatch.task?_split h.orderly.distinct hs)]
    simp only [stepTask, hp, hwake, goOn]
  rw [hstep]
  refine ⟨.wake hs hp hwake, ⟨hput, h.bare, h.steady, ?_⟩, ?_⟩
  · have hopen : (s.dispatch.put front { t with phase := .ready } back l).openTasks =
        front.filter Task.isOpen ++ { t with phase := .ready } :: back.filter Task.isOpen :=
      Dispatch.openTasks_put_open rfl
    dsimp only
    rw [hopen, List.map_append, List.map_cons]
    rw [List.map_append] at hrest
    exact (hrest.cons _).trans List.perm_middle.symm
  · have hweight : weight s.dispatch.limits s.dispatch.tasks =
        weight s.dispatch.limits (front ++ { t with phase := .ready } :: back) := by
      rw [hs, weight_open _ _ _ ho, weight_open _ _ _ rfl]
    have hcount : s.line.countP (fun w => w.2 == .rested) =
        rest.countP (fun w => w.2 == .rested) + 1 := by
      rw [hline, List.countP_cons_of_pos (by simp)]
    rw [potential, potential, hweight, hcount, List.countP_cons_of_neg (by simp)]
    dsimp only [Dispatch.put]
    omega

/-- When nobody can go on, the next moment is one at which a task goes on. -/
theorem Serial.nextMoment? (h : s.Serial) (hline : s.line = []) (ho : s.dispatch.openTasks ≠ []) :
    ∃ a ∈ s.alarms, s.nextMoment? = some a.due := by
  obtain ⟨-, hgrace, hdrops, -⟩ := h.steady
  have halarms : s.alarms ≠ [] := by
    intro hnil
    have hcovered := h.covered
    rw [hline, hnil, List.map_nil, List.nil_append] at hcovered
    exact ho (by simpa using hcovered.symm)
  obtain ⟨t, ht⟩ : ∃ t, s.nextMoment? = some t := by
    rw [← Option.isSome_iff_exists, Timeline.nextMoment?, List.isSome_min?_iff]
    simp [halarms]
  have hmem := List.min?_mem ht
  rw [hgrace, hdrops] at hmem
  obtain ⟨a, ha, rfl⟩ : ∃ a ∈ s.alarms, a.due = t := by simpa using hmem
  exact ⟨a, ha, ht⟩

/-- A dispatch is interrupted when it hears that the run has to be. -/
theorem Serial.react_interrupted {w : World} {i : Interruption} (h : s.Serial) (hi : w.interruption? = some i) :
    ({ s with world := w }.react).interruption.isSome := by
  simp only [react, h.steady.1, hi, interrupt, Option.isSome_some]

/-- Otherwise the tasks whose moment has come join the line. -/
theorem Serial.react_ring {w : World} (h : s.Serial) (hw : w.Bare) (hi : w.interruption? = none) :
    { s with world := w }.react = { s with world := w }.ring := by
  obtain ⟨hinterruption, hgrace, hdrops, -⟩ := h.steady
  simp [react, hinterruption, hi, hw.signal, hgrace, hdrops, hasCome, h.orderly.signal]

theorem Serial.ring {w : World} (h : s.Serial) (hline : s.line = []) (hw : w.Bare) :
    ({ s with world := w }.ring).Serial where
  orderly := h.orderly
  bare := hw
  steady := h.steady
  covered := by
    have hcovered := h.covered
    rw [hline, List.nil_append] at hcovered
    simp only [Timeline.ring, hline, List.nil_append]
    rw [← List.map_append]
    exact ((List.filter_append_perm _ s.alarms).map _).trans hcovered

/-- Every task that joins the line has had a moment, which counts for two. -/
theorem potential_ring_lt {a : Alarm} (hline : s.line = []) (ha : a ∈ s.alarms)
    (hdue : a.due ≤ s.world.now) : s.ring.potential < s.potential := by
  have hring : 0 < (s.alarms.filter fun a => decide (a.due ≤ s.world.now)).length :=
    List.length_pos_of_mem (List.mem_filter.2 ⟨ha, decide_eq_true hdue⟩)
  have hlength := (List.filter_append_perm (fun a : Alarm => decide (a.due ≤ s.world.now))
    s.alarms).length_eq
  rw [List.length_append] at hlength
  have hcount := List.countP_le_length (p := fun w : MoveId × Wake => w.2 == .rested)
    (l := (s.alarms.filter fun a => decide (a.due ≤ s.world.now)).map fun a => (a.id, a.wake))
  rw [List.length_map] at hcount
  simp only [potential, Timeline.ring, hline, List.nil_append, List.countP_nil]
  omega

/-- When nobody can go on, the clock goes to the next moment: the tasks of this moment join the line, or the
run is interrupted meanwhile. -/
theorem Serial.clock (h : s.Serial) (hline : s.line = []) (ho : s.dispatch.openTasks ≠ []) :
    0 < s.potential ∧
      ((∃ stop t, (s.world.advance stop t).interruption?.isSome ∧ s.step.interruption.isSome) ∨
        s.Advances s.step ∧ s.step.Serial ∧ s.step.potential + 1 ≤ s.potential) := by
  obtain ⟨a, ha, hnext⟩ := h.nextMoment? hline ho
  have hpositive : 0 < s.potential := by
    have hlength := List.length_pos_of_mem ha
    rw [potential]
    omega
  refine ⟨hpositive, ?_⟩
  have hstep : s.step = { s with world := s.world.advance s.isAlerted a.due }.react := by
    simp only [step, hline, stepClock, hnext]
  have hbare := h.bare.advance s.isAlerted a.due
  rw [hstep]
  cases hi : (s.world.advance s.isAlerted a.due).interruption? with
  | some i => exact .inl ⟨_, _, by rw [hi]; rfl, h.react_interrupted hi⟩
  | none =>
    have hdue : a.due ≤ (s.world.advance s.isAlerted a.due).now := by
      refine (World.stops_or_le_now_advance s.isAlerted a.due s.world).resolve_left ?_
      rw [isAlerted, hi, hbare.signal, h.orderly.signal]
      simp
    rw [h.react_ring hbare hi]
    exact .inr ⟨.ring _ _ hi, h.ring hline hbare,
      potential_ring_lt (s := { s with world := s.world.advance s.isAlerted a.due }) hline ha hdue⟩

theorem Serial.isOver_eq_false (h : s.Serial) (ho : s.dispatch.openTasks ≠ []) : s.isOver = false := by
  rw [isOver, h.steady.2.2.2, Bool.false_or, ← Bool.not_eq_true, Dispatch.isOver_iff]
  exact ho

/-- A dispatch with open tasks goes on by some steps, or the run is interrupted. -/
theorem Serial.advance (h : s.Serial) (ho : s.dispatch.openTasks ≠ []) :
    (0 < s.potential ∧ ∃ stop t, (s.world.advance stop t).interruption?.isSome ∧ s.step.interruption.isSome) ∨
      ∃ s' k, 0 < k ∧ (∀ n, runSteps (n + k) s = runSteps n s') ∧ s.Advances s' ∧ s'.Serial ∧
        s'.potential + k ≤ s.potential := by
  have hrunning := h.isOver_eq_false ho
  cases hline : s.line with
  | nil =>
    obtain ⟨hpositive, hstopped | hgoes⟩ := h.clock hline ho
    · exact .inl ⟨hpositive, hstopped⟩
    · exact .inr ⟨s.step, 1, Nat.one_pos, runSteps_succ hrunning, hgoes⟩
  | cons first rest =>
    obtain ⟨id, wake⟩ := first
    have hwake : wake = .go ∨ wake = .rested := by
      obtain ⟨_, t, _, _, _, _, rfl, _⟩ := h.first hline
      rw [wakeOf]
      split
      · exact .inr rfl
      · exact .inl rfl
    rcases hwake with rfl | rfl
    · obtain ⟨s', hgoes⟩ := h.attempt hline
      exact .inr ⟨s', 5, by omega, hgoes⟩
    · exact .inr ⟨s.step, 1, Nat.one_pos, runSteps_succ hrunning, h.wake hline⟩

/-! ### The whole dispatch -/

theorem interruption_goOnAfter (s : Timeline) (ms : Nat) (id : MoveId) (wake : Wake) :
    (s.goOnAfter ms id wake).interruption = s.interruption := by
  rw [goOnAfter]
  split <;> rfl

theorem interruption_continueIfAble (s : Timeline) (id : MoveId) :
    (s.continueIfAble id).interruption = s.interruption := by
  rw [continueIfAble]
  split
  · split <;> rfl
  · rfl

theorem interruption_startAttempt (s : Timeline) (t : Task) :
    (s.startAttempt t).interruption = s.interruption := by
  rw [startAttempt]
  dsimp only
  split <;> exact interruption_goOnAfter _ _ _ _

/-- The steps of tasks do not concern the interruption of a dispatch. -/
theorem interruption_stepTask (s : Timeline) (t : Task) (wake : Wake) :
    (s.stepTask t wake).interruption = s.interruption := by
  have hgo : (s.stepGo t).interruption = s.interruption := by
    rw [stepGo]
    split
    · exact interruption_continueIfAble _ _
    · dsimp only
      split
      · split
        · exact interruption_startAttempt _ _
        · exact interruption_continueIfAble _ _
      · rfl
    · rfl
  have hfinish : ∀ r, (s.stepFinish t r).interruption = s.interruption := by
    intro r
    rw [stepFinish]
    split
    · split
      · exact interruption_goOnAfter _ _ _ _
      · rfl
    · rfl
  unfold stepTask
  split
  · exact hgo
  · exact hfinish _
  · exact hfinish _
  · rfl
  · rfl

/-- A dispatch that is interrupted stays so. -/
theorem isSome_interruption_step (h : s.interruption.isSome) : s.step.interruption.isSome := by
  rw [step]
  split
  · dsimp only
    split
    · rw [interruption_stepTask]
      exact h
    · exact h
  · rw [stepClock]
    split
    · exact h
    · rw [react]
      split
      · rfl
      · split
        · exact h
        · split
          · exact h
          · split <;> exact h

theorem isSome_interruption_runSteps (h : s.interruption.isSome) (n : Nat) :
    (runSteps n s).interruption.isSome := by
  induction n generalizing s with
  | zero => exact h
  | succ n ih =>
    rw [runSteps]
    split
    · exact h
    · exact ih (isSome_interruption_step h)

/-- A dispatch with enough steps comes to its end, unless the run is interrupted. What holds at its start, and
stays true while it goes on, holds then. -/
theorem Serial.runSteps {K : Timeline → Prop}
    (hK : ∀ s s' : Timeline, s.Serial → s'.Serial → s.Advances s' → K s → K s') (h : s.Serial) (hk : K s)
    {n : Nat} (hn : s.potential ≤ n) :
    ((runSteps n s).interruption.isSome ∧
        ∃ s', K s' ∧ ∃ stop t, (s'.world.advance stop t).interruption?.isSome) ∨
      ((runSteps n s).Serial ∧ K (runSteps n s) ∧ (runSteps n s).dispatch.openTasks = []) := by
  induction n using Nat.strong_induction_on generalizing s with
  | _ n ih =>
  by_cases hover : s.dispatch.openTasks = []
  · have hstop : Timeline.runSteps n s = s := by
      cases n with
      | zero => rfl
      | succ n =>
        rw [Timeline.runSteps, if_pos]
        rw [isOver, (s.dispatch.isOver_iff).2 hover, Bool.or_true]
    rw [hstop]
    exact .inr ⟨h, hk, hover⟩
  · rcases h.advance hover with ⟨hpositive, stop, t, hi, hstep⟩ | ⟨s', k, hpos, hrun, hgoes, hserial, hless⟩
    · obtain ⟨n, rfl⟩ : ∃ m, n = m + 1 := ⟨n - 1, by omega⟩
      rw [runSteps_succ (h.isOver_eq_false hover)]
      exact .inl ⟨isSome_interruption_runSteps hstep n, s, hk, stop, t, hi⟩
    · obtain ⟨n, rfl⟩ : ∃ m, n = m + k := ⟨n - k, by omega⟩
      rw [hrun]
      exact ih n (by omega) hserial (hK s s' h hserial hgoes hk) (by omega)

variable {limits : DispatchLimits} {w : World}

/-- A dispatch of moves that wait for their first attempts begins between two attempts. -/
theorem serial_start (hpermits : ∀ p : Permit, 0 < p.limit limits) (hmax : 0 < limits.maxAttempts)
    (hc : l.Consistent) (hf : l.Fresh) (hw : w.Bare) (graceMs : Nat) :
    (start limits l w graceMs none).Serial := by
  have hdispatch : (start limits l w graceMs none).dispatch = Dispatch.start limits .proceed l := by
    rw [start, hw.signal]
  refine ⟨hdispatch ▸ Dispatch.orderly_start hpermits hmax hc hf, hw, ⟨rfl, rfl, rfl, rfl⟩, ?_⟩
  have hline : (start limits l w graceMs none).line =
      (start limits l w graceMs none).dispatch.tasks.map fun t => (t.id, .go) := rfl
  have halarms : (start limits l w graceMs none).alarms = [] := rfl
  rw [hline, halarms, hdispatch, Dispatch.openTasks_start hf, Dispatch.tasks_start hf, List.map_nil,
    List.append_nil, List.map_map, List.map_map]
  exact .of_eq rfl

theorem weight_le (limits : DispatchLimits) (tasks : List Task) :
    weight limits tasks ≤ tasks.length * (limits.maxAttempts * 7) := by
  induction tasks with
  | nil => exact Nat.zero_le _
  | cons t tasks ih =>
    rw [weight, List.length_cons, Nat.add_mul, Nat.one_mul]
    split <;> omega

theorem potential_start_le (limits : DispatchLimits) (l : Ledger) (w : World) (graceMs : Nat) :
    (start limits l w graceMs none).potential ≤ (start limits l w graceMs none).enough := by
  have hweight := weight_le limits (start limits l w graceMs none).dispatch.tasks
  have hrested : (start limits l w graceMs none).line.countP (fun w => w.2 == .rested) = 0 := by
    refine List.countP_eq_zero.2 fun x hx => ?_
    obtain ⟨t, -, rfl⟩ := List.mem_map.1 hx
    simp
  have hsplit : (start limits l w graceMs none).dispatch.tasks.length * (limits.maxAttempts * 7) ≤
      (start limits l w graceMs none).dispatch.tasks.length * (limits.maxAttempts + 1) * 8 := by
    rw [Nat.mul_assoc]
    exact Nat.mul_le_mul_left _ (by omega)
  rw [potential, hrested, enough]
  show weight limits _ + 0 + 2 * 0 ≤ _
  exact Nat.le_trans hweight (Nat.le_trans hsplit (by
    rw [Nat.add_assoc]
    exact Nat.le_add_right _ _))

end StorageTiering.Timeline
