import StorageTiering.Proofs.Dispatch.Acts
import StorageTiering.Proofs.Dispatch.Serial
/-!
# Executors that take turns

Nobody says in which order the moves of a dispatch are made, so what is shown of a run is shown for all of
these orders.

* `Executor.TakesTurns` — in a namespace without a script, what is left is what some acts lead to.
* `Executor.TakesTurns.drains` — the ledger is drained.
* `Executor.TakesTurns.attempts` — in a namespace that is left to itself every move is done or given up, unless
  the lease is lost.
* `Timeline.execute_takesTurns` — a dispatch in time is one of these executors.
-/

namespace StorageTiering

/-- In a namespace without a script an executor goes from act to act, in whatever order, until all tasks have
ended. They can be brought to their ends in any order: as long as a task has not ended some turn changes the
dispatch (`Dispatch.Rationed.exists_turn`), and only so many turns do (`Dispatch.busy_length_le`). If the run has
to be interrupted meanwhile, the executor may tell so instead. -/
def Executor.TakesTurns (execute : Executor) : Prop :=
  ∀ (limits : DispatchLimits) (graceMs : Nat) (l : Ledger) (w : World),
    (∀ p : Permit, 0 < p.limit limits) → 0 < limits.maxAttempts → l.Consistent → l.Fresh → w.Bare →
      ∃ acts, let s := (Scene.start limits l w).takeAll acts
        (s.dispatch.isOver ∧ execute limits graceMs l w =
          (s.world, s.dispatch.settleBroken, .ok (.ofTasks s.dispatch.tasks))) ∨
        (s.world.interruption?.isSome ∧ ∃ i, (execute limits graceMs l w).2.2 = .error i)

namespace Executor.TakesTurns

variable {execute : Executor} {limits : DispatchLimits} {graceMs : Nat} {l : Ledger} {w : World} {P : Prop}

/-- An executor that takes turns drains the ledger, unless it is interrupted. -/
theorem drains (h : execute.TakesTurns) (hpermits : ∀ p : Permit, 0 < p.limit limits)
    (hmax : 0 < limits.maxAttempts) (hc : l.Consistent) (hf : l.Fresh) (ht : l.tally.Ascending) (hw : w.Bare)
    {w' : World} {l' : Ledger} {report : DispatchReport}
    (hresult : execute limits graceMs l w = (w', l', .ok report)) :
    w'.Bare ∧ Drained l report l' ∧ l'.tally.Ascending := by
  obtain ⟨acts, ⟨hover, heq⟩ | ⟨-, i, hi⟩⟩ := h limits graceMs l w hpermits hmax hc hf hw
  · obtain ⟨rfl, rfl, hreport⟩ : _ = w' ∧ _ = l' ∧ _ = Except.ok report := by
      simpa only [Prod.mk.injEq] using heq.symm.trans hresult
    obtain rfl := Except.ok.inj hreport
    exact ⟨Scene.bare_takeAll hw acts, Scene.drained_takeAll hc limits w acts hover,
      Scene.ascending_takeAll hc ht limits w acts⟩
  · rw [hresult] at hi
    cases hi

/-- In a namespace that is left to itself, an executor that takes turns is interrupted by the loss of the
lease, or every move is done or given up. -/
theorem attempts (h : execute.TakesTurns) (hpermits : ∀ p : Permit, 0 < p.limit limits)
    (hmax : 0 < limits.maxAttempts) (hc : l.Consistent) (hf : l.Fresh) (hw : w.Still)
    (hsecure : P → w.Secure ∧ w.lost = none) :
    let result := execute limits graceMs l w
    (∃ i, result.2.2 = .error i ∧ ¬P) ∨
      ∃ report, result.2.2 = .ok report ∧ report.cancelled = 0 ∧
        w.cluster.Executes (l.entries.map Entry.move) result.1.cluster [] report.moved
          report.failed.length ∧
        result.2.1.Clear ∧ result.1.Still ∧ (P → result.1.Secure ∧ result.1.lost = none) := by
  obtain ⟨acts, hend⟩ := h limits graceMs l w hpermits hmax hc hf hw.bare
  have hattempting := (Scene.attempting_start hc hf hw hsecure limits).takeAll acts
  have hdrains := Scene.drained_takeAll hc limits w acts
  generalize (Scene.start limits l w).takeAll acts = s at *
  rcases hend with ⟨hover, heq⟩ | ⟨hstopped, i, hi⟩
  · have hexec := hattempting.executes
    have hopen : s.dispatch.standing.1 = [] := by
      rw [Dispatch.standing, s.dispatch.isOver_iff.1 hover, List.map_nil]
    rw [hopen] at hexec
    have hdrained := hdrains hover
    -- as many moves are claimed as are done or given up, so none is left that could be cancelled
    have hcancelled : (DispatchReport.ofTasks s.dispatch.tasks).cancelled = 0 := by
      have hcount : 0 + _ + _ = _ := hexec.count
      have hclaimed := hdrained.count
      rw [hf.claim, List.length_map] at hclaimed
      rw [List.length_map] at hcount
      simp only [Dispatch.standing, DispatchReport.moved] at hcount
      omega
    rw [heq]
    exact .inr ⟨_, rfl, hcancelled, hexec, hdrained.clear hf, hattempting.still, hattempting.secure⟩
  · refine .inl ⟨i, hi, fun hP => ?_⟩
    rw [hattempting.still.interruption?_eq_none_iff.2 (hattempting.secure hP).2] at hstopped
    cases hstopped

end Executor.TakesTurns

/-! ### Dispatches in time -/

namespace Scene

variable {d : Dispatch} {w : World} {t t' : Task} {front back : List Task} {p q : Permit} {l : Ledger}

/-- A ready task gets its first permit, if nobody else holds any. -/
theorem take_go_ready (h : d.Orderly) (hs : d.tasks = front ++ t :: back) (hp : t.phase = .ready) :
    take ⟨d, w⟩ (.go t.id) = ⟨d.setPhase t.id (.granted .everywhere), w⟩ := by
  have ht := Dispatch.task?_split h.distinct hs
  have hturn : d.take (.task t.id .go) = d.setPhase t.id (.granted .everywhere) := by
    rw [Dispatch.take_task ht]
    unfold Dispatch.takeTask
    simp only [hp, Dispatch.begin_idle h]
  simp [take, ht, hturn, noted, hp]

/-- A task with a permit gets the next one. -/
theorem take_go_granted (h : d.Orderly) (hs : d.tasks = front ++ t :: back) (hq : p.next? = some q) :
    take ⟨d.setPhase t.id (.granted p), w⟩ (.go t.id) = ⟨d.setPhase t.id (.granted q), w⟩ := by
  have ht := Dispatch.task?_setPhase h.distinct hs (.granted p)
  have hturn : (d.setPhase t.id (.granted p)).take (.task t.id .go) = d.setPhase t.id (.granted q) := by
    rw [Dispatch.take_task ht]
    unfold Dispatch.takeTask
    exact congrArg Prod.fst (Dispatch.proceed_setPhase (t := { t with phase := .granted p }) h hq)
  have hlast : p ≠ .target := by
    rintro rfl
    cases hq
  simp [take, ht, hturn, noted, hlast]

/-- A task with all permits starts its attempt. -/
theorem take_go_last (h : d.Orderly) (hs : d.tasks = front ++ t :: back) :
    take ⟨d.setPhase t.id (.granted .target), w⟩ (.go t.id) =
      ⟨d.setPhase t.id .running, w.note .start t.move⟩ := by
  have ht := Dispatch.task?_setPhase h.distinct hs (.granted .target)
  have hturn : (d.setPhase t.id (.granted .target)).take (.task t.id .go) = d.setPhase t.id .running := by
    rw [Dispatch.take_task ht]
    unfold Dispatch.takeTask
    exact congrArg Prod.fst (Dispatch.proceed_last (t := { t with phase := .granted .target }) h)
  have hsignal : (d.setPhase t.id (.granted .target)).signal = .proceed := h.signal
  simp [take, ht, hturn, noted, hsignal]

/-- A ready task goes through a whole attempt while nobody else goes on. -/
theorem takeAll_attempt (h : d.Orderly) (hs : d.tasks = front ++ t :: back) (hp : t.phase = .ready)
    (hf : (d.setPhase t.id .running).finish { t with phase := .running }
      (.answered (w.cluster.relocate t.move).2) = (d.put front t' back l, [])) :
    takeAll ⟨d, w⟩ [.go t.id, .go t.id, .go t.id, .go t.id, .answer t.id] =
      ⟨d.put front t' back l, Timeline.attempted w t.move⟩ := by
  have ht := Dispatch.task?_setPhase h.distinct hs .running
  have hturn : (d.setPhase t.id .running).take (.task t.id (.finish (.answered (w.cluster.relocate t.move).2))) =
      d.put front t' back l := by
    rw [Dispatch.take_task ht]
    unfold Dispatch.takeTask
    exact congrArg Prod.fst hf
  have hanswer : take ⟨d.setPhase t.id .running, w.note .start t.move⟩ (.answer t.id) =
      ⟨d.put front t' back l, Timeline.attempted w t.move⟩ :=
    (take_answer (s := ⟨d.setPhase t.id .running, w.note .start t.move⟩) ht rfl).trans
      (congrArg (Scene.mk · _) hturn)
  simp only [takeAll, List.foldl_cons, List.foldl_nil, take_go_ready h hs hp,
    take_go_granted h hs (show Permit.next? .everywhere = some .source from rfl),
    take_go_granted h hs (show Permit.next? .source = some .target from rfl), take_go_last h hs, hanswer]

end Scene

namespace Timeline

variable {s s' : Timeline}

/-- The dispatch and the namespace of a timeline. -/
def scene (s : Timeline) : Scene := ⟨s.dispatch, s.world⟩

theorem scene_settled (s : Timeline) (m : Move) (d : Dispatch) (t : Task) (rest : List (MoveId × Wake)) :
    (s.settled m d t rest).scene = ⟨d, attempted s.world m⟩ := by
  rw [settled]
  split
  · rw [goOnAfter]
    split <;> rfl
  · rfl

/-- Between attempts, a dispatch in time goes on by acts. -/
theorem Advances.exists_acts (h : s.Serial) (ha : s.Advances s') :
    ∃ acts, s.scene.takeAll acts = s'.scene := by
  cases ha with
  | @attempt front back t t' l rest hs hp hf =>
    refine ⟨[.go t.id, .go t.id, .go t.id, .go t.id, .answer t.id], ?_⟩
    rw [scene_settled]
    exact Scene.takeAll_attempt h.orderly hs hp hf
  | @wake front back t l rest hs hp hw =>
    refine ⟨[.rested t.id], ?_⟩
    have hturn : s.dispatch.take (.task t.id .rested) = s.dispatch.wake t := by
      rw [Dispatch.take_task (Dispatch.task?_split h.orderly.distinct hs)]
      unfold Dispatch.takeTask
      rw [hp]
    exact congrArg (Scene.mk · s.world) (hturn.trans hw)
  | ring stop moment _ => exact ⟨[.pass stop moment], rfl⟩

theorem execute_of_interruption {limits : DispatchLimits} {graceMs : Nat} {l : Ledger} {w : World} {i : Interruption}
    (h : (start limits l w graceMs none).run.interruption = some i) :
    (execute limits graceMs l w).2.2 = .error i := by
  simp only [execute, h]

theorem execute_of_none {limits : DispatchLimits} {graceMs : Nat} {l : Ledger} {w : World}
    (h : (start limits l w graceMs none).run.interruption = none) : execute limits graceMs l w =
      ((start limits l w graceMs none).run.world, (start limits l w graceMs none).run.ledger,
        .ok (start limits l w graceMs none).run.report) := by
  simp only [execute, h]

/-- A dispatch in time takes turns. -/
theorem execute_takesTurns : Executor.TakesTurns execute := by
  intro limits graceMs l w hpermits hmax hc hf hw
  have hrun := (serial_start hpermits hmax hc hf hw graceMs).runSteps
    (K := fun s => ∃ acts, (Scene.start limits l w).takeAll acts = s.scene)
    (fun s s' hserial _ ha ⟨acts, hacts⟩ => by
      obtain ⟨more, hmore⟩ := ha.exists_acts hserial
      exact ⟨acts ++ more, by rw [Scene.takeAll_append, hacts, hmore]⟩)
    ⟨[], rfl⟩ (potential_start_le limits l w graceMs)
  change _ ∨ (start limits l w graceMs none).run.Serial ∧ _ at hrun
  rcases hrun with ⟨hi, s', ⟨acts, hacts⟩, stop, moment, hstopped⟩ | ⟨hserial, ⟨acts, hacts⟩, hopen⟩
  · obtain ⟨i, hi⟩ := Option.isSome_iff_exists.1 hi
    refine ⟨acts ++ [.pass stop moment], .inr ⟨?_, i, ?_⟩⟩
    · rw [Scene.takeAll_append, hacts]
      exact hstopped
    · exact execute_of_interruption hi
  · refine ⟨acts, .inl ?_⟩
    rw [hacts, execute_of_none hserial.steady.1]
    exact ⟨(Dispatch.isOver_iff _).2 hopen, rfl⟩

end Timeline

end StorageTiering
