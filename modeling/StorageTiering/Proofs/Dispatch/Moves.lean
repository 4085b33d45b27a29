import StorageTiering.Dispatch.Timeline
/-!
# The moves of a dispatch

A dispatch works on the moves that it has claimed and on no others.

* `Ledger.moves`, `Dispatch.moves` — the live moves, and those of the tasks.
* `Dispatch.Narrows` — the tasks keep their moves, and the ledger gets no new ones.
* `Timeline.step_narrows`, `Timeline.run_narrows` — one step of a dispatch, and all of them.
-/

namespace StorageTiering

namespace Ledger

variable {id : MoveId}

/-- The live moves, in the order of numbers. -/
def moves (l : Ledger) : List Move := l.entries.map Entry.move

theorem moves_update (l : Ledger) (id : MoveId) {f : Entry → Entry} (hf : ∀ e, (f e).move = e.move) :
    (l.update id f).moves = l.moves := by
  simp only [moves, update, List.map_map]
  refine List.map_congr_left fun e _ => ?_
  simp only [Function.comp_apply]
  split
  · exact hf e
  · rfl

@[simp] theorem moves_claim (l : Ledger) : l.claim.1.moves = l.moves := by
  simp [moves, claim, Function.comp_def]

/-- What is claimed is live. -/
theorem claimed_subset (l : Ledger) : l.claim.2.map Prod.snd ⊆ l.moves := by
  simp only [claim, List.map_map]
  exact List.map_subset _ List.filter_sublist.subset

@[simp] theorem moves_resume (l : Ledger) (id : MoveId) : (l.resume id).1.moves = l.moves := by
  rw [resume]
  split
  · split
    · exact l.moves_update id fun _ => rfl
    · rfl
  · rfl

/-- An ended move leaves the ledger. -/
theorem moves_complete_subset (l : Ledger) (id : MoveId) (ending : Ending) :
    (l.complete id ending).1.moves ⊆ l.moves := by
  rw [complete]
  split
  · exact List.Subset.refl _
  · exact List.map_subset _ List.filter_sublist.subset

@[simp] theorem moves_countAttempt (l : Ledger) (id : MoveId) (maxAttempts : Nat) :
    (l.countAttempt id maxAttempts).1.moves = l.moves := by
  rw [countAttempt]
  split
  · rfl
  · dsimp only
    split <;> exact l.moves_update id fun _ => rfl

theorem moves_fail_subset (l : Ledger) (id : MoveId) (maxAttempts : Nat) :
    (l.fail id maxAttempts).1.moves ⊆ l.moves := by
  have hcount := l.moves_countAttempt id maxAttempts
  rw [fail]
  split
  all_goals
    rename_i heq
    rw [heq] at hcount
  · exact hcount ▸ List.Subset.refl _
  · exact hcount ▸ List.Subset.refl _
  · exact hcount ▸ moves_complete_subset _ id .failed

end Ledger

namespace Dispatch

variable {d d' d'' : Dispatch} {id : MoveId}

/-- The moves of the tasks, in the order of numbers. -/
def moves (d : Dispatch) : List Move := d.tasks.map Task.move

/-- What any steps of a dispatch do to its moves: the tasks keep theirs, and the ledger gets no new ones. -/
structure Narrows (d d' : Dispatch) : Prop where
  tasks : d'.moves = d.moves
  ledger : d'.ledger.moves ⊆ d.ledger.moves

theorem Narrows.refl (d : Dispatch) : d.Narrows d := ⟨rfl, List.Subset.refl _⟩

theorem Narrows.trans (h : d.Narrows d') (h' : d'.Narrows d'') : d.Narrows d'' :=
  ⟨h'.tasks.trans h.tasks, List.Subset.trans h'.ledger h.ledger⟩

theorem moves_setTask (d : Dispatch) (id : MoveId) {f : Task → Task} (hf : ∀ t, (f t).move = t.move) :
    (d.setTask id f).moves = d.moves := by
  simp only [moves, setTask, List.map_map]
  refine List.map_congr_left fun t _ => ?_
  simp only [Function.comp_apply]
  split
  · exact hf t
  · rfl

@[simp] theorem moves_setPhase (d : Dispatch) (id : MoveId) (phase : Phase) :
    (d.setPhase id phase).moves = d.moves := d.moves_setTask id fun _ => rfl

/-! ### Permits -/

theorem request_narrows (d : Dispatch) (t : Task) (p : Permit) : d.Narrows (d.request t p) := by
  rw [request]
  split
  · exact ⟨d.moves_setPhase t.id _, List.Subset.refl _⟩
  · exact ⟨d.moves_setPhase t.id _, List.Subset.refl _⟩

theorem handOver_narrows (d : Dispatch) (p : Permit) (m : Move) : d.Narrows (d.handOver p m).1 := by
  rw [handOver]
  split
  · split
    · exact .refl d
    · exact ⟨d.moves_setPhase _ _, List.Subset.refl _⟩
  · exact .refl d

theorem handOverAll_narrows (d : Dispatch) (m : Move) (ps : List Permit) :
    d.Narrows (d.handOverAll m ps).1 := by
  induction ps generalizing d with
  | nil => exact .refl d
  | cons p rest ih => exact (d.handOver_narrows p m).trans (ih _)

theorem leave_narrows (d : Dispatch) (t : Task) (phase : Phase) : d.Narrows (d.leave t phase).1 := by
  have hset : d.Narrows { d.setPhase t.id phase with queue := d.queue.erase t.id } :=
    ⟨d.moves_setPhase t.id phase, List.Subset.refl _⟩
  exact hset.trans (handOverAll_narrows _ _ _)

/-! ### Steps of tasks -/

theorem conclude_narrows (d : Dispatch) (t : Task) (result : TaskEnd) (ending : Ending) :
    d.Narrows (d.conclude t result ending).1 :=
  (d.leave_narrows t _).trans ⟨rfl, Ledger.moves_complete_subset _ t.id ending⟩

theorem begin_narrows (d : Dispatch) (t : Task) : d.Narrows (d.begin t).1 := by
  rw [begin]
  split
  · exact d.request_narrows t _
  · exact d.conclude_narrows t _ _

theorem proceed_narrows (d : Dispatch) (t : Task) (p : Permit) : d.Narrows (d.proceed t p).1 := by
  rw [proceed]
  split
  · exact d.request_narrows t _
  · split
    · exact ⟨d.moves_setPhase t.id _, List.Subset.refl _⟩
    · exact d.conclude_narrows t _ _

theorem failAttempt_narrows (d : Dispatch) (t : Task) (e : TransferError) :
    d.Narrows (d.failAttempt t e).1 := by
  have hfail := d.ledger.moves_fail_subset t.id d.limits.maxAttempts
  rw [failAttempt]
  split
  all_goals
    rename_i ledger attempts heq
    rw [heq] at hfail
    have hset := fun phase => moves_setTask (d.leave t phase).1 t.id
      (f := fun t => { t with attempts := attempts }) fun _ => rfl
    exact ⟨(hset _).trans (d.leave_narrows t _).tasks, hfail⟩

theorem finish_narrows (d : Dispatch) (t : Task) (outcome : Outcome) : d.Narrows (d.finish t outcome).1 := by
  rw [finish.eq_def]
  split
  · exact d.conclude_narrows t _ _
  · exact d.failAttempt_narrows t _
  · exact d.leave_narrows t _

theorem wake_narrows (d : Dispatch) (t : Task) : d.Narrows (d.wake t) :=
  ⟨d.moves_setPhase t.id _, fun _ hm => d.ledger.moves_resume t.id ▸ hm⟩

theorem cutShort_narrows (d : Dispatch) (id : MoveId) : d.Narrows (d.cutShort id) := by
  rw [cutShort]
  split
  · split
    · exact .refl d
    · exact d.conclude_narrows _ _ _
  · exact .refl d

theorem abortAll_narrows (d : Dispatch) : d.Narrows d.abortAll := by
  rw [abortAll]
  generalize d.tasks.map Task.id = ids
  induction ids generalizing d with
  | nil => exact .refl d
  | cons id rest ih => exact (d.cutShort_narrows id).trans (ih _)

/-! ### The two ends -/

/-- What the tasks of a dispatch execute was live in its ledger. -/
theorem moves_start_subset (limits : DispatchLimits) (signal : Signal) (l : Ledger) :
    (start limits signal l).moves ⊆ l.moves := by
  simp only [moves, start, List.map_map]
  rw [show (Task.move ∘ fun c : MoveId × Move => ⟨c.1, c.2, 0, .ready⟩) = Prod.snd from rfl]
  exact l.claimed_subset

theorem moves_settleBroken_subset (d : Dispatch) : d.settleBroken.moves ⊆ d.ledger.moves := by
  rw [settleBroken]
  generalize (d.tasks.takeWhile _).filter _ = broken
  generalize d.ledger = l
  induction broken generalizing l with
  | nil => exact List.Subset.refl _
  | cons t rest ih => exact List.Subset.trans (ih _) (l.moves_complete_subset t.id .failed)

end Dispatch

namespace Timeline

variable {s : Timeline} {t : Task}

/-! ### Steps in time -/

/-- Who goes on when is no matter of the dispatch. -/
theorem goOnAfter_frame (s : Timeline) (ms : Nat) (id : MoveId) (wake : Wake) :
    (s.goOnAfter ms id wake).dispatch = s.dispatch ∧ (s.goOnAfter ms id wake).world = s.world := by
  rw [goOnAfter]
  split <;> exact ⟨rfl, rfl⟩

theorem continueIfAble_frame (s : Timeline) (id : MoveId) :
    (s.continueIfAble id).dispatch = s.dispatch ∧ (s.continueIfAble id).world = s.world := by
  rw [continueIfAble]
  split
  · split <;> exact ⟨rfl, rfl⟩
  · exact ⟨rfl, rfl⟩

/-- An attempt that starts is no matter of the dispatch. -/
theorem startAttempt_frame (s : Timeline) (t : Task) : (s.startAttempt t).dispatch = s.dispatch ∧
    (s.startAttempt t).world = (s.world.beginAttempt t.move).1 := by
  simp only [startAttempt]
  split <;> exact goOnAfter_frame _ _ _ _

theorem stepGo_narrows (s : Timeline) (t : Task) : s.dispatch.Narrows (s.stepGo t).dispatch := by
  rw [stepGo]
  split
  · rw [(continueIfAble_frame _ _).1]
    exact s.dispatch.begin_narrows t
  · rename_i p _
    have hproceed := s.dispatch.proceed_narrows t p
    dsimp only
    split
    · split
      · rw [(startAttempt_frame _ _).1]
        exact hproceed
      · rw [(continueIfAble_frame _ _).1]
        exact hproceed
    · exact hproceed
  · exact .refl _

theorem stepFinish_narrows (s : Timeline) (t : Task) (r : World × Outcome) :
    s.dispatch.Narrows (s.stepFinish t r).dispatch := by
  have hfinish := s.dispatch.finish_narrows t r.2
  rw [stepFinish]
  split
  · split
    · rw [(goOnAfter_frame _ _ _ _).1]
      exact hfinish
    · exact hfinish
  · exact hfinish

theorem stepTask_narrows (s : Timeline) (t : Task) (wake : Wake) :
    s.dispatch.Narrows (s.stepTask t wake).dispatch := by
  unfold stepTask
  split
  · exact s.stepGo_narrows t
  · exact s.stepFinish_narrows t _
  · exact s.stepFinish_narrows t _
  · exact s.dispatch.wake_narrows t
  · exact .refl _

theorem react_narrows (s : Timeline) : s.dispatch.Narrows s.react.dispatch := by
  rw [react]
  split
  · exact ⟨rfl, List.Subset.refl _⟩
  · split
    · have hsignal : s.dispatch.Narrows { s.dispatch with signal := .abort } := ⟨rfl, List.Subset.refl _⟩
      exact hsignal.trans (Dispatch.abortAll_narrows _)
    · split
      · exact ⟨rfl, List.Subset.refl _⟩
      · split <;> exact .refl _

/-- One step of a dispatch. -/
theorem step_narrows (s : Timeline) : s.dispatch.Narrows s.step.dispatch := by
  rw [step]
  split
  · rename_i id wake rest _
    dsimp only
    split
    · exact stepTask_narrows { s with line := rest } _ wake
    · exact .refl _
  · rw [stepClock]
    split
    · exact .refl _
    · rename_i moment _
      exact react_narrows { s with world := s.world.advance s.isAlerted moment }

/-- Several steps of a dispatch. -/
theorem runSteps_narrows (n : Nat) (s : Timeline) : s.dispatch.Narrows (runSteps n s).dispatch := by
  induction n generalizing s with
  | zero => exact .refl _
  | succ n ih =>
    rw [runSteps]
    split
    · exact .refl _
    · exact s.step_narrows.trans (ih _)

/-- After all steps of a dispatch its ledger has no move that it did not have before. -/
theorem moves_run_ledger_subset (limits : DispatchLimits) (l : Ledger) (w : World) (graceMs : Nat)
    (dropsAt : Option Nat) : (start limits l w graceMs dropsAt).run.ledger.moves ⊆ l.moves := by
  have hrun := runSteps_narrows (start limits l w graceMs dropsAt).enough (start limits l w graceMs dropsAt)
  refine List.Subset.trans (Dispatch.moves_settleBroken_subset _) (List.Subset.trans hrun.ledger ?_)
  exact fun m hm => l.moves_claim ▸ hm

end Timeline

end StorageTiering
