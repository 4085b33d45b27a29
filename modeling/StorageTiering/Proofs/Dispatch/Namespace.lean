import StorageTiering.Proofs.Dispatch.Moves
/-!
# What a dispatch does to its namespace

A dispatch reaches its namespace by attempts, notes, signals and the passing of time alone.

* `World.Kept` — a property that these preserve; `World.KeptBy` — one that attempts at certain moves do.
* `Timeline.step_kept`, `Timeline.run_keptBy`, `Timeline.run_kept` — one step of a dispatch, and all of them.
-/

namespace StorageTiering

/-- A property of namespaces that attempts, notes, signals and the passing of time preserve. -/
structure World.Kept (Q : World → Prop) : Prop where
  begins : ∀ w m, Q w → Q (World.beginAttempt w m).1
  settles : ∀ w m a, Q w → Q (World.settleAttempt w m a).1
  noted : ∀ w n m, Q w → Q (World.note w n m)
  elapses : ∀ w stop t, Q w → Q (World.advance stop t w)
  signals : ∀ (w : World) s, Q w → Q { w with signal := s }

/-- A property of namespaces that attempts at certain moves, notes, signals and the passing of time
preserve. -/
structure World.KeptBy (P : Move → Prop) (Q : World → Prop) : Prop where
  begins : ∀ w m, Q w → Q (World.beginAttempt w m).1
  settles : ∀ w m a, P m → Q w → Q (World.settleAttempt w m a).1
  noted : ∀ w n m, Q w → Q (World.note w n m)
  elapses : ∀ w stop t, Q w → Q (World.advance stop t w)
  signals : ∀ (w : World) s, Q w → Q { w with signal := s }

theorem World.Kept.keptBy {Q : World → Prop} (hQ : World.Kept Q) : World.KeptBy (fun _ => True) Q :=
  ⟨hQ.begins, fun w m a _ => hQ.settles w m a, hQ.noted, hQ.elapses, hQ.signals⟩

namespace Timeline

variable {P : Move → Prop} {Q : World → Prop} {s : Timeline} {t : Task}

theorem noteCuts_kept (hQ : World.KeptBy P Q) (d : Dispatch) {w : World} (h : Q w) : Q (noteCuts d w) := by
  rw [noteCuts]
  induction d.tasks generalizing w with
  | nil => exact h
  | cons t rest ih =>
    refine ih ?_
    dsimp only
    split
    · exact hQ.noted _ _ _ h
    · exact h

theorem startAttempt_kept (hQ : World.KeptBy P Q) (h : Q s.world) (t : Task) :
    Q (s.startAttempt t).world := by
  rw [(startAttempt_frame _ _).2]
  exact hQ.begins _ _ h

theorem stepGo_kept (hQ : World.KeptBy P Q) (h : Q s.world) (t : Task) : Q (s.stepGo t).world := by
  rw [stepGo]
  split
  · rw [(continueIfAble_frame _ _).2]
    exact h
  · dsimp only
    split
    · split
      · exact startAttempt_kept (s := s.apply _) hQ h _
      · rw [(continueIfAble_frame _ _).2]
        exact h
    · exact h
  · exact h

theorem stepFinish_kept {r : World × Outcome} (h : Q r.1) (t : Task) : Q (s.stepFinish t r).world := by
  rw [stepFinish]
  split
  · split
    · rw [(goOnAfter_frame _ _ _ _).2]
      exact h
    · exact h
  · exact h

theorem stepTask_kept (hQ : World.KeptBy P Q) (h : Q s.world) (ht : P t.move) (wake : Wake) :
    Q (s.stepTask t wake).world := by
  unfold stepTask
  split
  · exact stepGo_kept hQ h t
  · exact stepFinish_kept (hQ.settles _ _ _ ht h) t
  · exact stepFinish_kept (hQ.noted _ _ _ h) t
  · exact h
  · exact h

theorem react_kept (hQ : World.KeptBy P Q) (h : Q s.world) : Q s.react.world := by
  rw [react]
  split
  · exact hQ.signals _ _ h
  · split
    · exact hQ.signals _ _ (noteCuts_kept hQ _ h)
    · split
      · exact h
      · split
        · exact noteCuts_kept hQ _ h
        · exact h

/-- One step of a dispatch whose tasks have moves of this kind. -/
theorem step_kept (hQ : World.KeptBy P Q) (hP : ∀ m ∈ s.dispatch.moves, P m) (h : Q s.world) :
    Q s.step.world := by
  rw [step]
  split
  · rename_i id wake rest hline
    dsimp only
    split
    · rename_i t ht
      exact stepTask_kept (s := { s with line := rest }) hQ h
        (hP t.move (List.mem_map_of_mem (List.mem_of_find?_eq_some ht))) wake
    · exact h
  · rw [stepClock]
    split
    · exact h
    · exact react_kept hQ (hQ.elapses _ _ _ h)

/-- All steps of a dispatch whose tasks have moves of this kind. -/
theorem run_keptBy (hQ : World.KeptBy P Q) (hP : ∀ m ∈ s.dispatch.moves, P m) (h : Q s.world) :
    Q s.run.world := by
  have hsteps : ∀ n (s : Timeline), (∀ m ∈ s.dispatch.moves, P m) → Q s.world → Q (runSteps n s).world := by
    intro n
    induction n with
    | zero => exact fun s _ h => h
    | succ n ih =>
      intro s hP h
      rw [runSteps]
      split
      · exact h
      · exact ih _ (s.step_narrows.tasks ▸ hP) (step_kept hQ hP h)
  exact hsteps _ s hP h

/-- All steps of a dispatch. -/
theorem run_kept (hQ : World.Kept Q) (h : Q s.world) : Q s.run.world :=
  run_keptBy hQ.keptBy (fun _ _ => trivial) h

end Timeline

end StorageTiering
