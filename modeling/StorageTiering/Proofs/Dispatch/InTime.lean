import StorageTiering.Proofs.Dispatch.Moves
import StorageTiering.Proofs.Dispatch.Drain
/-!
# Dispatches in time take turns

The steps of a dispatch in time are turns of its tasks, in an order that the clock and the namespace
choose.

* `World.Rises` — what the passing of time does to what is asked of those who execute moves.
* `Timeline.Heeds` — a dispatch that has not been asked more than its namespace knows of.
* `Timeline.Heeds.takes_step`, `Timeline.Heeds.takes_runSteps` — a step is some turns, and so are several.
* `Timeline.run_drains` — a dispatch that comes to its end drains what it claims.
-/

namespace StorageTiering

/-- What was asked is part of what was asked, with something that was asked after it. -/
theorem Signal.raise_trans {a b c : Signal} (h : a.raise b = b) (h' : b.raise c = c) :
    a.raise c = c := by
  cases a <;> cases b <;> cases c <;> first
    | rfl
    | exact absurd h (by decide)
    | exact absurd h' (by decide)

theorem Signal.raise_self (s : Signal) : s.raise s = s := by
  cases s <;> rfl

/-! ### What time does -/

namespace World

variable {w w' w'' : World} {stop : World → Bool}

/-- Nothing that comes from outside takes back what was asked. -/
def NeverYields (w : World) : Prop := ∀ e ∈ w.events, e.event ≠ .signal .proceed

/-- What time does to what is asked of those who execute moves: more may be asked, by an event. -/
structure Rises (w w' : World) : Prop where
  signal : w.signal.raise w'.signal = w'.signal
  events : w'.events ⊆ w.events

theorem Rises.refl (w : World) : w.Rises w := ⟨w.signal.raise_self, List.Subset.refl _⟩

theorem Rises.trans (h : w.Rises w') (h' : w'.Rises w'') : w.Rises w'' :=
  ⟨Signal.raise_trans h.signal h'.signal, List.Subset.trans h'.events h.events⟩

theorem Rises.of_eq (hs : w'.signal = w.signal) (he : w'.events = w.events) : w.Rises w' :=
  ⟨by rw [hs, Signal.raise_self], he ▸ List.Subset.refl _⟩

theorem Rises.neverYields (h : w.Rises w') (hw : w.NeverYields) : w'.NeverYields :=
  fun e he => hw e (h.events he)

/-- Renewals of the lease have nothing to do with it. -/
theorem renewTo_frame (t : Nat) (w : World) :
    (w.renewTo t).signal = w.signal ∧ (w.renewTo t).events = w.events := by
  rw [renewTo]
  split
  · exact ⟨rfl, rfl⟩
  · split
    · exact ⟨rfl, rfl⟩
    · split <;> exact ⟨rfl, rfl⟩

theorem renewTo_rises (t : Nat) (w : World) : w.Rises (w.renewTo t) :=
  .of_eq (renewTo_frame t w).1 (renewTo_frame t w).2

theorem idleTo_rises (stop : World → Bool) (t : Nat) (w : World) : w.Rises (w.idleTo stop t) := by
  rw [idleTo]
  split
  · exact renewTo_rises t w
  · exact (renewTo_rises t w).trans (.of_eq rfl rfl)

theorem apply_rises {e : TimedEvent} {rest : List TimedEvent} (he : e.event ≠ .signal .proceed)
    (hrest : rest ⊆ w.events) : w.Rises { w.apply e with events := rest } := by
  refine ⟨?_, hrest⟩
  rw [apply]
  dsimp only
  split
  · exact w.signal.raise_self
  · exact w.signal.raise_self
  · rename_i s hs
    rw [hs] at he
    dsimp only
    cases w.signal <;> cases s <;> first | rfl | exact absurd rfl he

theorem advanceOver_rises (stop : World → Bool) (t : Nat) {events : List TimedEvent}
    (hevents : events ⊆ w.events) (hyields : ∀ e ∈ events, e.event ≠ .signal .proceed) :
    w.Rises (advanceOver stop t events w) := by
  induction events generalizing w with
  | nil => exact idleTo_rises stop t w
  | cons e rest ih =>
    rw [advanceOver]
    split
    · exact idleTo_rises stop t w
    · have hrenew := renewTo_rises (e.moment - 1) w
      have he := hyields e List.mem_cons_self
      have hrest : rest ⊆ (w.renewTo (e.moment - 1)).events := by
        rw [(renewTo_frame _ w).2]
        exact fun x hx => hevents (List.mem_cons_of_mem _ hx)
      have happly := hrenew.trans (apply_rises he hrest)
      dsimp only
      split
      · exact hrenew
      · split
        · exact happly
        · exact happly.trans (ih (List.Subset.refl _)
            fun x hx => hyields x (List.mem_cons_of_mem _ hx))

theorem advance_rises (hw : w.NeverYields) (stop : World → Bool) (t : Nat) :
    w.Rises (w.advance stop t) := by
  rw [advance]
  split
  · exact .refl w
  · exact advanceOver_rises stop t (List.Subset.refl _) hw

end World

namespace Dispatch

variable {d : Dispatch}

/-- Tasks that are cut short one after another take their turns. -/
theorem foldl_cutShort (hn : (d.tasks.map Task.id).Nodup) (hs : d.signal = .abort)
    (ids : List MoveId) :
    ids.foldl cutShort d = d.takeAll (ids.map fun id => .task id .cut) ∧
      (ids.foldl cutShort d).signal = .abort := by
  induction ids generalizing d with
  | nil => exact ⟨rfl, hs⟩
  | cons id rest ih =>
    have hcut : d.cutShort id = d.take (.task id .cut) := by
      rw [cutShort]
      split
      · rename_i t ht
        rw [take_task ht _]
        unfold takeTask
        cases hp : t.phase.isEnded with
        | true => simp [hp]
        | false => simp [hp, hs]
      · rename_i hnone
        rw [take, hnone]
    obtain ⟨hrest, hsignal⟩ := ih (nodup_take hn (.task id .cut))
      ((signal_take_task hn id .cut).trans hs)
    rw [List.foldl_cons, hcut]
    exact ⟨hrest, hsignal⟩

end Dispatch

namespace Timeline

variable {s s' : Timeline} {t : Task} {id : MoveId}

/-- A dispatch that has not been asked more than its namespace knows of, and that nothing will take
back. -/
structure Heeds (s : Timeline) : Prop where
  distinct : (s.dispatch.tasks.map Task.id).Nodup
  signal : s.dispatch.signal.raise s.world.signal = s.world.signal
  neverYields : s.world.NeverYields

/-- What a step of a dispatch in time does is some turns of the dispatch. -/
def Takes (s s' : Timeline) : Prop := ∃ turns, s'.dispatch = s.dispatch.takeAll turns ∧ s'.Heeds

theorem Heeds.takes_refl (h : s.Heeds) (hd : s'.dispatch = s.dispatch)
    (hw : s.world.Rises s'.world) : s.Takes s' :=
  ⟨[], hd, hd ▸ h.distinct, hd ▸ Signal.raise_trans h.signal hw.signal, hw.neverYields h.neverYields⟩

/-- A task takes its turn, and the namespace goes on. -/
theorem Heeds.takes_task (h : s.Heeds) (id : MoveId) (cue : Cue)
    (hd : s'.dispatch = s.dispatch.take (.task id cue)) (hw : s.world.Rises s'.world) :
    s.Takes s' := by
  refine ⟨[.task id cue], hd, ?_, ?_, hw.neverYields h.neverYields⟩
  · rw [hd]
    exact Dispatch.nodup_take h.distinct _
  · rw [hd, Dispatch.signal_take_task h.distinct]
    exact Signal.raise_trans h.signal hw.signal

/-! ### Steps of tasks -/

theorem settleAttempt_rises (w : World) (m : Move) (a : AttemptAnswer) :
    w.Rises (w.settleAttempt m a).1 := by
  cases a <;> exact .of_eq rfl rfl

theorem Heeds.takes_stepGo (h : s.Heeds) (ht : s.dispatch.task? t.id = some t) :
    s.Takes (s.stepGo t) := by
  rw [stepGo]
  split
  · rename_i hp
    have hframe := continueIfAble_frame (s.apply (s.dispatch.begin t)) t.id
    refine h.takes_task t.id .go (hframe.1.trans ?_) (hframe.2 ▸ .refl s.world)
    rw [Dispatch.take_task ht _]
    unfold Dispatch.takeTask
    rw [hp]
    rfl
  · rename_i p hp
    have htake : (s.apply (s.dispatch.proceed t p)).dispatch = s.dispatch.take (.task t.id .go) := by
      rw [Dispatch.take_task ht _]
      unfold Dispatch.takeTask
      rw [hp]
      rfl
    dsimp only
    split
    · rename_i t' _
      split
      · have hframe := startAttempt_frame (s.apply (s.dispatch.proceed t p)) t'
        exact h.takes_task t.id .go (hframe.1.trans htake) (hframe.2 ▸ .of_eq rfl rfl)
      · have hframe := continueIfAble_frame (s.apply (s.dispatch.proceed t p)) t'.id
        exact h.takes_task t.id .go (hframe.1.trans htake) (hframe.2 ▸ .refl s.world)
    · exact h.takes_task t.id .go htake (.refl s.world)
  · exact h.takes_refl rfl (.refl s.world)

theorem Heeds.takes_stepFinish {r : World × Outcome} (h : s.Heeds)
    (ht : s.dispatch.task? t.id = some t) (hp : t.phase = .running) (hr : s.world.Rises r.1) :
    s.Takes (s.stepFinish t r) := by
  have htake : (s.dispatch.finish t r.2).1 = s.dispatch.take (.task t.id (.finish r.2)) := by
    rw [Dispatch.take_task ht _]
    unfold Dispatch.takeTask
    rw [hp]
  rw [stepFinish]
  split
  · split
    · have hframe := goOnAfter_frame ({ s with world := r.1 }.apply (s.dispatch.finish t r.2))
      exact h.takes_task t.id (.finish r.2) ((hframe _ _ _).1.trans htake) ((hframe _ _ _).2 ▸ hr)
    · exact h.takes_task t.id (.finish r.2) htake hr
  · exact h.takes_task t.id (.finish r.2) htake hr

/-- A task that goes on takes its turn. -/
theorem Heeds.takes_stepTask (h : s.Heeds) (ht : s.dispatch.task? t.id = some t) (wake : Wake) :
    s.Takes (s.stepTask t wake) := by
  unfold stepTask
  split
  · exact h.takes_stepGo ht
  · exact h.takes_stepFinish ht ‹_› (settleAttempt_rises _ _ _)
  · exact h.takes_stepFinish ht ‹_› (.of_eq rfl rfl)
  · rename_i hp
    refine h.takes_task t.id .rested ?_ (.refl s.world)
    rw [Dispatch.take_task ht _]
    unfold Dispatch.takeTask
    rw [hp]
    rfl
  · exact h.takes_refl rfl (.refl s.world)

/-! ### Steps of the clock -/

theorem foldl_note_frame (tasks : List Task) (w : World) :
    let w' := tasks.foldl (fun w t => if t.phase = .running then w.note .cut t.move else w) w
    w'.signal = w.signal ∧ w'.events = w.events := by
  induction tasks generalizing w with
  | nil => exact ⟨rfl, rfl⟩
  | cons t rest ih =>
    rw [List.foldl_cons]
    split <;> exact ih _

/-- An abort is asked of the dispatch, and cuts short one task after another. -/
theorem Heeds.takes_abort (h : s.Heeds) : s.Takes s.abort := by
  have hraise : s.dispatch.take (.signal .abort) = { s.dispatch with signal := .abort } := by
    rw [Dispatch.take]
    cases s.dispatch.signal <;> rfl
  obtain ⟨hcuts, hsignal⟩ := Dispatch.foldl_cutShort (d := { s.dispatch with signal := .abort })
    h.distinct rfl (s.dispatch.tasks.map Task.id)
  have hturns : s.abort.dispatch = s.dispatch.takeAll
      (.signal .abort :: (s.dispatch.tasks.map Task.id).map fun id => .task id .cut) := by
    rw [Dispatch.takeAll, List.foldl_cons, hraise]
    exact hcuts
  refine ⟨_, hturns, ?_, ?_, ?_⟩
  · rw [hturns]
    exact Dispatch.nodup_takeAll h.distinct _
  · exact congrArg (fun signal => signal.raise .abort) hsignal
  · have hframe := foldl_note_frame s.dispatch.tasks s.world
    intro e he
    exact h.neverYields e (hframe.2 ▸ he)

/-- What comes from outside is asked of the dispatch. -/
theorem Heeds.takes_signal (h : s.Heeds) {signal : Signal}
    (hd : s'.dispatch = { s.dispatch with signal := signal })
    (hraise : s.dispatch.signal.raise signal = signal)
    (hw : s'.world.signal = signal) (he : s'.world.events = s.world.events) : s.Takes s' := by
  have htake : s'.dispatch = s.dispatch.takeAll [.signal signal] := by
    rw [hd]
    show _ = { s.dispatch with signal := s.dispatch.signal.raise signal }
    rw [hraise]
  refine ⟨_, htake, ?_, ?_, ?_⟩
  · rw [hd]
    exact h.distinct
  · rw [hd, hw]
    exact signal.raise_self
  · intro e hmem
    exact h.neverYields e (he ▸ hmem)

theorem Heeds.takes_react (h : s.Heeds) : s.Takes s.react := by
  rw [react]
  split
  · rename_i i _ _
    refine h.takes_signal rfl ?_ rfl rfl
    have hsignal := h.signal
    revert hsignal
    cases s.dispatch.signal <;> cases s.world.signal <;> decide
  · split
    · exact h.takes_abort
    · split
      · exact h.takes_signal rfl h.signal rfl rfl
      · split
        · refine h.takes_refl rfl ?_
          have hframe := foldl_note_frame s.dispatch.tasks s.world
          exact .of_eq hframe.1 hframe.2
        · exact h.takes_refl rfl (.refl s.world)

/-- Every step of a dispatch in time is some turns of the dispatch. -/
theorem Heeds.takes_step (h : s.Heeds) : s.Takes s.step := by
  rw [step]
  split
  · rename_i id wake rest _
    have hline : { s with line := rest }.Heeds := ⟨h.distinct, h.signal, h.neverYields⟩
    dsimp only
    split
    · rename_i t ht
      obtain rfl : t.id = id := by simpa using List.find?_some ht
      exact hline.takes_stepTask ht wake
    · exact h.takes_refl rfl (.refl s.world)
  · rw [stepClock]
    split
    · exact h.takes_refl rfl (.refl s.world)
    · rename_i moment _
      have hrises := World.advance_rises h.neverYields s.isAlerted moment
      have hlater : { s with world := s.world.advance s.isAlerted moment }.Heeds :=
        ⟨h.distinct, Signal.raise_trans h.signal hrises.signal, hrises.neverYields h.neverYields⟩
      exact hlater.takes_react

/-- So are several steps. -/
theorem Heeds.takes_runSteps (h : s.Heeds) (n : Nat) : s.Takes (runSteps n s) := by
  induction n generalizing s with
  | zero => exact h.takes_refl rfl (.refl s.world)
  | succ n ih =>
    rw [runSteps]
    split
    · exact h.takes_refl rfl (.refl s.world)
    · obtain ⟨turns, hstep, hheeds⟩ := h.takes_step
      obtain ⟨later, hrest, hend⟩ := ih hheeds
      refine ⟨turns ++ later, ?_, hend⟩
      rw [hrest, hstep, Dispatch.takeAll_append]

variable {l : Ledger} {w : World}

theorem heeds_start (h : l.Consistent) (hw : w.NeverYields) (limits : DispatchLimits) (graceMs : Nat)
    (dropsAt : Option Nat) : (start limits l w graceMs dropsAt).Heeds :=
  ⟨Dispatch.nodup_start h limits w.signal, w.signal.raise_self, hw⟩

/-- A dispatch in time whose tasks have all ended has drained what it claimed, in any namespace in which
nobody takes back what was asked. -/
theorem run_drains (h : l.Consistent) (hw : w.NeverYields) (limits : DispatchLimits) (graceMs : Nat)
    (dropsAt : Option Nat) (ho : (start limits l w graceMs dropsAt).run.dispatch.isOver) :
    Drained l (start limits l w graceMs dropsAt).run.report
      (start limits l w graceMs dropsAt).run.ledger := by
  obtain ⟨turns, hturns, -⟩ :=
    (heeds_start h hw limits graceMs dropsAt).takes_runSteps (start limits l w graceMs dropsAt).enough
  have hrun : (start limits l w graceMs dropsAt).run.dispatch =
      (Dispatch.start limits w.signal l).takeAll turns := hturns
  rw [hrun] at ho
  rw [report, ledger, hrun]
  exact Dispatch.drained_takeAll h limits w.signal turns ho

/-- A dispatch in time counts each failed block once, in its order. -/
theorem run_ascending (h : l.Consistent) (hw : w.NeverYields) (ht : l.tally.Ascending)
    (limits : DispatchLimits) (graceMs : Nat) (dropsAt : Option Nat) :
    (start limits l w graceMs dropsAt).run.ledger.tally.Ascending := by
  obtain ⟨turns, hturns, -⟩ :=
    (heeds_start h hw limits graceMs dropsAt).takes_runSteps (start limits l w graceMs dropsAt).enough
  have hrun : (start limits l w graceMs dropsAt).run.dispatch =
      (Dispatch.start limits w.signal l).takeAll turns := hturns
  rw [ledger, hrun]
  exact Dispatch.ascending_settleBroken
    (Dispatch.ascending_takeAll (Dispatch.nodup_start h limits w.signal) ht turns)

end Timeline

end StorageTiering
