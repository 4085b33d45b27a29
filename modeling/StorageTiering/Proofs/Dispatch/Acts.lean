import StorageTiering.Proofs.Cluster.Execution
import StorageTiering.Proofs.Dispatch.Drain
import StorageTiering.Proofs.World.Bare
/-!
# Moves side by side

In a namespace without a script the tasks of a dispatch go on in any order, the cluster answers running
attempts one by one, and time passes between them.

* `Act`, `Scene` — what can happen next, and a dispatch with its namespace; `Scene.takeAll` — what becomes of
  them.
* `Scene.exists_turns`, `Scene.drained_takeAll` — of the dispatch, acts are turns of its tasks, so they drain the
  ledger.
* `Dispatch.standing` — the moves that are open, and how many are done and given up.
* `Scene.Attempting`, `Scene.Attempting.takeAll` — in a namespace that is left to itself, all that happens to
  the cluster are attempts at the moves that are open.
-/

namespace StorageTiering

/-- What can happen next in a namespace without a script. -/
inductive Act
  /-- A task goes on that is ready, or has a permit. -/
  | go (id : MoveId)
  /-- The cluster answers the running attempt of a task. -/
  | answer (id : MoveId)
  /-- A task has rested. -/
  | rested (id : MoveId)
  /-- Time passes, up to a moment or until a condition holds. -/
  | pass (stop : World → Bool) (moment : Nat)

/-- A dispatch with its namespace. -/
structure Scene where
  dispatch : Dispatch
  world : World

namespace Scene

/-- A dispatch of all pending moves of a ledger, before the first of them goes on. -/
def start (limits : DispatchLimits) (l : Ledger) (w : World) : Scene := ⟨.start limits w.signal l, w⟩

/-- The namespace when a task goes on. An attempt that starts by it is noted. -/
def noted (s : Scene) (t : Task) : World :=
  if t.phase = .granted .target ∧ s.dispatch.signal = .proceed then s.world.note .start t.move else s.world

/-- The scene after an act. -/
def take (s : Scene) : Act → Scene
  | .go id =>
      { dispatch := s.dispatch.take (.task id .go)
        world := ((s.dispatch.task? id).map s.noted).getD s.world }
  | .answer id =>
      match s.dispatch.task? id with
      | some t =>
          if t.phase = .running then
            let (world, outcome) := s.world.settleAttempt t.move .perform
            ⟨s.dispatch.take (.task id (.finish outcome)), world⟩
          else s
      | none => s
  | .rested id => { s with dispatch := s.dispatch.take (.task id .rested) }
  | .pass stop moment => { s with world := s.world.advance stop moment }

/-- The scene after several acts. -/
def takeAll (s : Scene) (acts : List Act) : Scene := acts.foldl take s

theorem takeAll_append (s : Scene) (before after : List Act) :
    s.takeAll (before ++ after) = (s.takeAll before).takeAll after := List.foldl_append

variable {s : Scene} {t : Task} {id : MoveId}

theorem take_answer (ht : s.dispatch.task? id = some t) (hp : t.phase = .running) : s.take (.answer id) =
    ⟨s.dispatch.take (.task id (.finish (.answered (s.world.cluster.relocate t.move).2))),
      (s.world.settleAttempt t.move .perform).1⟩ := by
  simp only [take, ht, hp, if_true]
  rfl

/-! ### Turns -/

/-- Of the dispatch, an act is a turn of a task, or nothing. -/
theorem exists_turns_take (s : Scene) (act : Act) :
    ∃ turns, (s.take act).dispatch = s.dispatch.takeAll turns := by
  cases act with
  | go id => exact ⟨[.task id .go], rfl⟩
  | rested id => exact ⟨[.task id .rested], rfl⟩
  | pass stop moment => exact ⟨[], rfl⟩
  | answer id =>
    rw [take]
    split
    · rename_i t ht
      split
      · exact ⟨[.task id (.finish _)], rfl⟩
      · exact ⟨[], rfl⟩
    · exact ⟨[], rfl⟩

/-- Of the dispatch, acts are turns of its tasks. -/
theorem exists_turns (s : Scene) (acts : List Act) :
    ∃ turns, (s.takeAll acts).dispatch = s.dispatch.takeAll turns := by
  induction acts generalizing s with
  | nil => exact ⟨[], rfl⟩
  | cons act rest ih =>
    obtain ⟨turns, hact⟩ := s.exists_turns_take act
    obtain ⟨later, hrest⟩ := ih (s.take act)
    refine ⟨turns ++ later, ?_⟩
    rw [Dispatch.takeAll_append, ← hact, ← hrest]
    rfl

/-- When all tasks have ended, the acts have drained the ledger. -/
theorem drained_takeAll {l : Ledger} (h : l.Consistent) (limits : DispatchLimits) (w : World) (acts : List Act)
    (ho : ((start limits l w).takeAll acts).dispatch.isOver) :
    Drained l (.ofTasks ((start limits l w).takeAll acts).dispatch.tasks)
      ((start limits l w).takeAll acts).dispatch.settleBroken := by
  obtain ⟨turns, hturns⟩ := (start limits l w).exists_turns acts
  rw [hturns] at ho ⊢
  exact Dispatch.drained_takeAll h limits w.signal turns ho

/-- Acts count each failed block once, in its order. -/
theorem ascending_takeAll {l : Ledger} (h : l.Consistent) (ht : l.tally.Ascending) (limits : DispatchLimits)
    (w : World) (acts : List Act) :
    ((start limits l w).takeAll acts).dispatch.settleBroken.tally.Ascending := by
  obtain ⟨turns, hturns⟩ := (start limits l w).exists_turns acts
  rw [hturns]
  exact Dispatch.ascending_settleBroken
    (Dispatch.ascending_takeAll (Dispatch.nodup_start h limits w.signal) ht turns)

/-! ### Bare namespaces -/

theorem bare_take (h : s.world.Bare) (act : Act) : (s.take act).world.Bare := by
  cases act with
  | go id =>
    show (((s.dispatch.task? id).map s.noted).getD s.world).Bare
    cases s.dispatch.task? id with
    | none => exact h
    | some t =>
      show (s.noted t).Bare
      rw [noted]
      split
      · exact ⟨h.script, h.signal, h.unasked⟩
      · exact h
  | answer id =>
    rw [take]
    split
    · split
      · exact ⟨h.script, h.signal, h.unasked⟩
      · exact h
    · exact h
  | rested id => exact h
  | pass stop moment => exact h.advance stop moment

/-- Acts leave a namespace without a script. -/
theorem bare_takeAll (h : s.world.Bare) (acts : List Act) : (s.takeAll acts).world.Bare := by
  induction acts generalizing s with
  | nil => exact h
  | cons act rest ih => exact ih (bare_take h act)

end Scene

/-! ### Moves that are open, done and given up -/

namespace Dispatch

variable {d d' : Dispatch} {t t' : Task} {front back : List Task} {l : Ledger} {id : MoveId} {cue : Cue}

/-- The moves that are open, and how many are done and given up. -/
def standing (d : Dispatch) : List Move × Nat × Nat :=
  (d.openTasks.map Task.move, (DispatchReport.ofTasks d.tasks).moved, (DispatchReport.ofTasks d.tasks).failed.length)

/-- Where permits go does not matter. -/
theorem Shifts.standing (h : d.Shifts d') : d'.standing = d.standing := by
  have hopen : (d'.tasks.map fun t => (t.isOpen, t.move)) = d.tasks.map fun t => (t.isOpen, t.move) :=
    h.map_eq fun t p hp => by simp [Task.isOpen, hp, Phase.isEnded, Phase.result?]
  have hdone : d'.tasks.map MoveResult.success? = d.tasks.map MoveResult.success? :=
    h.map_eq fun t p hp => by simp [MoveResult.success?, hp]
  have hfailed : d'.tasks.map MoveResult.failure? = d.tasks.map MoveResult.failure? :=
    h.map_eq fun t p hp => by simp [MoveResult.failure?, hp]
  have hmoves : ∀ tasks : List Task, (tasks.filter Task.isOpen).map Task.move =
      ((tasks.map fun t => (t.isOpen, t.move)).filter Prod.fst).map Prod.snd := fun tasks => by
    rw [List.filter_map, List.map_map]
    rfl
  have hresults : ∀ (f : Task → Option MoveResult) (tasks : List Task),
      tasks.filterMap f = (tasks.map f).filterMap id := fun f tasks => by
    rw [List.filterMap_map]
    rfl
  simp only [Dispatch.standing, openTasks, DispatchReport.ofTasks, DispatchReport.moved, hmoves,
    hresults MoveResult.success?, hresults MoveResult.failure?, hopen, hdone, hfailed]

/-- A task that was open and has ended is done or given up. -/
theorem standing_put_ended (ho : t'.isOpen = false) : (d.put front t' back l).standing =
    (((front.filter Task.isOpen).map Task.move ++ (back.filter Task.isOpen).map Task.move),
      (DispatchReport.ofTasks (front ++ back)).moved + (MoveResult.success? t').toList.length,
      (DispatchReport.ofTasks (front ++ back)).failed.length + (MoveResult.failure? t').toList.length) := by
  rw [standing, openTasks_put_ended ho, List.map_append, put, DispatchReport.moved_split,
    DispatchReport.failed_split]

/-- An open task among others. -/
theorem standing_split (hs : d.tasks = front ++ t :: back) (ho : t.isOpen) : d.standing =
    (((front.filter Task.isOpen).map Task.move ++ t.move :: (back.filter Task.isOpen).map Task.move),
      (DispatchReport.ofTasks (front ++ back)).moved, (DispatchReport.ofTasks (front ++ back)).failed.length) := by
  obtain ⟨hmoved, hfailed⟩ := DispatchReport.counts_open front back ho
  rw [standing, openTasks_split hs ho, List.map_append, List.map_cons, hs, hmoved, hfailed]

/-- A task that stays open changes nothing. -/
theorem standing_put_open (hs : d.tasks = front ++ t :: back) (ho : t.isOpen) (ho' : t'.isOpen)
    (hm : t'.move = t.move) : (d.put front t' back l).standing = d.standing := by
  rw [standing_split hs ho, standing_split (d := d.put front t' back l) rfl ho', hm]

/-- A task outside an attempt stays open in its turn, if nobody has asked for an end. -/
theorem Advance.stays_open (h : d.Advance t t' l) (hs : d.signal = .proceed) (hp : t.phase ≠ .running) :
    t'.isOpen ∧ t'.move = t.move := by
  cases h with
  | request _ hph =>
    obtain ⟨p, rfl | rfl⟩ := hph <;> exact ⟨rfl, rfl⟩
  | run _ _ => exact ⟨rfl, rfl⟩
  | rested _ => exact ⟨rfl, rfl⟩
  | cancel _ hne => exact absurd hs hne
  | succeed hr | again hr _ | giveUp _ hr _ | «break» hr => exact absurd hr hp

/-- The turn of a task that goes on or has rested opens and ends no move. -/
theorem standing_take (hn : (d.tasks.map Task.id).Nodup) (hs : d.signal = .proceed)
    (hcue : cue = .go ∨ cue = .rested) (id : MoveId) : (d.take (.task id cue)).standing = d.standing := by
  rw [take]
  split
  · rename_i t ht
    obtain ⟨front, back, hsplit⟩ := List.append_of_mem (List.mem_of_find?_eq_some ht)
    by_cases hp : t.phase = .running
    · have hsame : d.takeTask t cue = d := by
        unfold takeTask
        rcases hcue with rfl | rfl <;> simp only [hp]
      rw [hsame]
    · rcases takeTask_cases hn hsplit cue with heq | ⟨t', l, ha, hshifts⟩
      · rw [heq]
      · obtain ⟨ho', hm⟩ := ha.stays_open hs hp
        have ho : t.isOpen := by
          rw [Task.isOpen, ha.isEnded_eq_false]
          rfl
        rw [hshifts.standing, standing_put_open hsplit ho ho' hm]
  · rfl

/-- An attempt that succeeds ends its task. -/
theorem standing_finish_ok (hn : (d.tasks.map Task.id).Nodup) (hs : d.tasks = front ++ t :: back) :
    (d.finish t (.answered (.ok ()))).1.standing =
      ((front.filter Task.isOpen).map Task.move ++ (back.filter Task.isOpen).map Task.move,
        (DispatchReport.ofTasks (front ++ back)).moved + 1,
        (DispatchReport.ofTasks (front ++ back)).failed.length) := by
  have hshifts := shifts_conclude hn hs .succeeded .succeeded
  rw [finish, hshifts.standing, standing_put_ended rfl]
  rfl

/-- An attempt that fails leaves its task open, or the task gives up. -/
theorem standing_finish_error (hn : (d.tasks.map Task.id).Nodup) (hs : d.tasks = front ++ t :: back)
    (ho : t.isOpen) (e : TransferError) :
    (d.finish t (.answered (.error e))).1.standing = d.standing ∨
      (d.finish t (.answered (.error e))).1.standing =
        ((front.filter Task.isOpen).map Task.move ++ (back.filter Task.isOpen).map Task.move,
          (DispatchReport.ofTasks (front ++ back)).moved,
          (DispatchReport.ofTasks (front ++ back)).failed.length + 1) := by
  rw [finish, failAttempt]
  split
  · rename_i l n _
    have hshifts := shifts_failed hn hs .resting n l
    exact .inl (hshifts.standing.trans (standing_put_open hs ho rfl rfl))
  · rename_i l n _
    have hshifts := shifts_failed hn hs (.ended (.failed e)) n l
    exact .inr (hshifts.standing.trans (standing_put_ended rfl))

end Dispatch

/-! ### Attempts -/

namespace World

variable {w : World}

theorem Still.settleAttempt (h : w.Still) (m : Move) : (w.settleAttempt m .perform).1.Still :=
  ⟨h.script, h.events, h.signal, h.shutdown⟩

theorem Secure.settleAttempt (h : w.Secure) (m : Move) : (w.settleAttempt m .perform).1.Secure := by
  intro r hr
  have hlease : (w.cluster.relocate m).1.renewalError? r.serial = w.cluster.renewalError? r.serial := by
    obtain ⟨nodes, blocks, he, -⟩ := Cluster.relocate_frame w.cluster m
    rw [he]
    rfl
  exact hlease.trans (h r hr)

end World

namespace Scene

variable {P : Prop} {c₀ : Cluster} {ms₀ : List Move} {s : Scene}

/-- A dispatch in a namespace that is left to itself, whose cluster has come to where it is by attempts at the
moves `ms₀`. If `P` is true, the lease is held and secure. -/
structure Attempting (P : Prop) (c₀ : Cluster) (ms₀ : List Move) (s : Scene) : Prop where
  distinct : (s.dispatch.tasks.map Task.id).Nodup
  signal : s.dispatch.signal = .proceed
  still : s.world.Still
  secure : P → s.world.Secure ∧ s.world.lost = none
  executes : c₀.Executes ms₀ s.world.cluster s.dispatch.standing.1 s.dispatch.standing.2.1
    s.dispatch.standing.2.2

/-- The turn of a task that goes on or has rested is no attempt. -/
theorem Attempting.turn (h : s.Attempting P c₀ ms₀) {cue : Cue} (hcue : cue = .go ∨ cue = .rested)
    (id : MoveId) {w : World} (hw : w = s.world ∨ ∃ m, w = s.world.note .start m) :
    Attempting P c₀ ms₀ ⟨s.dispatch.take (.task id cue), w⟩ := by
  have hsame : w.Still ∧ (P → w.Secure ∧ w.lost = none) ∧ w.cluster = s.world.cluster := by
    rcases hw with rfl | ⟨m, rfl⟩
    · exact ⟨h.still, h.secure, rfl⟩
    · exact ⟨⟨h.still.script, h.still.events, h.still.signal, h.still.shutdown⟩, h.secure, rfl⟩
  refine ⟨Dispatch.nodup_take h.distinct _, ?_, hsame.1, hsame.2.1, ?_⟩
  · exact (Dispatch.signal_take_task h.distinct id cue).trans h.signal
  · dsimp only
    rw [Dispatch.standing_take h.distinct h.signal hcue, hsame.2.2]
    exact h.executes

/-- The answer of the cluster is an attempt at an open move. -/
theorem Attempting.answer (h : s.Attempting P c₀ ms₀) {t : Task} {id : MoveId}
    (ht : s.dispatch.task? id = some t) (hp : t.phase = .running) :
    (s.take (.answer id)).Attempting P c₀ ms₀ := by
  obtain ⟨front, back, hsplit⟩ := List.append_of_mem (List.mem_of_find?_eq_some ht)
  have ho : t.isOpen := Task.isOpen_of_phase hp rfl
  rw [take_answer ht hp]
  have hfinish : s.dispatch.take (.task id (.finish (.answered (s.world.cluster.relocate t.move).2))) =
      (s.dispatch.finish t (.answered (s.world.cluster.relocate t.move).2)).1 := by
    rw [Dispatch.take_task ht]
    unfold Dispatch.takeTask
    rw [hp]
  have hexec := h.executes
  rw [Dispatch.standing_split hsplit ho] at hexec
  refine ⟨Dispatch.nodup_take h.distinct _, (Dispatch.signal_take_task h.distinct id _).trans h.signal,
    h.still.settleAttempt t.move, fun hP => ⟨(h.secure hP).1.settleAttempt t.move, (h.secure hP).2⟩, ?_⟩
  show c₀.Executes ms₀ (s.world.cluster.relocate t.move).1 _ _ _
  dsimp only
  rw [hfinish]
  cases hr : s.world.cluster.relocationError? t.move with
  | none =>
    rw [Cluster.relocate_ok_iff.2 hr, Dispatch.standing_finish_ok h.distinct hsplit]
    exact hexec.done hr
  | some e =>
    have hresult : (s.world.cluster.relocate t.move).2 = .error e := by
      rw [Cluster.relocate_of_error hr]
    rw [hresult]
    rcases Dispatch.standing_finish_error h.distinct hsplit ho e with heq | heq
    · rw [heq, Dispatch.standing_split hsplit ho]
      exact hexec.again hr
    · rw [heq]
      exact hexec.givenUp hr

theorem Attempting.take (h : s.Attempting P c₀ ms₀) (act : Act) : (s.take act).Attempting P c₀ ms₀ := by
  cases act with
  | go id =>
    refine h.turn (.inl rfl) id ?_
    cases s.dispatch.task? id with
    | none => exact .inl rfl
    | some t =>
      show s.noted t = s.world ∨ ∃ m, s.noted t = s.world.note .start m
      rw [noted]
      split
      · exact .inr ⟨_, rfl⟩
      · exact .inl rfl
  | answer id =>
    cases ht : s.dispatch.task? id with
    | none =>
      rw [Scene.take, ht]
      exact h
    | some t =>
      by_cases hp : t.phase = .running
      · exact h.answer ht hp
      · simp only [Scene.take, ht, if_neg hp]
        exact h
  | rested id => exact h.turn (.inr rfl) id (.inl rfl)
  | pass stop moment =>
    have helapsed := h.still.advance_elapsed stop moment
    refine ⟨h.distinct, h.signal, helapsed.still h.still, fun hP => ?_, ?_⟩
    · obtain ⟨hsecure, hlost⟩ := h.secure hP
      exact ⟨(helapsed.secure hsecure).1, (helapsed.secure hsecure).2.trans hlost⟩
    · show c₀.Executes ms₀ (s.world.advance stop moment).cluster _ _ _
      rw [helapsed.cluster]
      exact h.executes

/-- All that happens to the cluster are attempts at the moves that are open. -/
theorem Attempting.takeAll (h : s.Attempting P c₀ ms₀) (acts : List Act) :
    (s.takeAll acts).Attempting P c₀ ms₀ := by
  induction acts generalizing s with
  | nil => exact h
  | cons act rest ih => exact ih (h.take act)

/-- A dispatch of moves that wait for their first attempts has made no attempt. -/
theorem attempting_start {l : Ledger} {w : World} (hc : l.Consistent) (hf : l.Fresh) (hw : w.Still)
    (hsecure : P → w.Secure ∧ w.lost = none) (limits : DispatchLimits) :
    (start limits l w).Attempting P w.cluster (l.entries.map Entry.move) := by
  have hdispatch : (start limits l w).dispatch = Dispatch.start limits .proceed l := by
    rw [start, hw.signal]
  refine ⟨Dispatch.nodup_start hc limits w.signal, hw.signal, hw, hsecure, ?_⟩
  have htasks : (Dispatch.start limits .proceed l).tasks = l.entries.map fun e => ⟨e.id, e.move, 0, .ready⟩ :=
    Dispatch.tasks_start hf
  have hstanding : (Dispatch.start limits .proceed l).standing = (l.entries.map Entry.move, 0, 0) := by
    rw [Dispatch.standing, Dispatch.openTasks_start hf, htasks, List.map_map]
    simp [DispatchReport.ofTasks, DispatchReport.moved, MoveResult.success?, MoveResult.failure?,
      Function.comp_def]
  rw [hdispatch, hstanding]
  exact .start

end Scene

end StorageTiering
