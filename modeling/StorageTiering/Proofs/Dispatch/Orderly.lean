import StorageTiering.Dispatch.Report
import StorageTiering.Proofs.Ledger
/-!
# A dispatch between attempts

A dispatch that nobody asks to stop, at a moment when no attempt is running.

* `Task.Idle` — a task that is between attempts, or has come to an end of its own.
* `Task.entry`, `Dispatch.Orderly` — the ledger has exactly the entries of the tasks that are open.
* `Dispatch.begin_idle`, `Dispatch.proceed_setPhase` — a task gets its permits one after another, because
  nobody else holds any.
* `Dispatch.finish_ok`, `Dispatch.finish_again`, `Dispatch.finish_giveUp`, `Dispatch.wake_resting` — how
  attempts and rests end.
-/

namespace StorageTiering

namespace Task

/-- The task has not ended. -/
def isOpen (t : Task) : Bool := !t.phase.isEnded

/-- The ledger entry of an open task: pending while it rests. -/
def entry (t : Task) : Entry :=
  ⟨t.id, t.move, if t.phase = .resting then .pending else .inFlight, t.attempts⟩

/-- A task that is between attempts, or has come to an end of its own. -/
def Idle (t : Task) : Prop :=
  t.phase = .ready ∨ t.phase = .resting ∨ t.phase = .ended .succeeded ∨
    ∃ e, t.phase = .ended (.failed e)

theorem isOpen_of_phase {t : Task} {ph : Phase} (hp : t.phase = ph) (hph : ph.isEnded = false) :
    t.isOpen := by
  rw [isOpen, hp, hph]
  rfl

theorem isOpen_eq_false_of_phase {t : Task} {r : TaskEnd} (hp : t.phase = .ended r) :
    t.isOpen = false := by
  rw [isOpen, hp]
  rfl

/-- An open task that is between attempts is ready or rests. -/
theorem Idle.ready_or_resting {t : Task} (h : t.Idle) (ho : t.isOpen) :
    t.phase = .ready ∨ t.phase = .resting := by
  rcases h with hp | hp | hp | ⟨e, hp⟩
  · exact .inl hp
  · exact .inr hp
  · exact absurd ho (by rw [isOpen_eq_false_of_phase hp]; decide)
  · exact absurd ho (by rw [isOpen_eq_false_of_phase hp]; decide)

theorem Idle.holds_eq_false {t : Task} (h : t.Idle) (p : Permit) : t.phase.holds p = false := by
  rcases h with h | h | h | ⟨e, h⟩ <;> rw [h] <;> rfl

end Task

/-! ### What came of one task among others -/

namespace DispatchReport

variable {t : Task}

theorem moved_split (front : List Task) (t : Task) (back : List Task) :
    (ofTasks (front ++ t :: back)).moved =
      (ofTasks (front ++ back)).moved + (MoveResult.success? t).toList.length := by
  simp only [ofTasks, moved, List.filterMap_append, List.filterMap_cons, List.length_append]
  cases MoveResult.success? t with
  | none => rfl
  | some r =>
    simp only [List.length_cons, Option.toList_some, List.length_nil]
    omega

theorem failed_split (front : List Task) (t : Task) (back : List Task) :
    (ofTasks (front ++ t :: back)).failed.length =
      (ofTasks (front ++ back)).failed.length + (MoveResult.failure? t).toList.length := by
  simp only [ofTasks, List.filterMap_append, List.filterMap_cons, List.length_append]
  cases MoveResult.failure? t with
  | none => rfl
  | some r =>
    simp only [List.length_cons, Option.toList_some, List.length_nil]
    omega

/-- A task that is open does not count. -/
theorem counts_open (front back : List Task) (ho : t.isOpen) :
    (ofTasks (front ++ t :: back)).moved = (ofTasks (front ++ back)).moved ∧
      (ofTasks (front ++ t :: back)).failed.length = (ofTasks (front ++ back)).failed.length := by
  have hnone : MoveResult.success? t = none ∧ MoveResult.failure? t = none := by
    rw [MoveResult.success?, MoveResult.failure?]
    cases hp : t.phase with
    | ended r => exact absurd ho (by rw [Task.isOpen_eq_false_of_phase hp]; decide)
    | _ => exact ⟨rfl, rfl⟩
  rw [moved_split, failed_split, hnone.1, hnone.2]
  exact ⟨rfl, rfl⟩

end DispatchReport

namespace Dispatch

variable {d : Dispatch} {t t' : Task} {front back : List Task} {l : Ledger} {m : Move}
  {p q : Permit} {ph ph' : Phase} {id : MoveId} {e : TransferError}

/-- The tasks that have not ended, in the order of numbers. -/
def openTasks (d : Dispatch) : List Task := d.tasks.filter Task.isOpen

/-- Nobody asks the dispatch to stop, no attempt is running, and the ledger has exactly the entries of
the tasks that are open. -/
structure Orderly (d : Dispatch) : Prop where
  signal : d.signal = .proceed
  queue : d.queue = []
  permits : ∀ p : Permit, 0 < p.limit d.limits
  distinct : (d.tasks.map Task.id).Nodup
  idle : ∀ t ∈ d.tasks, t.Idle
  spare : ∀ t ∈ d.openTasks, t.attempts < d.limits.maxAttempts
  mirrored : d.ledger.entries = d.openTasks.map Task.entry
  consistent : d.ledger.Consistent

/-! ### One task among others -/

theorem tasks_setTask (hn : (d.tasks.map Task.id).Nodup) (hs : d.tasks = front ++ t :: back)
    (f : Task → Task) : (d.setTask t.id f).tasks = front ++ f t :: back := by
  rw [hs] at hn
  rw [setTask]
  dsimp only
  rw [hs]
  exact Keyed.map_split hn f

theorem task?_split (hn : (d.tasks.map Task.id).Nodup) (hs : d.tasks = front ++ t :: back) :
    d.task? t.id = some t := by
  rw [hs] at hn
  rw [task?, hs]
  exact Keyed.find?_split hn

theorem setPhase_setPhase (d : Dispatch) (id : MoveId) (ph ph' : Phase) :
    (d.setPhase id ph).setPhase id ph' = d.setPhase id ph' := by
  simp only [setPhase, setTask, List.map_map]
  congr 1
  refine List.map_congr_left fun t _ => ?_
  simp only [Function.comp_apply]
  by_cases h : t.id = id <;> simp [h]

theorem task?_setPhase (hn : (d.tasks.map Task.id).Nodup) (hs : d.tasks = front ++ t :: back)
    (ph : Phase) : (d.setPhase t.id ph).task? t.id = some { t with phase := ph } := by
  have ht : (d.setPhase t.id ph).tasks = front ++ { t with phase := ph } :: back :=
    tasks_setTask hn hs _
  have hn' : ((d.setPhase t.id ph).tasks.map Task.id).Nodup := by
    rw [hs] at hn
    rw [ht]
    simpa using hn
  exact task?_split hn' ht

/-- Among idle tasks, only the one whose phase is set holds permits. -/
theorem inUse_setPhase (h : ∀ t ∈ d.tasks, t.Idle) (hp : ph.holds p = false) :
    (d.setPhase id ph).inUse p m = 0 := by
  refine List.countP_eq_zero.2 fun t ht => ?_
  obtain ⟨t₀, ht₀, rfl⟩ := List.mem_map.1 ht
  split
  · simp [hp]
  · simp [(h t₀ ht₀).holds_eq_false]

theorem hasFree_setPhase (h : d.Orderly) (hp : ph.holds p = false) :
    (d.setPhase id ph).hasFree p m := by
  rw [hasFree, inUse_setPhase h.idle hp]
  exact decide_eq_true (h.permits p)

theorem hasFree_idle (h : d.Orderly) : d.hasFree p m := by
  have hzero : d.inUse p m = 0 := List.countP_eq_zero.2 fun t ht => by
    simp [(h.idle t ht).holds_eq_false]
  rw [hasFree, hzero]
  exact decide_eq_true (h.permits p)

/-! ### Permits -/

/-- A task that begins gets its first permit at once. -/
theorem begin_idle (h : d.Orderly) : d.begin t = (d.setPhase t.id (.granted .everywhere), []) := by
  rw [begin, if_pos h.signal, request, if_pos (hasFree_idle h)]

/-- A task that has a permit gets the next one at once. -/
theorem proceed_setPhase (h : d.Orderly) (hq : p.next? = some q) :
    (d.setPhase t.id (.granted p)).proceed t p = (d.setPhase t.id (.granted q), []) := by
  have hholds : (Phase.granted p).holds q = false := by
    cases p <;> cases hq <;> rfl
  rw [proceed, hq]
  dsimp only
  rw [request, if_pos (hasFree_setPhase h hholds), setPhase_setPhase]

/-- A task that has all permits runs. -/
theorem proceed_last (h : d.Orderly) :
    (d.setPhase t.id (.granted .target)).proceed t .target = (d.setPhase t.id .running, []) := by
  have hsignal : (d.setPhase t.id (.granted .target)).signal = .proceed := h.signal
  simp only [proceed, Permit.next?, hsignal, if_true, setPhase_setPhase]

theorem handOverAll_nil (hq : d.queue = []) (m : Move) (ps : List Permit) :
    d.handOverAll m ps = (d, []) := by
  have hone : ∀ p, d.handOver p m = (d, none) := by
    intro p
    rw [handOver, hq]
    split <;> rfl
  induction ps with
  | nil => rfl
  | cons p rest ih =>
    simp only [handOverAll, hone, ih]
    rfl

/-- Permits that nobody waits for are given back. -/
theorem leave_nil (hq : d.queue = []) (t : Task) (ph : Phase) :
    d.leave t ph = (d.setPhase t.id ph, []) := by
  obtain ⟨limits, signal, ledger, tasks, queue⟩ := d
  obtain rfl : queue = [] := hq
  exact handOverAll_nil rfl t.move _

/-! ### Ends of attempts and rests -/

/-- The dispatch with another task in the place of one. -/
def put (d : Dispatch) (front : List Task) (t : Task) (back : List Task) (l : Ledger) : Dispatch :=
  { d with tasks := front ++ t :: back, ledger := l }

theorem nodup_put (hn : (d.tasks.map Task.id).Nodup) (hs : d.tasks = front ++ t :: back)
    (hid : t'.id = t.id) : ((d.put front t' back l).tasks.map Task.id).Nodup := by
  rw [hs] at hn
  simpa [put, hid] using hn

theorem setPhase_put (hn : (d.tasks.map Task.id).Nodup) (hs : d.tasks = front ++ t :: back)
    (ph : Phase) : d.setPhase t.id ph = d.put front { t with phase := ph } back d.ledger := by
  have ht := tasks_setTask hn hs fun t => { t with phase := ph }
  rw [setPhase, setTask] at *
  exact congrArg (fun tasks => { d with tasks := tasks }) ht

theorem setTask_put (hn : (d.tasks.map Task.id).Nodup) (hs : d.tasks = front ++ t :: back)
    (t' : Task) (hid : t'.id = t.id) (f : Task → Task) :
    (d.put front t' back l).setTask t.id f = d.put front (f t') back l := by
  have hput : (d.put front t' back l).tasks = front ++ t' :: back := rfl
  have ht := tasks_setTask (nodup_put hn hs hid) hput f
  rw [hid] at ht
  exact congrArg (fun tasks => { d with tasks := tasks, ledger := l }) ht

theorem openTasks_split (hs : d.tasks = front ++ t :: back) (ho : t.isOpen) :
    d.openTasks = front.filter Task.isOpen ++ t :: back.filter Task.isOpen := by
  rw [openTasks, hs, List.filter_append, List.filter_cons_of_pos ho]

theorem entries_split (h : d.Orderly) (hs : d.tasks = front ++ t :: back) (ho : t.isOpen) :
    d.ledger.entries = (front.filter Task.isOpen).map Task.entry ++
      t.entry :: (back.filter Task.isOpen).map Task.entry := by
  rw [h.mirrored, openTasks_split hs ho, List.map_append, List.map_cons]

theorem openTasks_put_open (ho : t'.isOpen) : (d.put front t' back l).openTasks =
    front.filter Task.isOpen ++ t' :: back.filter Task.isOpen :=
  openTasks_split (d := d.put front t' back l) rfl ho

theorem openTasks_put_ended (ho : t'.isOpen = false) : (d.put front t' back l).openTasks =
    front.filter Task.isOpen ++ back.filter Task.isOpen := by
  rw [openTasks, put, List.filter_append, List.filter_cons_of_neg (by rw [ho]; decide)]

/-- A dispatch stays orderly if an idle task takes the place of one, and its entry goes with it. -/
theorem Orderly.put (h : d.Orderly) (hs : d.tasks = front ++ t :: back) (hid : t'.id = t.id)
    (hidle : t'.Idle) (hspare : t'.isOpen → t'.attempts < d.limits.maxAttempts)
    (hmirror : l.entries = (d.put front t' back l).openTasks.map Task.entry)
    (hcons : l.Consistent) : (d.put front t' back l).Orderly where
  signal := h.signal
  queue := h.queue
  permits := h.permits
  distinct := nodup_put h.distinct hs hid
  idle := by
    intro x hx
    have hx' : x ∈ front ++ t' :: back := hx
    have hold : ∀ y ∈ front ++ t :: back, y.Idle := hs ▸ h.idle
    rcases List.mem_append.1 hx' with hx' | hx'
    · exact hold x (List.mem_append_left _ hx')
    · rcases List.mem_cons.1 hx' with rfl | hx'
      · exact hidle
      · exact hold x (List.mem_append_right _ (List.mem_cons_of_mem _ hx'))
  spare := by
    intro x hx
    obtain ⟨hx, hopen⟩ := List.mem_filter.1 hx
    have hx' : x ∈ front ++ t' :: back := hx
    have hold : ∀ y ∈ front ++ t :: back, y.isOpen → y.attempts < d.limits.maxAttempts :=
      fun y hy ho => h.spare y (List.mem_filter.2 ⟨hs ▸ hy, ho⟩)
    rcases List.mem_append.1 hx' with hx' | hx'
    · exact hold x (List.mem_append_left _ hx') hopen
    · rcases List.mem_cons.1 hx' with rfl | hx'
      · exact hspare hopen
      · exact hold x (List.mem_append_right _ (List.mem_cons_of_mem _ hx')) hopen
  mirrored := hmirror
  consistent := hcons

/-- A running task gives its permits back. -/
theorem leave_running (h : d.Orderly) (hs : d.tasks = front ++ t :: back) (ph : Phase) :
    (d.setPhase t.id .running).leave { t with phase := .running } ph =
      (d.put front { t with phase := ph } back d.ledger, []) := by
  have hq : (d.setPhase t.id .running).queue = [] := h.queue
  rw [leave_nil hq, setPhase_setPhase, setPhase_put h.distinct hs]

/-- A failed attempt is recorded: the task rests if it has attempts left, and has ended otherwise. -/
theorem finish_error {n : Nat} (h : d.Orderly) (hs : d.tasks = front ++ t :: back)
    (hfail : d.ledger.fail t.id d.limits.maxAttempts = (l, .again n) ∧ ph = .resting ∨
      d.ledger.fail t.id d.limits.maxAttempts = (l, .giveUp n) ∧ ph = .ended (.failed e)) :
    (d.setPhase t.id .running).finish { t with phase := .running } (.answered (.error e)) =
      (d.put front { t with phase := ph, attempts := n } back l, []) := by
  have hset : (d.put front { t with phase := ph } back d.ledger).setTask t.id
      (fun t => { t with attempts := n }) = d.put front { t with phase := ph, attempts := n } back d.ledger :=
    setTask_put h.distinct hs { t with phase := ph } rfl _
  have hledger : (d.setPhase t.id .running).ledger.fail t.id
      (d.setPhase t.id .running).limits.maxAttempts = d.ledger.fail t.id d.limits.maxAttempts := rfl
  rcases hfail with ⟨hfail, rfl⟩ | ⟨hfail, rfl⟩
  · simp only [finish, failAttempt, hledger, hfail, leave_running h hs, hset]
    rfl
  · simp only [finish, failAttempt, hledger, hfail, leave_running h hs, hset]
    rfl

/-- A task that was successful has ended, and its entry is gone. -/
theorem finish_ok (h : d.Orderly) (hs : d.tasks = front ++ t :: back) (ho : t.isOpen) :
    ∃ l, (d.setPhase t.id .running).finish { t with phase := .running } (.answered (.ok ())) =
        (d.put front { t with phase := .ended .succeeded } back l, []) ∧
      (d.put front { t with phase := .ended .succeeded } back l).Orderly := by
  have hentries := Ledger.complete_split h.consistent (entries_split h hs ho) .succeeded
  refine ⟨(d.ledger.complete t.id .succeeded).1, ?_, ?_⟩
  · rw [finish, conclude, leave_running h hs]
    rfl
  · refine h.put hs rfl (.inr (.inr (.inl rfl))) (fun hn => nomatch hn) (hentries.trans ?_)
      (h.consistent.complete t.id .succeeded)
    rw [openTasks_put_ended rfl, List.map_append]

/-- A task that has failed and has attempts left rests, and its entry is pending. -/
theorem finish_again (h : d.Orderly) (hs : d.tasks = front ++ t :: back) (ho : t.isOpen)
    (hlt : t.attempts + 1 < d.limits.maxAttempts) (e : TransferError) :
    ∃ l, (d.setPhase t.id .running).finish { t with phase := .running } (.answered (.error e)) =
        (d.put front { t with phase := .resting, attempts := t.attempts + 1 } back l, []) ∧
      (d.put front { t with phase := .resting, attempts := t.attempts + 1 } back l).Orderly := by
  obtain ⟨hretry, hentries⟩ := Ledger.fail_again_split h.consistent (entries_split h hs ho) hlt
  refine ⟨_, finish_error h hs (.inl ⟨Prod.ext rfl hretry, rfl⟩), ?_⟩
  refine h.put hs rfl (.inr (.inl rfl)) (fun _ => hlt) (hentries.trans ?_) (h.consistent.fail t.id _)
  rw [openTasks_put_open rfl, List.map_append, List.map_cons]
  rfl

/-- A task that has used up its attempts has failed for good, and its entry is gone. -/
theorem finish_giveUp (h : d.Orderly) (hs : d.tasks = front ++ t :: back) (ho : t.isOpen)
    (hle : d.limits.maxAttempts ≤ t.attempts + 1) (e : TransferError) :
    ∃ l, (d.setPhase t.id .running).finish { t with phase := .running } (.answered (.error e)) =
        (d.put front { t with phase := .ended (.failed e), attempts := t.attempts + 1 } back l, []) ∧
      (d.put front { t with phase := .ended (.failed e), attempts := t.attempts + 1 } back l).Orderly := by
  obtain ⟨hretry, hentries⟩ := Ledger.fail_giveUp_split h.consistent (entries_split h hs ho) hle
  refine ⟨_, finish_error h hs (.inr ⟨Prod.ext rfl hretry, rfl⟩), ?_⟩
  refine h.put hs rfl (.inr (.inr (.inr ⟨e, rfl⟩))) (fun hn => nomatch hn) (hentries.trans ?_)
    (h.consistent.fail t.id _)
  rw [openTasks_put_ended rfl, List.map_append]

/-- A task that has rested is ready again, and its entry is in flight. -/
theorem wake_resting (h : d.Orderly) (hs : d.tasks = front ++ t :: back) (hp : t.phase = .resting) :
    ∃ l, d.wake t = d.put front { t with phase := .ready } back l ∧
      (d.put front { t with phase := .ready } back l).Orderly := by
  have ho : t.isOpen := Task.isOpen_of_phase hp rfl
  have hspare : t.attempts < d.limits.maxAttempts :=
    h.spare t (openTasks_split hs ho ▸ List.mem_append_right _ List.mem_cons_self)
  have hentries := Ledger.resume_split h.consistent (entries_split h hs ho) (if_pos hp)
  refine ⟨(d.ledger.resume t.id).1, ?_, ?_⟩
  · simp only [wake, setPhase_put h.distinct hs]
    rfl
  · refine h.put hs rfl (.inl rfl) (fun _ => hspare) (hentries.trans ?_) (h.consistent.resume t.id)
    rw [openTasks_put_open rfl, List.map_append, List.map_cons]
    rfl

/-! ### From the first step to the last -/

variable {limits : DispatchLimits}

theorem tasks_start (hl : l.Fresh) : (start limits .proceed l).tasks =
    l.entries.map fun e => ⟨e.id, e.move, 0, .ready⟩ := by
  simp only [start, hl.claim, List.map_map]
  rfl

theorem openTasks_start (hl : l.Fresh) :
    (start limits .proceed l).openTasks = (start limits .proceed l).tasks := by
  refine List.filter_eq_self.2 fun t ht => ?_
  rw [tasks_start hl] at ht
  obtain ⟨e, -, rfl⟩ := List.mem_map.1 ht
  rfl

/-- A dispatch of moves that wait for their first attempts begins orderly. -/
theorem orderly_start (hpermits : ∀ p : Permit, 0 < p.limit limits) (hmax : 0 < limits.maxAttempts)
    (hc : l.Consistent) (hl : l.Fresh) : (start limits .proceed l).Orderly where
  signal := rfl
  queue := rfl
  permits := hpermits
  distinct := by
    rw [tasks_start hl, List.map_map]
    exact hc.nodup
  idle := by
    intro t ht
    rw [tasks_start hl] at ht
    obtain ⟨e, -, rfl⟩ := List.mem_map.1 ht
    exact .inl rfl
  spare := by
    intro t ht
    rw [openTasks_start hl, tasks_start hl] at ht
    obtain ⟨e, -, rfl⟩ := List.mem_map.1 ht
    exact hmax
  mirrored := by
    rw [openTasks_start hl, tasks_start hl, List.map_map]
    refine List.map_congr_left fun e he => ?_
    rw [Function.comp_apply, Task.entry, ← (hl e he).2]
    rfl
  consistent := hc.claim

theorem isOver_iff (d : Dispatch) : d.isOver ↔ d.openTasks = [] := by
  simp [isOver, openTasks, List.filter_eq_nil_iff, Task.isOpen]

end Dispatch

end StorageTiering
