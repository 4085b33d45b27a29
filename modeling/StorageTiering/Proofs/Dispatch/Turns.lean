import StorageTiering.Proofs.Dispatch.Orderly
/-!
# Turns of a dispatch

Tasks take their turns in any order, attempts end in any way, and at any moment somebody may ask the
dispatch to stop or to abort.

* `Cue`, `Turn` — what can happen next.
* `Dispatch.take`, `Dispatch.takeAll` — the dispatch after one turn, and after several.
* `Dispatch.Shifts` — permits that were given back have gone to tasks that waited for them, and nothing
  else has changed.
* `Dispatch.Advance` — what a turn can do to the task that takes it, and to the ledger.
* `Dispatch.take_cases` — a turn does no more than this.
* `Dispatch.forall₂_take`, `Dispatch.claims_takeAll`, `Dispatch.ended_takeAll` — what turns keep: which moves
  are executed, and tasks that have ended.
* `Dispatch.abort_ends` — an abort brings every dispatch to its end.
-/

namespace StorageTiering

/-- The number of a task, and its move. -/
def Task.claim (t : Task) : MoveId × Move := (t.id, t.move)

/-- Why a task takes its turn. -/
inductive Cue
  /-- It is ready, or has a permit. -/
  | go
  /-- Its attempt ends by itself. -/
  | finish (outcome : Outcome)
  /-- It has rested. -/
  | rested
  /-- It is cut short. -/
  | cut

/-- What can happen next in a dispatch. -/
inductive Turn
  | task (id : MoveId) (cue : Cue)
  /-- Somebody asks the dispatch to stop or to abort. -/
  | signal (s : Signal)

/-- What has been asked, with one more thing asked. Nothing is ever taken back. -/
def Signal.raise : Signal → Signal → Signal
  | .proceed, s => s
  | .stop, .abort => .abort
  | .stop, _ => .stop
  | .abort, _ => .abort

namespace Dispatch

/-- A task takes its turn, if it is in the phase for it. Tasks are cut short by an abort alone. -/
def takeTask (d : Dispatch) (t : Task) (cue : Cue) : Dispatch :=
  match cue, t.phase with
  | .go, .ready => (d.begin t).1
  | .go, .granted p => (d.proceed t p).1
  | .finish outcome, .running => (d.finish t outcome).1
  | .rested, .resting => d.wake t
  | .cut, phase => if d.signal = .abort ∧ phase.isEnded = false then (d.cancel t).1 else d
  | _, _ => d

/-- The dispatch after a turn. -/
def take (d : Dispatch) : Turn → Dispatch
  | .task id cue =>
      match d.task? id with
      | some t => d.takeTask t cue
      | none => d
  | .signal s => { d with signal := d.signal.raise s }

/-- The dispatch after several turns. -/
def takeAll (d : Dispatch) (turns : List Turn) : Dispatch := turns.foldl take d

end Dispatch

/-! ### Permits change hands -/

/-- A task that has not taken a turn is as it was, or has got the permit that it waited for. -/
inductive Task.Shift : Task → Task → Prop
  | same (t : Task) : Shift t t
  | granted {t : Task} {p : Permit} (h : t.phase = .waiting p) : Shift t { t with phase := .granted p }

theorem Task.Shift.trans {t t' t'' : Task} (h : t.Shift t') (h' : t'.Shift t'') : t.Shift t'' := by
  cases h with
  | same => exact h'
  | granted h =>
    cases h' with
    | same => exact .granted h
    | granted h' => cases h'

namespace Dispatch

variable {d d' d'' : Dispatch} {t t' : Task} {front back : List Task} {l : Ledger} {m : Move}
  {p : Permit} {ph : Phase} {id : MoveId} {cue : Cue}

/-- Permits that were given back have gone to tasks that waited for them. -/
structure Shifts (d d' : Dispatch) : Prop where
  limits : d'.limits = d.limits
  signal : d'.signal = d.signal
  ledger : d'.ledger = d.ledger
  tasks : List.Forall₂ Task.Shift d.tasks d'.tasks

theorem Shifts.refl (d : Dispatch) : d.Shifts d :=
  ⟨rfl, rfl, rfl, List.forall₂_same.2 fun t _ => .same t⟩

theorem forall₂_trans {R : Task → Task → Prop} (htrans : ∀ t t' t'', R t t' → R t' t'' → R t t'')
    {ts ts' ts'' : List Task} (h : List.Forall₂ R ts ts') (h' : List.Forall₂ R ts' ts'') :
    List.Forall₂ R ts ts'' := by
  induction h generalizing ts'' with
  | nil => exact h'
  | cons hd _ ih =>
    cases h' with
    | cons hd' htl' => exact .cons (htrans _ _ _ hd hd') (ih htl')

theorem exists_of_mem_left {R : Task → Task → Prop} {ts ts' : List Task} (h : List.Forall₂ R ts ts')
    {t : Task} (ht : t ∈ ts) : ∃ t' ∈ ts', R t t' := by
  induction h with
  | nil => cases ht
  | cons hd _ ih =>
    rcases List.mem_cons.1 ht with rfl | ht
    · exact ⟨_, List.mem_cons_self, hd⟩
    · obtain ⟨t', ht', hr⟩ := ih ht
      exact ⟨t', List.mem_cons_of_mem _ ht', hr⟩

theorem exists_of_mem_right {R : Task → Task → Prop} {ts ts' : List Task} (h : List.Forall₂ R ts ts')
    {t' : Task} (ht : t' ∈ ts') : ∃ t ∈ ts, R t t' :=
  exists_of_mem_left h.flip ht

theorem map_eq_of_forall₂ {α : Type} {f : Task → α} {ts ts' : List Task}
    (h : List.Forall₂ (fun t t' => f t' = f t) ts ts') : ts'.map f = ts.map f := by
  induction h with
  | nil => rfl
  | cons hd _ ih => rw [List.map_cons, List.map_cons, hd, ih]

theorem Shifts.trans (h : d.Shifts d') (h' : d'.Shifts d'') : d.Shifts d'' :=
  ⟨h'.limits.trans h.limits, h'.signal.trans h.signal, h'.ledger.trans h.ledger,
    forall₂_trans (fun _ _ _ h h' => h.trans h') h.tasks h'.tasks⟩

/-- What depends on neither the phase that a task waits in nor the one that follows is the same. -/
theorem Shifts.map_eq {α : Type} {f : Task → α} (h : d.Shifts d')
    (hf : ∀ t p, t.phase = .waiting p → f { t with phase := .granted p } = f t) :
    d'.tasks.map f = d.tasks.map f := by
  refine map_eq_of_forall₂ (h.tasks.imp fun t t' ht => ?_)
  cases ht with
  | same => rfl
  | granted hp => exact hf _ _ hp

theorem Shifts.ids (h : d.Shifts d') : d'.tasks.map Task.id = d.tasks.map Task.id :=
  h.map_eq fun _ _ _ => rfl

/-- The ledger does not matter. -/
theorem Shifts.tell (h : d.Shifts d') (l : Ledger) :
    { d with ledger := l }.Shifts { d' with ledger := l } :=
  ⟨h.limits, h.signal, rfl, h.tasks⟩

/-- Nor do the attempts of a task. -/
theorem Shifts.setAttempts (h : d.Shifts d') (id : MoveId) (n : Nat) :
    (d.setTask id fun t => { t with attempts := n }).Shifts
      (d'.setTask id fun t => { t with attempts := n }) := by
  refine ⟨h.limits, h.signal, h.ledger, List.rel_map (fun {t t'} ht => ?_) h.tasks⟩
  cases ht with
  | same => exact .same _
  | granted hp =>
    dsimp only
    split
    · exact .granted (t := { t with attempts := n }) hp
    · exact .granted hp

theorem shifts_handOver (hn : (d.tasks.map Task.id).Nodup) (p : Permit) (m : Move) :
    d.Shifts (d.handOver p m).1 := by
  rw [handOver]
  split
  · split
    · exact .refl d
    · rename_i id hfind
      have hawaits : d.awaits p m id := List.find?_some hfind
      rw [awaits] at hawaits
      split at hawaits
      · -- no other task has the number of the one that is found, so it alone changes
        rename_i t ht
        have hid : t.id = id := by simpa using List.find?_some ht
        obtain ⟨front, back, hs⟩ := List.append_of_mem (List.mem_of_find?_eq_some ht)
        subst hid
        have hp : t.phase = .waiting p := by
          rw [Bool.and_eq_true, beq_iff_eq] at hawaits
          exact hawaits.1
        refine ⟨rfl, rfl, rfl, ?_⟩
        show List.Forall₂ Task.Shift d.tasks (d.setPhase t.id (.granted p)).tasks
        rw [setPhase, tasks_setTask hn hs, hs]
        exact List.rel_append (List.forall₂_same.2 fun t _ => .same t)
          (.cons (.granted hp) (List.forall₂_same.2 fun t _ => .same t))
      · exact absurd hawaits (by decide)
  · exact .refl d

theorem shifts_handOverAll (hn : (d.tasks.map Task.id).Nodup) (m : Move) (ps : List Permit) :
    d.Shifts (d.handOverAll m ps).1 := by
  induction ps generalizing d with
  | nil => exact .refl d
  | cons p rest ih =>
    have h := shifts_handOver hn p m
    exact h.trans (ih (h.ids ▸ hn))

/-- A task that gives its permits back leaves them to those that wait for them. -/
theorem shifts_leave (hn : (d.tasks.map Task.id).Nodup) (hs : d.tasks = front ++ t :: back)
    (ph : Phase) :
    (d.put front { t with phase := ph } back d.ledger).Shifts (d.leave t ph).1 := by
  have hn' : ((d.put front { t with phase := ph } back d.ledger).tasks.map Task.id).Nodup :=
    nodup_put hn hs rfl
  have hqueue : (d.put front { t with phase := ph } back d.ledger).Shifts
      { d.put front { t with phase := ph } back d.ledger with queue := d.queue.erase t.id } :=
    ⟨rfl, rfl, rfl, List.forall₂_same.2 fun t _ => .same t⟩
  rw [leave, setPhase_put hn hs]
  exact hqueue.trans (shifts_handOverAll (hqueue.ids ▸ hn') _ _)

/-! ### What a turn does -/

/-- What a turn can do to the task that takes it, and to the ledger. -/
inductive Advance (d : Dispatch) (t : Task) : Task → Ledger → Prop
  /-- The task gets a permit or queues up for it, before or behind other permits. -/
  | request {ph : Phase} (h : t.phase = .ready ∨ ∃ p, t.phase = .granted p)
      (hph : ∃ p, ph = .waiting p ∨ ph = .granted p) : Advance d t { t with phase := ph } d.ledger
  /-- The task has all permits, and its attempt starts. -/
  | run (h : t.phase = .granted .target) (hs : d.signal = .proceed) :
      Advance d t { t with phase := .running } d.ledger
  | succeed (h : t.phase = .running) : Advance d t { t with phase := .ended .succeeded }
      (d.ledger.complete t.id .succeeded).1
  /-- The attempt has failed, and another one will follow. -/
  | again {n : Nat} (h : t.phase = .running)
      (hf : (d.ledger.fail t.id d.limits.maxAttempts).2 = .again n) :
      Advance d t { t with phase := .resting, attempts := n }
        (d.ledger.fail t.id d.limits.maxAttempts).1
  /-- The last attempt has failed. -/
  | giveUp {n : Nat} (e : TransferError) (h : t.phase = .running)
      (hf : (d.ledger.fail t.id d.limits.maxAttempts).2 = .giveUp n) :
      Advance d t { t with phase := .ended (.failed e), attempts := n }
        (d.ledger.fail t.id d.limits.maxAttempts).1
  /-- The task has broken down, and nobody tells the ledger. -/
  | break (h : t.phase = .running) : Advance d t { t with phase := .ended .broken } d.ledger
  | rested (h : t.phase = .resting) :
      Advance d t { t with phase := .ready } (d.ledger.resume t.id).1
  /-- The task stops before it could finish, because somebody has asked for it. -/
  | cancel (h : t.phase.isEnded = false) (hs : d.signal ≠ .proceed) :
      Advance d t { t with phase := .ended .cancelled } (d.ledger.complete t.id .cancelled).1

/-- A turn of a task does what a task can do, and permits change hands. -/
def Advances (d : Dispatch) (front : List Task) (t : Task) (back : List Task) (d' : Dispatch) : Prop :=
  ∃ t' l, d.Advance t t' l ∧ (d.put front t' back l).Shifts d'

theorem shifts_conclude (hn : (d.tasks.map Task.id).Nodup) (hs : d.tasks = front ++ t :: back)
    (result : TaskEnd) (ending : Ending) :
    (d.put front { t with phase := .ended result } back (d.ledger.complete t.id ending).1).Shifts
      (d.conclude t result ending).1 := by
  have h := shifts_leave hn hs (.ended result)
  have hledger : (d.leave t (.ended result)).1.ledger = d.ledger := h.ledger
  simp only [conclude, hledger]
  exact h.tell _

theorem advances_cancel (hn : (d.tasks.map Task.id).Nodup) (hs : d.tasks = front ++ t :: back)
    (ho : t.phase.isEnded = false) (hsignal : d.signal ≠ .proceed) :
    d.Advances front t back (d.cancel t).1 :=
  ⟨_, _, .cancel ho hsignal, shifts_conclude hn hs .cancelled .cancelled⟩

theorem advances_request (hn : (d.tasks.map Task.id).Nodup) (hs : d.tasks = front ++ t :: back)
    (h : t.phase = .ready ∨ ∃ p, t.phase = .granted p) (p : Permit) :
    d.Advances front t back (d.request t p) := by
  rw [request, setPhase_put hn hs, setPhase_put hn hs]
  split
  · exact ⟨_, _, .request h ⟨p, .inr rfl⟩, .refl _⟩
  · exact ⟨_, _, .request h ⟨p, .inl rfl⟩, rfl, rfl, rfl, List.forall₂_same.2 fun t _ => .same t⟩

theorem advances_begin (hn : (d.tasks.map Task.id).Nodup) (hs : d.tasks = front ++ t :: back)
    (h : t.phase = .ready) : d.Advances front t back (d.begin t).1 := by
  rw [begin]
  split
  · exact advances_request hn hs (.inl h) .everywhere
  · rename_i hsignal
    exact advances_cancel hn hs (by rw [h]; rfl) hsignal

theorem advances_proceed (hn : (d.tasks.map Task.id).Nodup) (hs : d.tasks = front ++ t :: back)
    (h : t.phase = .granted p) : d.Advances front t back (d.proceed t p).1 := by
  rw [proceed]
  split
  · exact advances_request hn hs (.inr ⟨p, h⟩) _
  · rename_i hlast
    obtain rfl : p = .target := by cases p <;> first | rfl | cases hlast
    split
    · rename_i hsignal
      refine ⟨_, _, .run h hsignal, ?_⟩
      rw [setPhase_put hn hs]
      exact .refl _
    · rename_i hsignal
      exact advances_cancel hn hs (by rw [h]; rfl) hsignal

/-- A task that rests or gives up has one more failed attempt, whoever gets its permits. -/
theorem shifts_failed (hn : (d.tasks.map Task.id).Nodup) (hs : d.tasks = front ++ t :: back)
    (ph : Phase) (n : Nat) (l : Ledger) :
    (d.put front { t with phase := ph, attempts := n } back l).Shifts
      { (d.leave t ph).1.setTask t.id fun t => { t with attempts := n } with ledger := l } := by
  have hset : (d.put front { t with phase := ph } back d.ledger).setTask t.id
      (fun t => { t with attempts := n }) =
        d.put front { t with phase := ph, attempts := n } back d.ledger :=
    setTask_put hn hs { t with phase := ph } rfl _
  have h := ((shifts_leave hn hs ph).setAttempts t.id n).tell l
  rw [hset] at h
  exact h

theorem advances_finish (hn : (d.tasks.map Task.id).Nodup) (hs : d.tasks = front ++ t :: back)
    (h : t.phase = .running) (outcome : Outcome) :
    d.Advances front t back (d.finish t outcome).1 := by
  match outcome with
  | .answered (.ok ()) => exact ⟨_, _, .succeed h, shifts_conclude hn hs .succeeded .succeeded⟩
  | .broke => exact ⟨_, _, .break h, shifts_leave hn hs (.ended .broken)⟩
  | .answered (.error e) =>
    rw [finish, failAttempt]
    split
    · rename_i l n hfail
      have hretry := congrArg Prod.snd hfail
      obtain rfl : (d.ledger.fail t.id d.limits.maxAttempts).1 = l := congrArg Prod.fst hfail
      exact ⟨_, _, .again h hretry, shifts_failed hn hs .resting n _⟩
    · rename_i l n hfail
      have hretry := congrArg Prod.snd hfail
      obtain rfl : (d.ledger.fail t.id d.limits.maxAttempts).1 = l := congrArg Prod.fst hfail
      exact ⟨_, _, .giveUp e h hretry, shifts_failed hn hs (.ended (.failed e)) n _⟩

theorem advances_wake (hn : (d.tasks.map Task.id).Nodup) (hs : d.tasks = front ++ t :: back)
    (h : t.phase = .resting) : d.Advances front t back (d.wake t) := by
  refine ⟨_, _, .rested h, ?_⟩
  rw [wake, setPhase_put hn hs]
  exact .refl _

/-- A task that takes its turn does what a task can do, or nothing at all. -/
theorem takeTask_cases (hn : (d.tasks.map Task.id).Nodup) (hs : d.tasks = front ++ t :: back)
    (cue : Cue) : d.takeTask t cue = d ∨ d.Advances front t back (d.takeTask t cue) := by
  unfold takeTask
  split
  · exact .inr (advances_begin hn hs ‹_›)
  · exact .inr (advances_proceed hn hs ‹_›)
  · exact .inr (advances_finish hn hs ‹_› _)
  · exact .inr (advances_wake hn hs ‹_›)
  · split
    · rename_i hcut
      exact .inr (advances_cancel hn hs hcut.2 (by rw [hcut.1]; decide))
    · exact .inl rfl
  · exact .inl rfl

/-- A turn changes nothing, or what is asked of the dispatch, or one task. -/
theorem take_cases (hn : (d.tasks.map Task.id).Nodup) (turn : Turn) :
    d.take turn = d ∨ (∃ s, d.take turn = { d with signal := d.signal.raise s }) ∨
      ∃ front t back, d.tasks = front ++ t :: back ∧ d.Advances front t back (d.take turn) := by
  cases turn with
  | signal s => exact .inr (.inl ⟨s, rfl⟩)
  | task id cue =>
    rw [take]
    split
    · rename_i t ht
      obtain ⟨front, back, hs⟩ := List.append_of_mem (List.mem_of_find?_eq_some ht)
      exact (takeTask_cases hn hs cue).imp_right fun h => .inr ⟨front, t, back, hs, h⟩
    · exact .inl rfl

theorem take_task {id : MoveId} (ht : d.task? id = some t) (cue : Cue) :
    d.take (.task id cue) = d.takeTask t cue := by
  rw [take, ht]

/-- A task that takes its turn asks nothing. -/
theorem signal_take_task (hn : (d.tasks.map Task.id).Nodup) (id : MoveId) (cue : Cue) :
    (d.take (.task id cue)).signal = d.signal := by
  rw [take]
  split
  · rename_i t ht
    obtain ⟨front, back, hs⟩ := List.append_of_mem (List.mem_of_find?_eq_some ht)
    rcases takeTask_cases hn hs cue with heq | ⟨t', l, -, hshifts⟩
    · rw [heq]
    · exact hshifts.signal
  · rfl

/-! ### What turns keep -/

/-- What keeps every task related to itself, over a change of permits and over what a turn can do to a
task, a turn keeps for all tasks. -/
theorem forall₂_take {R : Task → Task → Prop} (hn : (d.tasks.map Task.id).Nodup) (turn : Turn)
    (hrefl : ∀ t, R t t) (htrans : ∀ t t' t'', R t t' → R t' t'' → R t t'')
    (hshift : ∀ t t', t.Shift t' → R t t') (hadvance : ∀ t t' l, d.Advance t t' l → R t t') :
    List.Forall₂ R d.tasks (d.take turn).tasks := by
  rcases take_cases hn turn with heq | ⟨s, heq⟩ | ⟨front, t, back, hs, t', l, ha, hshifts⟩
  · rw [heq]
    exact List.forall₂_same.2 fun t _ => hrefl t
  · rw [heq]
    exact List.forall₂_same.2 fun t _ => hrefl t
  · have hput : List.Forall₂ R d.tasks (front ++ t' :: back) := by
      rw [hs]
      exact List.rel_append (List.forall₂_same.2 fun t _ => hrefl t)
        (.cons (hadvance t t' l ha) (List.forall₂_same.2 fun t _ => hrefl t))
    exact forall₂_trans htrans hput (hshifts.tasks.imp hshift)

/-- The moves of all tasks. -/
def claims (d : Dispatch) : List (MoveId × Move) := d.tasks.map Task.claim

theorem map_fst_claims (d : Dispatch) : d.claims.map Prod.fst = d.tasks.map Task.id := by
  rw [claims, List.map_map]
  rfl

/-- No turn changes which moves are executed. -/
theorem claims_take (hn : (d.tasks.map Task.id).Nodup) (turn : Turn) :
    (d.take turn).claims = d.claims := by
  have h := forall₂_take (R := fun t t' => t'.claim = t.claim) hn turn
    (fun _ => rfl) (fun _ _ _ h h' => h'.trans h)
    (fun _ _ h => by cases h <;> rfl) (fun _ _ _ h => by cases h <;> rfl)
  exact map_eq_of_forall₂ h

theorem nodup_take (hn : (d.tasks.map Task.id).Nodup) (turn : Turn) :
    ((d.take turn).tasks.map Task.id).Nodup := by
  rwa [← map_fst_claims, claims_take hn turn, map_fst_claims]

/-- No turns change which moves are executed. -/
theorem claims_takeAll (hn : (d.tasks.map Task.id).Nodup) (turns : List Turn) :
    (d.takeAll turns).claims = d.claims := by
  induction turns generalizing d with
  | nil => rfl
  | cons turn rest ih => exact (ih (nodup_take hn turn)).trans (claims_take hn turn)

theorem nodup_takeAll (hn : (d.tasks.map Task.id).Nodup) (turns : List Turn) :
    ((d.takeAll turns).tasks.map Task.id).Nodup := by
  rwa [← map_fst_claims, claims_takeAll hn turns, map_fst_claims]

theorem takeAll_append (d : Dispatch) (before after : List Turn) :
    d.takeAll (before ++ after) = (d.takeAll before).takeAll after := List.foldl_append

/-! ### Ends -/

/-- No turn is left for a task that has ended. -/
theorem Advance.isEnded_eq_false (h : d.Advance t t' l) : t.phase.isEnded = false := by
  cases h with
  | request hp _ =>
    obtain hp | ⟨p, hp⟩ := hp <;> rw [hp] <;> rfl
  | cancel ho _ => exact ho
  | run hp _ | succeed hp | again hp _ | giveUp _ hp _ | «break» hp | rested hp => rw [hp]; rfl

/-- A task that has ended stays as it is. -/
theorem ended_take (hn : (d.tasks.map Task.id).Nodup) (turn : Turn) :
    List.Forall₂ (fun t t' => t'.id = t.id ∧ (t.phase.isEnded → t' = t)) d.tasks
      (d.take turn).tasks := by
  refine forall₂_take hn turn (fun t => ⟨rfl, fun _ => rfl⟩) (fun t t' t'' h h' => ?_)
    (fun t t' h => ?_) fun t t' l h => ?_
  · refine ⟨h'.1.trans h.1, fun ht => ?_⟩
    have ht' := h.2 ht
    exact (h'.2 (ht' ▸ ht)).trans ht'
  · cases h with
    | same => exact ⟨rfl, fun _ => rfl⟩
    | granted hp => exact ⟨rfl, fun ht => by rw [hp] at ht; cases ht⟩
  · refine ⟨?_, fun ht => by rw [h.isEnded_eq_false] at ht; cases ht⟩
    cases h <;> rfl

theorem ended_takeAll (hn : (d.tasks.map Task.id).Nodup) (turns : List Turn) :
    List.Forall₂ (fun t t' => t'.id = t.id ∧ (t.phase.isEnded → t' = t)) d.tasks
      (d.takeAll turns).tasks := by
  induction turns generalizing d with
  | nil => exact List.forall₂_same.2 fun t _ => ⟨rfl, fun _ => rfl⟩
  | cons turn rest ih =>
    refine forall₂_trans (fun t t' t'' h h' => ?_) (ended_take hn turn) (ih (nodup_take hn turn))
    refine ⟨h'.1.trans h.1, fun ht => ?_⟩
    have ht' := h.2 ht
    exact (h'.2 (ht' ▸ ht)).trans ht'

/-- A task that is cut short has ended. -/
theorem isEnded_cut (hn : (d.tasks.map Task.id).Nodup) (hs : d.signal = .abort)
    (ht' : t' ∈ (d.take (.task id .cut)).tasks) (hid : t'.id = id) : t'.phase.isEnded := by
  obtain ⟨t, ht, hsame, hkeep⟩ := exists_of_mem_right (ended_take hn (.task id .cut)) ht'
  obtain rfl : t.id = id := hsame.symm.trans hid
  by_cases ho : t.phase.isEnded
  · exact hkeep ho ▸ ho
  · obtain ⟨front, back, hsplit⟩ := List.append_of_mem ht
    have ho' : t.phase.isEnded = false := by simpa using ho
    have hcut : d.take (.task t.id .cut) = (d.cancel t).1 := by
      rw [take_task (task?_split hn hsplit)]
      unfold takeTask
      exact if_pos ⟨hs, ho'⟩
    rw [hcut] at ht'
    have hshifts := shifts_conclude hn hsplit .cancelled .cancelled
    obtain ⟨u, hu, hshift⟩ := exists_of_mem_right hshifts.tasks ht'
    have hput : ((d.put front { t with phase := .ended .cancelled } back
        (d.ledger.complete t.id .cancelled).1).tasks.map Task.id).Nodup := nodup_put hn hsplit rfl
    have hmem : { t with phase := .ended .cancelled } ∈ (d.put front
        { t with phase := .ended .cancelled } back (d.ledger.complete t.id .cancelled).1).tasks :=
      List.mem_append_right _ List.mem_cons_self
    have huid : u.id = t.id := by
      cases hshift <;> exact hsame
    obtain rfl := List.inj_on_of_nodup_map hput hu hmem huid
    cases hshift with
    | same => rfl
    | granted hp => cases hp

/-- An abort brings every dispatch to its end: its tasks can be cut short one after another. -/
theorem abort_ends (hn : (d.tasks.map Task.id).Nodup) :
    (d.takeAll (.signal .abort :: d.tasks.map fun t => .task t.id .cut)).isOver := by
  have hcuts : ∀ (ids : List MoveId) {d : Dispatch}, (d.tasks.map Task.id).Nodup →
      d.signal = .abort → ∀ t' ∈ (d.takeAll (ids.map fun id => .task id .cut)).tasks,
        t'.id ∈ ids → t'.phase.isEnded := by
    intro ids
    induction ids with
    | nil => exact fun _ _ t' _ hid => nomatch hid
    | cons id rest ih =>
      intro d hn hs t' ht' hid
      have hn' := nodup_take hn (.task id .cut)
      rcases List.mem_cons.1 hid with hid | hid
      · -- the task has ended by its own cut, and stays as it is
        obtain ⟨t, ht, hsame, hkeep⟩ :=
          exists_of_mem_right (ended_takeAll hn' (rest.map fun id => .task id .cut)) ht'
        have hended := isEnded_cut hn hs ht (hsame.symm.trans hid)
        exact hkeep hended ▸ hended
      · exact ih hn' ((signal_take_task hn id .cut).trans hs) t' ht' hid
  have hasked : (d.take (.signal .abort)).signal = .abort := by
    rw [take]
    cases d.signal <;> rfl
  have hids : (d.tasks.map fun t => Turn.task t.id .cut) =
      (d.tasks.map Task.id).map fun id => .task id .cut := by
    rw [List.map_map]
    rfl
  refine List.all_eq_true.2 fun t' ht' => ?_
  rw [hids] at ht'
  refine hcuts _ (d := d.take (.signal .abort)) hn hasked t' ht' ?_
  obtain ⟨t, ht, hsame, -⟩ := exists_of_mem_right
    (ended_takeAll hn (.signal .abort :: (d.tasks.map Task.id).map fun id => .task id .cut)) ht'
  exact hsame ▸ List.mem_map_of_mem ht

end Dispatch

end StorageTiering
