import StorageTiering.Proofs.Dispatch.Budget
import StorageTiering.Proofs.Dispatch.Moves
import Mathlib.Data.List.Induction
/-!
# Attempts at a move

A move is attempted until an attempt succeeds or its attempts are used up. The task of the move and the
ledger count the failed attempts each for itself, while other tasks take their turns in between.

* `Dispatch.endings`, `Dispatch.calls` — how the attempts of a task have ended over some turns, and how many
  have started.
* `Dispatch.Follows` — the attempts of a task end as they are given.
* `Timeline.world_stepGo` — an attempt that starts is one call of the namespace.
* `Task.Tried` — what is known of a task by then; `Task.Tried.take` keeps it over a turn of any task, and
  `Dispatch.tried_takeAll` has it for all turns.
* `Dispatch.Underway`, `Dispatch.Closed` — a move that has not ended, and one that has.
* `Dispatch.takeAll_retries` — what becomes of a move whose attempts end as given.
-/

namespace StorageTiering

/-! ### Attempts -/

theorem Task.Shift.claim {t t' : Task} (h : t.Shift t') : t'.claim = t.claim := by
  cases h <;> rfl

theorem Task.Shift.running_iff {t t' : Task} (h : t.Shift t') :
    t'.phase = .running ↔ t.phase = .running := by
  cases h with
  | same => exact Iff.rfl
  | granted hphase => exact ⟨nofun, fun hrun => by rw [hphase] at hrun; cases hrun⟩

/-- The entry of a move whose failed attempts are all from this dispatch. -/
theorem Task.entry_account {t : Task} {earlier : MoveId → Nat} (h : earlier t.id = 0) :
    (t.account earlier).entry = t.entry := by
  have hattempts : (if t.attempts = 0 then earlier t.id else t.attempts) = t.attempts := by
    split
    · rename_i hzero
      rw [h, hzero]
    · rfl
  rw [account, hattempts]
  rfl

namespace Dispatch

variable {d d' : Dispatch} {t t' : Task} {front back : List Task} {l : Ledger} {id : MoveId}
  {o : Nat → Except TransferError Unit} {outcome : Outcome} {turn : Turn} {turns : List Turn} {cue : Cue}

deriving instance DecidableEq for Outcome

/-- Whether an attempt of a task is running. -/
def isRunning (d : Dispatch) (id : MoveId) : Bool := (d.task? id).any fun t => t.phase == .running

/-- How the attempt of a task ends with a turn, if it does. -/
def ending? (d : Dispatch) (id : MoveId) : Turn → Option Outcome
  | .task other (.finish outcome) => if other = id ∧ d.isRunning id then some outcome else none
  | _ => none

/-- Whether an attempt of a task starts with a turn. -/
def starts (d : Dispatch) (id : MoveId) (turn : Turn) : Bool :=
  !d.isRunning id && (d.take turn).isRunning id

/-- How the attempts of a task end over some turns, in their order. -/
def endings (id : MoveId) : Dispatch → List Turn → List Outcome
  | _, [] => []
  | d, turn :: rest => (d.ending? id turn).toList ++ endings id (d.take turn) rest

/-- How many attempts of a task start over some turns. Each of them asks the namespace for the move once. -/
def calls (id : MoveId) : Dispatch → List Turn → Nat
  | _, [] => 0
  | d, turn :: rest => (if d.starts id turn then 1 else 0) + calls id (d.take turn) rest

/-- The attempts of a task, as many as there are, end as given. -/
def Follows (id : MoveId) (o : Nat → Except TransferError Unit) (d : Dispatch) (turns : List Turn) : Prop :=
  d.endings id turns = (List.range (d.endings id turns).length).map fun i => Outcome.answered (o i)

instance : Decidable (d.Follows id o turns) := inferInstanceAs (Decidable (_ = _))

theorem isRunning_eq (ht : d.task? id = some t) : d.isRunning id = (t.phase == .running) := by
  rw [isRunning, ht]
  rfl

theorem ending?_eq_some_iff :
    d.ending? id turn = some outcome ↔ turn = .task id (.finish outcome) ∧ d.isRunning id := by
  unfold ending?
  split
  · rename_i other result
    by_cases h : other = id ∧ d.isRunning id
    · rw [if_pos h]
      simp [h]
    · rw [if_neg h]
      simp only [reduceCtorEq, Turn.task.injEq, Cue.finish.injEq, false_iff]
      exact fun hturn => h ⟨hturn.1.1, hturn.2⟩
  · rename_i hfinish
    simp only [reduceCtorEq, false_iff]
    exact fun h => hfinish _ _ h.1

theorem endings_append (d : Dispatch) (id : MoveId) (turns : List Turn) (turn : Turn) :
    d.endings id (turns ++ [turn]) =
      d.endings id turns ++ ((d.takeAll turns).ending? id turn).toList := by
  induction turns generalizing d with
  | nil => exact List.append_nil _
  | cons first rest ih =>
    rw [List.cons_append, endings, endings, ih, List.append_assoc]
    rfl

theorem calls_append (d : Dispatch) (id : MoveId) (turns : List Turn) (turn : Turn) :
    d.calls id (turns ++ [turn]) =
      d.calls id turns + if (d.takeAll turns).starts id turn then 1 else 0 := by
  induction turns generalizing d with
  | nil => exact Nat.add_comm _ _
  | cons first rest ih =>
    rw [List.cons_append, calls, calls, ih, Nat.add_assoc]
    rfl

/-- One more attempt has to end as is given next. -/
theorem follows_append_iff : d.Follows id o (turns ++ [turn]) ↔ d.Follows id o turns ∧
    ∀ outcome, (d.takeAll turns).ending? id turn = some outcome →
      outcome = .answered (o (d.endings id turns).length) := by
  rw [Follows, endings_append]
  cases (d.takeAll turns).ending? id turn with
  | none =>
    rw [Option.toList_none, List.append_nil]
    exact (and_iff_left nofun).symm
  | some last =>
    rw [Option.toList_some, List.length_append, List.length_singleton, List.range_succ, List.map_append]
    constructor
    · intro h
      obtain ⟨hbefore, hlast⟩ := List.append_inj' h rfl
      refine ⟨hbefore, fun outcome hsome => ?_⟩
      rw [← Option.some.inj hsome]
      exact (List.cons.inj hlast).1
    · rintro ⟨hbefore, hlast⟩
      rw [hlast last rfl]
      exact congrArg (· ++ _) hbefore

/-! ### Where a task is after a turn -/

theorem starts_eq (ht : d.task? id = some t) (ht' : (d.take turn).task? id = some t') :
    d.starts id turn = (!(t.phase == .running) && (t'.phase == .running)) := by
  rw [starts, isRunning_eq ht, isRunning_eq ht']

theorem exists_shift (hn : (d'.tasks.map Task.id).Nodup) (h : d.Shifts d') (ht : t ∈ d.tasks) :
    ∃ t', d'.task? t.id = some t' ∧ t.Shift t' := by
  obtain ⟨t', ht', hshift⟩ := exists_of_mem_left h.tasks ht
  have hid : t'.id = t.id := congrArg Prod.fst hshift.claim
  exact ⟨t', hid ▸ task?_of_mem hn ht', hshift⟩

/-- A turn of another task leaves a task as it is, or a permit is handed over to it. -/
theorem exists_shift_of_ne (hn : (d.tasks.map Task.id).Nodup) (ht : t ∈ d.tasks) {other : MoveId}
    (hne : other ≠ t.id) (cue : Cue) :
    ∃ t', (d.take (.task other cue)).task? t.id = some t' ∧ t.Shift t' := by
  have hsame : d.task? t.id = some t := task?_of_mem hn ht
  have hn' := nodup_take hn (.task other cue)
  cases hfind : d.task? other with
  | none =>
    rw [take, hfind]
    exact ⟨t, hsame, .same t⟩
  | some u =>
    obtain rfl : u.id = other := by simpa using List.find?_some hfind
    obtain ⟨front, back, hs⟩ := List.append_of_mem (List.mem_of_find?_eq_some hfind)
    rw [take_task hfind] at hn' ⊢
    rcases takeTask_cases hn hs cue with heq | ⟨u', l, -, hshifts⟩
    · rw [heq]
      exact ⟨t, hsame, .same t⟩
    · refine exists_shift hn' hshifts ?_
      rw [hs] at ht
      rcases List.mem_append.1 ht with ht | ht
      · exact List.mem_append_left _ ht
      · refine List.mem_append_right _ (List.mem_cons_of_mem _ ((List.mem_cons.1 ht).resolve_left ?_))
        rintro rfl
        exact hne rfl

theorem Advance.claim (h : d.Advance t t' l) : t'.claim = t.claim := by
  cases h <;> rfl

theorem Advance.granted_of_running (h : d.Advance t t' l) (hrun : t'.phase = .running) :
    t.phase = .granted .target := by
  cases h with
  | request _ hph => obtain ⟨p, rfl | rfl⟩ := hph <;> cases hrun
  | run hphase _ => exact hphase
  | _ => cases hrun

/-- An attempt starts with the last permit. -/
theorem granted_of_starts (hn : (d.tasks.map Task.id).Nodup) (ht : t ∈ d.tasks)
    (h : d.starts t.id (.task t.id cue)) : t.phase = .granted .target := by
  obtain ⟨front, back, hs⟩ := List.append_of_mem ht
  have hfind : d.task? t.id = some t := task?_of_mem hn ht
  have htake := take_task hfind cue
  rcases takeTask_cases hn hs cue with heq | ⟨t', l, ha, hshifts⟩
  · rw [starts, htake.trans heq, Bool.not_and_self] at h
    cases h
  · rw [← htake] at hshifts
    obtain ⟨t'', hfind', hshift⟩ := exists_shift (nodup_take hn (.task t.id cue)) hshifts
      (List.mem_append_right _ List.mem_cons_self)
    have hid : t'.id = t.id := congrArg Prod.fst ha.claim
    rw [hid] at hfind'
    rw [starts_eq hfind hfind', Bool.and_eq_true, beq_iff_eq, hshift.running_iff] at h
    exact ha.granted_of_running h.2

/-- The number of a task stands for one move. -/
theorem claim_take (hn : (d.tasks.map Task.id).Nodup) (ht : d.task? id = some t)
    (ht' : (d.take turn).task? id = some t') : t'.claim = t.claim := by
  have hid : t.id = id := by simpa using List.find?_some ht
  have hid' : t'.id = id := by simpa using List.find?_some ht'
  have hmem : t.claim ∈ d.claims := List.mem_map_of_mem (List.mem_of_find?_eq_some ht)
  have hmem' : t'.claim ∈ d.claims :=
    claims_take hn turn ▸ List.mem_map_of_mem (List.mem_of_find?_eq_some ht')
  exact List.inj_on_of_nodup_map (map_fst_claims d ▸ hn) hmem' hmem (hid'.trans hid.symm)

/-- A running attempt ends by itself alone, unless it is cut short. -/
theorem takeTask_eq_self (hs : d.signal = .proceed) (hphase : t.phase = .running)
    (hcue : ∀ outcome, cue ≠ .finish outcome) : d.takeTask t cue = d := by
  unfold takeTask
  rw [hphase]
  cases cue with
  | finish outcome => exact absurd rfl (hcue outcome)
  | cut => exact if_neg fun h => by rw [hs] at h; cases h.1
  | _ => rfl

/-- Between two attempts a task neither ends nor counts anything, if it is not asked to stop. -/
theorem Advance.keeps (h : d.Advance t t' l) (hs : d.signal = .proceed) (hphase : t.phase ≠ .running) :
    t'.attempts = t.attempts ∧ t'.phase.isEnded = false := by
  cases h with
  | request _ hph =>
    obtain ⟨p, rfl | rfl⟩ := hph <;> exact ⟨rfl, rfl⟩
  | run _ _ | rested _ => exact ⟨rfl, rfl⟩
  | succeed hp | again hp _ | giveUp _ hp _ | «break» hp => exact absurd hp hphase
  | cancel _ hasked => exact absurd hs hasked

end Dispatch

/-- In time, a task that goes on asks the namespace for its move exactly if an attempt starts. -/
theorem Timeline.world_stepGo {s : Timeline} {t : Task} (hn : (s.dispatch.tasks.map Task.id).Nodup)
    (ht : s.dispatch.task? t.id = some t) : (s.stepGo t).world =
      if s.dispatch.starts t.id (.task t.id .go) then (s.world.beginAttempt t.move).1 else s.world := by
  have htake := Dispatch.take_task ht .go
  have hmem : t ∈ s.dispatch.tasks := List.mem_of_find?_eq_some ht
  rw [stepGo]
  split
  · rename_i hphase
    have hstarts : ¬s.dispatch.starts t.id (.task t.id .go) = true := fun hstarts => by
      cases hphase.symm.trans (Dispatch.granted_of_starts hn hmem hstarts)
    rw [if_neg hstarts]
    exact (continueIfAble_frame _ _).2
  · rename_i p hphase
    have hproceed : s.dispatch.take (.task t.id .go) = (s.dispatch.proceed t p).1 :=
      htake.trans (Dispatch.takeTask_granted hphase)
    dsimp only
    split
    · rename_i t' ht'
      have hfind : (s.dispatch.take (.task t.id .go)).task? t.id = some t' := hproceed ▸ ht'
      have hmove : t'.move = t.move := congrArg Prod.snd (Dispatch.claim_take hn ht hfind)
      rw [Dispatch.starts_eq ht hfind, hphase]
      split
      · rename_i hrun
        rw [(startAttempt_frame _ _).2, hrun, hmove]
        rfl
      · rename_i hrun
        rw [(continueIfAble_frame _ _).2, if_neg (by simpa using hrun)]
        rfl
    · rename_i hnone
      have hnone : (s.dispatch.take (.task t.id .go)).task? t.id = none := hproceed ▸ hnone
      rw [Dispatch.starts, Dispatch.isRunning, Dispatch.isRunning, hnone, Option.any_none, Bool.and_false]
      rfl
  · rename_i hgranted
    have hstarts : ¬s.dispatch.starts t.id (.task t.id .go) = true := fun hstarts =>
      hgranted .target (Dispatch.granted_of_starts hn hmem hstarts)
    rw [if_neg hstarts]

/-! ### What has come of the attempts -/

/-- What is known of a task by the time so many of its attempts have started and so many have ended as
given: those that have failed are counted, and the task has ended with the first success, or with as many
failures as it may have. -/
structure Task.Tried (o : Nat → Except TransferError Unit) (maxAttempts : Nat) (t : Task)
    (ended calls : Nat) : Prop where
  failures : ∀ i < t.attempts, ∃ error, o i = .error error
  underway : t.phase.isEnded = false → t.attempts < maxAttempts ∧ ended = t.attempts ∧
    calls = t.attempts + if t.phase = .running then 1 else 0
  result : ∀ r, t.phase = .ended r →
    (r = .succeeded ∧ t.attempts < maxAttempts ∧ o t.attempts = .ok () ∧ calls = t.attempts + 1) ∨
    ∃ error, r = .failed error ∧ t.attempts = maxAttempts ∧ o (maxAttempts - 1) = .error error ∧
      calls = maxAttempts

namespace Task.Tried

variable {d : Dispatch} {t t' : Task} {front back : List Task} {l : Ledger} {id : MoveId}
  {earlier : MoveId → Nat} {o : Nat → Except TransferError Unit} {maxAttempts ended calls : Nat}
  {error : TransferError} {outcome : Outcome} {turn : Turn} {cue : Cue}

/-- Before the first attempt. -/
theorem first (o : Nat → Except TransferError Unit) (hmax : 0 < maxAttempts) (id : MoveId) (move : Move) :
    Tried o maxAttempts ⟨id, move, 0, .ready⟩ 0 0 :=
  ⟨fun i hi => absurd hi (Nat.not_lt_zero i), fun _ => ⟨hmax, rfl, rfl⟩, nofun⟩

/-- A permit is handed over to the task. -/
theorem shift (h : t.Tried o maxAttempts ended calls) (hshift : t.Shift t') :
    t'.Tried o maxAttempts ended calls := by
  cases hshift with
  | same => exact h
  | granted hphase =>
    have hopen := h.underway (by rw [hphase]; rfl)
    rw [hphase] at hopen
    exact ⟨h.failures, fun _ => hopen, fun r hr => by cases hr⟩

/-- The task gets on between two attempts, or to the next one. -/
theorem goOn (h : t.Tried o maxAttempts ended calls) (hopen : t.phase.isEnded = false)
    (hphase : t.phase ≠ .running) (hattempts : t'.attempts = t.attempts) (hopen' : t'.phase.isEnded = false) :
    t'.Tried o maxAttempts ended (calls + if t'.phase = .running then 1 else 0) := by
  obtain ⟨hspare, hended, hcalls⟩ := h.underway hopen
  rw [if_neg hphase, Nat.add_zero] at hcalls
  refine ⟨?_, fun _ => ?_, fun r hr => ?_⟩
  · rw [hattempts]
    exact h.failures
  · rw [hattempts, hcalls]
    exact ⟨hspare, hended, rfl⟩
  · rw [hr] at hopen'
    cases hopen'

theorem succeed (h : t.Tried o maxAttempts ended calls) (hphase : t.phase = .running)
    (hok : o ended = .ok ()) :
    Tried o maxAttempts { t with phase := .ended .succeeded } (ended + 1) calls := by
  obtain ⟨hspare, rfl, hcalls⟩ := h.underway (by rw [hphase]; rfl)
  rw [if_pos hphase] at hcalls
  refine ⟨h.failures, nofun, fun r hr => .inl ?_⟩
  obtain rfl := Phase.ended.inj hr
  exact ⟨rfl, hspare, hok, hcalls⟩

/-- One more attempt has failed. -/
theorem failures_succ (h : t.Tried o maxAttempts ended calls) (hopen : t.phase.isEnded = false)
    (herror : o ended = .error error) : ∀ i < t.attempts + 1, ∃ error, o i = .error error := by
  obtain ⟨-, rfl, -⟩ := h.underway hopen
  intro i hi
  rcases Nat.lt_succ_iff_lt_or_eq.1 hi with hi | rfl
  · exact h.failures i hi
  · exact ⟨error, herror⟩

theorem rest (h : t.Tried o maxAttempts ended calls) (hphase : t.phase = .running)
    (herror : o ended = .error error) (hspare : t.attempts + 1 < maxAttempts) :
    Tried o maxAttempts { t with phase := .resting, attempts := t.attempts + 1 } (ended + 1) calls := by
  have hopen : t.phase.isEnded = false := by rw [hphase]; rfl
  obtain ⟨-, hended, hcalls⟩ := h.underway hopen
  rw [if_pos hphase] at hcalls
  exact ⟨h.failures_succ hopen herror, fun _ => ⟨hspare, congrArg (· + 1) hended, hcalls⟩,
    fun r hr => by cases hr⟩

theorem giveUp (h : t.Tried o maxAttempts ended calls) (hphase : t.phase = .running)
    (herror : o ended = .error error) (hspent : maxAttempts ≤ t.attempts + 1) :
    Tried o maxAttempts { t with phase := .ended (.failed error), attempts := t.attempts + 1 } (ended + 1)
      calls := by
  have hopen : t.phase.isEnded = false := by rw [hphase]; rfl
  have hfailures := h.failures_succ hopen herror
  obtain ⟨hspare, rfl, hcalls⟩ := h.underway hopen
  rw [if_pos hphase] at hcalls
  obtain rfl : maxAttempts = t.attempts + 1 := Nat.le_antisymm hspent hspare
  refine ⟨hfailures, nofun, fun r hr => .inr ⟨error, ?_, rfl, herror, hcalls⟩⟩
  exact (Phase.ended.inj hr).symm

/-- An attempt ends: the move succeeds, rests or gives up, by the count of the ledger. -/
theorem finish (h : t.Tried o d.limits.maxAttempts ended calls) (hn : (d.tasks.map Task.id).Nodup)
    (hm : Mirrors l (d.tasks.map (Task.account earlier)) d.ledger) (hs : d.tasks = front ++ t :: back)
    (hfresh : earlier t.id = 0) (hphase : t.phase = .running) :
    ∃ t' l', (d.put front t' back l').Shifts (d.finish t (.answered (o ended))).1 ∧
      t'.claim = t.claim ∧ t'.Tried o d.limits.maxAttempts (ended + 1) calls := by
  cases hend : o ended with
  | ok u =>
    exact ⟨_, _, Dispatch.shifts_conclude hn hs .succeeded .succeeded, rfl, h.succeed hphase hend⟩
  | error e =>
    have hopen : t.phase.isEnded = false := by rw [hphase]; rfl
    have ht : t ∈ d.tasks := hs ▸ List.mem_append_right _ List.mem_cons_self
    obtain ⟨before, after, hentries⟩ := Dispatch.exists_entry hm ht hopen
    have hcount : (t.account earlier).entry.attempts = t.attempts := by
      rw [entry_account hfresh]
      rfl
    rw [Dispatch.finish, Dispatch.failAttempt]
    split
    · rename_i l' n hfail
      obtain ⟨rfl, hspare⟩ := Ledger.fail_eq_again hm.consistent hentries (congrArg Prod.snd hfail)
      rw [hcount] at hspare ⊢
      exact ⟨_, _, Dispatch.shifts_failed hn hs .resting _ l', rfl, h.rest hphase hend hspare⟩
    · rename_i l' n hfail
      obtain ⟨rfl, hspent⟩ := Ledger.fail_eq_giveUp hm.consistent hentries (congrArg Prod.snd hfail)
      rw [hcount] at hspent ⊢
      exact ⟨_, _, Dispatch.shifts_failed hn hs (.ended (.failed e)) _ l', rfl,
        h.giveUp hphase hend hspent⟩

section OwnTurn

variable (h : t.Tried o d.limits.maxAttempts ended calls) (hn : (d.tasks.map Task.id).Nodup)
  (hsignal : d.signal = .proceed) (hm : Mirrors l (d.tasks.map (Task.account earlier)) d.ledger)
  (ht : t ∈ d.tasks) (hfresh : earlier t.id = 0)
  (hend : ∀ outcome, d.ending? t.id (.task t.id cue) = some outcome → outcome = .answered (o ended))

include h hn hsignal hm ht hfresh hend in
/-- A running attempt ends as given, or goes on. -/
theorem take_running (hphase : t.phase = .running) :
    ∃ t', (d.take (.task t.id cue)).task? t.id = some t' ∧ t'.claim = t.claim ∧
      t'.Tried o d.limits.maxAttempts (ended + (d.ending? t.id (.task t.id cue)).toList.length)
        (calls + if d.starts t.id (.task t.id cue) then 1 else 0) := by
  obtain ⟨front, back, hs⟩ := List.append_of_mem ht
  have hfind : d.task? t.id = some t := Dispatch.task?_of_mem hn ht
  have hrunning : d.isRunning t.id = true := by
    rw [Dispatch.isRunning_eq hfind, hphase]
    rfl
  have hstarts : ¬d.starts t.id (.task t.id cue) = true := by
    rw [Dispatch.starts, hrunning]
    exact Bool.false_ne_true
  have htake := Dispatch.take_task hfind cue
  rw [if_neg hstarts, Nat.add_zero]
  by_cases hcue : ∃ outcome, cue = .finish outcome
  · obtain ⟨outcome, rfl⟩ := hcue
    have hsome : d.ending? t.id (.task t.id (.finish outcome)) = some outcome :=
      Dispatch.ending?_eq_some_iff.2 ⟨rfl, hrunning⟩
    obtain rfl := hend _ hsome
    obtain ⟨t', l', hshifts, hclaim, htried⟩ := h.finish hn hm hs hfresh hphase
    have hn' := Dispatch.nodup_take hn (.task t.id (.finish (.answered (o ended))))
    rw [htake, Dispatch.takeTask_running hphase] at hn' ⊢
    obtain ⟨t'', hfind', hshift⟩ := Dispatch.exists_shift hn' hshifts
      (List.mem_append_right _ List.mem_cons_self)
    have hid : t'.id = t.id := congrArg Prod.fst hclaim
    rw [hsome]
    exact ⟨t'', hid ▸ hfind', hshift.claim.trans hclaim, htried.shift hshift⟩
  · have hnone : d.ending? t.id (.task t.id cue) = none :=
      Option.eq_none_iff_forall_ne_some.2 fun outcome hsome =>
        hcue ⟨outcome, (Turn.task.inj (Dispatch.ending?_eq_some_iff.1 hsome).1).2⟩
    rw [htake, Dispatch.takeTask_eq_self hsignal hphase fun outcome he => hcue ⟨outcome, he⟩, hnone]
    exact ⟨t, hfind, rfl, h⟩

include h hn hsignal ht in
/-- Between two attempts the task gets on, or nothing happens. -/
theorem take_idle (hphase : t.phase ≠ .running) :
    ∃ t', (d.take (.task t.id cue)).task? t.id = some t' ∧ t'.claim = t.claim ∧
      t'.Tried o d.limits.maxAttempts (ended + (d.ending? t.id (.task t.id cue)).toList.length)
        (calls + if d.starts t.id (.task t.id cue) then 1 else 0) := by
  obtain ⟨front, back, hs⟩ := List.append_of_mem ht
  have hfind : d.task? t.id = some t := Dispatch.task?_of_mem hn ht
  have htake := Dispatch.take_task hfind cue
  have hnone : d.ending? t.id (.task t.id cue) = none :=
    Option.eq_none_iff_forall_ne_some.2 fun outcome hsome => by
      have hrun := (Dispatch.ending?_eq_some_iff.1 hsome).2
      rw [Dispatch.isRunning_eq hfind, beq_iff_eq] at hrun
      exact hphase hrun
  rw [hnone]
  rcases Dispatch.takeTask_cases hn hs cue with heq | ⟨t', l', ha, hshifts⟩
  · have hsame : d.take (.task t.id cue) = d := htake.trans heq
    have hstarts : d.starts t.id (.task t.id cue) = false := by
      rw [Dispatch.starts, hsame, Bool.not_and_self]
    rw [hstarts, hsame]
    exact ⟨t, hfind, rfl, h⟩
  · obtain ⟨hattempts, hopen⟩ := ha.keeps hsignal hphase
    rw [← htake] at hshifts
    obtain ⟨t'', hfind', hshift⟩ := Dispatch.exists_shift (Dispatch.nodup_take hn (.task t.id cue)) hshifts
      (List.mem_append_right _ List.mem_cons_self)
    have hid : t'.id = t.id := congrArg Prod.fst ha.claim
    rw [hid] at hfind'
    have hstarts : d.starts t.id (.task t.id cue) = true ↔ t'.phase = .running := by
      rw [Dispatch.starts_eq hfind hfind', ← hshift.running_iff]
      simp [hphase]
    refine ⟨t'', hfind', hshift.claim.trans ha.claim, ?_⟩
    have hgoes := (h.goOn ha.isEnded_eq_false hphase hattempts hopen).shift hshift
    simp only [hstarts]
    exact hgoes

end OwnTurn

/-- What is known of a task after a turn of any task. -/
theorem take (h : t.Tried o d.limits.maxAttempts ended calls) (hn : (d.tasks.map Task.id).Nodup)
    (hsignal : d.signal = .proceed) (hm : Mirrors l (d.tasks.map (Task.account earlier)) d.ledger)
    (ht : t ∈ d.tasks) (hfresh : earlier t.id = 0) (hturn : ∀ s, turn ≠ .signal s)
    (hend : ∀ outcome, d.ending? t.id turn = some outcome → outcome = .answered (o ended)) :
    ∃ t', (d.take turn).task? t.id = some t' ∧ t'.claim = t.claim ∧
      t'.Tried o d.limits.maxAttempts (ended + (d.ending? t.id turn).toList.length)
        (calls + if d.starts t.id turn then 1 else 0) := by
  cases turn with
  | signal s => exact absurd rfl (hturn s)
  | task other cue =>
    by_cases hother : other = t.id
    · subst hother
      by_cases hphase : t.phase = .running
      · exact h.take_running hn hsignal hm ht hfresh hend hphase
      · exact h.take_idle hn hsignal ht hphase
    · obtain ⟨t', hfind', hshift⟩ := Dispatch.exists_shift_of_ne hn ht hother cue
      have hnone : d.ending? t.id (.task other cue) = none :=
        Option.eq_none_iff_forall_ne_some.2 fun outcome hsome =>
          hother (Turn.task.inj (Dispatch.ending?_eq_some_iff.1 hsome).1).1
      have hstarts : ¬d.starts t.id (.task other cue) = true := by
        rw [Dispatch.starts_eq (Dispatch.task?_of_mem hn ht) hfind']
        simp [hshift.running_iff]
      rw [hnone, if_neg hstarts]
      exact ⟨t', hfind', hshift.claim, h.shift hshift⟩

/-- A task that has ended has done so with the first success, if it comes in time. -/
theorem of_success (h : t.Tried o maxAttempts ended calls) (hended : t.phase.isEnded) {k : Nat}
    (hk : k < maxAttempts) (hbefore : ∀ i < k, o i ≠ .ok ()) (hok : o k = .ok ()) :
    t.phase = .ended .succeeded ∧ t.attempts = k ∧ calls = k + 1 := by
  cases hphase : t.phase with
  | ended r =>
    obtain ⟨rfl, -, hlast, hcalls⟩ | ⟨error, rfl, hattempts, -, -⟩ := h.result r hphase
    · obtain rfl : t.attempts = k := by
        rcases Nat.lt_trichotomy t.attempts k with hlt | heq | hlt
        · exact absurd hlast (hbefore _ hlt)
        · exact heq
        · obtain ⟨error, herror⟩ := h.failures k hlt
          cases hok.symm.trans herror
      exact ⟨rfl, rfl, hcalls⟩
    · obtain ⟨error, herror⟩ := h.failures k (hattempts ▸ hk)
      cases hok.symm.trans herror
  | _ =>
    rw [hphase] at hended
    cases hended

/-- A task that has ended has failed with its last error, if no success comes in time. -/
theorem of_failures (h : t.Tried o maxAttempts ended calls) (hended : t.phase.isEnded)
    (hall : ∀ i < maxAttempts, o i ≠ .ok ()) :
    ∃ error, o (maxAttempts - 1) = .error error ∧ t.phase = .ended (.failed error) ∧
      t.attempts = maxAttempts ∧ calls = maxAttempts := by
  cases hphase : t.phase with
  | ended r =>
    obtain ⟨-, hspare, hlast, -⟩ | ⟨error, rfl, hattempts, herror, hcalls⟩ := h.result r hphase
    · exact absurd hlast (hall _ hspare)
    · exact ⟨error, herror, rfl, hattempts, hcalls⟩
  | _ =>
    rw [hphase] at hended
    cases hended

end Task.Tried

/-! ### Whole dispatches -/

namespace Dispatch

variable {d : Dispatch} {t : Task} {l : Ledger} {e : Entry} {limits : DispatchLimits}
  {earlier : MoveId → Nat} {o : Nat → Except TransferError Unit} {turn : Turn} {turns : List Turn}

/-- Nobody asks anything of the dispatch but its tasks take their turns. -/
theorem signal_takeAll (hn : (d.tasks.map Task.id).Nodup) (hquiet : ∀ s, Turn.signal s ∉ turns) :
    (d.takeAll turns).signal = d.signal := by
  induction turns generalizing d with
  | nil => rfl
  | cons turn rest ih =>
    refine (ih (nodup_take hn turn) fun s hs => hquiet s (List.mem_cons_of_mem _ hs)).trans ?_
    cases turn with
    | signal s => exact absurd List.mem_cons_self (hquiet s)
    | task id cue => exact signal_take_task hn id cue

/-- What is known of a task after turns of any tasks. -/
theorem tried_takeAll (hn : (d.tasks.map Task.id).Nodup) (hsignal : d.signal = .proceed)
    (hm : Mirrors l (d.tasks.map (Task.account earlier)) d.ledger) (ht : t ∈ d.tasks)
    (hfresh : earlier t.id = 0) (h : t.Tried o d.limits.maxAttempts 0 0)
    (hquiet : ∀ s, Turn.signal s ∉ turns) (hfollows : d.Follows t.id o turns) :
    ∃ t', (d.takeAll turns).task? t.id = some t' ∧ t'.claim = t.claim ∧
      t'.Tried o d.limits.maxAttempts (d.endings t.id turns).length (d.calls t.id turns) := by
  -- from the last turn, as the outcome that is due depends on the turns before
  induction turns using List.reverseRecOn with
  | nil => exact ⟨t, task?_of_mem hn ht, rfl, h⟩
  | append_singleton turns turn ih =>
    obtain ⟨hbefore, hend⟩ := follows_append_iff.1 hfollows
    have hquiet' : ∀ s, Turn.signal s ∉ turns := fun s hs => hquiet s (List.mem_append_left _ hs)
    have hturn : ∀ s, turn ≠ .signal s := fun s hs => hquiet s (hs ▸ List.mem_append_right _ List.mem_cons_self)
    obtain ⟨t', hfind, hclaim, htried⟩ := ih hquiet' hbefore
    have hid : t'.id = t.id := congrArg Prod.fst hclaim
    have hlimits : (d.takeAll turns).limits = d.limits := limits_takeAll hn turns
    rw [← hlimits] at htried
    obtain ⟨t'', hfind', hclaim', htried'⟩ := htried.take (nodup_takeAll hn turns)
      ((signal_takeAll hn hquiet').trans hsignal) (mirrors_takeAll hn hm turns)
      (List.mem_of_find?_eq_some hfind) (hid ▸ hfresh) hturn fun x hx => hend x (hid ▸ hx)
    rw [hlimits, hid] at htried'
    rw [takeAll_append, endings_append, calls_append, List.length_append]
    exact ⟨t'', hid ▸ hfind', hclaim'.trans hclaim, htried'⟩

/-- The task of a move that is new when it is claimed. -/
theorem mem_tasks_start (he : e ∈ l.entries) (hpending : e.state = .pending) (limits : DispatchLimits)
    (signal : Signal) : ⟨e.id, e.move, 0, .ready⟩ ∈ (start limits signal l).tasks := by
  have hclaim : (e.id, e.move) ∈ l.claim.2 :=
    List.mem_map_of_mem (List.mem_filter.2 ⟨he, by rw [hpending]; rfl⟩)
  exact List.mem_map_of_mem hclaim

/-- The entry of a move that has not ended. -/
theorem get?_of_open (hm : Mirrors l (d.tasks.map (Task.account earlier)) d.ledger) (ht : t ∈ d.tasks)
    (hfresh : earlier t.id = 0) (ho : t.phase.isEnded = false) : d.ledger.get? t.id = some t.entry := by
  obtain ⟨before, after, hentries⟩ := exists_entry hm ht ho
  rw [Task.entry_account hfresh] at hentries
  exact Ledger.get?_split hm.consistent hentries

/-- The entry of a move that has ended is gone, and its key is free. -/
theorem released (h : l.Consistent) (hn : (d.tasks.map Task.id).Nodup) (hclaims : d.claims = l.claim.2)
    (hm : Mirrors l (d.tasks.map (Task.account earlier)) d.ledger) (he : e ∈ l.entries)
    (hpending : e.state = .pending) (ht : t ∈ d.tasks) (hid : t.id = e.id) (htold : t.phase.told?.isSome) :
    d.ledger.get? e.id = none ∧ d.ledger.takes e.move.key = false := by
  -- each entry that is left has been there before, and is not that of the move
  have horigin : ∀ x ∈ d.ledger.entries, ∃ e' ∈ l.entries, e'.id = x.id ∧ e'.move = x.move ∧ e' ≠ e := by
    intro x hx
    rcases List.mem_append.1 (hm.entries.mem_iff.1 hx) with hx | hx
    · obtain ⟨hx, hstate⟩ := List.mem_filter.1 hx
      refine ⟨x, hx, rfl, rfl, ?_⟩
      rintro rfl
      rw [hpending] at hstate
      cases hstate
    · obtain ⟨a, ha, rfl⟩ := List.mem_map.1 hx
      obtain ⟨ha, hnone⟩ := List.mem_filter.1 ha
      obtain ⟨u, hu, rfl⟩ := List.mem_map.1 ha
      have hclaim : u.claim ∈ l.claim.2 := hclaims ▸ List.mem_map_of_mem hu
      obtain ⟨e', he', hsame⟩ := List.mem_map.1 hclaim
      obtain ⟨hsameId, hsameMove⟩ := Prod.mk.inj hsame
      refine ⟨e', (List.mem_filter.1 he').1, hsameId, hsameMove, ?_⟩
      rintro rfl
      obtain rfl := List.inj_on_of_nodup_map hn ht hu (hid.trans hsameId)
      have hnone : t.phase.told? = none := Option.isNone_iff_eq_none.1 hnone
      rw [hnone] at htold
      cases htold
  refine ⟨List.find?_eq_none.2 fun x hx hxe => ?_, Bool.eq_false_iff.2 fun htakes => ?_⟩
  · obtain ⟨e', he', hsameId, -, hne⟩ := horigin x hx
    exact hne (List.inj_on_of_nodup_map h.nodup he' he (hsameId.trans (beq_iff_eq.1 hxe)))
  · obtain ⟨x, hx, hkey⟩ := (hm.consistent.takes_iff _).1 htakes
    obtain ⟨e', he', -, hsameMove, hne⟩ := horigin x hx
    exact hne (List.inj_on_of_nodup_map h.distinct he' he ((congrArg Move.key hsameMove).trans hkey))

/-- Another turn that changes the dispatch, and lets the attempts of a task end as given. -/
theorem exists_follows {id : MoveId} (hrationed : (d.takeAll turns).Rationed)
    (hlimits : ∀ p : Permit, 0 < p.limit (d.takeAll turns).limits)
    (hm : Mirrors l ((d.takeAll turns).tasks.map (Task.account earlier)) (d.takeAll turns).ledger)
    (hover : (d.takeAll turns).isOver = false) (hfollows : d.Follows id o turns) :
    ∃ turn, (∀ s, turn ≠ .signal s) ∧ d.Follows id o (turns ++ [turn]) ∧
      (d.takeAll turns).take turn ≠ d.takeAll turns := by
  obtain ⟨u, hu, hturn⟩ := hrationed.exists_turn hlimits hm hover
  rcases hturn with ⟨-, hchange⟩ | ⟨hphase, cue, hchange⟩
  · -- the attempt ends as the next one is given, whosever it is
    refine ⟨.task u.id (.finish (.answered (o (d.endings id turns).length))), nofun,
      follows_append_iff.2 ⟨hfollows, fun outcome hsome => ?_⟩, hchange _⟩
    exact (Cue.finish.inj (Turn.task.inj (ending?_eq_some_iff.1 hsome).1).2).symm
  · refine ⟨.task u.id cue, nofun, follows_append_iff.2 ⟨hfollows, fun outcome hsome => ?_⟩, hchange⟩
    obtain ⟨hturn, hrun⟩ := ending?_eq_some_iff.1 hsome
    obtain rfl := (Turn.task.inj hturn).1
    rw [isRunning_eq (task?_of_mem hrationed.distinct hu), beq_iff_eq] at hrun
    exact absurd hrun hphase

/-- A move that is still tried, after so many attempts that have ended and so many that have started. -/
structure Underway (o : Nat → Except TransferError Unit) (e : Entry) (d : Dispatch) (t : Task)
    (ended calls : Nat) : Prop where
  failures : ∀ i < ended, ∃ error, o i = .error error
  spare : ended < d.limits.maxAttempts
  attempts : t.attempts = ended
  calls : calls = ended + if t.phase = .running then 1 else 0
  /-- The entry counts the failures, too. It is pending between two attempts alone. -/
  entry : d.ledger.get? e.id =
    some { e with attempts := ended, state := if t.phase = .resting then .pending else .inFlight }

/-- A move that has ended after so many failed attempts. -/
structure Closed (e : Entry) (d : Dispatch) (t : Task) (result : TaskEnd) (attempts : Nat) : Prop where
  task : t = ⟨e.id, e.move, attempts, .ended result⟩
  gone : d.ledger.get? e.id = none
  free : d.ledger.takes e.move.key = false

/-- What becomes of a move that is new when it is claimed, and whose attempts end as given, by errors,
timeouts or success. Other moves are claimed with it; tasks take their turns in any order, the attempts of
the others end in any way, and nobody asks the dispatch to stop.

Until the move ends, all its attempts have failed, the task and the ledger agree on their number, and the
entry is pending between two of them. When it has ended, it has done so with the first success, or with the
error of its last attempt if there is none among as many as the limits allow; its entry is gone, and its key
is free. And it does end: only so many turns can change the dispatch, and some turn does so until then. -/
theorem takeAll_retries {l : Ledger} {e : Entry} {limits : DispatchLimits}
    {o : Nat → Except TransferError Unit} {turns : List Turn} (h : l.Consistent) (he : e ∈ l.entries)
    (hpending : e.state = .pending) (hfresh : e.attempts = 0) (hmax : 0 < limits.maxAttempts)
    (hquiet : ∀ s, Turn.signal s ∉ turns) (hfollows : (start limits .proceed l).Follows e.id o turns) :
    let d₀ := start limits .proceed l
    let d := d₀.takeAll turns
    let m := limits.maxAttempts
    let calls := d₀.calls e.id turns
    let report := DispatchReport.ofTasks d.tasks
    ∃ t, d.task? e.id = some t ∧ t.move = e.move ∧
      (t.phase.isEnded = false → Underway o e d t (d₀.endings e.id turns).length calls) ∧
      (t.phase.isEnded →
        (∀ k < m, (∀ i < k, o i ≠ .ok ()) → o k = .ok () →
          Closed e d t .succeeded k ∧ calls = k + 1 ∧ ⟨e.id, e.move, k, none⟩ ∈ report.succeeded) ∧
        ((∀ i < m, o i ≠ .ok ()) → ∃ error, o (m - 1) = .error error ∧
          Closed e d t (.failed error) m ∧ calls = m ∧ ⟨e.id, e.move, m, some error⟩ ∈ report.failed ∧
          e.move.block.id ∈ d.ledger.tally.failedBlocks)) ∧
      (d₀.Busy turns → turns.length ≤ l.claim.2.length * (9 * m + 8)) ∧
      ((∀ p : Permit, 0 < p.limit limits) → t.phase.isEnded = false →
        ∃ turn, (∀ s, turn ≠ .signal s) ∧ d₀.Follows e.id o (turns ++ [turn]) ∧ d.take turn ≠ d) := by
  intro d₀ d m calls report
  have hn : (d₀.tasks.map Task.id).Nodup := nodup_start h limits .proceed
  have hm₀ : Mirrors l (d₀.tasks.map (Task.account (attemptsIn l))) d₀.ledger := mirrors_start h limits .proceed
  have hm : Mirrors l (d.tasks.map (Task.account (attemptsIn l))) d.ledger := mirrors_takeAll hn hm₀ turns
  have hlimits : d.limits = limits := limits_takeAll hn turns
  have hearlier : attemptsIn l e.id = 0 := (attemptsIn_eq h he).trans hfresh
  have hclaims : d.claims = l.claim.2 := (claims_takeAll hn turns).trans (claims_start limits .proceed l)
  obtain ⟨t, hfind, hclaim, htried⟩ : ∃ t, d.task? e.id = some t ∧ t.claim = (e.id, e.move) ∧
      t.Tried o m (d₀.endings e.id turns).length calls :=
    tried_takeAll hn rfl hm₀ (mem_tasks_start he hpending limits .proceed) hearlier
      (.first o hmax e.id e.move) hquiet hfollows
  have ht : t ∈ d.tasks := List.mem_of_find?_eq_some hfind
  obtain ⟨hid, hmove⟩ := Prod.mk.inj hclaim
  -- what a task that has told the ledger of its end leaves behind
  have hclosed : ∀ result k, t.phase = .ended result → t.phase.told?.isSome → t.attempts = k →
      Closed e d t result k := by
    rintro result k hphase htold rfl
    obtain ⟨hgone, hfree⟩ := released h (nodup_takeAll hn turns) hclaims hm he hpending ht hid htold
    refine ⟨?_, hgone, hfree⟩
    rw [← hid, ← hmove, ← hphase]
  refine ⟨t, hfind, hmove, fun hopen => ?_, fun hended => ⟨fun k hk hbefore hok => ?_, fun hall => ?_⟩,
    busy_length_le h hquiet, fun hpermits hopen => ?_⟩
  · obtain ⟨hspare, hcount, hcalls⟩ := htried.underway hopen
    have hentry := get?_of_open hm ht (hid ▸ hearlier) hopen
    rw [hcount]
    refine ⟨htried.failures, hlimits ▸ hspare, rfl, hcalls, ?_⟩
    rw [← hid, hentry, Task.entry, hmove, hid]
  · obtain ⟨hphase, hattempts, hcalls⟩ := htried.of_success hended hk hbefore hok
    refine ⟨hclosed _ k hphase (by rw [hphase]; rfl) hattempts, hcalls, List.mem_filterMap.2 ⟨t, ht, ?_⟩⟩
    rw [MoveResult.success?, hphase, hid, hmove, hattempts]
  · obtain ⟨error, hlast, hphase, hattempts, hcalls⟩ := htried.of_failures hended hall
    refine ⟨error, hlast, hclosed _ m hphase (by rw [hphase]; rfl) hattempts, hcalls,
      List.mem_filterMap.2 ⟨t, ht, ?_⟩, (hm.failedBlocks _).2 (.inr ⟨_, List.mem_map_of_mem ht, ?_, ?_⟩)⟩
    · rw [MoveResult.failure?, hphase, hid, hmove, hattempts]
    · rw [Task.account, hphase]
      rfl
    · exact congrArg (fun m : Move => m.block.id) hmove
  · have hready : ∀ t ∈ d₀.tasks, t.phase = .ready := by
      intro t ht
      obtain ⟨c, -, rfl⟩ := List.mem_map.1 ht
      rfl
    have hover : d.isOver = false := List.all_eq_false.2 ⟨t, ht, by simp [hopen]⟩
    exact exists_follows ((Rationed.of_ready hn hready).takeAll turns) (fun p => hlimits ▸ hpermits p) hm hover
      hfollows

/-- A timeout, and then nothing but success. -/
def sampleOutcome : Nat → Except TransferError Unit
  | 0 => .error .timeout
  | _ => .ok ()

/-- The move that has failed once waits for its source until the one before it is done, and succeeds. -/
def sampleRetry : List Turn :=
  sampleTurns ++ [.task 4 .go, .task 3 .rested, .task 3 .go, .task 3 .go, .task 4 .go,
    .task 4 (.finish (.answered (.ok ()))), .task 3 .go, .task 3 .go,
    .task 3 (.finish (.answered (.ok ())))]

theorem takeAll_retries_sample :
    let e : Entry := ⟨3, sampleMove 2 "b", .pending, 0⟩
    let d₀ := start ⟨2, 1, 2, 1000, 3, 1000⟩ .proceed sampleLedger
    let d := d₀.takeAll sampleRetry
    sampleLedger.Consistent ∧ e ∈ sampleLedger.entries ∧ d₀.Follows 3 sampleOutcome sampleRetry ∧
      d₀.calls 3 sampleRetry = 2 ∧
        Closed e d ⟨3, sampleMove 2 "b", 1, .ended .succeeded⟩ .succeeded 1 := by
  intro e d₀ d
  have hconsistent : sampleLedger.Consistent := Ledger.consistent_answerAll _
  have hmem : e ∈ sampleLedger.entries := by decide
  have hfollows : d₀.Follows 3 sampleOutcome sampleRetry := by decide
  have htask : d.task? 3 = some ⟨3, sampleMove 2 "b", 1, .ended .succeeded⟩ := by decide
  obtain ⟨t, hfind, -, -, hends, -⟩ := takeAll_retries hconsistent hmem rfl rfl (by decide)
    (by simp [sampleRetry, sampleTurns]) hfollows
  obtain rfl := Option.some.inj (htask.symm.trans hfind)
  obtain ⟨hclosed, hcalls, -⟩ := (hends rfl).1 1 (by decide) (by simp [sampleOutcome]) rfl
  exact ⟨hconsistent, hmem, hfollows, hcalls, hclosed⟩

end Dispatch

end StorageTiering
