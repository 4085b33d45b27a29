import StorageTiering.Proofs.Dispatch.Turns
/-!
# Permits of a dispatch

Permits are given out within their limits, and those who hold some of them while they wait for the rest
never block each other: whoever waits for a permit waits for a task that has got further.

* `Dispatch.Rationed` — no supply is overdrawn, and tasks wait only for supplies that are used up;
  `Dispatch.Rationed.takeAll` keeps it so, whatever turns are taken.
* `Dispatch.Enabled` — a task that can do more than queue up.
* `Dispatch.Rationed.exists_enabled` — as long as a task has not ended, some task is enabled.
* `Dispatch.takeAll_permits` — the limits on attempts that run at once, and no deadlock.
-/

namespace StorageTiering

variable {a b c : Move} {p q : Permit} {ph : Phase}

/-! ### Supplies -/

namespace Permit

theorem mem_all (p : Permit) : p ∈ all := by cases p <;> decide

theorem shared_comm (p : Permit) (a b : Move) : p.shared a b = p.shared b a := by
  cases p
  · rfl
  · exact Bool.beq_comm
  · exact Bool.beq_comm

/-- Two moves with one supply share it with the same moves. -/
theorem shared_congr (h : p.shared a b = true) (c : Move) : p.shared a c = p.shared b c := by
  cases p
  · rfl
  · simp only [shared, beq_iff_eq] at h ⊢
    rw [h]
  · simp only [shared, beq_iff_eq] at h ⊢
    rw [h]

end Permit

namespace Phase

/-- A permit that is got is all that is held in addition. -/
theorem holds_granted (p q : Permit) :
    (granted q).holds p = ((waiting q).holds p || decide (p = q)) := by
  cases p <;> cases q <;> rfl

/-- What is held with a permit is what is held when the next one is asked for. -/
theorem holds_next (h : p.next? = some q) (r : Permit) : (granted p).holds r = (waiting q).holds r := by
  cases p <;> cases h <;> cases r <;> rfl

/-- Whoever holds a permit waits for the next one, is about to ask for it, or holds it. -/
theorem cases_of_holds (h : p.next? = some q) (hholds : ph.holds p = true) :
    ph = .waiting q ∨ ph = .granted p ∨ ph.holds q = true := by
  cases p <;> cases h <;> cases ph with
  | waiting r => cases r <;> first | exact .inl rfl | exact .inr (.inr rfl) | cases hholds
  | granted r => cases r <;> first | exact .inr (.inl rfl) | exact .inr (.inr rfl) | cases hholds
  | running => exact .inr (.inr rfl)
  | _ => cases hholds

/-- Whoever holds the last permit has them all. -/
theorem cases_of_holds_target (hholds : ph.holds .target = true) : ph = .granted .target ∨ ph = .running := by
  cases ph with
  | waiting r => cases r <;> cases hholds
  | granted r => cases r <;> first | exact .inl rfl | cases hholds
  | running => exact .inr rfl
  | _ => cases hholds

theorem holds_ready (r : Permit) : ready.holds r = (waiting .everywhere).holds r := by
  cases r <;> rfl

end Phase

/-- What matters of a task when permits are given out. -/
def Task.stance (t : Task) : MoveId × Move × Phase := (t.id, t.move, t.phase)

namespace Dispatch

variable {d d' : Dispatch} {t t' : Task} {front back : List Task} {l : Ledger} {m : Move}
  {ps : List Permit} {vacant vacant' : Permit → Move → Nat} {queue : List MoveId} {turn : Turn} {cue : Cue}

/-! ### Permits in use -/

/-- A task in the place of another holds its own permits. -/
theorem inUse_put (hs : d.tasks = front ++ t :: back) {t' : Task} (hmove : t'.move = t.move) (l : Ledger)
    (p : Permit) (m : Move) :
    (d.put front t' back l).inUse p m + (if t.phase.holds p && p.shared t.move m then 1 else 0) =
      d.inUse p m + if t'.phase.holds p && p.shared t.move m then 1 else 0 := by
  simp only [inUse, put, hs, List.countP_append, List.countP_cons, hmove]
  omega

/-- The other tasks have other numbers. -/
theorem id_ne_of_split (hn : (d.tasks.map Task.id).Nodup) (hs : d.tasks = front ++ t :: back) :
    ∀ u ∈ front ++ back, u.id ≠ t.id := by
  have hne := Keyed.key_ne (hs ▸ hn)
  intro u hu
  rcases List.mem_append.1 hu with hu | hu
  · exact hne.1 u hu
  · exact hne.2 u hu

/-- Moves with one supply see it alike. -/
theorem inUse_congr (h : p.shared a b = true) : d.inUse p a = d.inUse p b := by
  refine List.countP_congr fun t _ => ?_
  rw [p.shared_comm t.move a, p.shared_comm t.move b, Permit.shared_congr h]

theorem hasFree_eq_false_iff : d.hasFree p m = false ↔ p.limit d.limits ≤ d.inUse p m := by
  simp [hasFree]

/-- The permits of one move that have been given back and not been handed over. -/
def vacated (m : Move) (ps : List Permit) (p : Permit) (other : Move) : Nat :=
  if p ∈ ps ∧ p.shared other m = true then 1 else 0

theorem vacated_cons (hp : p ∉ ps) (m : Move) (q : Permit) (other : Move) :
    vacated m (p :: ps) q other =
      vacated m ps q other + if decide (q = p) && q.shared other m then 1 else 0 := by
  by_cases hq : q = p
  · subst hq
    simp [vacated, hp]
  · simp [vacated, hq]

/-- No supply is overdrawn, and those who wait for a permit are in the queue, and would find it used up but
for what has just been vacated. -/
structure RationedBut (d : Dispatch) (vacant : Permit → Move → Nat) : Prop where
  distinct : (d.tasks.map Task.id).Nodup
  bounded : ∀ p m, d.inUse p m ≤ p.limit d.limits
  queued : ∀ t ∈ d.tasks, ∀ p, t.phase = .waiting p → t.id ∈ d.queue
  busy : ∀ t ∈ d.tasks, ∀ p, t.phase = .waiting p →
    p.limit d.limits ≤ d.inUse p t.move + vacant p t.move

/-- No supply is overdrawn, and those who wait for a permit are in the queue, and would find it used up. -/
abbrev Rationed (d : Dispatch) : Prop := d.RationedBut fun _ _ => 0

theorem vacated_nil (m : Move) : vacated m [] = fun _ _ => 0 := by
  funext p other
  simp [vacated]

namespace RationedBut

/-- Neither the ledger nor the attempts of tasks matter. -/
theorem congr (h : d.RationedBut vacant) (hlimits : d'.limits = d.limits) (hqueue : d'.queue = d.queue)
    (htasks : d'.tasks.map Task.stance = d.tasks.map Task.stance) : d'.RationedBut vacant := by
  have hids : d'.tasks.map Task.id = d.tasks.map Task.id := by
    have hfirst := congrArg (List.map fun s : MoveId × Move × Phase => s.1) htasks
    rwa [List.map_map, List.map_map] at hfirst
  have huse : ∀ p m, d'.inUse p m = d.inUse p m := by
    intro p m
    have hcount := congrArg
      (List.countP fun s : MoveId × Move × Phase => s.2.2.holds p && p.shared s.2.1 m) htasks
    rwa [List.countP_map, List.countP_map] at hcount
  have hmem : ∀ t' ∈ d'.tasks, ∃ t ∈ d.tasks, t.id = t'.id ∧ t.move = t'.move ∧ t.phase = t'.phase := by
    intro t' ht'
    obtain ⟨t, ht, hsame⟩ := List.mem_map.1 (htasks ▸ List.mem_map_of_mem ht' : t'.stance ∈ _)
    simp only [Task.stance, Prod.mk.injEq] at hsame
    exact ⟨t, ht, hsame⟩
  refine ⟨hids ▸ h.distinct, fun p m => ?_, fun t' ht' p hp => ?_, fun t' ht' p hp => ?_⟩
  · rw [huse, hlimits]
    exact h.bounded p m
  · obtain ⟨t, ht, hid, -, hphase⟩ := hmem t' ht'
    rw [hqueue, ← hid]
    exact h.queued t ht p (hphase.trans hp)
  · obtain ⟨t, ht, -, hmove, hphase⟩ := hmem t' ht'
    rw [huse, hlimits, ← hmove]
    exact h.busy t ht p (hphase.trans hp)

/-- One task changes its phase. What it gets in addition must be there, and what it does not hold any more
is vacant. -/
theorem put (h : d.RationedBut vacant) (hs : d.tasks = front ++ t :: back)
    (hbounded : ∀ p m, ph.holds p = true → p.shared t.move m = true →
      t.phase.holds p = true ∨ d.inUse p m < p.limit d.limits)
    (hqueue : ∀ u ∈ front ++ back, u.id ∈ d.queue → u.id ∈ queue)
    (hwaits : ∀ p, ph = .waiting p → t.id ∈ queue ∧
      p.limit d.limits ≤ (d.put front { t with phase := ph } back d.ledger).inUse p t.move + vacant' p t.move)
    (hvacant : ∀ p m, vacant p m + (if t.phase.holds p && p.shared t.move m then 1 else 0) ≤
      vacant' p m + if ph.holds p && p.shared t.move m then 1 else 0) :
    { d.put front { t with phase := ph } back d.ledger with queue := queue }.RationedBut vacant' := by
  have huse := fun p m => inUse_put hs (show ({ t with phase := ph } : Task).move = t.move from rfl) d.ledger p m
  -- The others are in the queue and wait as they did.
  have hothers : ∀ u ∈ front ++ back, ∀ p, u.phase = .waiting p → u.id ∈ queue ∧
      p.limit d.limits ≤
        (d.put front { t with phase := ph } back d.ledger).inUse p u.move + vacant' p u.move := by
    intro u hu p hp
    have hmem : u ∈ d.tasks := by
      rw [hs]
      rcases List.mem_append.1 hu with hu | hu
      · exact List.mem_append_left _ hu
      · exact List.mem_append_right _ (List.mem_cons_of_mem _ hu)
    have hbusy := h.busy u hmem p hp
    have hnow := huse p u.move
    have hgap := hvacant p u.move
    exact ⟨hqueue u hu (h.queued u hmem p hp), by dsimp only at hnow; omega⟩
  have hall : ∀ u ∈ front ++ { t with phase := ph } :: back, ∀ p, u.phase = .waiting p → u.id ∈ queue ∧
      p.limit d.limits ≤
        (d.put front { t with phase := ph } back d.ledger).inUse p u.move + vacant' p u.move := by
    intro u hu p hp
    rcases List.mem_append.1 hu with hu | hu
    · exact hothers u (List.mem_append_left _ hu) p hp
    · rcases List.mem_cons.1 hu with rfl | hu
      · exact hwaits p hp
      · exact hothers u (List.mem_append_right _ hu) p hp
  refine ⟨nodup_put (l := d.ledger) h.distinct hs rfl, fun p m => ?_, fun u hu p hp => (hall u hu p hp).1,
    fun u hu p hp => (hall u hu p hp).2⟩
  change (d.put front { t with phase := ph } back d.ledger).inUse p m ≤ p.limit d.limits
  have hnow := huse p m
  have hlimit := h.bounded p m
  have hgot := hbounded p m
  dsimp only at hnow
  cases hshared : p.shared t.move m <;> cases hold : t.phase.holds p <;> cases hnew : ph.holds p <;>
    simp only [hshared, hold, hnew, Bool.and_true, Bool.and_false, Bool.false_eq_true, if_true, if_false,
      forall_true_left, false_or, true_or] at hnow hgot <;> omega

/-- A permit that is free is handed over to a task that waits for it, if there is one. -/
theorem handOver (h : d.RationedBut (vacated m (p :: ps))) (hp : p ∉ ps) :
    (d.handOver p m).1.RationedBut (vacated m ps) := by
  -- It is enough that those who share the supply find it used up.
  have hkeep : (∀ t ∈ d.tasks, t.phase = .waiting p → p.shared t.move m = true →
      p.limit d.limits ≤ d.inUse p t.move) → d.RationedBut (vacated m ps) := by
    intro hbusy
    refine ⟨h.distinct, h.bounded, h.queued, fun t ht q hq => ?_⟩
    have hwas := h.busy t ht q hq
    by_cases hmine : q = p ∧ q.shared t.move m = true
    · obtain ⟨rfl, hshared⟩ := hmine
      exact Nat.le_add_right_of_le (hbusy t ht hq hshared)
    · have hmine' : ¬(decide (q = p) && q.shared t.move m) = true := by simpa using hmine
      rwa [vacated_cons hp, if_neg hmine', Nat.add_zero] at hwas
  rw [Dispatch.handOver]
  cases hfree : d.hasFree p m with
  | false =>
    rw [if_neg (by simp)]
    refine hkeep fun t _ _ hshared => ?_
    rw [inUse_congr hshared]
    exact hasFree_eq_false_iff.1 hfree
  | true =>
    rw [if_pos rfl]
    have hroom : d.inUse p m < p.limit d.limits := by simpa [hasFree] using hfree
    split
    · rename_i hnone
      refine hkeep fun t ht hphase hshared => ?_
      obtain ⟨front, back, hs⟩ := List.append_of_mem ht
      have hawaits : d.awaits p m t.id = true := by
        rw [awaits, task?_split h.distinct hs]
        simp [hphase, hshared]
      exact absurd hawaits (by simpa using List.find?_eq_none.1 hnone t.id (h.queued t ht p hphase))
    · rename_i id hfind
      have hawaits : d.awaits p m id = true := List.find?_some hfind
      rw [awaits] at hawaits
      split at hawaits
      · rename_i t ht
        obtain ⟨front, back, hs⟩ := List.append_of_mem (List.mem_of_find?_eq_some ht)
        obtain rfl : t.id = id := by simpa using List.find?_some ht
        obtain ⟨hphase, hshared⟩ : t.phase = .waiting p ∧ p.shared t.move m = true := by simpa using hawaits
        rw [setPhase_put h.distinct hs]
        refine h.put hs (fun q other hq hother => ?_)
          (fun u hu hmem => (List.mem_erase_of_ne (id_ne_of_split h.distinct hs u hu)).2 hmem) (fun q hq => by cases hq)
          (fun q other => ?_)
        · rw [Phase.holds_granted, ← hphase, Bool.or_eq_true, decide_eq_true_iff] at hq
          refine hq.imp_right fun heq => ?_
          subst heq
          rwa [← inUse_congr hother, inUse_congr hshared]
        · have hsame : p.shared other m = p.shared t.move other :=
            (p.shared_comm other m).trans (Permit.shared_congr hshared other).symm
          rw [hphase, Phase.holds_granted, vacated_cons hp]
          by_cases hq : q = p
          · subst hq
            simp [hsame, Phase.holds]
          · simp [hq]
      · exact absurd hawaits (by decide)

theorem handOverAll (hps : ps.Nodup) (h : d.RationedBut (vacated m ps)) :
    (d.handOverAll m ps).1.Rationed := by
  induction ps generalizing d with
  | nil =>
    rw [vacated_nil] at h
    exact h
  | cons p rest ih =>
    obtain ⟨hp, hrest⟩ := List.nodup_cons.1 hps
    exact ih hrest (h.handOver hp)

end RationedBut

namespace Rationed

/-- A task that holds nothing any more has vacated what it held. -/
theorem leave (h : d.Rationed) (hs : d.tasks = front ++ t :: back) (ph : Phase)
    (hph : ∀ p, ph.holds p = false) (hwaits : ∀ p, ph ≠ .waiting p) :
    (d.leave t ph).1.Rationed := by
  rw [Dispatch.leave, setPhase_put h.distinct hs]
  refine RationedBut.handOverAll (List.Nodup.filter _ (by decide)) (h.put hs (fun p m hp => ?_)
    (fun u hu hmem => (List.mem_erase_of_ne (id_ne_of_split h.distinct hs u hu)).2 hmem) (fun p hp => absurd hp (hwaits p))
    fun p other => ?_)
  · rw [hph] at hp
    cases hp
  · rw [hph, p.shared_comm t.move]
    simp [vacated, Permit.mem_all]

/-- A task takes the next permit, or waits for it in the queue. -/
theorem request (h : d.Rationed) (hs : d.tasks = front ++ t :: back)
    (hholds : ∀ q, t.phase.holds q = (Phase.waiting p).holds q) : (d.request t p).Rationed := by
  rw [Dispatch.request, setPhase_put h.distinct hs, setPhase_put h.distinct hs]
  split
  · rename_i hfree
    have hroom : d.inUse p t.move < p.limit d.limits := by simpa [hasFree] using hfree
    refine h.put hs (fun q other hq hother => ?_) (fun _ _ hmem => hmem) (fun q hq => by cases hq)
      fun q other => ?_
    · rw [Phase.holds_granted, ← hholds, Bool.or_eq_true, decide_eq_true_iff] at hq
      refine hq.imp_right fun heq => ?_
      subst heq
      rwa [← inUse_congr hother]
    · rw [Phase.holds_granted, hholds]
      cases (Phase.waiting p).holds q <;> cases q.shared t.move other <;> simp
  · rename_i hfull
    have hfull : p.limit d.limits ≤ d.inUse p t.move := by simpa [hasFree] using hfull
    have huse := inUse_put hs (show ({ t with phase := .waiting p } : Task).move = t.move from rfl) d.ledger p t.move
    refine h.put hs (fun q other hq _ => .inl (by rw [hholds, hq]))
      (fun _ _ hmem => List.mem_append_left _ hmem) (fun q hq => ?_) fun q other => ?_
    · obtain rfl := Phase.waiting.inj hq
      rw [hholds] at huse
      exact ⟨by simp, by dsimp only at huse; omega⟩
    · exact Nat.le_of_eq (by rw [hholds])

/-- A phase with the same permits, and no waiting. -/
theorem setPhase (h : d.Rationed) (hs : d.tasks = front ++ t :: back) (ph : Phase)
    (hholds : ∀ q, t.phase.holds q = ph.holds q) (hwaits : ∀ p, ph ≠ .waiting p) :
    (d.setPhase t.id ph).Rationed := by
  rw [setPhase_put h.distinct hs]
  refine h.put hs (fun q other hq _ => .inl (by rw [hholds, hq])) (fun _ _ hmem => hmem)
    (fun p hp => absurd hp (hwaits p)) fun q other => ?_
  exact Nat.le_of_eq (by rw [hholds])

theorem conclude (h : d.Rationed) (hs : d.tasks = front ++ t :: back) (result : TaskEnd)
    (ending : Ending) : (d.conclude t result ending).1.Rationed :=
  (h.leave hs (.ended result) (fun _ => rfl) (by simp)).congr rfl rfl rfl

theorem finish (h : d.Rationed) (hs : d.tasks = front ++ t :: back) (outcome : Outcome) :
    (d.finish t outcome).1.Rationed := by
  have hattempts : ∀ (d : Dispatch) n l, { d.setTask t.id fun t => { t with attempts := n } with
      ledger := l }.tasks.map Task.stance = d.tasks.map Task.stance := by
    intro d n l
    simp only [setTask, List.map_map]
    refine List.map_congr_left fun u _ => ?_
    simp only [Function.comp_apply]
    split <;> rfl
  rcases outcome with (e | _) | _
  · rw [Dispatch.finish, failAttempt]
    split
    · exact (h.leave hs .resting (fun _ => rfl) (by simp)).congr rfl rfl (hattempts _ _ _)
    · exact (h.leave hs (.ended (.failed e)) (fun _ => rfl) (by simp)).congr rfl rfl (hattempts _ _ _)
  · exact h.conclude hs .succeeded .succeeded
  · exact h.leave hs _ (fun _ => rfl) (by simp)

theorem takeTask (h : d.Rationed) (hs : d.tasks = front ++ t :: back) (cue : Cue) :
    (d.takeTask t cue).Rationed := by
  unfold Dispatch.takeTask
  split
  · rename_i hphase
    rw [Dispatch.begin]
    split
    · exact h.request hs fun q => by rw [hphase, Phase.holds_ready]
    · exact h.conclude hs .cancelled .cancelled
  · rename_i p hphase
    rw [Dispatch.proceed]
    split
    · rename_i q hnext
      exact h.request hs fun r => by rw [hphase, Phase.holds_next hnext]
    · rename_i hlast
      obtain rfl : p = .target := by cases p <;> first | rfl | cases hlast
      split
      · exact h.setPhase hs _ (fun q => by rw [hphase]; cases q <;> rfl) (by simp)
      · exact h.conclude hs .cancelled .cancelled
  · exact h.finish hs _
  · rename_i hphase
    exact (h.setPhase hs .ready (fun q => by rw [hphase]; rfl) (by simp)).congr rfl rfl rfl
  · split
    · exact h.conclude hs .cancelled .cancelled
    · exact h
  · exact h

/-- No turn overdraws a supply, or leaves a permit unused that somebody waits for. -/
theorem take (h : d.Rationed) (turn : Turn) : (d.take turn).Rationed := by
  cases turn with
  | signal s => exact h.congr rfl rfl rfl
  | task id cue =>
    rw [Dispatch.take]
    split
    · rename_i t ht
      obtain ⟨front, back, hs⟩ := List.append_of_mem (List.mem_of_find?_eq_some ht)
      exact h.takeTask hs cue
    · exact h

theorem takeAll (h : d.Rationed) (turns : List Turn) :
    (d.takeAll turns).Rationed := by
  induction turns generalizing d with
  | nil => exact h
  | cons turn rest ih => exact ih (h.take turn)

/-- Tasks that are all ready hold nothing. -/
theorem of_ready (hn : (d.tasks.map Task.id).Nodup) (hready : ∀ t ∈ d.tasks, t.phase = .ready) :
    d.Rationed where
  distinct := hn
  bounded p m := by
    have hzero : d.inUse p m = 0 := List.countP_eq_zero.2 fun t ht => by simp [hready t ht, Phase.holds]
    rw [hzero]
    exact Nat.zero_le _
  queued t ht p hp := by
    rw [hready t ht] at hp
    cases hp
  busy t ht p hp := by
    rw [hready t ht] at hp
    cases hp

end Rationed

/-! ### No deadlock -/

/-- A task can take a turn of its own, without being cut short, and does more than queue up. -/
def Enabled (d : Dispatch) (t : Task) : Prop :=
  ∃ cue t', cue ≠ .cut ∧ (d.take (.task t.id cue)).task? t.id = some t' ∧ t'.phase ≠ t.phase ∧
    ∀ p, t'.phase ≠ .waiting p

theorem takeTask_ready (hphase : t.phase = .ready) : d.takeTask t .go = (d.begin t).1 := by
  unfold takeTask
  rw [hphase]

theorem takeTask_granted (hphase : t.phase = .granted p) : d.takeTask t .go = (d.proceed t p).1 := by
  unfold takeTask
  rw [hphase]

theorem takeTask_running (hphase : t.phase = .running) (outcome : Outcome) :
    d.takeTask t (.finish outcome) = (d.finish t outcome).1 := by
  unfold takeTask
  rw [hphase]

theorem takeTask_resting (hphase : t.phase = .resting) : d.takeTask t .rested = d.wake t := by
  unfold takeTask
  rw [hphase]

/-- What becomes of a task on its turn, if it does not wait afterwards. -/
theorem enabled_of_shifts (hn : (d.tasks.map Task.id).Nodup) (hs : d.tasks = front ++ t :: back)
    (cue : Cue) (ph : Phase) (hcue : cue ≠ .cut) (hphase : ph ≠ t.phase) (hwaits : ∀ p, ph ≠ .waiting p)
    (hshifts : ∃ l, (d.put front { t with phase := ph } back l).Shifts (d.takeTask t cue)) : d.Enabled t := by
  obtain ⟨l, hshifts⟩ := hshifts
  have hmem : { t with phase := ph } ∈ (d.put front { t with phase := ph } back l).tasks :=
    List.mem_append_right _ List.mem_cons_self
  obtain ⟨t', ht', hshift⟩ := exists_of_mem_left hshifts.tasks hmem
  have hsame : t' = { t with phase := ph } := by
    cases hshift with
    | same => rfl
    | granted hp => exact absurd hp (hwaits _)
  subst hsame
  obtain ⟨front', back', hs'⟩ := List.append_of_mem ht'
  refine ⟨cue, { t with phase := ph }, hcue, ?_, hphase, hwaits⟩
  rw [take_task (task?_split hn hs)]
  exact task?_split (hshifts.ids ▸ nodup_put hn hs rfl) hs'

/-- A task that goes into a phase in which it does not wait. -/
theorem enabled_of_setPhase (hn : (d.tasks.map Task.id).Nodup) (ht : t ∈ d.tasks) (cue : Cue) (ph : Phase)
    (hcue : cue ≠ .cut) (hphase : ph ≠ t.phase) (hwaits : ∀ p, ph ≠ .waiting p)
    (htake : ∃ l, d.takeTask t cue = { d.setPhase t.id ph with ledger := l }) : d.Enabled t := by
  obtain ⟨front, back, hs⟩ := List.append_of_mem ht
  obtain ⟨l, htake⟩ := htake
  refine enabled_of_shifts hn hs cue ph hcue hphase hwaits ⟨l, ?_⟩
  rw [htake, setPhase_put hn hs]
  exact .refl _

/-- A task that ends. -/
theorem enabled_of_conclude (hn : (d.tasks.map Task.id).Nodup) (ht : t ∈ d.tasks) (cue : Cue)
    (hcue : cue ≠ .cut) (hopen : t.phase.isEnded = false) (result : TaskEnd) (ending : Ending)
    (htake : d.takeTask t cue = (d.conclude t result ending).1) : d.Enabled t := by
  obtain ⟨front, back, hs⟩ := List.append_of_mem ht
  have hphase : .ended result ≠ t.phase := fun he => by
    rw [← he] at hopen
    cases hopen
  refine enabled_of_shifts hn hs cue (.ended result) hcue hphase (by simp) ?_
  rw [htake]
  exact ⟨_, shifts_conclude hn hs result ending⟩

/-- A permit that is not free is held by somebody. -/
theorem exists_holder (hlimit : 0 < p.limit d.limits) (hbusy : p.limit d.limits ≤ d.inUse p m) :
    ∃ u ∈ d.tasks, u.phase.holds p = true := by
  obtain ⟨u, hu, hholds⟩ := List.countP_pos_iff.1 (Nat.lt_of_lt_of_le hlimit hbusy)
  exact ⟨u, hu, (Bool.and_eq_true_iff.1 hholds).1⟩

section Progress

variable (h : d.Rationed) (hlimits : ∀ p : Permit, 0 < p.limit d.limits)

include h hlimits

/-- Whoever asks for a permit gets it, or somebody else who holds it is enabled. -/
theorem Rationed.exists_enabled_of_request (ht : t ∈ d.tasks) (hgo : d.takeTask t .go = d.request t p)
    (hphase : t.phase ≠ .granted p)
    (hholders : ∀ u ∈ d.tasks, u.phase.holds p = true → ∃ x ∈ d.tasks, d.Enabled x) :
    ∃ x ∈ d.tasks, d.Enabled x := by
  cases hfree : d.hasFree p t.move with
  | true =>
    refine ⟨t, ht, enabled_of_setPhase h.distinct ht .go (.granted p) (by simp) hphase.symm (by simp) ?_⟩
    rw [hgo, Dispatch.request, if_pos hfree]
    exact ⟨d.ledger, rfl⟩
  | false =>
    obtain ⟨u, hu, hholds⟩ := exists_holder (hlimits p) (hasFree_eq_false_iff.1 hfree)
    exact hholders u hu hholds

/-- Whoever waits for a permit waits for somebody who holds it. -/
theorem Rationed.exists_enabled_of_waiting (ht : t ∈ d.tasks) (hphase : t.phase = .waiting p)
    (hholders : ∀ u ∈ d.tasks, u.phase.holds p = true → ∃ x ∈ d.tasks, d.Enabled x) :
    ∃ x ∈ d.tasks, d.Enabled x := by
  obtain ⟨u, hu, hholds⟩ := exists_holder (hlimits p) (h.busy t ht p hphase)
  exact hholders u hu hholds

/-- Whoever holds a permit can go on, if those who hold the next one can. -/
theorem Rationed.exists_enabled_of_holds (hnext : p.next? = some q)
    (hholders : ∀ u ∈ d.tasks, u.phase.holds q = true → ∃ x ∈ d.tasks, d.Enabled x) (ht : t ∈ d.tasks)
    (hholds : t.phase.holds p = true) : ∃ x ∈ d.tasks, d.Enabled x := by
  rcases Phase.cases_of_holds hnext hholds with hphase | hphase | hmore
  · exact h.exists_enabled_of_waiting hlimits ht hphase hholders
  · refine h.exists_enabled_of_request hlimits ht ?_ ?_ hholders
    · rw [takeTask_granted hphase, proceed, hnext]
    · rw [hphase]
      rintro ⟨⟩
      cases p <;> cases hnext
  · exact hholders t ht hmore

omit hlimits in
/-- A task that holds a permit of its target has all permits, and its attempt starts or ends. -/
theorem Rationed.enabled_of_target (ht : t ∈ d.tasks) (hholds : t.phase.holds .target = true) :
    d.Enabled t := by
  rcases Phase.cases_of_holds_target hholds with hphase | hphase
  · by_cases hsignal : d.signal = .proceed
    · refine enabled_of_setPhase h.distinct ht .go .running (by simp) (by simp [hphase]) (by simp) ⟨d.ledger, ?_⟩
      rw [takeTask_granted hphase, proceed]
      simp only [Permit.next?, if_pos hsignal]
      rfl
    · refine enabled_of_conclude h.distinct ht .go (by simp) (by rw [hphase]; rfl) .cancelled .cancelled ?_
      rw [takeTask_granted hphase, proceed]
      simp only [Permit.next?, if_neg hsignal]
      rfl
  · exact enabled_of_conclude h.distinct ht (.finish (.answered (.ok ()))) (by simp) (by rw [hphase]; rfl)
      .succeeded .succeeded (takeTask_running hphase _)

/-- Permits are taken in one order, so whoever holds the first can go on or waits for one who has got
further. -/
theorem Rationed.exists_enabled_of_everywhere (ht : t ∈ d.tasks) (hholds : t.phase.holds .everywhere = true) :
    ∃ x ∈ d.tasks, d.Enabled x := by
  have htarget : ∀ u ∈ d.tasks, u.phase.holds .target = true → ∃ x ∈ d.tasks, d.Enabled x :=
    fun u hu hu' => ⟨u, hu, h.enabled_of_target hu hu'⟩
  have hsource : ∀ u ∈ d.tasks, u.phase.holds .source = true → ∃ x ∈ d.tasks, d.Enabled x :=
    fun _ => h.exists_enabled_of_holds hlimits rfl htarget
  exact h.exists_enabled_of_holds hlimits rfl hsource ht hholds

/-- As long as a task has not ended, some task can do more than queue up. -/
theorem Rationed.exists_enabled (hover : d.isOver = false) : ∃ t ∈ d.tasks, d.Enabled t := by
  obtain ⟨t, ht, hopen⟩ : ∃ t ∈ d.tasks, t.phase.isEnded = false := by
    simpa [isOver] using hover
  have heverywhere : ∀ u ∈ d.tasks, u.phase.holds .everywhere = true → ∃ x ∈ d.tasks, d.Enabled x :=
    fun u hu hu' => h.exists_enabled_of_everywhere hlimits hu hu'
  cases hphase : t.phase with
  | ready =>
    by_cases hsignal : d.signal = .proceed
    · refine h.exists_enabled_of_request hlimits ht ?_ (by simp [hphase]) heverywhere
      rw [takeTask_ready hphase, begin, if_pos hsignal]
    · refine ⟨t, ht, enabled_of_conclude h.distinct ht .go (by simp) hopen .cancelled .cancelled ?_⟩
      rw [takeTask_ready hphase, begin, if_neg hsignal]
      rfl
  | waiting p =>
    cases p with
    | everywhere => exact h.exists_enabled_of_waiting hlimits ht hphase heverywhere
    | _ => exact heverywhere t ht (by rw [hphase]; rfl)
  | granted p => exact heverywhere t ht (by rw [hphase]; cases p <;> rfl)
  | running => exact heverywhere t ht (by rw [hphase]; rfl)
  | resting =>
    refine ⟨t, ht, enabled_of_setPhase h.distinct ht .rested .ready (by simp) (by simp [hphase]) (by simp) ?_⟩
    exact ⟨_, takeTask_resting hphase⟩
  | ended result => rw [hphase] at hopen; cases hopen

end Progress

/-! ### Limits -/

/-- How many attempts are running for moves of a kind. -/
def running (d : Dispatch) (kind : Move → Bool) : Nat :=
  d.tasks.countP fun t => t.phase == .running && kind t.move

/-- A move of which nothing is known but its nodes. -/
def moveBetween (source target : NodeId) : Move :=
  { (default : Move) with source := { (default : Replica) with node := source }, targetNode := target }

/-- Whoever runs holds all permits. -/
theorem running_le_inUse {kind : Move → Bool} (h : ∀ a, kind a = p.shared a m) :
    d.running kind ≤ d.inUse p m := by
  refine List.countP_mono_left fun t _ ht => ?_
  obtain ⟨hphase, hkind⟩ : t.phase = .running ∧ kind t.move = true := by simpa using ht
  rw [hphase, ← h, hkind]
  rfl

theorem limits_take (hn : (d.tasks.map Task.id).Nodup) (turn : Turn) : (d.take turn).limits = d.limits := by
  rcases take_cases hn turn with heq | ⟨s, heq⟩ | ⟨front, t, back, -, t', l, -, hshifts⟩
  · rw [heq]
  · rw [heq]
  · exact hshifts.limits

theorem limits_takeAll (hn : (d.tasks.map Task.id).Nodup) (turns : List Turn) :
    (d.takeAll turns).limits = d.limits := by
  induction turns generalizing d with
  | nil => rfl
  | cons turn rest ih => exact (ih (nodup_take hn turn)).trans (limits_take hn turn)

/-- Whatever turns are taken from a dispatch of any moves, none of which has begun: no more attempts run at
once than the limits allow, in all, from one source and to one target; no supply of permits is overdrawn,
and a task that rests holds none of them; and as long as a task has not ended, some task can do more than
queue up. -/
theorem takeAll_permits (hn : (d.tasks.map Task.id).Nodup) (hready : ∀ t ∈ d.tasks, t.phase = .ready)
    (hlimits : ∀ p : Permit, 0 < p.limit d.limits) (turns : List Turn) :
    let d' := d.takeAll turns
    (d'.running fun _ => true) ≤ d.limits.concurrent ∧
    (∀ node, (d'.running fun m => m.source.node == node) ≤ d.limits.perSource) ∧
    (∀ node, (d'.running fun m => m.targetNode == node) ≤ d.limits.perTarget) ∧
    (∀ p m, d'.inUse p m ≤ p.limit d.limits) ∧
    (∀ t ∈ d'.tasks, t.phase = .resting → ∀ p, t.phase.holds p = false) ∧
    (d'.isOver = false → ∃ t ∈ d'.tasks, d'.Enabled t) := by
  intro d'
  have h : d'.Rationed := (Rationed.of_ready hn hready).takeAll turns
  have hsame : d'.limits = d.limits := limits_takeAll hn turns
  have hbounded : ∀ p m, d'.inUse p m ≤ p.limit d.limits := fun p m => hsame ▸ h.bounded p m
  -- Any move from a node will do for its supply of permits.
  have hrun : ∀ (p : Permit) m {kind : Move → Bool}, (∀ a, kind a = p.shared a m) →
      d'.running kind ≤ p.limit d.limits :=
    fun p m _ hkind => Nat.le_trans (running_le_inUse hkind) (hbounded p m)
  refine ⟨hrun .everywhere (moveBetween "" "") fun _ => rfl,
    fun node => hrun .source (moveBetween node "") fun _ => rfl,
    fun node => hrun .target (moveBetween "" node) fun _ => rfl, hbounded,
    fun t _ hphase p => by rw [hphase]; rfl, fun hover => ?_⟩
  exact h.exists_enabled (fun p => hsame ▸ hlimits p) hover

/-- Two nodes between which replicas go both ways, with one permit for each side of a node. -/
def crossing : Dispatch where
  limits := { DispatchLimits.standard with concurrent := 2, perSource := 1, perTarget := 1 }
  signal := .proceed
  ledger := .empty
  tasks := [⟨1, moveBetween "a" "b", 0, .ready⟩, ⟨2, moveBetween "b" "a", 0, .ready⟩,
    ⟨3, moveBetween "a" "a", 0, .ready⟩]
  queue := []

/-- Two tasks have got their permits for reading. -/
def crossingTurns : List Turn := [.task 1 .go, .task 2 .go, .task 3 .go, .task 2 .go, .task 1 .go]

/-- The third task waits for the others, and one of them can go on. -/
theorem takeAll_permits_crossing :
    (crossing.takeAll crossingTurns).tasks.map Task.phase =
      [.granted .source, .granted .source, .waiting .everywhere] ∧
    ∃ t ∈ (crossing.takeAll crossingTurns).tasks, (crossing.takeAll crossingTurns).Enabled t := by
  obtain ⟨-, -, -, -, -, hnext⟩ := takeAll_permits (d := crossing) (by decide) (by decide)
    (fun p => by cases p <;> decide) crossingTurns
  exact ⟨by decide, hnext (by decide)⟩

end Dispatch

end StorageTiering
