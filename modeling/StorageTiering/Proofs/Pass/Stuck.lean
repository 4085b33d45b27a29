import StorageTiering.Proofs.Pass.Moves
/-!
# Passes that schedule nothing

A pass schedules nothing exactly if no replica of a surplus type can be moved.

* `Offer.Suits` — an offer can take a replica, whatever has been scheduled beside it.
* `Pass.chooseTarget_eq_none_iff` — there is no destination exactly if no offer is a good target.
* `Pass.Movable` — a replica can be scheduled; `Pass.tryReplica_of_movable`,
  `Pass.tryReplica_of_not_movable` — what trying it comes to.
* `Pass.Stuck` — no replica that a pass over listed blocks would try can be scheduled.
* `Pass.moves_scheduleAll_iff` — such a pass schedules nothing, and no other.
* `Pass.hopeless_of_scheduleAll` — if nothing is pending either, no offer is a good target of any of them.
-/

namespace StorageTiering

/-- An offer can take a replica of a block, whatever has been scheduled beside it: its type is movable, it
is not where the replica is, its node has no other replica of the block, and it has room. -/
def Offer.Suits (o : Offer) (b : ListedBlock) (source : Replica) : Prop :=
  o.type.isMovable ∧ o.storage ≠ source.storage ∧ (o.node = source.node ∨ b.hosts o.node = false) ∧
    b.block.len ≤ o.remaining

namespace Pass

variable {p q : Pass} {b : ListedBlock} {source r : Replica} {o : Offer} {types : List StorageType}
  {d : Difference} {s : Progress} {blocks : List ListedBlock}

/-! ### Destinations -/

/-- Before anything is scheduled, the good targets are the offers that suit. -/
theorem isGoodTarget_start_iff (maxMoves : Nat) (inventory : Inventory) (suite : Suite) (l : Ledger) :
    (start maxMoves inventory suite l).isGoodTarget b source o ↔ o.Suits b source := by
  rw [isGoodTarget_iff, Offer.Suits]
  simp [start, freeOn, incomingTo]

theorem best?_eq_none_iff {offers : List Offer} : p.best? offers = none ↔ offers = [] := by
  cases offers with
  | nil => simp [best?]
  | cons first rest =>
    rw [best?]
    split
    · simp
    · split <;> simp

theorem mem_all_localities (locality : Locality) : locality ∈ Locality.all := by
  cases locality <;> decide

/-- A replica has no destination exactly if no offer of a wanted type is a good target. -/
theorem chooseTarget_eq_none_iff : p.chooseTarget b source types = none ↔
    ∀ o ∈ p.inventory.offers, o.type ∈ types → ¬p.isGoodTarget b source o := by
  simp only [chooseTarget, List.findSome?_eq_none_iff, best?_eq_none_iff, candidates,
    List.filter_eq_nil_iff, Inventory.ofType, List.mem_filter, Bool.and_eq_true, beq_iff_eq]
  constructor
  · intro h o ho htype hgood
    exact h (p.localityOf source o) (mem_all_localities _) o.type htype o ⟨ho, rfl⟩ ⟨rfl, hgood⟩
  · rintro h locality - type htype o ⟨ho, rfl⟩ ⟨-, hgood⟩
    exact h o ho htype hgood

/-! ### One replica -/

/-- The move of a replica to a storage of one of the types can be scheduled. -/
def Movable (p : Pass) (b : ListedBlock) (types : List StorageType) (source : Replica) : Prop :=
  (b.block.id, source.storage) ∉ p.committed ∧ p.ledger.holds b.block.id source.type types = false ∧
    ∃ o ∈ p.inventory.offers, o.type ∈ types ∧ p.isGoodTarget b source o

theorem tryReplica_of_movable (h : p.Movable b types source) :
    ∃ q target, p.tryReplica b source types = (q, .scheduled target) := by
  obtain ⟨hcommitted, hholds, o, ho, htype, hgood⟩ := h
  rw [tryReplica, if_neg (by simpa using hcommitted), if_neg (by simp [hholds])]
  cases hchosen : p.chooseTarget b source types with
  | none => exact absurd hgood (chooseTarget_eq_none_iff.1 hchosen o ho htype)
  | some chosen =>
    obtain ⟨hmem, -, -⟩ := chooseTarget_eq_some hchosen
    -- no key of the replica is taken, so none is refused
    have hfree : p.ledger.takes (moveTo b source chosen).key = false :=
      Bool.eq_false_iff.2 (List.any_eq_false.1 hholds chosen.type hmem)
    dsimp only
    rw [Ledger.insert, hfree, if_neg Bool.false_ne_true]
    exact ⟨_, _, rfl⟩

theorem tryReplica_of_not_movable (h : ¬p.Movable b types source) :
    ∃ a, p.tryReplica b source types = (p, a) ∧ ∀ target, a ≠ .scheduled target := by
  rw [tryReplica]
  split
  · exact ⟨_, rfl, fun target he => by cases he⟩
  · rename_i hcommitted
    split
    · exact ⟨_, rfl, fun target he => by cases he⟩
    · rename_i hholds
      have hnone : p.chooseTarget b source types = none := by
        refine chooseTarget_eq_none_iff.2 fun o ho htype hgood => h ⟨?_, ?_, o, ho, htype, hgood⟩
        · simpa using hcommitted
        · simpa using hholds
      rw [hnone]
      exact ⟨_, rfl, fun target he => by cases he⟩

/-! ### One block -/

theorem Progress.moves_le_step (b : ListedBlock) (s : Progress) (r : Replica) :
    s.moves ≤ (Progress.step b s r).moves := by
  rw [Progress.step]
  split
  · exact Nat.le_refl _
  · split
    · exact Nat.le_succ _
    · exact Nat.le_refl _
    · exact Nat.le_refl _

theorem Progress.moves_le_foldl (b : ListedBlock) (replicas : List Replica) (s : Progress) :
    s.moves ≤ (replicas.foldl (Progress.step b) s).moves := by
  induction replicas generalizing s with
  | nil => exact Nat.le_refl _
  | cons r rest ih => exact Nat.le_trans (moves_le_step b s r) (ih _)

/-- A replica of a surplus type that can be scheduled is. -/
theorem Progress.step_of_movable (hsurplus : r.type ∈ s.difference.surplus)
    (h : s.pass.Movable b s.difference.missing r) : (Progress.step b s r).moves = s.moves + 1 := by
  obtain ⟨q, target, htry⟩ := tryReplica_of_movable h
  obtain ⟨-, -, o, -, htype, -⟩ := h
  have hopen : (s.difference.missing.isEmpty || !s.difference.surplus.contains r.type) = false := by
    simp [List.ne_nil_of_mem htype, hsurplus]
  rw [Progress.step, hopen, htry]
  rfl

/-- Any other replica leaves the pass and the difference as they were. -/
theorem Progress.step_of_not_movable
    (h : r.type ∈ s.difference.surplus → ¬s.pass.Movable b s.difference.missing r) :
    ∃ pendingSeen, Progress.step b s r = { s with pendingSeen := pendingSeen } := by
  rw [Progress.step]
  split
  · exact ⟨s.pendingSeen, rfl⟩
  · rename_i hopen
    have hsurplus : r.type ∈ s.difference.surplus := by
      have := (not_or.1 (Bool.or_eq_true _ _ ▸ hopen)).2
      simpa using this
    obtain ⟨a, htry, hne⟩ := tryReplica_of_not_movable (h hsurplus)
    rw [htry]
    cases a with
    | scheduled target => exact absurd rfl (hne target)
    | noTarget => exact ⟨s.pendingSeen, rfl⟩
    | committed => exact ⟨true, rfl⟩
    | alreadyPending => exact ⟨true, rfl⟩

/-- Trying replicas schedules nothing exactly if none of them can be scheduled. -/
theorem Progress.moves_foldl_iff (b : ListedBlock) (replicas : List Replica) (s : Progress) :
    (replicas.foldl (Progress.step b) s).moves = s.moves ↔ ∀ r ∈ replicas,
      r.type ∈ s.difference.surplus → ¬s.pass.Movable b s.difference.missing r := by
  induction replicas generalizing s with
  | nil => simp
  | cons r rest ih =>
    rw [List.foldl_cons, List.forall_mem_cons]
    by_cases hr : r.type ∈ s.difference.surplus → ¬s.pass.Movable b s.difference.missing r
    · obtain ⟨pendingSeen, hstep⟩ := step_of_not_movable hr
      rw [hstep, ih]
      exact (and_iff_right hr).symm
    · obtain ⟨hsurplus, hmovable⟩ := Classical.not_imp.1 hr
      have hmore := step_of_movable hsurplus (not_not.1 hmovable)
      have hle := moves_le_foldl b rest (Progress.step b s r)
      exact ⟨fun hsame => by omega, fun hall => absurd hall.1 hr⟩

theorem Progress.foldl_of_not_movable {replicas : List Replica} (h : ∀ r ∈ replicas,
    r.type ∈ s.difference.surplus → ¬s.pass.Movable b s.difference.missing r) :
    ∃ pendingSeen, replicas.foldl (Progress.step b) s = { s with pendingSeen := pendingSeen } := by
  induction replicas generalizing s with
  | nil => exact ⟨s.pendingSeen, rfl⟩
  | cons r rest ih =>
    obtain ⟨hr, hrest⟩ := List.forall_mem_cons.1 h
    obtain ⟨pendingSeen, hstep⟩ := step_of_not_movable hr
    rw [List.foldl_cons, hstep]
    exact ih hrest

theorem Progress.moves_verdict (s : Progress) : s.verdict.moves = s.moves := by
  rw [verdict]
  split
  · rfl
  · split <;> simp only [Verdict.moves] <;> omega

/-- No replica of a block is of a surplus type and can be scheduled. -/
def Blocked (p : Pass) (b : ListedBlock) : Prop :=
  b.Valid → ∀ d, b.difference? p.suite = some d → ∀ source ∈ b.replicas, source.type ∈ d.surplus →
    ¬p.Movable b d.missing source

/-- A block with nothing to move is blocked. -/
theorem not_movable_of_isSettled (h : d.isSettled) (hsurplus : source.type ∈ d.surplus) :
    ¬p.Movable b d.missing source := by
  rintro ⟨-, -, o, -, hmissing, -⟩
  rcases Bool.or_eq_true _ _ ▸ h with hempty | hempty
  · exact List.ne_nil_of_mem hmissing (List.isEmpty_iff.1 hempty)
  · exact List.ne_nil_of_mem hsurplus (List.isEmpty_iff.1 hempty)

theorem blocked_iff {needed : List StorageType} (hvalid : b.Valid)
    (hresolve : p.suite.resolve b.policy b.layout = .ok (.required needed)) :
    p.Blocked b ↔ ∀ source ∈ b.replicas, source.type ∈ (Difference.between needed b.types).surplus →
      ¬p.Movable b (Difference.between needed b.types).missing source := by
  have hd : b.difference? p.suite = some (.between needed b.types) := by
    rw [ListedBlock.difference?, hresolve]
  simp only [Blocked, imp_iff_right hvalid, hd, Option.some.injEq, forall_eq']

/-- Below its limit a pass schedules no move of a block exactly if the block is blocked, and then it is
what it was. -/
theorem judge_below (hcap : p.report.moves < p.maxMoves) (b : ListedBlock) :
    ((p.judge b).2.moves = 0 ↔ p.Blocked b) ∧ (p.Blocked b → (p.judge b).1 = p) := by
  have hnone (h : b.difference? p.suite = none) : p.Blocked b := by
    intro _ d hd
    cases h.symm.trans hd
  rw [judge]
  split
  · rename_i fault hfault
    refine ⟨⟨fun _ hvalid => ?_, fun _ => rfl⟩, fun _ => rfl⟩
    cases hfault.symm.trans hvalid
  · rename_i hvalid
    split
    · rename_i fault hresolve
      exact ⟨⟨fun _ => hnone (by rw [ListedBlock.difference?, hresolve]), fun _ => rfl⟩, fun _ => rfl⟩
    · rename_i policy hresolve
      exact ⟨⟨fun _ => hnone (by rw [ListedBlock.difference?, hresolve]), fun _ => rfl⟩, fun _ => rfl⟩
    · rename_i needed hresolve
      rw [blocked_iff hvalid hresolve]
      dsimp only
      split
      · rename_i hsettled
        exact ⟨⟨fun _ _ _ hsurplus => not_movable_of_isSettled hsettled hsurplus, fun _ => rfl⟩,
          fun _ => rfl⟩
      · rw [if_neg (Nat.not_le.2 hcap)]
        refine ⟨?_, fun h => ?_⟩
        · show (p.progress b _).verdict.moves = 0 ↔ _
          rw [Progress.moves_verdict]
          exact Progress.moves_foldl_iff b b.replicas ⟨p, .between needed b.types, 0, false⟩
        · obtain ⟨pendingSeen, hfold⟩ := Progress.foldl_of_not_movable
            (s := ⟨p, .between needed b.types, 0, false⟩) h
          exact congrArg Progress.pass hfold

/-! ### Many blocks -/

/-- No replica that a pass over listed blocks would try can be scheduled. -/
def Stuck (p : Pass) (blocks : List ListedBlock) : Prop :=
  ∀ b, ListedBlock.examined? blocks b.block.id = some b → b.block.id ∉ p.seen → p.Blocked b

theorem moves_scheduleBlock_iff (hcap : p.report.moves < p.maxMoves) (b : ListedBlock) :
    (p.scheduleBlock b).1.report.moves = p.report.moves ↔ (b.block.id ∉ p.seen → p.Blocked b) := by
  by_cases hseen : b.block.id ∈ p.seen
  · rw [scheduleBlock_of_seen hseen]
    exact ⟨fun _ hn => absurd hseen hn, fun _ => rfl⟩
  · obtain ⟨ms, hj⟩ := judges p b
    rw [scheduleBlock, if_neg (by simpa using hseen), imp_iff_right hseen, ← (judge_below hcap b).1]
    dsimp only
    rw [ScanReport.moves_count, hj.uncounted.2]
    exact Nat.add_eq_left

/-- A blocked block is noted and counted. -/
theorem scheduleBlock_of_blocked (hcap : p.report.moves < p.maxMoves)
    (h : b.block.id ∉ p.seen → p.Blocked b) :
    ∃ seen report, (p.scheduleBlock b).1 = { p with seen := seen, report := report } := by
  by_cases hseen : b.block.id ∈ p.seen
  · rw [scheduleBlock_of_seen hseen]
    exact ⟨p.seen, p.report, rfl⟩
  · rw [scheduleBlock, if_neg (by simpa using hseen)]
    dsimp only
    rw [(judge_below hcap b).2 (h hseen)]
    exact ⟨_, _, rfl⟩

/-- Of the records behind the first one, those of other blocks are examined. -/
theorem stuck_cons_iff (hcap : p.report.moves < p.maxMoves) (hb : b.block.id ∉ p.seen → p.Blocked b) :
    (p.scheduleBlock b).1.Stuck blocks ↔ p.Stuck (b :: blocks) := by
  obtain ⟨ms, hsurvey⟩ := exists_surveys_block p b
  have hseen := hsurvey.seen
  simp only [List.mem_singleton, exists_eq_left] at hseen
  obtain ⟨seen, report, hq⟩ := scheduleBlock_of_blocked hcap hb
  simp only [Stuck, hseen, not_or]
  rw [hq]
  constructor
  · intro h b' hex hnew
    by_cases hid : b.block.id = b'.block.id
    · obtain rfl : b = b' := by
        rw [← hid, ListedBlock.examined?_cons_self] at hex
        exact Option.some.inj hex
      exact hb hnew
    · exact h b' (ListedBlock.examined?_cons_of_ne hid ▸ hex) ⟨hnew, hid⟩
  · rintro h b' hex ⟨hnew, hid⟩
    exact h b' ((ListedBlock.examined?_cons_of_ne hid).trans hex) hnew

theorem moves_le_scheduleAll (p : Pass) (blocks : List ListedBlock) :
    p.report.moves ≤ (p.scheduleAll blocks).report.moves := by
  obtain ⟨ms, hs⟩ := exists_surveys p blocks
  rw [hs.moves]
  exact Nat.le_add_right _ _

/-- Below its limit a pass over listed blocks schedules nothing exactly if it is stuck. -/
theorem moves_scheduleAll_iff (hcap : p.report.moves < p.maxMoves) (blocks : List ListedBlock) :
    (p.scheduleAll blocks).report.moves = p.report.moves ↔ p.Stuck blocks := by
  induction blocks generalizing p with
  | nil => exact ⟨fun _ b hex _ => (nomatch hex), fun _ => rfl⟩
  | cons b rest ih =>
    show ((p.scheduleBlock b).1.scheduleAll rest).report.moves = p.report.moves ↔ _
    have hfirst := moves_le_scheduleAll p [b]
    have hrest := moves_le_scheduleAll (p.scheduleBlock b).1 rest
    by_cases hb : b.block.id ∉ p.seen → p.Blocked b
    · have hsame := (moves_scheduleBlock_iff hcap b).2 hb
      rw [← stuck_cons_iff hcap hb, ← hsame]
      refine ih ?_
      obtain ⟨seen, report, hq⟩ := scheduleBlock_of_blocked hcap hb
      rw [hsame, hq]
      exact hcap
    · refine ⟨fun hsame => absurd ((moves_scheduleBlock_iff hcap b).1 ?_) hb, fun hstuck => absurd ?_ hb⟩
      · exact Nat.le_antisymm (hsame ▸ hrest) hfirst
      · exact hstuck b (ListedBlock.examined?_cons_self b rest)

/-! ### Nothing scheduled and nothing pending -/

/-- A replica of which a move is committed or live is remembered. -/
theorem Progress.step_of_known (hmissing : s.difference.missing ≠ []) (hsurplus : r.type ∈ s.difference.surplus)
    (hknown : (b.block.id, r.storage) ∈ s.pass.committed ∨
      s.pass.ledger.holds b.block.id r.type s.difference.missing) :
    Progress.step b s r = { s with pendingSeen := true } := by
  have hopen : (s.difference.missing.isEmpty || !s.difference.surplus.contains r.type) = false := by
    simp [hmissing, hsurplus]
  rw [Progress.step, hopen, tryReplica]
  by_cases hcommitted : s.pass.committed.contains (b.block.id, r.storage)
  · rw [if_pos hcommitted]
    rfl
  · rw [if_neg hcommitted, if_pos (hknown.resolve_left (by simpa using hcommitted))]
    rfl

theorem Progress.pendingSeen_foldl (replicas : List Replica) (h : s.pendingSeen) :
    (replicas.foldl (Progress.step b) s).pendingSeen := by
  induction replicas generalizing s with
  | nil => exact h
  | cons r rest ih =>
    refine ih ?_
    rw [step]
    split
    · exact h
    · split
      · exact h
      · exact h
      · rfl

/-- Replicas that are tried without a move scheduled and without one remembered have no destination. -/
theorem Progress.not_isGoodTarget {replicas : List Replica} (h : ∀ r ∈ replicas,
      r.type ∈ s.difference.surplus → ¬s.pass.Movable b s.difference.missing r)
    (hpending : (replicas.foldl (Progress.step b) s).pendingSeen = false) (hr : r ∈ replicas)
    (hsurplus : r.type ∈ s.difference.surplus) (ho : o ∈ s.pass.inventory.offers)
    (hmissing : o.type ∈ s.difference.missing) : ¬s.pass.isGoodTarget b r o := by
  intro hgood
  -- what comes before the replica changes nothing but the note
  obtain ⟨front, back, rfl⟩ := List.append_of_mem hr
  obtain ⟨pendingSeen, hfront⟩ := foldl_of_not_movable fun x hx => h x (List.mem_append_left _ hx)
  have hknown : (b.block.id, r.storage) ∈ s.pass.committed ∨
      s.pass.ledger.holds b.block.id r.type s.difference.missing := by
    by_contra hnot
    obtain ⟨hcommitted, hholds⟩ := not_or.1 hnot
    exact h r hr hsurplus ⟨hcommitted, Bool.eq_false_iff.2 hholds, o, ho, hmissing, hgood⟩
  rw [List.foldl_append, List.foldl_cons, hfront,
    step_of_known (s := { s with pendingSeen := pendingSeen }) (List.ne_nil_of_mem hmissing) hsurplus hknown,
    pendingSeen_foldl back rfl] at hpending
  cases hpending

/-- No offer of a missing type is a good target of any replica of a surplus type. -/
def Hopeless (p : Pass) (b : ListedBlock) : Prop :=
  b.Valid → ∀ d, b.difference? p.suite = some d → ∀ source ∈ b.replicas, source.type ∈ d.surplus →
    ∀ o ∈ p.inventory.offers, o.type ∈ d.missing → ¬p.isGoodTarget b source o

/-- Below its limit a pass tries the replicas of a block without a fault that has something to move. -/
theorem judge_of_open (hvalid : b.Valid) (hd : b.difference? p.suite = some d) (hopen : ¬d.isSettled)
    (hcap : p.report.moves < p.maxMoves) : p.judge b = p.scheduleMoves b d := by
  obtain ⟨needed, hresolve, rfl⟩ := ListedBlock.difference?_eq_some hd
  rw [judge, show b.fault? = none from hvalid, hresolve]
  dsimp only
  rw [if_neg hopen, if_neg (Nat.not_le.2 hcap)]

theorem hopeless_of_judge (hcap : p.report.moves < p.maxMoves) (hblocked : p.Blocked b)
    (hpending : (p.judge b).2 ≠ .alreadyPending) : p.Hopeless b := by
  intro hvalid d hd source hsource hsurplus o ho hmissing
  obtain ⟨needed, hresolve, rfl⟩ := ListedBlock.difference?_eq_some hd
  have hmovable := (blocked_iff hvalid hresolve).1 hblocked
  have hopen : ¬(Difference.between needed b.types).isSettled := by
    simp [Difference.isSettled, List.ne_nil_of_mem hmissing, List.ne_nil_of_mem hsurplus]
  have hverdict : (p.judge b).2 = (p.progress b (.between needed b.types)).verdict :=
    congrArg Prod.snd (judge_of_open hvalid hd hopen hcap)
  have hmoves : (p.progress b (.between needed b.types)).moves = 0 :=
    (Progress.moves_foldl_iff b b.replicas ⟨p, .between needed b.types, 0, false⟩).2 hmovable
  have hseen : (p.progress b (.between needed b.types)).pendingSeen = false := by
    rw [hverdict, Progress.verdict, hmoves, if_neg (Nat.lt_irrefl 0)] at hpending
    exact Bool.eq_false_iff.2 fun hseen => hpending (if_pos hseen)
  exact Progress.not_isGoodTarget (s := ⟨p, .between needed b.types, 0, false⟩) hmovable hseen hsource
    hsurplus ho hmissing

theorem pending_le_scheduleBlock (p : Pass) (b : ListedBlock) :
    p.report.pending ≤ (p.scheduleBlock b).1.report.pending := by
  by_cases hseen : b.block.id ∈ p.seen
  · rw [scheduleBlock_of_seen hseen]
  · obtain ⟨ms, q, v, hj, he⟩ := scheduleBlock_of_new hseen
    rw [he, ← hj.uncounted.2]
    cases v <;> first | exact Nat.le_refl _ | exact Nat.le_succ _

theorem pending_le_scheduleAll (p : Pass) (blocks : List ListedBlock) :
    p.report.pending ≤ (p.scheduleAll blocks).report.pending := by
  induction blocks generalizing p with
  | nil => exact Nat.le_refl _
  | cons b rest ih => exact Nat.le_trans (pending_le_scheduleBlock p b) (ih (p.scheduleBlock b).1)

/-- A pass below its limit that schedules nothing and finds nothing pending has examined hopeless blocks
only. -/
theorem hopeless_of_scheduleAll (hcap : p.report.moves < p.maxMoves)
    (hmoves : (p.scheduleAll blocks).report.moves = p.report.moves)
    (hpending : (p.scheduleAll blocks).report.pending = p.report.pending)
    (hb : ListedBlock.examined? blocks b.block.id = some b) (hnew : b.block.id ∉ p.seen) : p.Hopeless b := by
  have hstuck := (moves_scheduleAll_iff hcap blocks).1 hmoves
  induction blocks generalizing p with
  | nil => cases hb
  | cons first rest ih =>
    have hfirst : first.block.id ∉ p.seen → p.Blocked first :=
      hstuck first (ListedBlock.examined?_cons_self first rest)
    have hle : p.report.pending ≤ (p.scheduleBlock first).1.report.pending := pending_le_scheduleBlock p first
    have hle' : (p.scheduleBlock first).1.report.pending ≤ p.report.pending :=
      hpending ▸ pending_le_scheduleAll (p.scheduleBlock first).1 rest
    by_cases hid : first.block.id = b.block.id
    · obtain rfl : first = b := by
        rw [← hid, ListedBlock.examined?_cons_self] at hb
        exact Option.some.inj hb
      refine hopeless_of_judge hcap (hfirst hnew) fun hverdict => ?_
      obtain ⟨ms, hj⟩ := judges p first
      rw [scheduleBlock, if_neg (by simpa using hnew)] at hle'
      dsimp only at hle'
      rw [hverdict, hj.uncounted.2] at hle'
      exact absurd hle' (Nat.not_succ_le_self _)
    · have hsame := (moves_scheduleBlock_iff hcap first).2 hfirst
      obtain ⟨ms, hsurvey⟩ := exists_surveys_block p first
      have hnew' : b.block.id ∉ (p.scheduleBlock first).1.seen := fun hseen => by
        obtain ⟨x, hx, hxid⟩ := ((hsurvey.seen _).1 hseen).resolve_left hnew
        exact hid (by rw [← hxid, List.mem_singleton.1 hx])
      have hmoves' : ((p.scheduleBlock first).1.scheduleAll rest).report.moves =
          (p.scheduleBlock first).1.report.moves := hmoves.trans hsame.symm
      have hpending' : ((p.scheduleBlock first).1.scheduleAll rest).report.pending =
          (p.scheduleBlock first).1.report.pending := hpending.trans (Nat.le_antisymm hle hle')
      have hstuck' := (stuck_cons_iff hcap hfirst).2 hstuck
      rw [ListedBlock.examined?_cons_of_ne hid] at hb
      obtain ⟨seen, report, hq⟩ := scheduleBlock_of_blocked hcap hfirst
      rw [hq] at hsame hnew' hmoves' hpending' hstuck'
      exact ih (p := { p with seen := seen, report := report }) (hsame ▸ hcap) hmoves' hpending' hb hnew' hstuck'

end Pass

end StorageTiering
