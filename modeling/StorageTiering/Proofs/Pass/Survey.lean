import StorageTiering.Proofs.Pass.Booking
import StorageTiering.Proofs.Shortfall
/-!
# What a pass makes of listed blocks

* `Pass.Advanced` — the moves of one block, with what they leave of its difference;
  `Pass.exists_advanced` — what trying all its replicas comes to.
* `Pass.Judges` — the verdict on a block that has not been seen before.
* `Pass.Surveys` — what a pass over many blocks books and counts; `Pass.exists_surveys`.
* `Pass.pending_scheduleAll`, `Pass.needingMove_scheduleAll` — two counters of a pass.
-/

namespace StorageTiering

namespace Verdict

/-- The moves that a verdict tells of. -/
def moves : Verdict → Nat
  | .scheduled moves _ => moves
  | _ => 0

/-- Whether a verdict says that a block violates its policy. -/
def isViolation : Verdict → Bool
  | .satisfied | .untouched _ | .duplicate => false
  | _ => true

end Verdict

namespace ScanReport

theorem moves_count (r : ScanReport) (block : BlockId) (v : Verdict) :
    (r.count block v).moves = r.moves + v.moves := by
  cases v <;> rfl

theorem needingMove_count (r : ScanReport) (block : BlockId) (v : Verdict) :
    (r.count block v).needingMove = r.needingMove + if v.isViolation then 1 else 0 := by
  cases v <;> rfl

theorem pending_count (r : ScanReport) (block : BlockId) {v : Verdict} (h : v ≠ .alreadyPending) :
    (r.count block v).pending = r.pending := by
  cases v with
  | alreadyPending => exact absurd rfl h
  | _ => rfl

end ScanReport

namespace Pass

variable {p q : Pass} {b : ListedBlock} {d : Difference} {r : Replica} {ms : List Move}
  {blocks : List ListedBlock} {id : BlockId}

/-- A pass knows a block of which a replica is committed or a move is live. -/
def Knows (p : Pass) (id : BlockId) : Prop :=
  (∃ storage, (id, storage) ∈ p.committed) ∨
    ∃ sourceType targetType, p.ledger.takes ⟨id, sourceType, targetType⟩

/-! ### One block -/

/-- What a pass has scheduled for one block: moves from types in surplus to missing types, and what
they leave of the difference. -/
structure Advanced (p : Pass) (b : ListedBlock) (d : Difference) (s : Progress) (ms : List Move) :
    Prop where
  schedules : Schedules (fun b' source o => b' = b ∧ source ∈ b.replicas ∧
    source.type ∈ d.surplus ∧ o.type ∈ d.missing) p ms s.pass
  moves : s.moves = ms.length
  missing : (ms.map Move.targetType ++ s.difference.missing).Perm d.missing
  surplus : (ms.map (fun m => m.source.type) ++ s.difference.surplus).Perm d.surplus
  pending : s.pendingSeen → ms = [] → p.Knows b.block.id
  uncounted : s.pass.seen = p.seen ∧ s.pass.report = p.report

theorem Advanced.step {s : Progress} (h : p.Advanced b d s ms) (hr : r ∈ b.replicas) :
    ∃ ms', p.Advanced b d (Progress.step b s r) ms' := by
  rw [Progress.step]
  split
  · exact ⟨ms, h⟩
  · rename_i hopen
    have hsurplus : r.type ∈ s.difference.surplus := by
      have := (not_or.1 (Bool.or_eq_true _ _ ▸ hopen)).2
      simpa using this
    have htries := tries s.pass b r s.difference.missing
    generalize s.pass.tryReplica b r s.difference.missing = result at htries
    cases htries with
    | @booked o ledger id hmissing hbooks =>
      have hm : o.type ∈ d.missing := h.missing.mem_iff.1 (List.mem_append_right _ hmissing)
      have hs : r.type ∈ d.surplus := h.surplus.mem_iff.1 (List.mem_append_right _ hsurplus)
      refine ⟨moveTo b r o :: ms, h.schedules.book ⟨rfl, hr, hs, hm⟩ hbooks, ?_, ?_, ?_, ?_,
        h.uncounted⟩
      · exact congrArg (· + 1) h.moves
      · exact (List.perm_middle.symm.trans
          ((List.perm_cons_erase hmissing).symm.append_left _)).trans h.missing
      · exact (List.perm_middle.symm.trans
          ((List.perm_cons_erase hsurplus).symm.append_left _)).trans h.surplus
      · exact fun _ hn => nomatch hn
    | committed hc =>
      refine ⟨ms, h.schedules, h.moves, h.missing, h.surplus, fun _ hn => .inl ⟨r.storage, ?_⟩,
        h.uncounted⟩
      rw [← (h.schedules.eq_of_nil hn).1]
      exact hc
    | @pending type ht =>
      refine ⟨ms, h.schedules, h.moves, h.missing, h.surplus, fun _ hn => .inr ⟨r.type, type, ?_⟩,
        h.uncounted⟩
      rw [← (h.schedules.eq_of_nil hn).2]
      exact ht
    | noTarget =>
      exact ⟨ms, h.schedules, h.moves, h.missing, h.surplus, h.pending, h.uncounted⟩

/-- Trying all replicas of a block comes to such moves. -/
theorem exists_advanced (p : Pass) (b : ListedBlock) (d : Difference) :
    ∃ ms, p.Advanced b d (p.progress b d) ms := by
  have hfold : ∀ (replicas : List Replica) {s : Progress} {ms : List Move},
      (∀ r ∈ replicas, r ∈ b.replicas) → p.Advanced b d s ms →
        ∃ ms', p.Advanced b d (replicas.foldl (Progress.step b) s) ms' := by
    intro replicas
    induction replicas with
    | nil => exact fun _ h => ⟨_, h⟩
    | cons r rest ih =>
      intro s ms hmem h
      obtain ⟨ms', h'⟩ := h.step (hmem r List.mem_cons_self)
      exact ih (fun x hx => hmem x (List.mem_cons_of_mem _ hx)) h'
  have hstart : p.Advanced b d ⟨p, d, 0, false⟩ [] :=
    ⟨.nothing, rfl, .refl _, .refl _, (fun hn => nomatch hn), rfl, rfl⟩
  exact hfold b.replicas (fun _ hr => hr) hstart

/-- The verdict on a block that has not been seen before, and the moves that come of it. -/
inductive Judges (p : Pass) (b : ListedBlock) : List Move → Pass → Verdict → Prop
  | faulty {fault : ListingFault} (h : b.fault? = some fault) : Judges p b [] p (.faulty fault)
  | ungoverned {fault : PolicyFault} (h : p.suite.resolve b.policy b.layout = .error fault) :
      Judges p b [] p (.ungoverned fault)
  | untouched {policy : String} (hv : b.Valid)
      (h : p.suite.resolve b.policy b.layout = .ok (.untouched policy)) :
      Judges p b [] p (.untouched policy)
  | satisfied {types : List StorageType} (hv : b.Valid)
      (h : p.suite.resolve b.policy b.layout = .ok (.required types))
      (hs : (Difference.between types b.types).isSettled) : Judges p b [] p .satisfied
  | deferred {types : List StorageType} (h : p.suite.resolve b.policy b.layout = .ok (.required types))
      (hs : ¬(Difference.between types b.types).isSettled) : Judges p b [] p .deferred
  | tried {types : List StorageType} {s : Progress} {ms : List Move} (hv : b.Valid)
      (h : p.suite.resolve b.policy b.layout = .ok (.required types))
      (hs : ¬(Difference.between types b.types).isSettled)
      (ha : p.Advanced b (.between types b.types) s ms) : Judges p b ms s.pass s.verdict

theorem judges (p : Pass) (b : ListedBlock) : ∃ ms, p.Judges b ms (p.judge b).1 (p.judge b).2 := by
  rw [judge]
  split
  · rename_i fault hf
    exact ⟨[], .faulty hf⟩
  · rename_i hv
    split
    · rename_i fault hr
      exact ⟨[], .ungoverned hr⟩
    · rename_i policy hr
      exact ⟨[], .untouched hv hr⟩
    · rename_i types hr
      dsimp only
      split
      · rename_i hs
        exact ⟨[], .satisfied hv hr hs⟩
      · rename_i hs
        split
        · exact ⟨[], .deferred hr hs⟩
        · obtain ⟨ms, ha⟩ := exists_advanced p b (.between types b.types)
          exact ⟨ms, .tried hv hr hs ha⟩

namespace Judges

variable {v : Verdict}

theorem uncounted (h : p.Judges b ms q v) : q.seen = p.seen ∧ q.report = p.report := by
  cases h with
  | tried _ _ _ ha => exact ha.uncounted
  | _ => exact ⟨rfl, rfl⟩

/-- What is booked for a block takes a replica from a type in surplus to a missing type. -/
theorem schedules (h : p.Judges b ms q v) :
    Schedules (fun b' source o => b' = b ∧ source ∈ b.replicas ∧ b.Valid ∧
      ∃ d, b.difference? p.suite = some d ∧ source.type ∈ d.surplus ∧ o.type ∈ d.missing) p ms q := by
  cases h with
  | tried hv hr _ ha =>
    refine ha.schedules.mono fun hg => ⟨hg.1, hg.2.1, hv, _, ?_, hg.2.2.1, hg.2.2.2⟩
    rw [ListedBlock.difference?, hr]
  | _ => exact .nothing

theorem moves (h : p.Judges b ms q v) : v.moves = ms.length := by
  cases h with
  | @tried _ s _ _ _ _ ha =>
    rw [Progress.verdict, ← ha.moves]
    split
    · rfl
    · split <;> simp only [Verdict.moves] <;> omega
  | _ => rfl

/-- A block is counted as pending only if the pass knew it before. -/
theorem pending (h : p.Judges b ms q v) (hv : v = .alreadyPending) : p.Knows b.block.id := by
  cases h with
  | @tried _ s _ _ _ _ ha =>
    rw [Progress.verdict] at hv
    split at hv
    · cases hv
    · rename_i hmoves
      split at hv
      · rename_i hseen
        refine ha.pending hseen (List.length_eq_zero_iff.1 ?_)
        rw [← ha.moves]
        omega
      · cases hv
  | _ => cases hv

/-- A block satisfies its policy, or stands outside of it, exactly if it is settled. -/
theorem settled_iff (h : p.Judges b ms q v) : v.isViolation = false ↔ b.Settled p.suite := by
  cases h with
  | faulty hf => simp [Verdict.isViolation, ListedBlock.Settled, ListedBlock.Valid, hf]
  | ungoverned hr => simp [Verdict.isViolation, ListedBlock.Settled, hr]
  | untouched hv hr => simp [Verdict.isViolation, ListedBlock.Settled, hv, hr]
  | satisfied hv hr hs => simp [Verdict.isViolation, ListedBlock.Settled, hv, hr, hs]
  | deferred hr hs => simp [Verdict.isViolation, ListedBlock.Settled, hr, hs]
  | @tried _ s _ hv hr hs ha =>
    have hviolation : s.verdict.isViolation := by
      rw [Progress.verdict]
      split
      · rfl
      · split <;> rfl
    simp [hviolation, ListedBlock.Settled, hr, hs]

theorem aims (h : p.Judges b ms q v) : b.Aims p.suite ms := by
  have hown : Move.ofBlock b.block.id ms = ms := by
    refine Move.ofBlock_eq_self fun m hm => ?_
    obtain ⟨b', source, o, rfl, hg, -⟩ := h.schedules.offered m hm
    rw [hg.1]
    rfl
  rw [ListedBlock.Aims, hown]
  cases h with
  | tried hv hr hs ha =>
    refine .inr ⟨_, by rw [ListedBlock.difference?, hr], ?_, ?_⟩
    · exact (List.sublist_append_left _ _).subperm.trans ha.missing.subperm
    · exact (List.sublist_append_left _ _).subperm.trans ha.surplus.subperm
  | _ => exact .inl rfl

end Judges

theorem scheduleBlock_of_seen (h : b.block.id ∈ p.seen) : p.scheduleBlock b = (p, .duplicate) := by
  rw [scheduleBlock, if_pos (by simpa using h)]

/-- A block that has not been seen is judged, noted and counted. -/
theorem scheduleBlock_of_new (h : b.block.id ∉ p.seen) : ∃ ms q verdict, p.Judges b ms q verdict ∧
    p.scheduleBlock b = ({ q with
      seen := b.block.id :: q.seen, report := q.report.count b.block.id verdict }, verdict) := by
  obtain ⟨ms, hj⟩ := judges p b
  refine ⟨ms, _, _, hj, ?_⟩
  rw [scheduleBlock, if_neg (by simpa using h)]

/-! ### Many blocks -/

/-- What a pass over listed blocks books and counts. The moves of each block aim at its policy, if no
two records are of one block. -/
structure Surveys (p : Pass) (blocks : List ListedBlock) (ms : List Move) (q : Pass) : Prop where
  schedules : Schedules (fun b source o => b ∈ blocks ∧ source ∈ b.replicas ∧ b.Valid ∧
    ∃ d, b.difference? p.suite = some d ∧ source.type ∈ d.surplus ∧ o.type ∈ d.missing) p ms q
  seen : ∀ id, id ∈ q.seen ↔ id ∈ p.seen ∨ ∃ b ∈ blocks, b.block.id = id
  moves : q.report.moves = p.report.moves + ms.length
  fresh : ∀ m ∈ ms, m.block.id ∉ p.seen
  aims : (∀ b ∈ blocks, ∀ b' ∈ blocks, b.block.id = b'.block.id → b = b') →
    ∀ b ∈ blocks, b.Aims p.suite ms

theorem exists_surveys_block (p : Pass) (b : ListedBlock) :
    ∃ ms, p.Surveys [b] ms (p.scheduleBlock b).1 := by
  by_cases hseen : b.block.id ∈ p.seen
  · rw [scheduleBlock_of_seen hseen]
    refine ⟨[], .nothing, fun id => ?_, rfl, fun _ hm => (nomatch hm), fun _ _ _ => .inl rfl⟩
    simp only [List.mem_singleton, exists_eq_left]
    exact ⟨.inl, fun h => h.elim (fun hm => hm) fun he => he ▸ hseen⟩
  · obtain ⟨ms, q, v, hj, he⟩ := scheduleBlock_of_new hseen
    rw [he]
    have hsched := hj.schedules.mono fun {b' source o} hg =>
      show b' ∈ [b] ∧ source ∈ b'.replicas ∧ b'.Valid ∧ ∃ d, b'.difference? p.suite = some d ∧
          source.type ∈ d.surplus ∧ o.type ∈ d.missing by
        obtain ⟨rfl, hg⟩ := hg
        exact ⟨List.mem_singleton.2 rfl, hg⟩
    refine ⟨ms, hsched.note _ _, fun id => ?_, ?_, fun m hm => ?_, fun _ b' hb' => ?_⟩
    · simp only [List.mem_cons, List.not_mem_nil, or_false, exists_eq_left, hj.uncounted.1]
      exact ⟨fun h => h.symm.imp_right Eq.symm, fun h => h.symm.imp_left Eq.symm⟩
    · rw [ScanReport.moves_count, hj.uncounted.2, hj.moves]
    · obtain ⟨b', source, o, rfl, hg, -⟩ := hj.schedules.offered m hm
      rw [hg.1]
      exact hseen
    · rw [List.mem_singleton.1 hb']
      exact hj.aims

theorem Surveys.append {r : Pass} {xs ys : List ListedBlock} {ms' : List Move}
    (h : p.Surveys xs ms q) (h' : q.Surveys ys ms' r) : p.Surveys (xs ++ ys) (ms' ++ ms) r := by
  have hsuite := h.schedules.frame.2.2
  have hold : ∀ m ∈ ms, ∃ b ∈ xs, b.block.id = m.block.id := by
    intro m hm
    obtain ⟨b, source, o, rfl, hg, -⟩ := h.schedules.offered m hm
    exact ⟨b, hg.1, rfl⟩
  refine ⟨?_, fun id => ?_, ?_, fun m hm => ?_, fun hone b hb => ?_⟩
  · refine (h.schedules.mono fun hg => ⟨List.mem_append_left _ hg.1, hg.2⟩).trans
      (h'.schedules.mono fun hg => ⟨List.mem_append_right _ hg.1, ?_⟩)
    rw [← hsuite]
    exact hg.2
  · rw [h'.seen, h.seen]
    simp only [List.mem_append, or_and_right, exists_or, or_assoc]
  · rw [h'.moves, h.moves, List.length_append]
    omega
  · rcases List.mem_append.1 hm with hm | hm
    · exact fun hseen => h'.fresh m hm ((h.seen _).2 (.inl hseen))
    · exact h.fresh m hm
  · by_cases hx : b ∈ xs
    · -- the second part leaves blocks of the first alone
      have hnone : Move.ofBlock b.block.id ms' = [] := Move.ofBlock_eq_nil fun m hm he =>
        h'.fresh m hm ((h.seen _).2 (.inr ⟨b, hx, he.symm⟩))
      refine (h.aims (fun b hb b' hb' => hone b (List.mem_append_left _ hb) b'
        (List.mem_append_left _ hb')) b hx).congr ?_
      rw [Move.ofBlock_append, hnone, List.nil_append]
    · have hy : b ∈ ys := (List.mem_append.1 hb).resolve_left hx
      have hnone : Move.ofBlock b.block.id ms = [] := Move.ofBlock_eq_nil fun m hm he => by
        obtain ⟨b', hb', hid⟩ := hold m hm
        have := hone b' (List.mem_append_left _ hb') b hb (hid.trans he)
        exact hx (this ▸ hb')
      have haims := h'.aims (fun b hb b' hb' => hone b (List.mem_append_right _ hb) b'
        (List.mem_append_right _ hb')) b hy
      rw [hsuite] at haims
      refine haims.congr ?_
      rw [Move.ofBlock_append, hnone, List.append_nil]

/-- What a pass comes to, whatever blocks are listed. -/
theorem exists_surveys (p : Pass) (blocks : List ListedBlock) :
    ∃ ms, p.Surveys blocks ms (p.scheduleAll blocks) := by
  induction blocks generalizing p with
  | nil =>
    exact ⟨[], .nothing, fun id => by simp [scheduleAll], rfl, fun _ hm => (nomatch hm),
      fun _ _ hb => nomatch hb⟩
  | cons b rest ih =>
    obtain ⟨ms, hb⟩ := exists_surveys_block p b
    obtain ⟨ms', hrest⟩ := ih (p.scheduleBlock b).1
    exact ⟨ms' ++ ms, hb.append hrest⟩

/-- The blocks that a pass gets to know are those of its moves. -/
theorem Schedules.knows {G : ListedBlock → Replica → Offer → Prop} (h : Schedules G p ms q)
    (hc : p.ledger.Consistent) (hf : p.ledger.Fresh) (hk : q.Knows id) :
    p.Knows id ∨ ∃ m ∈ ms, m.block.id = id := by
  obtain ⟨hmoves, hcons, -⟩ := h.ledgered hc hf
  rcases hk with ⟨storage, hs⟩ | ⟨sourceType, targetType, ht⟩
  · rw [h.remembers.1] at hs
    rcases List.mem_append.1 hs with hs | hs
    · obtain ⟨m, hm, he⟩ := List.mem_map.1 hs
      exact .inr ⟨m, hm, congrArg Prod.fst he⟩
    · exact .inl (.inl ⟨storage, hs⟩)
  · obtain ⟨e, he, hkey⟩ := (hcons.takes_iff _).1 ht
    have hmem : e.move ∈ p.ledger.entries.map Entry.move ++ ms.reverse :=
      hmoves ▸ List.mem_map_of_mem he
    rcases List.mem_append.1 hmem with hmem | hmem
    · obtain ⟨e', he', heq⟩ := List.mem_map.1 hmem
      exact .inl (.inr ⟨sourceType, targetType, (hc.takes_iff _).2 ⟨e', he', heq ▸ hkey⟩⟩)
    · exact .inr ⟨e.move, List.mem_reverse.1 hmem, congrArg MoveKey.block hkey⟩

/-- A pass that knows no block but those it has seen counts no block as pending. -/
theorem pending_scheduleAll (blocks : List ListedBlock) (hc : p.ledger.Consistent)
    (hf : p.ledger.Fresh) (hk : ∀ id, p.Knows id → id ∈ p.seen) :
    (p.scheduleAll blocks).report.pending = p.report.pending := by
  induction blocks generalizing p with
  | nil => rfl
  | cons b rest ih =>
    show ((p.scheduleBlock b).1.scheduleAll rest).report.pending = p.report.pending
    obtain ⟨ms, hs⟩ := exists_surveys_block p b
    obtain ⟨-, hcons, hfresh, -⟩ := hs.schedules.ledgered hc hf
    rw [ih hcons hfresh fun id hid => ?_]
    · by_cases hseen : b.block.id ∈ p.seen
      · rw [scheduleBlock_of_seen hseen]
      · obtain ⟨ms, q, v, hj, he⟩ := scheduleBlock_of_new hseen
        rw [he, ScanReport.pending_count _ _ fun hv => hseen (hk _ (hj.pending hv)), hj.uncounted.2]
    · rw [hs.seen]
      refine (hs.schedules.knows hc hf hid).imp (hk id) fun ⟨m, hm, he⟩ => ?_
      obtain ⟨b', source, o, rfl, hg, -⟩ := hs.schedules.offered m hm
      exact ⟨b', hg.1, he⟩

/-- A block counts as a violation unless it has been seen or is settled. -/
theorem needingMove_scheduleBlock (p : Pass) (b : ListedBlock) :
    p.report.needingMove ≤ (p.scheduleBlock b).1.report.needingMove ∧
      ((p.scheduleBlock b).1.report.needingMove = p.report.needingMove ↔
        (b.block.id ∉ p.seen → b.Settled p.suite)) := by
  by_cases hseen : b.block.id ∈ p.seen
  · rw [scheduleBlock_of_seen hseen]
    exact ⟨Nat.le_refl _, fun _ hn => absurd hseen hn, fun _ => rfl⟩
  · obtain ⟨ms, q, v, hj, he⟩ := scheduleBlock_of_new hseen
    have hcount : (p.scheduleBlock b).1.report.needingMove =
        p.report.needingMove + if v.isViolation then 1 else 0 := by
      rw [he, ScanReport.needingMove_count, hj.uncounted.2]
    rw [hcount, ← hj.settled_iff]
    cases v.isViolation with
    | false => exact ⟨Nat.le_refl _, fun _ _ => rfl, fun _ => rfl⟩
    | true => exact ⟨Nat.le_succ _, fun h => absurd h (Nat.succ_ne_self _), fun h => nomatch h hseen⟩

theorem needingMove_le_scheduleAll (p : Pass) (blocks : List ListedBlock) :
    p.report.needingMove ≤ (p.scheduleAll blocks).report.needingMove := by
  induction blocks generalizing p with
  | nil => exact Nat.le_refl _
  | cons b rest ih => exact Nat.le_trans (needingMove_scheduleBlock p b).1 (ih (p.scheduleBlock b).1)

/-- A pass counts a violation unless every block that it has not seen before is settled. -/
theorem needingMove_scheduleAll (p : Pass) (blocks : List ListedBlock)
    (hone : ∀ b ∈ blocks, ∀ b' ∈ blocks, b.block.id = b'.block.id → b = b') :
    (p.scheduleAll blocks).report.needingMove = p.report.needingMove ↔
      ∀ b ∈ blocks, b.block.id ∉ p.seen → b.Settled p.suite := by
  induction blocks generalizing p with
  | nil => simp [scheduleAll]
  | cons b rest ih =>
    show ((p.scheduleBlock b).1.scheduleAll rest).report.needingMove = _ ↔ _
    obtain ⟨ms, hs⟩ := exists_surveys_block p b
    obtain ⟨hle, hblock⟩ := needingMove_scheduleBlock p b
    have hle' := needingMove_le_scheduleAll (p.scheduleBlock b).1 rest
    have hrest := ih (p.scheduleBlock b).1 fun b hb b' hb' =>
      hone b (List.mem_cons_of_mem _ hb) b' (List.mem_cons_of_mem _ hb')
    rw [hs.schedules.frame.2.2] at hrest
    rw [List.forall_mem_cons]
    constructor
    · intro h
      have hb := hblock.1 (by omega)
      refine ⟨hb, fun b' hb' hn => ?_⟩
      by_cases hid : b'.block.id = b.block.id
      · rw [hone b' (List.mem_cons_of_mem _ hb') b List.mem_cons_self hid] at hn ⊢
        exact hb hn
      · refine hrest.1 (by omega) b' hb' fun hm => ?_
        refine ((hs.seen _).1 hm).elim hn fun ⟨x, hx, hid'⟩ => hid ?_
        rw [← hid', List.mem_singleton.1 hx]
    · rintro ⟨hb, hall⟩
      refine (hrest.2 fun b' hb' hn => hall b' hb' fun hm => ?_).trans (hblock.2 hb)
      exact hn ((hs.seen _).2 (.inl hm))

end Pass

end StorageTiering
