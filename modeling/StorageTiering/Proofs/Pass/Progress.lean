import StorageTiering.Proofs.Pass.Moves
/-!
# The progress of a block

* `Pass.Judges.scheduled` — a block of which moves are scheduled has been tried, and the verdict counts
  its moves and tells whether more are needed.
* `Pass.Advanced.between_moved` — what such moves leave is the difference of the block once they are
  carried out.
* `Pass.scheduleBlock_progress` — the moves bring the block as much nearer to its policy as the verdict
  says, and the verdict tells whether it is there.
-/

namespace StorageTiering

namespace Pass

variable {p q : Pass} {b : ListedBlock} {needed : List StorageType} {ms ms' : List Move} {v : Verdict}
  {s : Progress} {moves : Nat} {remaining : Bool}

theorem Progress.verdict_eq_scheduled (h : s.verdict = .scheduled moves remaining) :
    0 < moves ∧ s.moves = moves ∧ remaining = !s.difference.isSettled := by
  rw [Progress.verdict] at h
  split at h
  · rename_i hpos
    obtain ⟨rfl, rfl⟩ := Verdict.scheduled.inj h
    exact ⟨hpos, rfl, rfl⟩
  · split at h <;> cases h

/-- A block of which moves are scheduled has no fault, its policy asks for some types, and its replicas
have been tried. -/
theorem Judges.scheduled (h : p.Judges b ms q v) (hv : v = .scheduled moves remaining) :
    b.Valid ∧ ∃ needed s, p.suite.resolve b.policy b.layout = .ok (.required needed) ∧
      p.Advanced b (.between needed b.types) s ms ∧ q = s.pass ∧
      0 < moves ∧ ms.length = moves ∧ remaining = !s.difference.isSettled := by
  cases h with
  | tried hvalid hresolve _ ha =>
    obtain ⟨hpos, hmoves, hremaining⟩ := Progress.verdict_eq_scheduled hv
    exact ⟨hvalid, _, _, hresolve, ha, rfl, hpos, ha.moves.symm.trans hmoves, hremaining⟩
  | _ => cases hv

namespace Advanced

variable {d : Difference}

/-- Every move uses up one missing type and one in surplus. -/
theorem length_difference (h : p.Advanced b d s ms) :
    s.difference.missing.length + ms.length = d.missing.length ∧
      s.difference.surplus.length + ms.length = d.surplus.length := by
  rw [← h.missing.length_eq, ← h.surplus.length_eq, List.length_append, List.length_append,
    List.length_map, List.length_map]
  exact ⟨Nat.add_comm _ _, Nat.add_comm _ _⟩

/-- No type is left more often than it is in surplus, and none is gone to more often than it is missing. -/
theorem count_le (h : p.Advanced b d s ms) (t : StorageType) :
    (ms.map fun m => m.source.type).count t ≤ d.surplus.count t ∧
      (ms.map Move.targetType).count t ≤ d.missing.count t := by
  rw [← h.surplus.count_eq, ← h.missing.count_eq, List.count_append, List.count_append]
  exact ⟨Nat.le_add_right _ _, Nat.le_add_right _ _⟩

/-- The moves of a block without a fault are planned beside each other. -/
theorem plans (h : p.Advanced b (.between needed b.types) s ms) (hv : b.Valid)
    (hresolve : p.suite.resolve b.policy b.layout = .ok (.required needed)) : b.Plans needed ms := by
  have hwants : Schedules (Wants p.suite [b]) p ms s.pass :=
      h.schedules.mono fun ⟨heq, hsource, hsurplus, hmissing⟩ => by
    subst heq
    exact ⟨ListedBlock.examined?_cons_self _ _, hv, hsource, needed, hresolve, hsurplus, hmissing⟩
  exact hwants.plans (ListedBlock.examined?_cons_self b []) hresolve

theorem block_eq (h : p.Advanced b (.between needed b.types) s ms) : ∀ m ∈ ms, m.block = b.block := by
  intro m hm
  obtain ⟨b', source, o, rfl, ⟨rfl, -⟩, -⟩ := h.schedules.offered m hm
  rfl

/-- What the moves leave of the difference is the difference of the record once they are carried out, and
no slot that was filled is left empty. -/
theorem between_moved (h : p.Advanced b (.between needed b.types) s ms) (hp : b.Plans needed ms')
    (hperm : ms'.Perm ms) :
    (Difference.between needed (b.moved ms').types).missing.Perm s.difference.missing ∧
    (Difference.between needed (b.moved ms').types).surplus.Perm s.difference.surplus ∧
    ∀ t, min (needed.count t) (b.types.count t) ≤
      min (needed.count t) ((b.moved ms').types.count t) := by
  have hown : ∀ m ∈ ms', m.block.id = b.block.id := fun m hm =>
    congrArg Block.id (h.block_eq m (hperm.mem_iff.1 hm))
  have htypes := hp.types_perm hown
  have htargets := ((hperm.map Move.targetType).append_right _).trans h.missing
  have hsources := ((hperm.map fun m => m.source.type).append_right _).trans h.surplus
  exact ⟨Difference.missing_exchange htypes htargets hsources,
    Difference.surplus_exchange htypes htargets hsources,
    Difference.matched_exchange htypes htargets hsources⟩

end Advanced

/-- If a pass, whatever its state, schedules moves of a block, then the block has no fault and its policy
asks for some types. The moves start from different replicas of the record. Once they are carried out, as
many types fewer are missing and in surplus as the verdict counts moves, and the verdict says that more
are needed exactly if the new difference is not settled. No type is left more often than it is in surplus,
none is gone to more often than it is missing, and no slot that was filled is left empty. -/
theorem scheduleBlock_progress (h : p.scheduleBlock b = (q, .scheduled moves remaining)) :
    b.Valid ∧ ∃ needed, p.suite.resolve b.policy b.layout = .ok (.required needed) ∧
    let ms := q.ledger.since p.ledger
    let before := Difference.between needed b.types
    let after := Difference.between needed (b.moved ms).types
    ms.length = moves ∧ 0 < moves ∧ (∀ m ∈ ms, m.block = b.block ∧ m.source ∈ b.replicas) ∧
    ms.Pairwise (fun m m' => m.source.storage ≠ m'.source.storage) ∧
    after.missing.length + moves = before.missing.length ∧
    after.surplus.length + moves = before.surplus.length ∧
    (remaining = true ↔ ¬after.isSettled) ∧
    ∀ t, (ms.map fun m => m.source.type).count t ≤ before.surplus.count t ∧
      (ms.map Move.targetType).count t ≤ before.missing.count t ∧
      min (needed.count t) (b.types.count t) ≤ min (needed.count t) ((b.moved ms).types.count t) := by
  by_cases hseen : b.block.id ∈ p.seen
  · rw [scheduleBlock_of_seen hseen] at h
    cases h
  obtain ⟨ms, q', v, hj, he⟩ := scheduleBlock_of_new hseen
  obtain ⟨hq, hv⟩ := Prod.mk.inj (he.symm.trans h)
  obtain ⟨hvalid, needed, s, hresolve, ha, rfl, hpos, hlen, hremaining⟩ := hj.scheduled hv
  have hsince : q.ledger.since p.ledger = ms.reverse := hq ▸ ha.schedules.since_eq
  have hperm : ms.reverse.Perm ms := List.reverse_perm ms
  have hplans := (ha.plans hvalid hresolve).perm hperm.symm
  obtain ⟨hmissing, hsurplus, hmatched⟩ := ha.between_moved hplans hperm
  obtain ⟨hfewer, hfewer'⟩ := ha.length_difference
  refine ⟨hvalid, needed, hresolve, ?_⟩
  rw [hsince]
  refine ⟨hperm.length_eq.trans hlen, hpos, fun m hm => ?_, ?_, ?_, ?_, ?_, fun t => ?_⟩
  · have hblock := ha.block_eq m (hperm.mem_iff.1 hm)
    exact ⟨hblock, (hplans.carries m hm (congrArg Block.id hblock)).source⟩
  · refine hplans.apart.imp_of_mem fun {m m'} hm hm' hapart => (hapart ?_).1
    rw [ha.block_eq m (hperm.mem_iff.1 hm), ha.block_eq m' (hperm.mem_iff.1 hm')]
  · rw [hmissing.length_eq, ← hlen]
    exact hfewer
  · rw [hsurplus.length_eq, ← hlen]
    exact hfewer'
  · rw [hremaining, Difference.isSettled_congr hmissing hsurplus, Bool.not_eq_true', Bool.not_eq_true]
  · rw [(hperm.map _).count_eq, (hperm.map _).count_eq]
    exact ⟨(ha.count_le t).1, (ha.count_le t).2, hmatched t⟩

/-- Four nodes, of which one has a disk only and the others have an archive. -/
def archives : Inventory :=
  ⟨[("a", "/r"), ("b", "/r"), ("c", "/r"), ("d", "/q")],
   [⟨"a", "/r", "a0", .disk, 9⟩, ⟨"a", "/r", "a1", .archive, 9⟩, ⟨"b", "/r", "b0", .disk, 9⟩,
    ⟨"c", "/r", "c0", .ssd, 9⟩, ⟨"c", "/r", "c1", .archive, 9⟩, ⟨"d", "/q", "d0", .archive, 9⟩]⟩

/-- A cold block with two replicas on disk and one on flash. -/
def twoOnDisk : ListedBlock :=
  ⟨"/f", "COLD", ⟨1, 4, 1⟩, .contiguous 3,
   [⟨"a", .disk, "a0", none⟩, ⟨"b", .disk, "b0", none⟩, ⟨"c", .ssd, "c0", none⟩]⟩

/-- Of two replicas on disk the second waits for the move of the first, which has the same key: two
replicas move, and one more is to come. -/
theorem scheduleBlock_progress_twoOnDisk : ∃ q m m' needed,
    (start 9 archives .standard .empty).scheduleBlock twoOnDisk = (q, .scheduled 2 true) ∧
    q.ledger.since .empty = [m, m'] ∧ m.source.storage = "a0" ∧ m'.source.storage = "c0" ∧
    Suite.standard.resolve "COLD" (.contiguous 3) = .ok (.required needed) ∧
    (Difference.between needed (twoOnDisk.moved [m, m']).types).missing.length + 2 =
      (Difference.between needed twoOnDisk.types).missing.length ∧
    (Difference.between needed (twoOnDisk.moved [m, m']).types).surplus.length + 2 =
      (Difference.between needed twoOnDisk.types).surplus.length ∧
    ¬(Difference.between needed (twoOnDisk.moved [m, m']).types).isSettled := by
  have hverdict : (start 9 archives .standard .empty).scheduleBlock twoOnDisk =
      (((start 9 archives .standard .empty).scheduleBlock twoOnDisk).1, .scheduled 2 true) :=
    Prod.ext rfl (by decide +kernel)
  have hms : ((start 9 archives .standard .empty).scheduleBlock twoOnDisk).1.ledger.since .empty =
      [⟨"/f", ⟨1, 4, 1⟩, ⟨"a", .disk, "a0", none⟩, .archive, "a", "a1"⟩,
       ⟨"/f", ⟨1, 4, 1⟩, ⟨"c", .ssd, "c0", none⟩, .archive, "c", "c1"⟩] := by
    decide +kernel
  obtain ⟨-, needed, hresolve, hprogress⟩ := scheduleBlock_progress hverdict
  rw [show (start 9 archives .standard .empty).ledger = .empty from rfl, hms] at hprogress
  obtain ⟨-, -, -, -, hmissing, hsurplus, hremaining, -⟩ := hprogress
  exact ⟨_, _, _, needed, hverdict, hms, rfl, rfl, hresolve, hmissing, hsurplus, hremaining.1 rfl⟩

end Pass

end StorageTiering
