import StorageTiering.Proofs.Pass.Survey
/-!
# What a pass examines

A pass examines each block once, however often it is listed.

* `Pass.Judges.ne_duplicate` — a block that is judged counts.
* `Pass.scheduleAll_of_seen` — blocks that have been seen change nothing.
* `Pass.exists_distinct` — a pass over listed blocks is one over some of them, each of another block, and
  counts these.
-/

namespace StorageTiering

theorem ScanReport.examined_count (r : ScanReport) (block : BlockId) {v : Verdict} (h : v ≠ .duplicate) :
    (r.count block v).examined = r.examined + 1 := by
  cases v <;> first | rfl | exact absurd rfl h

namespace Pass

variable {p q : Pass} {b : ListedBlock} {blocks : List ListedBlock} {ms : List Move} {v : Verdict}

/-- No judgement is that a block was seen before. -/
theorem Judges.ne_duplicate (h : p.Judges b ms q v) : v ≠ .duplicate := by
  intro hv
  cases h with
  | tried _ _ _ _ =>
    rw [Progress.verdict] at hv
    split at hv
    · cases hv
    · split at hv <;> cases hv
  | _ => cases hv

theorem examined_scheduleBlock (h : b.block.id ∉ p.seen) :
    (p.scheduleBlock b).1.report.examined = p.report.examined + 1 := by
  obtain ⟨ms, q, v, hj, he⟩ := scheduleBlock_of_new h
  rw [he, ScanReport.examined_count _ _ hj.ne_duplicate, hj.uncounted.2]

theorem mem_seen_scheduleBlock {id : BlockId} :
    id ∈ (p.scheduleBlock b).1.seen ↔ id ∈ p.seen ∨ b.block.id = id := by
  obtain ⟨ms, hs⟩ := exists_surveys_block p b
  rw [hs.seen]
  simp only [List.mem_singleton, exists_eq_left]

/-- Blocks that have been seen change nothing. -/
theorem scheduleAll_of_seen (h : ∀ b ∈ blocks, b.block.id ∈ p.seen) : p.scheduleAll blocks = p := by
  induction blocks with
  | nil => rfl
  | cons b rest ih =>
    obtain ⟨hb, hrest⟩ := List.forall_mem_cons.1 h
    show (p.scheduleBlock b).1.scheduleAll rest = p
    rw [scheduleBlock_of_seen hb]
    exact ih hrest

/-- A pass over listed blocks is one over some of them, each of another block that it has not seen before,
and it counts these. -/
theorem exists_distinct (p : Pass) (blocks : List ListedBlock) : ∃ kept, kept.Sublist blocks ∧
    (kept.map fun b => b.block.id).Nodup ∧ (∀ b ∈ kept, b.block.id ∉ p.seen) ∧
      (∀ b ∈ blocks, b.block.id ∈ p.seen ∨ ∃ b' ∈ kept, b'.block.id = b.block.id) ∧
        p.scheduleAll blocks = p.scheduleAll kept ∧
          (p.scheduleAll blocks).report.examined = p.report.examined + kept.length := by
  induction blocks generalizing p with
  | nil => exact ⟨[], .slnil, List.nodup_nil, nofun, nofun, rfl, rfl⟩
  | cons b rest ih =>
    have hcons : p.scheduleAll (b :: rest) = (p.scheduleBlock b).1.scheduleAll rest := rfl
    obtain ⟨kept, hsub, hnodup, hnew, hall, hpass, hcount⟩ := ih (p.scheduleBlock b).1
    by_cases hseen : b.block.id ∈ p.seen
    · rw [scheduleBlock_of_seen hseen] at hcons hnew hall hpass hcount
      refine ⟨kept, hsub.cons b, hnodup, hnew, List.forall_mem_cons.2 ⟨.inl hseen, hall⟩, hcons.trans hpass, ?_⟩
      rw [hcons, hcount]
    · have hother : ∀ b' ∈ kept, b'.block.id ∉ p.seen ∧ b.block.id ≠ b'.block.id := fun b' hb' =>
        not_or.1 fun h => hnew b' hb' (mem_seen_scheduleBlock.2 h)
      refine ⟨b :: kept, hsub.cons_cons b, ?_, ?_, ?_, hcons.trans hpass, ?_⟩
      · refine hnodup.cons fun hmem => ?_
        obtain ⟨b', hb', hid⟩ := List.mem_map.1 hmem
        exact (hother b' hb').2 hid.symm
      · exact List.forall_mem_cons.2 ⟨hseen, fun b' hb' => (hother b' hb').1⟩
      · refine List.forall_mem_cons.2 ⟨.inr ⟨b, List.mem_cons_self, rfl⟩, fun b' hb' => ?_⟩
        rcases hall b' hb' with hmem | ⟨b'', hb'', hid⟩
        · exact (mem_seen_scheduleBlock.1 hmem).imp_right fun hid => ⟨b, List.mem_cons_self, hid⟩
        · exact .inr ⟨b'', List.mem_cons_of_mem _ hb'', hid⟩
      · rw [hcons, hcount, examined_scheduleBlock hseen, List.length_cons]
        omega

end Pass

end StorageTiering
