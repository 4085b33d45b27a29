import StorageTiering.Proofs.Pass.Stuck
/-!
# A second pass over the same blocks

A pass remembers which replicas and which destinations it has chosen, and the next one knows of that only
what the ledger says: which logical moves are live.

* `Pass.Schedules.holds_iff` — the moves that are live after a pass are those before it and its own.
* `Pass.scheduleAll_again` — what a second pass adds, and when it adds nothing.
* `Pass.scheduleAll_again_surplus` — a block of which the second pass moves one more replica.
-/

namespace StorageTiering

namespace Pass

variable {p q : Pass} {b : ListedBlock} {source : Replica} {ms : List Move} {blocks : List ListedBlock}
  {G : ListedBlock → Replica → Offer → Prop} {inventory : Inventory} {suite : Suite} {l : Ledger}

/-- A pass takes the keys of its moves, and leaves those that were taken. -/
theorem Schedules.takes_iff (h : Schedules G p ms q) (key : MoveKey) :
    q.ledger.takes key ↔ p.ledger.takes key ∨ key ∈ ms.map Move.key := by
  simp only [Ledger.takes_iff_mem]
  induction h with
  | nothing => simp
  | @book ms q b source o ledger id _ _ hb ih =>
    obtain ⟨-, -, he⟩ := Ledger.insert_eq_some hb.inserted
    simp only [commit, he, List.map_cons, List.mem_cons, ih]
    exact or_left_comm
  | note _ _ _ ih => exact ih

/-- After a pass a move of a block between types is live if it was before, or if the pass has scheduled it. -/
theorem Schedules.holds_iff (h : Schedules G p ms q) (id : BlockId) (sourceType : StorageType)
    (targetTypes : List StorageType) : q.ledger.holds id sourceType targetTypes ↔
      p.ledger.holds id sourceType targetTypes ∨
        ∃ m ∈ ms, m.block.id = id ∧ m.source.type = sourceType ∧ m.targetType ∈ targetTypes := by
  simp only [Ledger.holds, List.any_eq_true, h.takes_iff, List.mem_map, Move.key, MoveKey.mk.injEq]
  constructor
  · rintro ⟨t, ht, htaken | ⟨m, hm, hid, hsource, rfl⟩⟩
    · exact .inl ⟨t, ht, htaken⟩
    · exact .inr ⟨m, hm, hid, hsource, ht⟩
  · rintro (⟨t, ht, htaken⟩ | ⟨m, hm, hid, hsource, ht⟩)
    · exact ⟨t, ht, .inl htaken⟩
    · exact ⟨_, ht, .inr ⟨m, hm, hid, hsource, rfl⟩⟩

theorem Schedules.free (h : Schedules G p ms q) : ∀ m ∈ ms, p.ledger.takes m.key = false := by
  induction h with
  | nothing => exact fun _ hm => nomatch hm
  | @book ms q b source o ledger id h _ hb ih =>
    refine List.forall_mem_cons.2 ⟨?_, ih⟩
    obtain ⟨hfree, -, -⟩ := Ledger.insert_eq_some hb.inserted
    refine Bool.eq_false_iff.2 fun htaken => ?_
    rw [(h.takes_iff _).2 (.inl htaken)] at hfree
    exact absurd hfree nofun
  | note _ _ _ ih => exact ih

theorem Schedules.prefix_entries (h : Schedules G p ms q) : p.ledger.entries <+: q.ledger.entries := by
  induction h with
  | nothing => exact List.prefix_rfl
  | book _ _ hb ih =>
    obtain ⟨-, -, he⟩ := Ledger.insert_eq_some hb.inserted
    simp only [commit, he]
    exact ih.trans (List.prefix_append _ _)
  | note _ _ _ ih => exact ih

/-- A replica can be scheduled at the start of a pass if no such move is live and an offer suits. -/
theorem movable_start_iff (maxMoves : Nat) (types : List StorageType) :
    (start maxMoves inventory suite l).Movable b types source ↔
      l.holds b.block.id source.type types = false ∧
        ∃ o ∈ inventory.offers, o.type ∈ types ∧ o.Suits b source := by
  rw [Movable]
  simp only [isGoodTarget_start_iff]
  exact and_iff_right List.not_mem_nil

/-- What a second pass over the same blocks does with the ledger that the first one has left, whatever the
ledger, the blocks and the offers were. It adds moves behind the live ones, and no logical move that the
first pass has scheduled or that was live before. It adds none, and leaves the ledger as it is, exactly if
for every replica of a surplus type of a block that is examined a move of the block from this type to a
missing one is live, before the first pass or because of it, or no offer of a missing type suits. -/
theorem scheduleAll_again {maxMoves : Nat} (hmax : 0 < maxMoves) (inventory : Inventory) (suite : Suite)
    (l : Ledger) (blocks : List ListedBlock) :
    let first := (start maxMoves inventory suite l).scheduleAll blocks
    let second := (start maxMoves inventory suite first.ledger).scheduleAll blocks
    let moved := first.ledger.since l
    let added := second.ledger.since first.ledger
    l.entries <+: first.ledger.entries ∧ first.ledger.entries <+: second.ledger.entries ∧
    ((moved ++ added).map Move.key).Nodup ∧ (∀ m ∈ moved ++ added, l.takes m.key = false) ∧
    second.report.moves = added.length ∧
    (second.report.moves = 0 ↔ second.ledger = first.ledger) ∧
    (second.report.moves = 0 ↔ ∀ b, ListedBlock.examined? blocks b.block.id = some b → b.Valid →
      ∀ d, b.difference? suite = some d → ∀ source ∈ b.replicas, source.type ∈ d.surplus →
        (l.holds b.block.id source.type d.missing ∨ ∃ m ∈ moved,
          m.block.id = b.block.id ∧ m.source.type = source.type ∧ m.targetType ∈ d.missing) ∨
        ∀ o ∈ inventory.offers, o.type ∈ d.missing → ¬o.Suits b source) := by
  intro first second moved added
  obtain ⟨ms, hfirst⟩ := exists_surveys (start maxMoves inventory suite l) blocks
  obtain ⟨ms', hsecond⟩ := exists_surveys (start maxMoves inventory suite first.ledger) blocks
  have hmoved : moved = ms.reverse := hfirst.schedules.since_eq
  have hadded : added = ms'.reverse := hsecond.schedules.since_eq
  have hfree : ∀ m ∈ ms', l.takes m.key = false ∧ m.key ∉ ms.map Move.key := by
    intro m hm
    have hnew : ¬first.ledger.takes m.key := Bool.eq_false_iff.1 (hsecond.schedules.free m hm)
    obtain ⟨hold, hmine⟩ := not_or.1 fun h => hnew ((hfirst.schedules.takes_iff m.key).2 h)
    exact ⟨Bool.eq_false_iff.2 hold, hmine⟩
  have hcount : second.report.moves = ms'.length := hsecond.moves.trans (Nat.zero_add _)
  have hstuck : second.report.moves = 0 ↔ (start maxMoves inventory suite first.ledger).Stuck blocks :=
    moves_scheduleAll_iff (p := start maxMoves inventory suite first.ledger) hmax blocks
  refine ⟨hfirst.schedules.prefix_entries, hsecond.schedules.prefix_entries, ?_, ?_, ?_, ?_, ?_⟩
  · rw [hmoved, hadded, List.map_append, List.map_reverse, List.map_reverse, List.nodup_append,
      List.nodup_reverse, List.nodup_reverse]
    refine ⟨hfirst.schedules.nodup_keys, hsecond.schedules.nodup_keys, fun key hkey key' hkey' he => ?_⟩
    obtain ⟨m, hm, rfl⟩ := List.mem_map.1 (List.mem_reverse.1 hkey')
    exact (hfree m hm).2 (he ▸ List.mem_reverse.1 hkey)
  · rw [hmoved, hadded]
    intro m hm
    rcases List.mem_append.1 hm with hm | hm
    · exact hfirst.schedules.free m (List.mem_reverse.1 hm)
    · exact (hfree m (List.mem_reverse.1 hm)).1
  · rw [hcount, hadded, List.length_reverse]
  · refine ⟨fun hzero => ?_, fun hsame => ?_⟩
    · exact (hsecond.schedules.eq_of_nil (List.length_eq_zero_iff.1 (hcount.symm.trans hzero))).2
    · have hnil : added = [] := by
        show Ledger.since second.ledger first.ledger = []
        rw [hsame, Ledger.since, List.drop_length, List.map_nil]
      rw [hcount, ← List.length_reverse, ← hadded, hnil, List.length_nil]
  · have hholds : ∀ id sourceType targetTypes, first.ledger.holds id sourceType targetTypes ↔
        l.holds id sourceType targetTypes ∨ ∃ m ∈ moved,
          m.block.id = id ∧ m.source.type = sourceType ∧ m.targetType ∈ targetTypes := by
      simp only [hmoved, List.mem_reverse]
      exact hfirst.schedules.holds_iff
    rw [hstuck]
    simp only [Stuck, Blocked, movable_start_iff, ← hholds]
    refine forall₂_congr fun b hb => (imp_iff_right List.not_mem_nil).trans ?_
    refine forall₅_congr fun hvalid d hd source hsource => ?_
    simp only [not_and, not_exists, or_iff_not_imp_left, Bool.not_eq_true]

/-- A disk, a flash storage and an archive, each on a node of its own. -/
def apart : Inventory :=
  ⟨[("a", "/r"), ("b", "/r"), ("c", "/r")],
   [⟨"a", "/r", "a0", .disk, 9⟩, ⟨"b", "/r", "b0", .ssd, 9⟩, ⟨"c", "/r", "c0", .archive, 9⟩]⟩

/-- A cold block with two replicas of the given types, of so many that it should have. -/
def twoReplicas (replication : Nat) (t t' : StorageType) : ListedBlock :=
  ⟨"/f", "COLD", ⟨1, 4, 1⟩, .contiguous replication, [⟨"a", t, "a0", none⟩, ⟨"b", t', "b0", none⟩]⟩

/-- Of two replicas on disk one is moved, and no other pass moves the second before the first has arrived. -/
theorem scheduleAll_again_onDisk :
    let first := (start 5 apart .standard .empty).scheduleAll [twoReplicas 2 .disk .disk]
    let second := (start 5 apart .standard first.ledger).scheduleAll [twoReplicas 2 .disk .disk]
    first.report.moves = 1 ∧ second.report.moves = 0 ∧ second.ledger = first.ledger := by
  intro first second
  have hmoves : first.ledger.since .empty =
      [⟨"/f", ⟨1, 4, 1⟩, ⟨"a", .disk, "a0", none⟩, .archive, "c", "c0"⟩] := by
    decide +kernel
  have hmax : 0 < 5 := by decide
  obtain ⟨-, -, -, -, -, hledger, hnothing⟩ :=
    scheduleAll_again hmax apart .standard .empty [twoReplicas 2 .disk .disk]
  have hzero : second.report.moves = 0 := by
    refine hnothing.2 fun b hb _ d hd source hsource _ => .inl (.inr ?_)
    obtain rfl : twoReplicas 2 .disk .disk = b := List.mem_singleton.1 (List.mem_of_find?_eq_some hb) |>.symm
    obtain rfl : ⟨[.archive, .archive], [.disk, .disk]⟩ = d :=
      Option.some.inj (Eq.trans (by decide +kernel) hd)
    have hdisk : ∀ r ∈ (twoReplicas 2 .disk .disk).replicas, r.type = .disk := by decide
    refine ⟨_, hmoves ▸ List.mem_singleton.2 rfl, rfl, (hdisk source hsource).symm, ?_⟩
    exact List.mem_cons_self
  exact ⟨by decide +kernel, hzero, hledger.1 hzero⟩

/-- A block that needs one replica and has one more: the first pass moves the replica on disk, which is
all that is missing. The second pass leaves that one alone, and moves the other one too. -/
theorem scheduleAll_again_surplus :
    let first := (start 5 apart .standard .empty).scheduleAll [twoReplicas 1 .disk .ssd]
    let second := (start 5 apart .standard first.ledger).scheduleAll [twoReplicas 1 .disk .ssd]
    first.report.moves = 1 ∧ second.report.moves = 1 ∧ second.ledger ≠ first.ledger := by
  decide +kernel

-- A node that the first pass has chosen for a block is free for the second one: both replicas go to it.
example :
    let first := (start 5 apart .standard .empty).scheduleAll [twoReplicas 2 .disk .ssd]
    let second := (start 5 apart .standard first.ledger).scheduleAll [twoReplicas 2 .disk .ssd]
    first.report.moves = 1 ∧ (second.ledger.since .empty).map Move.targetNode = ["c", "c"] := by
  decide +kernel

end Pass

end StorageTiering
