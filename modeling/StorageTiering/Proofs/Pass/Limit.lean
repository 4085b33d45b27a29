import StorageTiering.Proofs.Pass.Accounts
import Mathlib.Data.Finset.Prod
import Mathlib.Tactic.IntervalCases
/-!
# The limit of a pass

A pass looks at its limit before each block, and then schedules all moves of the block that it can. So the
block with which the limit is reached can exceed it.

* `Difference.length_kinds_le_two` — a block can be moved in at most two ways, by types.
* `Pass.moves_verdict_le_two` — so a block gets at most two moves in a pass.
* `Pass.limit_lt_scheduleAll_iff` — when a pass exceeds its limit.
* `Pass.scheduleAll_limit` — it exceeds it by one move at most; `Pass.scheduleAll_limit_exceeded` — and does.
-/

namespace StorageTiering

/-- Three types are movable, and none of them is both in surplus and missing. -/
theorem Difference.length_kinds_le_two (needed present : List StorageType)
    {kinds : List (StorageType × StorageType)} (hnodup : kinds.Nodup)
    (h : ∀ kind ∈ kinds, kind.1 ∈ (between needed present).surplus ∧ kind.2 ∈ (between needed present).missing) :
    kinds.length ≤ 2 := by
  let sources := (between needed present).surplus.toFinset
  let targets := (between needed present).missing.toFinset
  have hdisjoint : Disjoint sources targets := Finset.disjoint_left.2 fun t hs ht =>
    not_mem_surplus (List.mem_toFinset.1 ht) (List.mem_toFinset.1 hs)
  have hmovable : sources ∪ targets ⊆ {.ssd, .disk, .archive} := by
    intro t ht
    have hmov : t.isMovable := by
      rcases Finset.mem_union.1 ht with hs | ht
      · exact (lt_count_of_mem_surplus (List.mem_toFinset.1 hs)).1
      · exact (lt_count_of_mem_missing (List.mem_toFinset.1 ht)).1
    cases t with
    | ramDisk => cases hmov
    | provided => cases hmov
    | _ => decide
  have hthree : sources.card + targets.card ≤ 3 := by
    rw [← Finset.card_union_of_disjoint hdisjoint]
    exact Finset.card_le_card hmovable
  have hkinds : kinds.toFinset ⊆ sources ×ˢ targets := by
    intro kind hkind
    obtain ⟨hs, ht⟩ := h kind (List.mem_toFinset.1 hkind)
    exact Finset.mem_product.2 ⟨List.mem_toFinset.2 hs, List.mem_toFinset.2 ht⟩
  have hproduct : ∀ m n : ℕ, m + n ≤ 3 → m * n ≤ 2 := by
    intro m n hsum
    have hm : m ≤ 3 := by omega
    interval_cases m <;> omega
  calc kinds.length = kinds.toFinset.card := (List.toFinset_card_of_nodup hnodup).symm
    _ ≤ (sources ×ˢ targets).card := Finset.card_le_card hkinds
    _ = sources.card * targets.card := Finset.card_product sources targets
    _ ≤ 2 := hproduct _ _ hthree

namespace Pass

variable {p q : Pass} {b : ListedBlock} {needed : List StorageType} {s : Progress} {ms : List Move}
  {v : Verdict} {blocks : List ListedBlock}

/-! ### One block -/

/-- The moves of a block differ in their types, because their keys do. -/
theorem Advanced.length_le_two (h : p.Advanced b (.between needed b.types) s ms) : ms.length ≤ 2 := by
  have hkeys : ms.map Move.key =
      (ms.map fun m => (m.source.type, m.targetType)).map fun kind => ⟨b.block.id, kind.1, kind.2⟩ := by
    rw [List.map_map]
    refine List.map_congr_left fun m hm => ?_
    obtain ⟨b', source, o, rfl, ⟨rfl, -⟩, -⟩ := h.schedules.offered m hm
    rfl
  have hnodup := h.schedules.nodup_keys
  rw [hkeys] at hnodup
  have hlength : (ms.map fun m => (m.source.type, m.targetType)).length = ms.length := List.length_map _
  rw [← hlength]
  refine Difference.length_kinds_le_two needed b.types (.of_map _ hnodup) fun kind hkind => ?_
  obtain ⟨m, hm, rfl⟩ := List.mem_map.1 hkind
  obtain ⟨b', source, o, rfl, ⟨-, -, hsurplus, hmissing⟩, -⟩ := h.schedules.offered m hm
  exact ⟨hsurplus, hmissing⟩

theorem Judges.length_le_two (h : p.Judges b ms q v) : ms.length ≤ 2 := by
  cases h with
  | tried _ _ _ ha => exact ha.length_le_two
  | _ => exact Nat.zero_le 2

/-- No block gets more than two moves. -/
theorem moves_verdict_le_two (p : Pass) (b : ListedBlock) : (p.scheduleBlock b).2.moves ≤ 2 := by
  by_cases hseen : b.block.id ∈ p.seen
  · rw [scheduleBlock_of_seen hseen]
    exact Nat.zero_le 2
  · obtain ⟨ms, q, v, hj, he⟩ := scheduleBlock_of_new hseen
    rw [he, hj.moves]
    exact hj.length_le_two

theorem moves_judge_of_full (h : p.maxMoves ≤ p.report.moves) (b : ListedBlock) :
    (p.judge b).2.moves = 0 := by
  rw [judge]
  split
  · rfl
  · split
    · rfl
    · rfl
    · dsimp only
      rw [if_pos h]
      split <;> rfl

/-- Once the limit is reached, no block gets any. -/
theorem moves_verdict_of_full (h : p.maxMoves ≤ p.report.moves) (b : ListedBlock) :
    (p.scheduleBlock b).2.moves = 0 := by
  rw [scheduleBlock]
  split
  · rfl
  · exact moves_judge_of_full h b

/-- A pass counts the moves of the verdict, and keeps its limit. -/
theorem limit_scheduleBlock (p : Pass) (b : ListedBlock) :
    (p.scheduleBlock b).1.report.moves = p.report.moves + (p.scheduleBlock b).2.moves ∧
      (p.scheduleBlock b).1.maxMoves = p.maxMoves := by
  obtain ⟨ms, hs⟩ := exists_surveys_block p b
  exact ⟨by rw [report_scheduleBlock, ScanReport.moves_count], hs.schedules.frame.1⟩

/-! ### Many blocks -/

/-- A pass exceeds its limit by one move at most. -/
theorem moves_scheduleAll_le (h : p.report.moves ≤ p.maxMoves + 1) (blocks : List ListedBlock) :
    (p.scheduleAll blocks).report.moves ≤ p.maxMoves + 1 := by
  induction blocks generalizing p with
  | nil => exact h
  | cons b rest ih =>
    obtain ⟨hmoves, hlimit⟩ := limit_scheduleBlock p b
    rw [← hlimit]
    refine ih ?_
    rw [hmoves, hlimit]
    by_cases hfull : p.maxMoves ≤ p.report.moves
    · rw [moves_verdict_of_full hfull]
      exact h
    · have htwo := moves_verdict_le_two p b
      omega

/-- A pass exceeds its limit exactly if one move is left when a block comes that gets two. -/
theorem limit_lt_scheduleAll_iff (h : p.report.moves ≤ p.maxMoves) (blocks : List ListedBlock) :
    p.maxMoves < (p.scheduleAll blocks).report.moves ↔
      ∃ front b back remaining, blocks = front ++ b :: back ∧
        (p.scheduleAll front).report.moves + 1 = p.maxMoves ∧
        ((p.scheduleAll front).scheduleBlock b).2 = .scheduled 2 remaining := by
  constructor
  · intro hover
    induction blocks generalizing p with
    | nil => exact absurd hover (Nat.not_lt.2 h)
    | cons b rest ih =>
      obtain ⟨hmoves, hlimit⟩ := limit_scheduleBlock p b
      by_cases hfits : (p.scheduleBlock b).1.report.moves ≤ p.maxMoves
      · obtain ⟨front, b', back, remaining, rfl, hone, hverdict⟩ :=
          ih (p := (p.scheduleBlock b).1) (hlimit ▸ hfits) (hlimit ▸ hover)
        exact ⟨b :: front, b', back, remaining, rfl, hlimit ▸ hone, hverdict⟩
      · -- the first block gets more than what is left
        have htwo := moves_verdict_le_two p b
        have hopen : ¬p.maxMoves ≤ p.report.moves := fun hfull => by
          have hnone := moves_verdict_of_full hfull b
          omega
        have hverdict : (p.scheduleBlock b).2.moves = 2 := by omega
        cases hv : (p.scheduleBlock b).2 with
        | scheduled moves remaining =>
          rw [hv] at hverdict
          obtain rfl : moves = 2 := hverdict
          refine ⟨[], b, rest, remaining, rfl, ?_, hv⟩
          show p.report.moves + 1 = p.maxMoves
          rw [hv, Verdict.moves] at hmoves
          omega
        | _ =>
          rw [hv] at hverdict
          cases hverdict
  · rintro ⟨front, b, back, remaining, rfl, hone, hverdict⟩
    have hback := moves_le_scheduleAll ((p.scheduleAll front).scheduleBlock b).1 back
    obtain ⟨hmoves, -⟩ := limit_scheduleBlock (p.scheduleAll front) b
    rw [hverdict, Verdict.moves] at hmoves
    rw [scheduleAll, List.foldl_append, List.foldl_cons]
    exact Nat.lt_of_lt_of_le (by show p.maxMoves < _; rw [hmoves]; omega) hback

/-- However many moves a pass is allowed, it puts at most one more into its ledger, whatever the ledger, the
blocks and the offers are. It puts in one more exactly if a single one is left when a block comes of which two
moves are scheduled. -/
theorem scheduleAll_limit (maxMoves : Nat) (inventory : Inventory) (suite : Suite) (l : Ledger)
    (blocks : List ListedBlock) :
    let p := start maxMoves inventory suite l
    let inserted (blocks : List ListedBlock) := ((p.scheduleAll blocks).ledger.since l).length
    inserted blocks = (p.scheduleAll blocks).report.moves ∧ inserted blocks ≤ maxMoves + 1 ∧
    (maxMoves < inserted blocks ↔ ∃ front b back remaining, blocks = front ++ b :: back ∧
      inserted front + 1 = maxMoves ∧ ((p.scheduleAll front).scheduleBlock b).2 = .scheduled 2 remaining) := by
  intro p inserted
  have hinserted (blocks : List ListedBlock) : inserted blocks = (p.scheduleAll blocks).report.moves := by
    obtain ⟨ms, hs⟩ := exists_surveys p blocks
    have hsince : (p.scheduleAll blocks).ledger.since l = ms.reverse := hs.schedules.since_eq
    have hmoves : (p.scheduleAll blocks).report.moves = 0 + ms.length := hs.moves
    show ((p.scheduleAll blocks).ledger.since l).length = _
    rw [hsince, List.length_reverse, hmoves, Nat.zero_add]
  simp only [hinserted]
  exact ⟨trivial, moves_scheduleAll_le (p := p) (Nat.zero_le _) blocks,
    limit_lt_scheduleAll_iff (p := p) (Nat.zero_le _) blocks⟩

/-- Two nodes with an archive each, beside a disk on one and flash on the other. -/
def besideArchives : Inventory :=
  ⟨[("a", "/r"), ("b", "/r")],
   [⟨"a", "/r", "a0", .disk, 9⟩, ⟨"a", "/r", "a1", .archive, 9⟩, ⟨"b", "/r", "b0", .ssd, 9⟩,
    ⟨"b", "/r", "b1", .archive, 9⟩]⟩

/-- A pass that is allowed one move puts two into its ledger, of one block with replicas of two types. -/
theorem scheduleAll_limit_exceeded :
    1 < (((start 1 besideArchives .standard .empty).scheduleAll
      [twoReplicas 2 .disk .ssd]).ledger.since .empty).length := by
  decide +kernel

end Pass

end StorageTiering
