import StorageTiering.Pass
import StorageTiering.Proofs.Keyed
import StorageTiering.Proofs.Pass.Agreement
/-!
# The order of reports

A pass does not depend on the order in which nodes report, nor on the order in which a node reports its
storages.

* `NodeReport.Rearranged` — the same reports in another order.
* `Inventory.Agrees` — the same offers in the same order, and the same racks;
  `Inventory.ofReports_agrees` for rearranged reports.
* `Pass.Twin` — passes that differ in nothing but inventories that agree;
  `Pass.Twin.scheduleBlock` — one block keeps them so, with the same verdict.
* `Pass.scheduleAll_rearranged` — passes over the same blocks, with reports in another order.
-/

namespace StorageTiering

/-! ### Reports and inventories -/

namespace NodeReport

/-- Reports of one node with the same storages, in any order. -/
structure Resembles (r r' : NodeReport) : Prop where
  node : r.node = r'.node
  rack : r.rack = r'.rack
  storages : r.storages.Perm r'.storages

/-- The same reports in any order, each with its storages in any order. -/
def Rearranged (reports reports' : List NodeReport) : Prop :=
  ∃ between, reports.Perm between ∧ List.Forall₂ Resembles between reports'

variable {r r' : NodeReport} {reports reports' : List NodeReport}

theorem Resembles.offers (h : r.Resembles r') : r.offers.Perm r'.offers := by
  obtain ⟨hnode, hrack, hstorages⟩ := h
  rw [NodeReport.offers, NodeReport.offers, hnode, hrack]
  exact hstorages.map _

theorem Rearranged.offers (h : Rearranged reports reports') :
    (reports.flatMap NodeReport.offers).Perm (reports'.flatMap NodeReport.offers) := by
  obtain ⟨between, hperm, hresemble⟩ := h
  refine (hperm.flatMap_right _).trans ?_
  clear hperm
  induction hresemble with
  | nil => exact .nil
  | cons hfirst _ ih => exact hfirst.offers.append ih

theorem Rearranged.racks (h : Rearranged reports reports') :
    (reports.map fun r => (r.node, r.rack)).Perm (reports'.map fun r => (r.node, r.rack)) := by
  obtain ⟨between, hperm, hresemble⟩ := h
  refine (hperm.map _).trans ?_
  clear hperm
  induction hresemble with
  | nil => exact .nil
  | cons hfirst _ ih =>
    rw [List.map_cons, List.map_cons, hfirst.node, hfirst.rack]
    exact ih.cons _

/-- If no two reports are of one node, and no node reports two storages of one name, then node and name
tell the offer. -/
theorem offer_eq (hnodes : (reports.map NodeReport.node).Nodup)
    (hstorages : ∀ r ∈ reports, (r.storages.map StorageReport.storage).Nodup) {o o' : Offer}
    (ho : o ∈ reports.flatMap NodeReport.offers) (ho' : o' ∈ reports.flatMap NodeReport.offers)
    (hnode : o.node = o'.node) (hstorage : o.storage = o'.storage) : o = o' := by
  obtain ⟨r, hr, ho⟩ := List.mem_flatMap.1 ho
  obtain ⟨r', hr', ho'⟩ := List.mem_flatMap.1 ho'
  obtain ⟨s, hs, rfl⟩ := List.mem_map.1 ho
  obtain ⟨s', hs', rfl⟩ := List.mem_map.1 ho'
  obtain rfl : r = r' := List.inj_on_of_nodup_map hnodes hr hr' hnode
  obtain rfl : s = s' := List.inj_on_of_nodup_map (hstorages r hr) hs hs' hstorage
  rfl

end NodeReport

namespace Inventory

/-- The same offers in the same order, and the same racks. -/
structure Agrees (i j : Inventory) : Prop where
  offers : i.offers = j.offers
  racks : ∀ node, i.rackOf node = j.rackOf node

/-- The inventory does not depend on the order of reports. -/
theorem ofReports_agrees {reports reports' : List NodeReport}
    (h : NodeReport.Rearranged reports reports') (hnodes : (reports.map NodeReport.node).Nodup)
    (hstorages : ∀ r ∈ reports, (r.storages.map StorageReport.storage).Nodup) :
    (ofReports reports).Agrees (ofReports reports') where
  offers := by
    refine List.Perm.eq_of_pairwise (fun o o' ho ho' hle hge => ?_) (Offer.pairwise_sort _)
      (Offer.pairwise_sort _) ?_
    · -- of two offers that precede each other node and storage are the same
      have hsame := le_antisymm (Offer.precedes_iff.1 hle) (Offer.precedes_iff.1 hge)
      obtain ⟨hnode, hstorage⟩ := Prod.mk.inj (toLex_inj.1 hsame)
      exact NodeReport.offer_eq hnodes hstorages (Offer.mem_sort.1 ho)
        (h.offers.mem_iff.2 (Offer.mem_sort.1 ho')) hnode hstorage
    · exact ((Offer.sort_perm _).trans h.offers).trans (Offer.sort_perm _).symm
  racks := by
    intro node
    have hperm : (ofReports reports).racks.Perm (ofReports reports').racks :=
      ((List.reverse_perm _).trans h.racks).trans (List.reverse_perm _).symm
    have hkeys : ((ofReports reports).racks.map Prod.fst).Nodup := by
      simpa [ofReports, List.map_reverse, Function.comp_def] using hnodes
    refine Option.ext fun rack => ?_
    show (ofReports reports).racks.lookup node = some rack ↔ (ofReports reports').racks.lookup node = some rack
    rw [Keyed.lookup_eq_some_iff hkeys, Keyed.lookup_eq_some_iff ((hperm.map _).nodup_iff.1 hkeys),
      hperm.mem_iff]

end Inventory

/-! ### Passes -/

namespace Pass

/-- Passes that differ in nothing but inventories that agree. -/
def Twin (p p' : Pass) : Prop := ∃ j, p.inventory.Agrees j ∧ p' = { p with inventory := j }

variable {p p' : Pass} {b : ListedBlock} {j : Inventory}

theorem best?_inventory (p : Pass) (j : Inventory) (offers : List Offer) :
    best? { p with inventory := j } offers = p.best? offers := by
  induction offers with
  | nil => rfl
  | cons o rest ih =>
    rw [best?, best?, ih]
    rfl

/-- Destinations are chosen by offers and racks. -/
theorem chooseTarget_inventory (h : p.inventory.Agrees j) (b : ListedBlock) (source : Replica)
    (types : List StorageType) :
    chooseTarget { p with inventory := j } b source types = p.chooseTarget b source types := by
  have hcandidates (locality : Locality) (type : StorageType) :
      candidates { p with inventory := j } b source locality type = p.candidates b source locality type := by
    simp only [candidates, Inventory.ofType, localityOf, ← h.offers, ← h.racks]
    rfl
  simp only [chooseTarget, hcandidates, best?_inventory]

namespace Twin

theorem tryReplica (h : p.Twin p') (b : ListedBlock) (source : Replica) (types : List StorageType) :
    (p.tryReplica b source types).1.Twin (p'.tryReplica b source types).1 ∧
      (p.tryReplica b source types).2 = (p'.tryReplica b source types).2 := by
  obtain ⟨j, hj, rfl⟩ := h
  rw [Pass.tryReplica, Pass.tryReplica, chooseTarget_inventory hj]
  dsimp only
  split
  · exact ⟨⟨j, hj, rfl⟩, rfl⟩
  · split
    · exact ⟨⟨j, hj, rfl⟩, rfl⟩
    · split
      · exact ⟨⟨j, hj, rfl⟩, rfl⟩
      · split
        · exact ⟨⟨j, hj, rfl⟩, rfl⟩
        · exact ⟨⟨j, hj, rfl⟩, rfl⟩

end Twin

/-- Progress with twins. -/
structure Progress.Twin (s s' : Progress) : Prop where
  pass : s.pass.Twin s'.pass
  difference : s.difference = s'.difference
  moves : s.moves = s'.moves
  pendingSeen : s.pendingSeen = s'.pendingSeen

theorem Progress.Twin.step {s s' : Progress} (h : s.Twin s') (b : ListedBlock) (r : Replica) :
    (Progress.step b s r).Twin (Progress.step b s' r) := by
  obtain ⟨pass, difference, moves, pendingSeen⟩ := s
  obtain ⟨pass', difference', moves', pendingSeen'⟩ := s'
  obtain ⟨hpass, hdifference, hmoves, hpending⟩ := h
  dsimp only at hpass hdifference hmoves hpending
  subst hdifference hmoves hpending
  obtain ⟨htwin, hattempt⟩ := hpass.tryReplica b r difference.missing
  rw [Progress.step, Progress.step]
  dsimp only
  split
  · exact ⟨hpass, rfl, rfl, rfl⟩
  · generalize pass.tryReplica b r difference.missing = result at *
    generalize pass'.tryReplica b r difference.missing = result' at *
    obtain ⟨q, attempt⟩ := result
    obtain ⟨q', attempt'⟩ := result'
    obtain rfl := hattempt
    cases attempt <;> exact ⟨htwin, rfl, rfl, rfl⟩

namespace Twin

theorem progress (h : p.Twin p') (b : ListedBlock) (d : Difference) :
    (p.progress b d).Twin (p'.progress b d) := by
  have hfold : ∀ (replicas : List Replica) {s s' : Progress}, s.Twin s' →
      (replicas.foldl (Progress.step b) s).Twin (replicas.foldl (Progress.step b) s') := by
    intro replicas
    induction replicas with
    | nil => exact fun h => h
    | cons r rest ih => exact fun h => ih (h.step b r)
  exact hfold b.replicas ⟨h, rfl, rfl, rfl⟩

theorem judge (h : p.Twin p') (b : ListedBlock) :
    (p.judge b).1.Twin (p'.judge b).1 ∧ (p.judge b).2 = (p'.judge b).2 := by
  have hprogress := h.progress b
  obtain ⟨j, hj, rfl⟩ := h
  rw [Pass.judge, Pass.judge]
  dsimp only
  split
  · exact ⟨⟨j, hj, rfl⟩, rfl⟩
  · split
    · exact ⟨⟨j, hj, rfl⟩, rfl⟩
    · exact ⟨⟨j, hj, rfl⟩, rfl⟩
    · split
      · exact ⟨⟨j, hj, rfl⟩, rfl⟩
      · split
        · exact ⟨⟨j, hj, rfl⟩, rfl⟩
        · rename_i types _ _ _
          obtain ⟨hpass, hdifference, hmoves, hpending⟩ := hprogress (.between types b.types)
          refine ⟨hpass, ?_⟩
          rw [scheduleMoves, scheduleMoves, Progress.verdict, Progress.verdict, hdifference, hmoves, hpending]

/-- One block keeps twins twins, and gets the same verdict from both. -/
theorem scheduleBlock (h : p.Twin p') (b : ListedBlock) :
    (p.scheduleBlock b).1.Twin (p'.scheduleBlock b).1 ∧
      (p.scheduleBlock b).2 = (p'.scheduleBlock b).2 := by
  obtain ⟨hpass, hverdict⟩ := h.judge b
  have hseen : p'.seen = p.seen := by
    obtain ⟨j, -, rfl⟩ := h
    rfl
  rw [Pass.scheduleBlock, Pass.scheduleBlock, hseen]
  split
  · exact ⟨h, rfl⟩
  · dsimp only
    rw [← hverdict]
    obtain ⟨j, hj, hq⟩ := hpass
    rw [hq]
    exact ⟨⟨j, hj, rfl⟩, rfl⟩

end Twin

/-- The verdicts on listed blocks, in their order. -/
def verdicts (p : Pass) : List ListedBlock → List Verdict
  | [] => []
  | b :: rest => (p.scheduleBlock b).2 :: verdicts (p.scheduleBlock b).1 rest

theorem Twin.scheduleAll (h : p.Twin p') (blocks : List ListedBlock) :
    (p.scheduleAll blocks).Twin (p'.scheduleAll blocks) ∧ p.verdicts blocks = p'.verdicts blocks := by
  induction blocks generalizing p p' with
  | nil => exact ⟨h, rfl⟩
  | cons b rest ih =>
    obtain ⟨hfirst, hverdict⟩ := h.scheduleBlock b
    obtain ⟨hrest, hverdicts⟩ := ih hfirst
    exact ⟨hrest, by rw [verdicts, verdicts, hverdict, hverdicts]⟩

/-- Passes over the same blocks with the same ledger, of which one has got the reports in another order, each
with its storages in any order: the verdicts are the same, and so are the counters and the ledgers, every entry
with its number. No two reports are of one node, and no node reports two storages of one name. -/
theorem scheduleAll_rearranged {reports reports' : List NodeReport} (h : NodeReport.Rearranged reports reports')
    (hnodes : (reports.map NodeReport.node).Nodup)
    (hstorages : ∀ r ∈ reports, (r.storages.map StorageReport.storage).Nodup) (maxMoves : Nat) (suite : Suite)
    (l : Ledger) (blocks : List ListedBlock) :
    let p := start maxMoves (.ofReports reports) suite l
    let p' := start maxMoves (.ofReports reports') suite l
    p.verdicts blocks = p'.verdicts blocks ∧
    (p.scheduleAll blocks).report = (p'.scheduleAll blocks).report ∧
    (p.scheduleAll blocks).ledger = (p'.scheduleAll blocks).ledger := by
  intro p p'
  have htwin : p.Twin p' := ⟨.ofReports reports', Inventory.ofReports_agrees h hnodes hstorages, rfl⟩
  obtain ⟨⟨j, -, hpass⟩, hverdicts⟩ := htwin.scheduleAll blocks
  -- twins differ in their inventories alone, so they have one ledger and one report
  rw [hpass]
  exact ⟨hverdicts, rfl, rfl⟩

/-- Reports of a node with a disk and two archives, and of a node with an archive. -/
def twoReports : List NodeReport :=
  [⟨"a", "/r", [⟨"a0", .disk, 9, 9⟩, ⟨"a1", .archive, 9, 5⟩, ⟨"a2", .archive, 9, 5⟩]⟩,
   ⟨"b", "/r", [⟨"b0", .archive, 9, 9⟩]⟩]

/-- The same reports, the later node first and its storages turned around. -/
def turnedReports : List NodeReport :=
  [⟨"b", "/r", [⟨"b0", .archive, 9, 9⟩]⟩,
   ⟨"a", "/r", [⟨"a2", .archive, 9, 5⟩, ⟨"a1", .archive, 9, 5⟩, ⟨"a0", .disk, 9, 9⟩]⟩]

/-- A cold file of two blocks, each with a replica on the disk. -/
def coldFile : List ListedBlock :=
  [⟨"/f", "COLD", ⟨1, 4, 1⟩, .contiguous 1, [⟨"a", .disk, "a0", none⟩]⟩,
   ⟨"/f", "COLD", ⟨2, 4, 1⟩, .contiguous 1, [⟨"a", .disk, "a0", none⟩]⟩]

/-- Of two archives alike the first by name gets the first block, though it is reported last. -/
theorem scheduleAll_rearranged_turned :
    let p := start 5 (.ofReports turnedReports) .standard .empty
    p.verdicts coldFile = [.scheduled 1 false, .scheduled 1 false] ∧
      (p.scheduleAll coldFile).ledger.entries.map (fun e => (e.id, e.move.targetStorage)) =
        [(1, "a1"), (2, "a2")] := by
  intro p
  have hturned : NodeReport.Rearranged twoReports turnedReports :=
    ⟨_, .swap _ _ _, .cons ⟨rfl, rfl, .refl _⟩ (.cons ⟨rfl, rfl, by decide⟩ .nil)⟩
  obtain ⟨hverdicts, -, hledger⟩ :=
    scheduleAll_rearranged hturned (by decide) (by decide) 5 .standard .empty coldFile
  rw [← hverdicts, ← hledger]
  decide +kernel

end Pass

end StorageTiering
