import StorageTiering.Proofs.Pass.Unmoved
import StorageTiering.Proofs.Run.Course
import StorageTiering.Proofs.World.Content
/-!
# What a run leaves as it was

A run moves replicas of blocks that have something to move, and changes nothing else: no block comes or
goes, no replica is lost or added, and all other blocks stay where they are.

* `Run.scan_draws` — a scan changes nothing, and schedules moves of blocks that have something to move.
* `Cluster.Movable` — the blocks that a run may move.
* `Run.Restrained` — a run that has moved no other block, and has scheduled no move of another;
  `Run.Restrained.round` for one iteration.
* `Run.run_preserves_content` — a whole run.
-/

namespace StorageTiering

/-- The blocks that a run may move: those with a record at or below its paths that are not left where they
are. -/
def Cluster.Movable (c : Cluster) (suite : Suite) (paths : List String) (id : BlockId) : Prop :=
  ∃ b ∈ c.listedUnder paths, b.block.id = id ∧ ¬b.Unmoved suite

/-- What may be moved after other blocks were moved might have been moved before. -/
theorem Cluster.Conserves.movable {c c' : Cluster} {suite : Suite} {paths : List String} {b : ListedBlock}
    (h : c.Conserves (c.Movable suite paths) c') (hb : b ∈ c'.listedUnder paths) (hmove : ¬b.Unmoved suite) :
    c.Movable suite paths b.block.id := by
  by_contra hnot
  exact hnot ⟨b, (h.mem_listedUnder hnot).1 hb, rfl, hmove⟩

namespace Run

variable {r : Run} {w w' : World} {c : Cluster} {p : Pass} {path : String} {cursor : Option String}
  {suite : Suite} {paths : List String}

/-! ### Scans -/

theorem retrying_alike {α : Type} {call : World → World × Except CallFault α}
    (hcall : ∀ w : World, w.cluster.Alike (call w).1.cluster) (r : Run) (hw : c.Alike w.cluster) :
    c.Alike (r.retrying call w).1.cluster :=
  World.withRetries_preserves (Q := fun w => c.Alike w.cluster) (fun w h => h.trans (hcall w))
    (fun w ms h => h.trans (w.alike_wait ms)) _ _ hw

/-- The pages of a path bring records of this path alone. -/
theorem scanPages_draws (r : Run) (path : String) (n : Nat) (p : Pass) (cursor : Option String)
    (hw : c.Alike w.cluster) : let result := r.scanPages path n w p cursor
    c.Alike result.1.cluster ∧ p.Draws ((c.itemsUnder path).map ListingItem.listed) result.2.1 := by
  induction n generalizing w p cursor with
  | zero => exact ⟨hw, .refl _ p⟩
  | succ n ih =>
    have hcall := r.retrying_alike (fun w => w.alike_listPage path cursor) hw
    simp only [scanPages]
    split
    all_goals
      rename_i heq
      rw [heq] at hcall
    · exact ⟨hcall, .refl _ p⟩
    · exact ⟨hcall, .refl _ p⟩
    · rename_i w' page
      have hpage : ∀ b ∈ page.blocks, b ∈ (w'.cluster.itemsUnder path).map ListingItem.listed :=
        World.withRetries_ok
          (P := fun w page => ∀ b ∈ page.blocks, b ∈ (w.cluster.itemsUnder path).map ListingItem.listed)
          (fun _ _ _ h _ hb => World.mem_records_of_listPage h hb) _ _ heq
      rw [Cluster.itemsUnder_congr hcall.files hcall.blocks] at hpage
      have hdraws := (p.draws_scheduleAll page.blocks).mono hpage
      split
      · obtain ⟨halike, hrest⟩ := ih (p.scheduleAll page.blocks) _ hcall
        exact ⟨halike, hdraws.trans hrest⟩
      · exact ⟨hcall, hdraws⟩

theorem scanPaths_draws (r : Run) (paths : List String) (p : Pass) (hw : c.Alike w.cluster) :
    let result := r.scanPaths paths w p
    c.Alike result.1.cluster ∧ p.Draws (walk c paths) result.2.1 := by
  induction paths generalizing w p with
  | nil => exact ⟨hw, .refl _ p⟩
  | cons path rest ih =>
    obtain ⟨halike, hdraws⟩ := r.scanPages_draws path ((w.cluster.itemsUnder path).length + 1) p none hw
    have hfirst := hdraws.mono (List.subset_append_left _ (walk c rest))
    simp only [scanPaths, scanPath]
    generalize r.scanPages path _ w p none = call at *
    obtain ⟨w', q, fault⟩ := call
    cases fault with
    | some fault => exact ⟨halike, hfirst⟩
    | none =>
      obtain ⟨halike', hrest⟩ := ih q halike
      exact ⟨halike', hfirst.trans (hrest.mono (List.subset_append_right _ _))⟩

/-- What a pass has put into the ledger stays there, even if a fault ends the scan. -/
theorem ledger_afterPass (r : Run) (p : Pass) (fault : Option ScanFault) :
    (r.afterPass p fault).1.ledger = p.ledger := by
  cases fault <;> rfl

/-- A scan changes nothing, and schedules moves of blocks at or below the paths that are not left where
they are. -/
theorem scan_draws (r : Run) (w : World) : let result := r.scan w
    w.cluster.Alike result.1.cluster ∧
      ∀ m ∈ result.2.1.ledger.moves, m ∈ r.ledger.moves ∨
        ∃ b ∈ w.cluster.listedUnder r.paths, m.block = b.block ∧ ¬b.Unmoved r.suite := by
  have hcall := r.retrying_alike World.alike_report (Cluster.Alike.refl w.cluster)
  simp only [scan]
  generalize r.retrying World.report w = call at *
  obtain ⟨w₁, fault | reports⟩ := call
  · exact ⟨hcall, fun m hm => .inl hm⟩
  · obtain ⟨halike, hdraws⟩ := r.scanPaths_draws r.paths (r.newPass reports) hcall
    refine ⟨halike, fun m hm => ?_⟩
    rw [ledger_afterPass] at hm
    rcases hdraws.moves m hm with hm | ⟨b, hb, hrest⟩
    · exact .inl hm
    · exact .inr ⟨b, Cluster.mem_walk.1 hb, hrest⟩

/-! ### One iteration -/

/-- A run that has moved no blocks but those that it might move at the start, and has scheduled no move of
another. -/
structure Restrained (c : Cluster) (suite : Suite) (paths : List String) (r : Run) (w : World) : Prop where
  policies : r.suite = suite
  extent : r.paths = paths
  conserves : c.Conserves (c.Movable suite paths) w.cluster
  ledger : ∀ m ∈ r.ledger.moves, c.Movable suite paths m.block.id

namespace Restrained

theorem alike (h : r.Restrained c suite paths w) (hw : w.cluster.Alike w'.cluster) :
    r.Restrained c suite paths w' :=
  ⟨h.policies, h.extent, h.conserves.trans (hw.conserves _), h.ledger⟩

theorem scan (h : r.Restrained c suite paths w) :
    (r.scan w).2.1.Restrained c suite paths (r.scan w).1 := by
  obtain ⟨⟨ledger, unsatisfiable, hframe⟩, -⟩ := scan_frame r w
  obtain ⟨halike, hdraws⟩ := scan_draws r w
  refine ⟨hframe ▸ h.policies, hframe ▸ h.extent, h.conserves.trans (halike.conserves _), fun m hm => ?_⟩
  rcases hdraws m hm with hm | ⟨b, hb, hblock, hmove⟩
  · exact h.ledger m hm
  · rw [hblock]
    exact h.conserves.movable (h.extent ▸ hb) (h.policies ▸ hmove)

theorem dispatch (h : r.Restrained c suite paths w) :
    (r.dispatch w).2.1.Restrained c suite paths (r.dispatch w).1 := by
  refine ⟨h.policies, h.extent, ?_, fun m hm => h.ledger m (Timeline.moves_run_ledger_subset _ _ _ _ _ hm)⟩
  refine Timeline.run_keptBy (World.keptBy_conserves _ c) (fun m hm => ?_) h.conserves
  exact h.ledger m (Dispatch.moves_start_subset r.settings.limits w.signal r.ledger hm)

theorem round (h : r.Restrained c suite paths w) (number : Nat) :
    (r.round number w).2.1.Restrained c suite paths (r.round number w).1 := by
  rw [Run.round]
  split
  · exact h
  · have hscan := scan (r := { r with stage := .scanning }) ⟨h.policies, h.extent, h.conserves, h.ledger⟩
    dsimp only
    generalize Run.scan { r with stage := .scanning } w = result at *
    obtain ⟨w₁, r₁, fault | scanned⟩ := result
    · exact hscan
    · dsimp only
      split
      · exact hscan
      · have hdispatch := dispatch (r := { r₁ with stage := .dispatching })
          ⟨hscan.policies, hscan.extent, hscan.conserves, hscan.ledger⟩
        rw [dispatchAndRest]
        generalize Run.dispatch { r₁ with stage := .dispatching } w₁ = result at *
        obtain ⟨w₂, r₂, i | report⟩ := result
        · exact hdispatch
        · have hrecord : (r₂.record number scanned report).Restrained c suite paths w₂ :=
            ⟨hdispatch.policies, hdispatch.extent, hdispatch.conserves, hdispatch.ledger⟩
          dsimp only
          split
          · exact hrecord
          · exact hrecord.alike (w₂.alike_advance _ _)

/-! ### Whole runs -/

theorem iterate (h : r.Restrained c suite paths w) (rounds number : Nat) :
    (iterate rounds number r w).2.1.Restrained c suite paths (Run.iterate rounds number r w).1 := by
  induction rounds generalizing number r w with
  | zero => exact h
  | succ rounds ih =>
    have hround := h.round number
    rw [Run.iterate]
    generalize r.round number w = result at *
    obtain ⟨w₁, r₁, _ | e⟩ := result
    · exact ih hround _
    · exact hround

theorem underLease (h : r.Restrained c suite paths w) (rounds : Nat) :
    c.Conserves (c.Movable suite paths) (r.underLease rounds w).1.cluster := by
  have hacquire := h.alike (w.alike_acquireLease r.holder (r.settings.get .leaseRenewIntervalMs))
  rw [Run.underLease]
  generalize w.acquireLease _ _ = call at *
  obtain ⟨w₁, e | token⟩ := call
  · exact hacquire.conserves
  · have hiterate := hacquire.iterate rounds 1
    dsimp only at hiterate ⊢
    generalize Run.iterate rounds 1 r w₁ = result at *
    obtain ⟨w₂, r₂, _ | ⟨s | _⟩⟩ := result
    · exact hiterate.conserves
    · exact (hiterate.alike (w₂.alike_releaseLease token)).conserves
    · exact hiterate.conserves

theorem run (h : r.Restrained c suite paths w) (rounds : Nat) :
    c.Conserves (c.Movable suite paths) (r.run rounds w).1.cluster := by
  have hcheck := h.alike w.alike_checkSatisfier
  rw [Run.run]
  generalize w.checkSatisfier = call at *
  obtain ⟨w₁, answer⟩ := call
  have hlease := hcheck.underLease rounds
  dsimp only at hlease ⊢
  cases satisfierVerdict answer with
  | some e => cases e <;> exact hcheck.conserves
  | none =>
    dsimp only
    generalize r.underLease rounds w₁ = result at *
    obtain ⟨w₂, r₂, _ | ⟨s | _⟩⟩ := result <;> exact hlease

end Restrained

/-- Whatever paths and settings a run has, whatever faults its cluster has, and whatever is scripted and
comes from outside: the files stay with their policies, layouts and blocks, the blocks stay with their
lengths and their pieces in the same order, and a block that is outside of all paths, or that is left where
it is, has the same record after the run. -/
theorem run_preserves_content (h : w.cluster.Reachable) (paths : Option (List String)) (settings : Settings)
    (suite : Suite) (holder : String) (rounds : Nat) :
    let r := start paths settings suite holder
    let c := (r.run rounds w).1.cluster
    c.files = w.cluster.files ∧ c.content = w.cluster.content ∧
      ∀ b, w.cluster.Lists b → (∀ path ∈ r.paths, liesUnder b.path path = false) ∨ b.Unmoved suite →
        c.Lists b := by
  intro r c
  -- The ledger is empty at first, so nothing is scheduled that may not be moved.
  have hstart : r.Restrained w.cluster suite r.paths w :=
    ⟨rfl, rfl, (Cluster.Alike.refl _).conserves _, fun m hm => nomatch hm⟩
  have hconserves : w.cluster.Conserves (w.cluster.Movable suite r.paths) c := hstart.run rounds
  refine ⟨hconserves.files, hconserves.content, fun b hb hstays => ?_⟩
  -- A block has one record, so a movable one could only be this.
  have hrest : ¬w.cluster.Movable suite r.paths b.block.id := by
    rintro ⟨b', hb', hid, hmove⟩
    obtain rfl := h.catalogued.lists_inj (Cluster.lists_of_mem_listedUnder hb') hb hid
    rcases hstays with houtside | hunmoved
    · obtain ⟨f, -, ⟨path, hpath, hunder⟩, id, -, hlisted⟩ := Cluster.mem_listedUnder.1 hb'
      obtain ⟨placed, -, rfl⟩ := Cluster.listedBlock?_eq_some.1 hlisted
      exact absurd (hunder.symm.trans (houtside path hpath)) (by decide)
    · exact hmove hunmoved
  exact (hconserves.lists_iff hrest).2 hb

/-- One file at or below "/in" has a block to move, the other one has none, and a third file is outside. -/
def partlyDescription : ClusterDescription where
  namespaceId := "n"
  pageSize := none
  nodes := [⟨"a", "/r", [⟨.disk, 100⟩, ⟨.archive, 100⟩]⟩]
  files := [⟨"/in/cold", "COLD", some (.contiguous 1), [⟨1, 4, 1, [⟨"a", .disk⟩]⟩]⟩,
    ⟨"/in/hot", "HOT", some (.contiguous 1), [⟨2, 4, 1, [⟨"a", .disk⟩]⟩]⟩,
    ⟨"/out", "COLD", some (.contiguous 1), [⟨3, 4, 1, [⟨"a", .disk⟩]⟩]⟩]
  faults := .none

/-- The described cluster. -/
def partlySample : Cluster :=
  match partlyDescription.build with
  | .ok c => c
  | .error _ => .empty ""

/-- The record of the file that has nothing to move. -/
def hotRecord : ListedBlock := ⟨"/in/hot", "HOT", ⟨2, 4, 1⟩, .contiguous 1, [⟨"a", .disk, "a-s0", none⟩]⟩

/-- The record of the file outside. -/
def outerRecord : ListedBlock := ⟨"/out", "COLD", ⟨3, 4, 1⟩, .contiguous 1, [⟨"a", .disk, "a-s0", none⟩]⟩

/-- A run over "/in" may move the first block, and leaves the records of the others. -/
theorem run_preserves_content_partlySample :
    let r := start (some ["/in"]) .standard .standard "h"
    let c := (r.run 2 (World.start partlySample .none [])).1.cluster
    partlySample.Movable .standard ["/in"] 1 ∧ c.content = partlySample.content ∧
      c.Lists hotRecord ∧ c.Lists outerRecord := by
  have hnumbered : partlyDescription.Numbered := by
    unfold ClusterDescription.Numbered
    decide
  have hreachable : partlySample.Reachable := Cluster.reachable_build hnumbered rfl
  have hlisted : partlySample.listedUnder ["/"] = [⟨"/in/cold", "COLD", ⟨1, 4, 1⟩, .contiguous 1,
      [⟨"a", .disk, "a-s0", none⟩]⟩, hotRecord, outerRecord] := rfl
  have hlists : ∀ b ∈ [hotRecord, outerRecord], partlySample.Lists b := fun b hb =>
    Cluster.lists_of_mem_listedUnder (hlisted ▸ List.mem_cons_of_mem _ hb)
  obtain ⟨-, hcontent, hstay⟩ := run_preserves_content (w := World.start partlySample .none []) hreachable
    (some ["/in"]) .standard .standard "h" 2
  have hhot : hotRecord.Unmoved .standard :=
    .inr (.inr ⟨rfl, .inr ⟨[.disk], by decide +kernel, rfl⟩⟩)
  refine ⟨⟨_, List.mem_cons_self, rfl, ?_⟩, hcontent, hstay _ (hlists _ (by simp)) (.inr hhot),
    hstay _ (hlists _ (by simp)) (.inl (by decide))⟩
  exact ListedBlock.not_unmoved (d := ⟨[.archive], [.disk]⟩) rfl (by decide +kernel) List.mem_cons_self
    List.mem_cons_self

end Run

end StorageTiering
