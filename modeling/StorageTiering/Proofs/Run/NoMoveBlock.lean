import StorageTiering.Proofs.Cluster.Names
import StorageTiering.Proofs.Pass.Agreement
import StorageTiering.Proofs.Pass.Stuck
import StorageTiering.Proofs.Run.Course
import StorageTiering.Proofs.Run.Round
import StorageTiering.Proofs.Run.Success
/-!
# What it means that nothing can be moved

A run that ends because nothing can be moved leaves a cluster with a block that is not as its policy says,
and with no storage to which any replica of such a block could go.

* `Cluster.Feasible` — a storage could take a replica of a block.
* `Cluster.Immovable` — no storage could take any replica that should go.
* `World.KeepsNodes` — no node joins.
* `Run.scan_leaves` — a scan works with the reports and the records of the cluster that it leaves.
* `Run.immovable_of_scan` — a scan that schedules nothing and finds nothing pending leaves such a cluster.
* `Run.run_noMoveBlock` — a run that ends because nothing can be moved is right.
-/

namespace StorageTiering

/-- A storage could take a replica of a block: its type is movable, it is not where the replica is, its node
has no other replica of the block, and it has room. -/
structure Cluster.Feasible (c : Cluster) (b : ListedBlock) (source : Replica) (node : NodeId) (s : Store) :
    Prop where
  stored : c.store? node s.id = some s
  movable : s.type.isMovable
  elsewhere : (node, s.id) ≠ (source.node, source.storage)
  uncrowded : node = source.node ∨ ∀ r ∈ b.replicas, r.node ≠ node
  room : b.block.len ≤ s.remaining

/-- Nothing can be moved for the sake of the blocks at or below several paths: no storage of a missing type
could take a replica of a surplus type. -/
def Cluster.Immovable (suite : Suite) (paths : List String) (c : Cluster) : Prop :=
  ∀ b ∈ c.listedUnder paths, b.Valid → ∀ d, b.difference? suite = some d →
    ∀ source ∈ b.replicas, source.type ∈ d.surplus → ∀ node s, s.type ∈ d.missing →
      ¬c.Feasible b source node s

/-- A record that is not settled has a fault or an unknown policy, or violates its policy. -/
theorem ListedBlock.not_settled_iff {suite : Suite} {b : ListedBlock} : ¬b.Settled suite ↔
    ¬b.Valid ∨ (∃ fault, suite.resolve b.policy b.layout = .error fault) ∨
      ∃ d, b.difference? suite = some d ∧ ¬d.isSettled := by
  rw [Settled, difference?, not_and_or]
  refine or_congr_right ?_
  rcases suite.resolve b.policy b.layout with fault | (policy | types) <;> simp

namespace Cluster

variable {c c' : Cluster} {b : ListedBlock} {source : Replica} {suite : Suite} {paths : List String}

theorem Immovable.congr (h : c.Immovable suite paths) (hn : c'.nodes = c.nodes) (hf : c'.files = c.files)
    (hb : c'.blocks = c.blocks) : c'.Immovable suite paths := by
  rw [Immovable, listedUnder_congr hf hb]
  intro b hb hvalid d hd source hsource hsurplus node s hmissing hfeasible
  refine h b hb hvalid d hd source hsource hsurplus node s hmissing ⟨?_, hfeasible.movable,
    hfeasible.elsewhere, hfeasible.uncrowded, hfeasible.room⟩
  have hstored := hfeasible.stored
  rw [store?, hn] at hstored
  exact hstored

/-- A storage that could take a replica of a record is an offer that suits. -/
theorem Sited.suits_of_feasible (h : c.Sited) (hb : c.Lists b) (hsource : source ∈ b.replicas)
    {node : NodeId} {s : Store} (hf : c.Feasible b source node s) :
    ∃ o ∈ (Inventory.ofReports c.reports).offers, o.type = s.type ∧ o.Suits b source := by
  obtain ⟨n, hn, hs, -⟩ := store?_eq_some hf.stored
  refine ⟨_, mem_offers_ofReports.2 ⟨(node, n), hn, s, hs, rfl⟩, rfl, hf.movable, fun he => ?_,
    hf.uncrowded.imp_right fun hn => List.any_eq_false.2 fun r hr => by simpa using hn r hr, hf.room⟩
  obtain ⟨p, hp, -, hreplicas⟩ := hb.block?
  have hid : s.id = source.storage := he
  have hnode : node = source.node :=
    h.node_eq (List.mem_of_find?_eq_some hp) (hreplicas ▸ hsource) (hid ▸ hf.stored)
  exact hf.elsewhere (Prod.ext hnode hid)

end Cluster

namespace World

variable {w : World}

/-- No node joins, or takes the place of another. -/
def KeepsNodes (w : World) : Prop :=
  ∀ e ∈ w.events, ∀ id rack storages, e.event ≠ .disturb (.addNode id rack storages)

theorem KeepsNodes.advance (h : w.KeepsNodes) (stop : World → Bool) (t : Nat) :
    (w.advance stop t).KeepsNodes :=
  advance_preserves (fun _ _ _ _ h => h)
    (fun _ _ _ he h e' he' => h e' (he ▸ List.mem_cons_of_mem _ he')) stop t h

theorem KeepsNodes.wait (h : w.KeepsNodes) (ms : Nat) : (w.wait ms).KeepsNodes :=
  wait_of_advance h h.advance ms

/-- A plain namespace in which no node joins stays one. -/
theorem lasting_plain_keepsNodes : Lasting fun w => w.Plain ∧ w.KeepsNodes where
  begins := fun _ m h => ⟨h.1.beginAttempt m, h.2⟩
  settles := fun w m a h => ⟨h.1.settleAttempt m a, by cases a <;> exact h.2⟩
  noted := fun w n m h => ⟨lasting_plain.noted w n m h.1, h.2⟩
  elapses := fun _ stop t h => ⟨h.1.advance stop t, h.2.advance stop t⟩
  signals := fun w s h => ⟨lasting_plain.signals w s h.1, h.2⟩
  lists := fun w path cursor h => by
    refine ⟨h.1.listPage path cursor, ?_⟩
    rw [h.1.listPage_eq, listOnCluster_eq]
    exact h.2.wait w.script.listingDelayMs
  reports := fun w h => ⟨h.1.report, report_of_wait (h.2.wait _) fun _ _ h => h⟩
  checks := fun w h => by
    refine ⟨h.1.checkSatisfier, ?_⟩
    rw [checkSatisfier]
    split <;> exact h.2
  acquires := fun w holder intervalMs h => by
    refine ⟨h.1.acquireLease holder intervalMs, ?_⟩
    rw [acquireLease]
    split
    · exact h.2
    · split <;> exact h.2

/-- Its nodes stay as they are while time passes. -/
theorem KeepsNodes.nodes_wait (h : w.KeepsNodes) (ms : Nat) : (w.wait ms).cluster.nodes = w.cluster.nodes := by
  refine (wait_preserves (Q := fun w' => w'.KeepsNodes ∧ w'.cluster.nodes = w.cluster.nodes)
    (fun _ _ _ _ h => h) (fun w' e rest he h => ⟨?_, ?_⟩) ms ⟨h, rfl⟩).2
  · exact fun e' he' => h.1 e' (he ▸ List.mem_cons_of_mem _ he')
  · show (w'.apply e).cluster.nodes = w.cluster.nodes
    have hnone := h.1 e (he ▸ List.mem_cons_self)
    rcases cluster_apply w' e with ⟨d, hd, hc⟩ | hc
    · rw [hc]
      cases d with
      | addNode id rack storages => exact absurd hd (hnone id rack storages)
      | _ => exact h.2
    · rw [hc, h.2]

theorem report_ok {w' : World} {reports : List NodeReport} (h : w.report = (w', .ok reports)) :
    reports = w'.cluster.reports := by
  rw [report] at h
  split at h
  · cases h
    rfl
  · dsimp only at h
    split at h <;> cases h
    rfl

end World

namespace Run

variable {r r' : Run} {w w' : World} {report : ScanReport} {b : ListedBlock} {source : Replica} {d : Difference}

/-! ### Scans -/

/-- A record at or below the paths is the one that a walk over them examines. -/
theorem examined?_walk {c : Cluster} (h : c.Catalogued) {paths : List String} (hb : b ∈ c.listedUnder paths) :
    ListedBlock.examined? (walk c paths) b.block.id = some b := by
  have hwalk : b ∈ walk c paths := Cluster.mem_walk.2 hb
  obtain ⟨b', hb'⟩ : ∃ b', ListedBlock.examined? (walk c paths) b.block.id = some b' :=
    Option.isSome_iff_exists.1 (List.find?_isSome.2 ⟨b, hwalk, by simp⟩)
  have hmem : b' ∈ c.listedUnder paths := Cluster.mem_walk.1 (List.mem_of_find?_eq_some hb')
  have hid : b'.block.id = b.block.id := by simpa using List.find?_some hb'
  rw [hb', h.listedUnder_inj hmem hb hid]

/-- A scan that comes to its end has worked with the reports and the records of the cluster that it
leaves. -/
theorem scan_leaves (h : w.Plain) (hk : w.KeepsNodes) (hscan : r.scan w = (w', r', .ok report)) :
    ∃ c : Cluster, c.Reachable ∧ c.nodes = w'.cluster.nodes ∧ c.files = w'.cluster.files ∧
      c.blocks = w'.cluster.blocks ∧
      report = ((r.newPass c.reports).scheduleAll (walk c r.paths)).report := by
  have hcall : (r.retrying World.report w).1.Plain ∧ (r.retrying World.report w).1.KeepsNodes :=
    World.withRetries_preserves World.lasting_plain_keepsNodes.reports
      World.lasting_plain_keepsNodes.toKept.waits _ _ ⟨h, hk⟩
  cases hreport : r.retrying World.report w with
  | mk w₁ answer =>
    rw [hreport] at hcall
    obtain ⟨hplain, hkeeps⟩ := hcall
    cases answer with
    | error fault =>
      rw [scan, hreport] at hscan
      cases hscan
    | ok reports =>
      obtain rfl : reports = w₁.cluster.reports :=
        World.withRetries_ok (fun _ _ _ => World.report_ok) _ _ hreport
      obtain ⟨hshows, -, hcases⟩ := scan_spec hreport hplain.shows
      have hnodes : (r.scan w).1.cluster.nodes = w₁.cluster.nodes := by
        have hpaths := scanPaths_preserves
          (Q := fun w => (w.Plain ∧ w.KeepsNodes) ∧ w.cluster.nodes = w₁.cluster.nodes)
          (fun w path cursor h => ?_) (fun w ms h => ?_) r r.paths (r.newPass w₁.cluster.reports)
          ⟨⟨hplain, hkeeps⟩, rfl⟩
        · rw [scan, hreport]
          exact hpaths.2
        · obtain ⟨grace, failures, he⟩ := Cluster.listPage_frame
            (w.wait w.script.listingDelayMs).cluster path cursor
          refine ⟨World.lasting_plain_keepsNodes.lists w path cursor h.1, ?_⟩
          rw [h.1.1.listPage_eq, World.listOnCluster_eq, he]
          exact (h.1.2.nodes_wait _).trans h.2
        · exact ⟨World.lasting_plain_keepsNodes.toKept.waits w ms h.1, (h.1.2.nodes_wait ms).trans h.2⟩
      rw [hscan] at hshows hcases hnodes
      refine ⟨w₁.cluster, hplain.reachable, hnodes.symm, hshows.files.symm, hshows.blocks.symm, ?_⟩
      rcases hcases with ⟨fault, hf, -⟩ | hok
      · cases hf
      · exact Except.ok.inj (congrArg Prod.snd hok)

/-- A scan that schedules nothing and finds nothing pending leaves a cluster in which nothing can be moved. -/
theorem immovable_of_scan (h : w.Plain) (hk : w.KeepsNodes) (hmax : 0 < r.settings.get .maxMovesPerIteration)
    (hscan : r.scan w = (w', r', .ok report)) (hmoves : report.moves = 0) (hpending : report.pending = 0) :
    w'.cluster.Immovable r.suite r.paths := by
  obtain ⟨c, hreachable, hnodes, hfiles, hblocks, rfl⟩ := scan_leaves h hk hscan
  refine Cluster.Immovable.congr (fun b hb hvalid d hd source hsource hsurplus node s hmissing hf => ?_)
    hnodes.symm hfiles.symm hblocks.symm
  obtain ⟨o, ho, htype, hsuits⟩ := hreachable.sited.suits_of_feasible
    (Cluster.lists_of_mem_listedUnder hb) hsource hf
  have hhopeless := Pass.hopeless_of_scheduleAll (p := r.newPass c.reports) hmax hmoves hpending
    (examined?_walk hreachable.catalogued hb) List.not_mem_nil
  exact hhopeless hvalid d hd source hsource hsurplus o ho (htype ▸ hmissing)
    ((Pass.isGoodTarget_start_iff _ _ _ _).2 hsuits)

/-! ### Whole runs -/

theorem statusAfterScan_eq_noMoveBlock {number n : Nat} (h : r.statusAfterScan number report w = some (.noMoveBlock n)) :
    report.needsMovement ∧ r.isStuck report := by
  cases concludes_of_statusAfterScan h with
  | stuck hneeds hstuck => exact ⟨hneeds, hstuck⟩
  | @interrupted i _ hi hs => cases i <;> cases hs

/-- An iteration in which a run finds that nothing can be moved leaves such a cluster. -/
theorem round_noMoveBlock {number n : Nat} (h : w.Plain) (hk : w.KeepsNodes)
    (hmax : 0 < r.settings.get .maxMovesPerIteration)
    (hround : r.round number w = (w', r', some (.status (.noMoveBlock n)))) :
    ¬w'.cluster.Settled r.suite r.paths ∧ w'.cluster.Immovable r.suite r.paths := by
  have hcases := round_iterates r number w
  rw [hround] at hcases
  cases hcases with
  | forced ledger stage unsatisfiable he =>
    rcases he _ rfl with hs | ⟨reason, hs⟩ <;> cases hs
  | judged hscan hs =>
    obtain ⟨hneeds, hstuck⟩ := statusAfterScan_eq_noMoveBlock hs
    simp only [isStuck, Bool.and_eq_true, beq_iff_eq] at hstuck
    obtain ⟨⟨hmoves, hpending⟩, -⟩ := hstuck
    refine ⟨fun hsettled => ?_, ?_⟩
    · obtain ⟨-, -, hiff⟩ := scan_settled { r with stage := .scanning } h
      rw [hscan] at hiff
      rw [(hiff _ rfl).2 hsettled] at hneeds
      cases hneeds
    · exact immovable_of_scan (r := { r with stage := .scanning }) h hk hmax hscan hmoves hpending
  | rested _ _ _ _ he =>
    rcases he _ rfl _ rfl with hs | ⟨reason, hs⟩ <;> cases hs

/-- A run that ends because nothing can be moved leaves a cluster of which a block at or below the paths has
a faulty record, an unknown policy, or replicas of the wrong types; and wherever such a block has a replica
of a surplus type, no storage of a missing type in the cluster could take it. -/
theorem run_noMoveBlock (h : w.Plain) (hk : w.KeepsNodes) {settings : Settings} (hs : settings.check = .ok ())
    (paths : Option (List String)) (suite : Suite) (holder : String) (rounds n : Nat) :
    let r := start paths settings suite holder
    let result := r.run rounds w
    let c := result.1.cluster
    result.2.2 = some (.status (.noMoveBlock n)) →
      (∃ b ∈ c.listedUnder r.paths, ¬b.Valid ∨ (∃ fault, suite.resolve b.policy b.layout = .error fault) ∨
        ∃ d, b.difference? suite = some d ∧ ¬d.isSettled) ∧
      c.Immovable suite r.paths := by
  intro r result
  have hcourse : r.Comes (fun _ => Timeline.execute) w rounds result := run_comes r w rounds
  obtain ⟨w', r', e⟩ := result
  intro c hend
  obtain rfl : e = some (.status (.noMoveBlock n)) := hend
  cases hcourse with
  | refused stage he =>
    rcases he _ rfl with hs | ⟨holder, hs⟩ | ⟨reason, hs⟩ <;> cases hs
  | @ended k r₁ r₂ w₁ w₂ _ _ stage hb _ hround hw =>
    obtain ⟨hpaths, hsettings, hsuite, -⟩ := hb.same
    have hlasting := hb.lasting World.lasting_plain_keepsNodes ⟨h, hk⟩
    have hmax : 0 < r₁.settings.get .maxMovesPerIteration := by
      rw [hsettings]
      exact Settings.pos_of_check hs (by decide)
    obtain ⟨hunsettled, himmovable⟩ := round_noMoveBlock hlasting.1 hlasting.2 hmax hround
    rw [hpaths, hsuite] at hunsettled himmovable
    obtain ⟨lease, hlease⟩ := hw
    have hc : c = { w₂.cluster with lease := lease } := hlease
    have hplain := (round_lasting World.lasting_plain_keepsNodes r₁ k hlasting).1
    rw [hround] at hplain
    rw [hplain.reachable.catalogued.settled_iff] at hunsettled
    obtain ⟨b, hb⟩ := not_forall.1 hunsettled
    obtain ⟨hb, hnot⟩ := Classical.not_imp.1 hb
    have hnodes : c.nodes = w₂.cluster.nodes := by rw [hc]
    have hfiles : c.files = w₂.cluster.files := by rw [hc]
    have hblocks : c.blocks = w₂.cluster.blocks := by rw [hc]
    refine ⟨⟨b, ?_, ListedBlock.not_settled_iff.1 hnot⟩, himmovable.congr hnodes hfiles hblocks⟩
    rw [Cluster.listedUnder_congr hfiles hblocks]
    exact hb

/-- A cold block on disk, on a node without an archive. -/
def homelessDescription : ClusterDescription where
  namespaceId := "ns"
  pageSize := none
  nodes := [⟨"a", "/r", [⟨.disk, 10⟩]⟩]
  files := [⟨"/f", "COLD", some (.contiguous 1), [⟨1, 4, 1, [⟨"a", .disk⟩]⟩]⟩]
  faults := { FaultDescription.none with listingFailures := 2 }

/-- The cluster of this description. -/
def homelessSample : Cluster :=
  match homelessDescription.build with
  | .ok c => c
  | .error _ => .empty ""

/-- Two listing calls fail, and nothing can be moved: there is no archive. -/
theorem run_noMoveBlock_homeless :
    let result := (start none .standard .standard "h").run 1 (World.start homelessSample .none [])
    result.2.2 = some (.status (.noMoveBlock 1)) ∧ result.1.cluster.Immovable .standard ["/"] := by
  have hnumbered : homelessDescription.Numbered := by
    unfold ClusterDescription.Numbered
    decide
  have hplain : (World.start homelessSample .none []).Plain := ⟨Cluster.reachable_build hnumbered rfl, rfl⟩
  have hkeeps : (World.start homelessSample .none []).KeepsNodes :=
    fun e he => absurd he (by simp [World.start, World.sortEvents])
  have hend : ((start none .standard .standard "h").run 1
      (World.start homelessSample .none [])).2.2 = some (.status (.noMoveBlock 1)) := by
    decide +kernel
  exact ⟨hend, (run_noMoveBlock hplain hkeeps rfl none .standard "h" 1 1 hend).2⟩

end Run

end StorageTiering
