import StorageTiering.Proofs.Cluster.Moved
import StorageTiering.Proofs.Pass.Agreement
import StorageTiering.Proofs.Pass.Moves
/-!
# Records that keep their soundness

A cluster that executes moves of a pass can come to have two replicas of one block on one storage: a move
on a node looks at no other replica that is there.

* `Cluster.Carried.valid_iff` — a record stays sound exactly if no executed move ends on a storage that
  held a replica of the block.
* `Cluster.Deployed.valid_recordOf_iff` — the same of the moves of a pass, in whatever order, and that a
  block with its replicas on different nodes stays sound.
* `Cluster.not_valid_crowded` — a record that does not stay sound.
-/

namespace StorageTiering

namespace Cluster

variable {c : Cluster} {b : ListedBlock} {needed : List StorageType} {done : List Move} {m : Move}
  {r : Replica}

namespace Carried

/-- A replica on the storage where a move has ended is on the node of its target, and is not moved: its
type is missing. -/
theorem at_target (h : c.Carried b done) (hp : b.Plans needed done) (hm : m ∈ done)
    (hid : m.block.id = b.block.id) (hr : r ∈ b.replicas) (hs : r.storage = m.targetStorage) :
    r.node = m.targetNode ∧ b.placeAfter done r = r := by
  obtain ⟨s, hstore, ht⟩ := h.landed m hm
  obtain ⟨s', hstore', ht'⟩ := h.housed r hr
  rw [hs] at hstore'
  have hnode := h.placed.toLaid.store?_inj hstore' hstore
  rw [hnode] at hstore'
  have htype : r.type = m.targetType := by
    rw [← ht, ← ht', Option.some.inj (hstore.symm.trans hstore')]
  refine ⟨hnode, ListedBlock.placeAfter_of_none fun m' hm' hid' hsource => ?_⟩
  have hsurplus := (hp.carries m' hm' hid').surplus
  rw [hsource, htype] at hsurplus
  exact Difference.not_mem_surplus (hp.carries m hm hid).missing hsurplus

/-- Two moves of a block never end on one storage. -/
theorem eq_of_targetStorage (h : c.Carried b done) (hp : b.Plans needed done) {m' : Move} (hm : m ∈ done)
    (hm' : m' ∈ done) (hid : m.block.id = m'.block.id) (hs : m.targetStorage = m'.targetStorage) :
    m = m' := by
  obtain ⟨s, hstore, -⟩ := h.landed m hm
  obtain ⟨s', hstore', -⟩ := h.landed m' hm'
  exact hp.eq_of_common hm hm' hid (.inr (h.placed.toLaid.store?_inj (hs ▸ hstore) hstore'))

/-- A record stays sound exactly if no executed move has ended on a storage that held a replica of the
block. -/
theorem valid_iff (h : c.Carried b done) (hp : b.Plans needed done) (hv : b.Valid) :
    (b.moved done).Valid ↔
      ∀ m ∈ done, m.block.id = b.block.id → ∀ r ∈ b.replicas, r.storage ≠ m.targetStorage := by
  obtain ⟨hlayout, hstorages, hpieces⟩ := ListedBlock.valid_iff.1 hv
  have hpiece : ∀ r, (b.placeAfter done r).piece = r.piece := fun r => by
    rcases b.placeAfter_cases done r with ⟨-, he⟩ | ⟨m, -, -, -, he⟩
    · rw [he]
    · rw [he, arrived]
  have hpieces' : ∀ r ∈ (b.moved done).replicas, r.pieceFault? (b.moved done).layout = none := by
    intro x hx
    obtain ⟨r, hr, rfl⟩ := List.mem_map.1 hx
    rw [Replica.pieceFault?_eq_none_iff, hpiece]
    exact Replica.pieceFault?_eq_none_iff.1 (hpieces r hr)
  have hnodup : (b.moved done).Valid ↔
      (b.replicas.map fun r => (b.placeAfter done r).storage).Nodup := by
    rw [ListedBlock.valid_iff]
    simp only [ListedBlock.moved, List.map_map, Function.comp_def] at hpieces' ⊢
    exact ⟨fun hvalid => hvalid.2.1, fun hn => ⟨hlayout, hn, hpieces'⟩⟩
  rw [hnodup]
  constructor
  · intro hn m hm hid r hr hs
    -- the replica that was there has stayed, and the one that has come is another
    have hcarries := hp.carries m hm hid
    have hsame : m.source = r := by
      refine List.inj_on_of_nodup_map hn hcarries.source hr ?_
      rw [hp.placeAfter_source hm hid, (h.at_target hp hm hid hr hs).2, hs]
      rfl
    exact hcarries.elsewhere (hsame ▸ hs.symm)
  · intro hfree
    refine List.Nodup.map_on (fun x hx y hy he => ?_) hstorages.of_map
    rcases b.placeAfter_cases done x with ⟨-, hxs⟩ | ⟨m, hm, hid, rfl, hxs⟩ <;>
      rcases b.placeAfter_cases done y with ⟨-, hys⟩ | ⟨m', hm', hid', rfl, hys⟩ <;>
      rw [hxs, hys] at he
    · exact List.inj_on_of_nodup_map hstorages hx hy he
    · exact absurd he (hfree m' hm' hid' x hx)
    · exact absurd he.symm (hfree m hm hid y hy)
    · rw [h.eq_of_targetStorage hp hm hm' (hid.trans hid'.symm) he]

/-- A record of replicas on different nodes stays sound. -/
theorem valid_of_nodup_nodes (h : c.Carried b done) (hp : b.Plans needed done) (hv : b.Valid)
    (hn : (b.replicas.map Replica.node).Nodup) : (b.moved done).Valid := by
  refine (h.valid_iff hp hv).2 fun m hm hid r hr hs => ?_
  have hcarries := hp.carries m hm hid
  have hnode := (h.at_target hp hm hid hr hs).1
  rcases hcarries.spread with hlocal | hfree
  · -- the only replica on the node of a local move is the one that moves
    obtain rfl : r = m.source :=
      List.inj_on_of_nodup_map hn hr hcarries.source (hnode.trans hlocal)
    exact hcarries.elsewhere hs.symm
  · exact hfree r hr hnode

end Carried

/-- A cluster that is given moves of a pass over its records, any of them and in whatever order, still lists
a record that was sound. It is sound again exactly if no executed move of its block ends on a storage
that held a replica of the block, and certainly if the replicas were on different nodes. -/
theorem Deployed.valid_recordOf_iff (hc : c.Deployed) (inventory : Inventory) (suite : Suite)
    (maxMoves : Nat) (l : Ledger) (blocks : List ListedBlock) {sub : List Move}
    (hsub : sub.Subperm (((Pass.start maxMoves inventory suite l).scheduleAll blocks).ledger.since l))
    (hex : ListedBlock.examined? blocks b.block.id = some b) (hb : c.Lists b) (hv : b.Valid) :
    let c' := (c.relocateAll sub).1
    c'.Lists (c'.recordOf b) ∧
    ((c'.recordOf b).Valid ↔ ∀ m ∈ c.executed sub, m.block.id = b.block.id →
      ∀ r ∈ b.replicas, r.storage ≠ m.targetStorage) ∧
    ((b.replicas.map Replica.node).Nodup → (c'.recordOf b).Valid) := by
  obtain ⟨needed, hall⟩ := Pass.exists_plans_since maxMoves inventory suite l hex
  have hplans := hall.subperm hsub
  have hcarried := hc.placed.carried_relocateAll hb hplans
  have hexecuted := hplans.sublist (c.executed_sublist sub)
  intro c'
  rw [show c'.recordOf b = b.moved (c.executed sub) from hcarried.recordOf_eq]
  exact ⟨hcarried.lists, hcarried.valid_iff hexecuted hv, hcarried.valid_of_nodup_nodes hexecuted hv⟩

/-- The record of the cold block of the sample. -/
def sampleRecord : ListedBlock :=
  ⟨"/f", "COLD", ⟨1, 4, 1⟩, .contiguous 1, [⟨"a", .disk, "a-s0", none⟩]⟩

/-- The move of the cold block is executed and leaves its record sound. -/
theorem valid_recordOf_sample : ∃ m, sample.Lists sampleRecord ∧
    ((Pass.start 5 (.ofReports sample.reports) .standard .empty).scheduleAll
      [sampleRecord]).ledger.since .empty = [m] ∧
    sample.executed [m] = [m] ∧ ((sample.relocateAll [m]).1.recordOf sampleRecord).Valid := by
  have hms : ((Pass.start 5 (.ofReports sample.reports) .standard .empty).scheduleAll
      [sampleRecord]).ledger.since .empty =
      [⟨"/f", ⟨1, 4, 1⟩, ⟨"a", .disk, "a-s0", none⟩, .archive, "a", "a-s1"⟩] := by
    decide +kernel
  have hdeployed : sample.Deployed := .described (d := sampleDescription) rfl
  have hlists : sample.Lists sampleRecord := ⟨"/", ⟨0, sampleRecord⟩, by decide +kernel, rfl⟩
  have hvalid : sampleRecord.Valid := by decide +kernel
  obtain ⟨-, -, hapart⟩ := hdeployed.valid_recordOf_iff (.ofReports sample.reports) .standard 5 .empty
    [sampleRecord] (List.Perm.of_eq hms.symm).subperm rfl hlists hvalid
  exact ⟨_, hlists, hms, by decide +kernel, hapart (by decide +kernel)⟩

/-! ### A record that does not stay sound -/

/-- A cold block with a replica on the disk and one in the archive of the only node. -/
def crowdedDescription : ClusterDescription where
  namespaceId := "ns1"
  pageSize := none
  nodes := [⟨"dn1", "/r1", [⟨.disk, 100⟩, ⟨.archive, 100⟩]⟩]
  files := [⟨"/cold", "COLD", some (.contiguous 2), [⟨1, 10, 0, [⟨"dn1", .disk⟩, ⟨"dn1", .archive⟩]⟩]⟩]
  faults := .none

/-- The cluster of this description. -/
def crowded : Cluster :=
  match crowdedDescription.build with
  | .ok c => c
  | .error _ => .empty ""

/-- The record of its block. -/
def crowdedRecord : ListedBlock :=
  ⟨"/cold", "COLD", ⟨1, 10, 0⟩, .contiguous 2,
   [⟨"dn1", .disk, "dn1-s0", none⟩, ⟨"dn1", .archive, "dn1-s1", none⟩]⟩

/-- The replica on disk is moved to the archive storage that holds the other one. The cluster accepts
the move, and then lists that storage twice. -/
theorem not_valid_crowded : ∃ c m, crowdedDescription.build = .ok c ∧
    (c.itemsUnder "/").map ListingItem.listed = [crowdedRecord] ∧ crowdedRecord.Valid ∧
    ((Pass.start 5 (.ofReports c.reports) .standard .empty).scheduleAll [crowdedRecord]).ledger.since
      .empty = [m] ∧
    (c.relocate m).2 = .ok () ∧ ¬ ((c.relocate m).1.recordOf crowdedRecord).Valid := by
  have hms : ((Pass.start 5 (.ofReports crowded.reports) .standard .empty).scheduleAll
      [crowdedRecord]).ledger.since .empty =
      [⟨"/cold", ⟨1, 10, 0⟩, ⟨"dn1", .disk, "dn1-s0", none⟩, .archive, "dn1", "dn1-s1"⟩] := by
    decide +kernel
  exact ⟨crowded, _, rfl, by decide +kernel, by decide +kernel, hms, by decide +kernel, by decide +kernel⟩

end Cluster

end StorageTiering
