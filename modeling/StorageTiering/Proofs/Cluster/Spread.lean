import StorageTiering.Proofs.Cluster.Moved
import StorageTiering.Proofs.Pass.Moves
/-!
# How a pass spreads the replicas of a block

* `ListedBlock.Spread` — no node holds more replicas of a block than one or what it held before, and the
  block is on no fewer nodes.
* `Pass.scheduleAll_spread` — every move of a pass is sound, the moves of a block are apart from each
  other, and any of them leave the block spread as it was, whatever the order in which they are carried
  out.
-/

namespace StorageTiering

namespace ListedBlock

/-- The replicas of a later record are spread no worse over nodes than those of an earlier one. -/
structure Spread (b b' : ListedBlock) : Prop where
  crowded : ∀ node, b'.countOn node ≤ max 1 (b.countOn node)
  nodes : b.nodes.card ≤ b'.nodes.card

variable {b : ListedBlock} {needed : List StorageType} {ms : List Move}

theorem Plans.spread (h : b.Plans needed ms) : b.Spread (b.moved ms) where
  crowded := h.countOn_le
  nodes := h.card_nodes_le

end ListedBlock

namespace Pass

/-- A pass over any listed blocks, with any ledger, schedules sound moves. Those of one block start on
different storages, end on different nodes and have different keys. Hence any of them, carried out in
whatever order, leave the block spread over nodes as well as it was listed, and so does a cluster that
lists the record and is given these moves, whatever it refuses. -/
theorem scheduleAll_spread (inventory : Inventory) (suite : Suite) (maxMoves : Nat) (l : Ledger)
    (blocks : List ListedBlock) :
    let ms := ((Pass.start maxMoves inventory suite l).scheduleAll blocks).ledger.since l
    (∀ m ∈ ms, ∃ b needed, ListedBlock.examined? blocks m.block.id = some b ∧
      suite.resolve b.policy b.layout = .ok (.required needed) ∧ m.Sound inventory needed b) ∧
    ms.Pairwise (fun m m' => m.block.id = m'.block.id → m.source.storage ≠ m'.source.storage ∧
      m.targetNode ≠ m'.targetNode ∧ m.key ≠ m'.key) ∧
    ∀ sub, sub.Subperm ms → ∀ b, ListedBlock.examined? blocks b.block.id = some b →
      b.Spread (b.movedInTurn sub) ∧
      ∀ c : Cluster, c.Deployed → c.Lists b → b.Spread ((c.relocateAll sub).1.recordOf b) := by
  obtain ⟨booked, hbooked⟩ := exists_schedules (.start maxMoves inventory suite l) blocks
  have hs := hbooked.mono fun hG => hG.2
  intro ms
  have hms : ms = booked.reverse := hs.since_eq
  have hperm : booked.Perm ms := hms ▸ (List.reverse_perm booked).symm
  refine ⟨fun m hm => hs.sound (hperm.mem_iff.2 hm), ?_, fun sub hsub b hex => ?_⟩
  · have hapart : ms.Pairwise Move.Apart := (hperm.pairwise_iff Move.Apart.symm).1 hs.apart
    have hkeys : ms.Pairwise fun m m' => m.key ≠ m'.key :=
      List.pairwise_map.1 ((hperm.map Move.key).nodup_iff.1 hs.nodup_keys)
    exact hapart.imp₂ (fun m m' ha hk hid => ⟨(ha hid).1, (ha hid).2, hk⟩) hkeys
  · obtain ⟨needed, hall⟩ := exists_plans_since maxMoves inventory suite l hex
    have hplans := hall.subperm hsub
    refine ⟨hplans.movedInTurn_eq ▸ hplans.spread, fun c hc hb => ?_⟩
    rw [(hc.placed.carried_relocateAll hb hplans).recordOf_eq]
    exact (hplans.sublist (c.executed_sublist sub)).spread

/-- A cold block with a replica on the disk of one node and one on the flash of another. The first node
has an archive too, and so has a third one. -/
def scatteredDescription : ClusterDescription where
  namespaceId := "ns"
  pageSize := none
  nodes :=
    [⟨"a", "/r", [⟨.disk, 10⟩, ⟨.archive, 10⟩]⟩, ⟨"b", "/r", [⟨.ssd, 10⟩]⟩, ⟨"c", "/q", [⟨.archive, 10⟩]⟩]
  files := [⟨"/f", "COLD", some (.contiguous 2), [⟨1, 4, 1, [⟨"a", .disk⟩, ⟨"b", .ssd⟩]⟩]⟩]
  faults := .none

/-- The cluster of this description. -/
def scattered : Cluster :=
  match scatteredDescription.build with
  | .ok c => c
  | .error _ => .empty ""

/-- The record of its block. -/
def scatteredRecord : ListedBlock :=
  ⟨"/f", "COLD", ⟨1, 4, 1⟩, .contiguous 2, [⟨"a", .disk, "a-s0", none⟩, ⟨"b", .ssd, "b-s0", none⟩]⟩

/-- What the nodes of this cluster offer. -/
def scatteredInventory : Inventory :=
  ⟨[("a", "/r"), ("b", "/r"), ("c", "/q")],
   [⟨"a", "/r", "a-s0", .disk, 6⟩, ⟨"a", "/r", "a-s1", .archive, 10⟩, ⟨"b", "/r", "b-s0", .ssd, 6⟩,
    ⟨"c", "/q", "c-s0", .archive, 10⟩]⟩

/-- One replica moves on its node and the other to the third node, and the cluster executes both moves,
the later one first. -/
theorem scheduleAll_spread_scattered : ∃ m m',
    ((Pass.start 5 scatteredInventory .standard .empty).scheduleAll [scatteredRecord]).ledger.since
      .empty = [m, m'] ∧
    m.targetNode = "a" ∧ m'.targetNode = "c" ∧
    scatteredRecord.Spread (scatteredRecord.movedInTurn [m', m]) ∧
    scatteredRecord.Spread ((scattered.relocateAll [m', m]).1.recordOf scatteredRecord) := by
  have hms : ((Pass.start 5 scatteredInventory .standard .empty).scheduleAll
      [scatteredRecord]).ledger.since .empty =
      [⟨"/f", ⟨1, 4, 1⟩, ⟨"a", .disk, "a-s0", none⟩, .archive, "a", "a-s1"⟩,
       ⟨"/f", ⟨1, 4, 1⟩, ⟨"b", .ssd, "b-s0", none⟩, .archive, "c", "c-s0"⟩] := by
    decide +kernel
  obtain ⟨-, -, hspread⟩ := scheduleAll_spread scatteredInventory .standard 5 .empty [scatteredRecord]
  rw [hms] at hspread
  obtain ⟨hturn, hcluster⟩ := hspread _ (List.Perm.swap _ _ []).subperm scatteredRecord rfl
  have hdeployed : scattered.Deployed := .described (d := scatteredDescription) rfl
  have hlists : scattered.Lists scatteredRecord := ⟨"/", ⟨0, scatteredRecord⟩, by decide +kernel, rfl⟩
  exact ⟨_, _, hms, rfl, rfl, hturn, hcluster scattered hdeployed hlists⟩

end Pass

end StorageTiering
