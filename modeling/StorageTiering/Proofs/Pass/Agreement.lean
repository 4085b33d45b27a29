import StorageTiering.Proofs.Cluster.Records
import StorageTiering.Proofs.Inventory
import StorageTiering.Proofs.Pass.Survey
/-!
# Passes and clusters agree

A pass that works with what a cluster reports and lists schedules nothing that the cluster refuses.

* `Cluster.exists_offer`, `Cluster.store?_of_mem_offers` — the offers of a cluster are its storages.
* `Cluster.Placed.fitting_scheduled`, `Cluster.Placed.room_scheduled` — the moves of a pass fit, and have room
  together.
* `Cluster.Deployed.relocateAll_scheduled` — any of them are executed, whatever the order.
-/

namespace StorageTiering

namespace Cluster

variable {c : Cluster} {o : Offer} {node : NodeId} {storage : StorageId} {s : Store}

/-! ### Offers and storages -/

theorem mem_offers_ofReports : o ∈ (Inventory.ofReports c.reports).offers ↔
    ∃ n ∈ c.nodes, ∃ s ∈ n.2.stores, o = ⟨n.1, n.2.rack, s.id, s.type, s.remaining⟩ := by
  simp only [Inventory.ofReports, Offer.mem_sort, List.mem_flatMap, reports, List.mem_map,
    NodeReport.offers]
  constructor
  · rintro ⟨report, ⟨n, hn, rfl⟩, t, ht, rfl⟩
    obtain ⟨s, hs, rfl⟩ := List.mem_map.1 ht
    exact ⟨n, hn, s, hs, rfl⟩
  · rintro ⟨n, hn, s, hs, rfl⟩
    exact ⟨_, ⟨n, hn, rfl⟩, _, List.mem_map_of_mem hs, rfl⟩

/-- An offer is a storage of the cluster with its type and its free bytes. -/
theorem Laid.store?_of_mem_offers (h : c.Laid) (ho : o ∈ (Inventory.ofReports c.reports).offers) :
    ∃ s, c.store? o.node o.storage = some s ∧ s.type = o.type ∧ s.remaining = o.remaining := by
  obtain ⟨n, hn, s, hs, rfl⟩ := mem_offers_ofReports.1 ho
  exact ⟨s, h.store?_of_mem hn hs, rfl, rfl⟩

/-- Every storage of the cluster is an offer. -/
theorem exists_offer (h : c.store? node storage = some s) :
    ∃ o ∈ (Inventory.ofReports c.reports).offers,
      o.node = node ∧ o.storage = storage ∧ o.remaining = s.remaining := by
  obtain ⟨n, hn, hs, hid⟩ := store?_eq_some h
  exact ⟨_, mem_offers_ofReports.2 ⟨(node, n), hn, s, hs, rfl⟩, rfl, hid, rfl⟩

/-- The node and the name of a storage tell its offer. -/
theorem Laid.offer_eq (h : c.Laid) : ∀ o ∈ (Inventory.ofReports c.reports).offers,
    ∀ o' ∈ (Inventory.ofReports c.reports).offers,
      o.node = o'.node → o.storage = o'.storage → o = o' := by
  intro o ho o' ho' hnode hstorage
  obtain ⟨n, hn, s, hs, rfl⟩ := mem_offers_ofReports.1 ho
  obtain ⟨n', hn', s', hs', rfl⟩ := mem_offers_ofReports.1 ho'
  obtain rfl := h.ascending.eq_of_key hn hn' hnode
  obtain rfl : s = s' := List.inj_on_of_nodup_map (h.distinct n hn) hs hs' hstorage
  rfl

/-! ### Agreement -/

variable {suite : Suite} {maxMoves : Nat} {l : Ledger} {blocks : List ListedBlock} {ms : List Move}
  {q : Pass}

/-- The moves of a pass over records of a cluster each fit, and do not get in each other's way. -/
theorem Placed.fitting_scheduled (h : c.Placed)
    (hs : (Pass.start maxMoves (.ofReports c.reports) suite l).Surveys blocks ms q)
    (hb : ∀ b ∈ blocks, c.Lists b) : c.Fitting ms where
  fits := by
    intro m hm
    obtain ⟨b, source, o, rfl, ⟨hmem, hsource, -⟩, ho, -, -, hnode⟩ := hs.schedules.offered m hm
    obtain ⟨p, hp, hblock, hreplicas⟩ := (hb b hmem).block?
    obtain ⟨s, hs, ht, -⟩ := h.toLaid.store?_of_mem_offers ho
    refine ⟨⟨p, hp, hblock, hreplicas ▸ hsource, hnode.imp_right fun hn r hr => ?_⟩, s, hs, ht⟩
    rw [hreplicas] at hr
    show r.node ≠ o.node
    simpa using List.any_eq_false.1 hn r hr
  apart := hs.schedules.apart

/-- They have room together. -/
theorem Placed.room_scheduled (h : c.Placed)
    (hs : (Pass.start maxMoves (.ofReports c.reports) suite l).Surveys blocks ms q)
    (hstore : c.store? node storage = some s) : Move.load ms node storage ≤ s.remaining := by
  obtain ⟨o, ho, rfl, rfl, hr⟩ := exists_offer hstore
  exact hr ▸ hs.schedules.room h.toLaid.offer_eq o ho

/-- A pass that starts with an empty ledger, and works with the reports and any records of a described
cluster after any relocations, schedules only moves that the cluster executes: all of them or some,
whatever the order, as long as no storage gets more bytes back than can be counted in eight bytes. -/
theorem Deployed.relocateAll_scheduled (hc : c.Deployed) (hmissing : c.missing = [])
    (hrefused : c.refused = []) (suite : Suite) (maxMoves : Nat) (hl : l.Clear)
    (hb : ∀ b ∈ blocks, c.Lists b)
    (hms : ms.Subperm (((Pass.start maxMoves (.ofReports c.reports) suite l).scheduleAll
      blocks).ledger.entries.map Entry.move))
    (hcountable : ∀ n ∈ c.nodes, ∀ s ∈ n.2.stores, s.remaining + Move.freed ms n.1 s.id < Text.byteBound 8) :
    (c.relocateAll ms).2 = List.replicate ms.length (.ok ()) := by
  obtain ⟨all, hs⟩ := Pass.exists_surveys (.start maxMoves (.ofReports c.reports) suite l) blocks
  have hmoves := (hs.schedules.ledgered hl.consistent hl.fresh).1
  rw [show (Pass.start maxMoves (.ofReports c.reports) suite l).ledger.entries = [] from hl.1,
    List.map_nil, List.nil_append] at hmoves
  rw [hmoves] at hms
  obtain ⟨sub, hperm, hsub⟩ := hms.trans (List.reverse_perm all).subperm
  have haccepts : c.Accepts ms := by
    refine ⟨((hc.placed.fitting_scheduled hs hb).sublist hsub).perm hperm, fun hstore => ?_,
      fun hstore => ?_⟩
    · rw [← Move.load_perm hperm]
      exact (Move.bytes_sublist_le hsub).trans (hc.placed.room_scheduled hs hstore)
    · obtain ⟨n, hn, hmem, rfl⟩ := store?_eq_some hstore
      exact hcountable _ hn _ hmem
  exact haccepts.relocateAll hc.placed hmissing hrefused

/-- A cold block on disk and a hot block in the archive, with room for both elsewhere. -/
def sampleDescription : ClusterDescription where
  namespaceId := "ns"
  pageSize := some 1
  nodes := [⟨"a", "/r", [⟨.disk, 10⟩, ⟨.archive, 10⟩]⟩, ⟨"b", "/r", [⟨.disk, 10⟩]⟩]
  files :=
    [⟨"/f", "COLD", some (.contiguous 1), [⟨1, 4, 1, [⟨"a", .disk⟩]⟩]⟩,
     ⟨"/g/h", "HOT", some (.contiguous 1), [⟨2, 3, 1, [⟨"a", .archive⟩]⟩]⟩]
  faults := .none

/-- The cluster of this description. -/
def sample : Cluster :=
  match sampleDescription.build with
  | .ok c => c
  | .error _ => .empty ""

/-- Two moves are scheduled for the two blocks, and executed the other way round. -/
theorem relocateAll_scheduled_sample : ∃ m m',
    ((Pass.start 5 (.ofReports sample.reports) .standard .empty).scheduleAll
      ((sample.itemsUnder "/").map ListingItem.listed)).ledger.entries.map Entry.move = [m, m'] ∧
    (sample.relocateAll [m', m]).2 = [.ok (), .ok ()] := by
  have hms : ((Pass.start 5 (.ofReports sample.reports) .standard .empty).scheduleAll
      ((sample.itemsUnder "/").map ListingItem.listed)).ledger.entries.map Entry.move =
      [⟨"/f", ⟨1, 4, 1⟩, ⟨"a", .disk, "a-s0", none⟩, .archive, "a", "a-s1"⟩,
       ⟨"/g/h", ⟨2, 3, 1⟩, ⟨"a", .archive, "a-s1", none⟩, .disk, "a", "a-s0"⟩] := by
    decide +kernel
  have hlists : ∀ b ∈ (sample.itemsUnder "/").map ListingItem.listed, sample.Lists b := by
    intro b hb
    obtain ⟨i, hi, rfl⟩ := List.mem_map.1 hb
    exact ⟨"/", i, hi, rfl⟩
  refine ⟨_, _, hms, Deployed.relocateAll_scheduled (.described (d := sampleDescription) rfl) rfl rfl
    .standard 5 Ledger.clear_empty hlists ?_ (by decide +kernel)⟩
  rw [hms]
  exact (List.Perm.swap _ _ []).subperm

end Cluster

end StorageTiering
