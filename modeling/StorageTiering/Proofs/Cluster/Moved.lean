import StorageTiering.Proofs.Cluster.Deficit
import StorageTiering.Proofs.Moved
/-!
# Records of a cluster that executes moves

* `Cluster.executed` — of moves that are tried one after another, those that the cluster executes.
* `Cluster.recordOf` — a record as the cluster has it now.
* `Cluster.Carried` — what is true of a record from the past and of the moves executed since.
* `Cluster.Carried.relocateAll`, `Cluster.Placed.carried_relocateAll` — a cluster that is given planned
  moves of a record, in whatever order, comes to have the record with exactly the executed ones carried
  out.
-/

namespace StorageTiering

namespace Cluster

variable {c : Cluster} {b : ListedBlock} {needed : List StorageType} {ms done : List Move} {m : Move}

/-- Of moves that are tried one after another, those that the cluster executes. -/
def executed (c : Cluster) : List Move → List Move
  | [] => []
  | m :: rest =>
      match (c.relocate m).2 with
      | .ok () => m :: executed (c.relocate m).1 rest
      | .error _ => executed (c.relocate m).1 rest

/-- A record with the replicas that the cluster has of its block now. -/
def recordOf (c : Cluster) (b : ListedBlock) : ListedBlock :=
  { b with replicas := c.replicasOf b.block.id }

theorem executed_sublist (c : Cluster) (ms : List Move) : (c.executed ms).Sublist ms := by
  induction ms generalizing c with
  | nil => exact List.Sublist.slnil
  | cons m rest ih =>
    rw [executed]
    split
    · exact (ih _).cons_cons m
    · exact (ih _).cons m

/-- A move of a replica that is the only one on its storage moves that replica and no other. -/
theorem moveReplica_map {f : Replica → Replica} {replicas : List Replica} (hn : replicas.Nodup)
    (hf : f m.source = m.source)
    (hne : ∀ r ∈ replicas, r ≠ m.source → (f r).storage ≠ m.source.storage) :
    moveReplica m (replicas.map f) =
      replicas.map fun r => if r = m.source then arrived m r else f r := by
  induction replicas with
  | nil => rfl
  | cons r rest ih =>
    obtain ⟨hr, hrest⟩ := List.nodup_cons.1 hn
    rw [List.map_cons, List.map_cons, moveReplica]
    by_cases hs : r = m.source
    · subst hs
      have hstay : rest.map (fun r => if r = m.source then arrived m r else f r) = rest.map f :=
        List.map_congr_left fun x hx => if_neg fun (he : x = m.source) => hr (he ▸ hx)
      rw [hf, if_pos rfl, if_pos rfl, hstay]
      rfl
    · rw [if_neg (hne r List.mem_cons_self hs), if_neg hs,
        ih hrest fun x hx => hne x (List.mem_cons_of_mem _ hx)]

theorem Lists.relocate (h : c.Lists b) (hok : c.relocationError? m = none) :
    (c.relocate m).1.Lists (b.after m) := by
  obtain ⟨f, hf, id, hid, hb⟩ := lists_iff.1 h
  obtain ⟨nodes, blocks, he, -⟩ := relocate_frame c m
  refine lists_iff.2 ⟨f, ?_, id, hid, ?_⟩
  · rw [he]
    exact hf
  · rw [listedBlock?_relocate hok, hb]
    rfl

/-- A record from the past, with the moves that the cluster has executed since: the replicas were on
storages of their types, and the moves have ended on storages of their target types. -/
structure Carried (c : Cluster) (b : ListedBlock) (done : List Move) : Prop where
  placed : c.Placed
  lists : c.Lists (b.moved done)
  housed : ∀ r ∈ b.replicas, ∃ s, c.store? r.node r.storage = some s ∧ s.type = r.type
  landed : ∀ m ∈ done, ∃ s, c.store? m.targetNode m.targetStorage = some s ∧ s.type = m.targetType

theorem Placed.carried (h : c.Placed) (hb : c.Lists b) : c.Carried b [] where
  placed := h
  lists := by rwa [ListedBlock.moved_nil]
  housed := by
    obtain ⟨p, hp, -, hreplicas⟩ := hb.block?
    exact hreplicas ▸ h.housed p (block?_eq_some hp).1
  landed := fun _ hm => nomatch hm

namespace Carried

theorem recordOf_eq (h : c.Carried b done) : c.recordOf b = b.moved done := by
  obtain ⟨p, hp, -, hreplicas⟩ := h.lists.block?
  have hp : c.block? b.block.id = some p := hp
  rw [recordOf, replicasOf, hp, ListedBlock.moved]
  exact congrArg (fun replicas => { b with replicas := replicas }) hreplicas

/-- A refused move leaves everything as it is. -/
theorem called (h : c.Carried b done) : c.called.Carried b done where
  placed := h.placed.congr rfl rfl
  lists := h.lists
  housed := h.housed
  landed := h.landed

/-- No replica has come to a storage from which one is still to be moved: the types differ. -/
theorem storage_ne_source (h : c.Carried b done) (hp : b.Plans needed (done ++ [m]))
    (hid : m.block.id = b.block.id) {r : Replica} (hr : r ∈ b.replicas) (hne : r ≠ m.source) :
    (b.placeAfter done r).storage ≠ m.source.storage := by
  have hm := hp.carries m (List.mem_append_right _ List.mem_cons_self) hid
  intro he
  rcases b.placeAfter_cases done r with ⟨-, hstill⟩ | ⟨m', hm', hid', -, harrived⟩
  · rw [hstill] at he
    exact hne (List.inj_on_of_nodup_map hm.valid.storages hr hm.source he)
  · rw [harrived] at he
    obtain ⟨s, hs, ht⟩ := h.landed m' hm'
    obtain ⟨s', hs', ht'⟩ := h.housed m.source hm.source
    have he : m'.targetStorage = m.source.storage := he
    rw [he] at hs
    rw [h.placed.toLaid.store?_inj hs hs'] at hs
    have htype : m'.targetType = m.source.type := by
      rw [← ht, ← ht', Option.some.inj (hs.symm.trans hs')]
    have hmissing := (hp.carries m' (List.mem_append_left _ hm') hid').missing
    exact Difference.not_mem_surplus hmissing (htype ▸ hm.surplus)

/-- A move that is executed is carried out on the record. -/
theorem after_eq (h : c.Carried b done) (hp : b.Plans needed (done ++ [m])) :
    (b.moved done).after m = b.moved (done ++ [m]) := by
  by_cases hid : m.block.id = b.block.id
  · have hm := hp.carries m (List.mem_append_right _ List.mem_cons_self) hid
    have hstill : b.placeAfter done m.source = m.source :=
      ListedBlock.placeAfter_of_none (hp.source_ne_last hid)
    have hreplicas : moveReplica m (b.replicas.map (b.placeAfter done)) =
        b.replicas.map (b.placeAfter (done ++ [m])) := by
      rw [moveReplica_map hm.valid.storages.of_map hstill fun r hr => h.storage_ne_source hp hid hr]
      exact List.map_congr_left fun r _ => (hp.placeAfter_append hid r).symm
    rw [ListedBlock.after, if_pos (show (b.moved done).block.id = m.block.id from hid.symm)]
    exact congrArg (fun replicas => { b with replicas := replicas }) hreplicas
  · rw [ListedBlock.Plans.moved_append_of_ne done hid]
    exact ListedBlock.after_of_ne (Ne.symm hid)

theorem relocate (h : c.Carried b done) (hp : b.Plans needed (done ++ [m]))
    (hok : c.relocationError? m = none) : (c.relocate m).1.Carried b (done ++ [m]) := by
  have hkeep : ∀ {node storage} {type : StorageType},
      (∃ s, c.store? node storage = some s ∧ s.type = type) →
        ∃ s, (c.relocate m).1.store? node storage = some s ∧ s.type = type := by
    rintro node storage type ⟨s, hs, ht⟩
    obtain ⟨s', hs', ht', -⟩ := store?_of_shape (shape_relocate c m) hs
    exact ⟨s', hs', ht'.trans ht⟩
  refine ⟨h.placed.relocate m, ?_, fun r hr => hkeep (h.housed r hr), fun m' hm' => hkeep ?_⟩
  · rw [← h.after_eq hp]
    exact h.lists.relocate hok
  · rcases List.mem_append.1 hm' with hm' | hm'
    · exact h.landed m' hm'
    · obtain rfl := List.mem_singleton.1 hm'
      obtain ⟨-, -, -, -, -, -, s, hs, ht, -⟩ := relocationError?_eq_none_iff.1 hok
      exact ⟨s, hs, ht⟩

/-- Planned moves that are tried one after another leave the record with exactly the executed ones carried
out, whatever the order. -/
theorem relocateAll (h : c.Carried b done) (hp : b.Plans needed (done ++ ms)) :
    (c.relocateAll ms).1.Carried b (done ++ c.executed ms) := by
  induction ms generalizing c done with
  | nil =>
    rw [executed, List.append_nil]
    exact h
  | cons m rest ih =>
    rw [executed, Cluster.relocateAll]
    cases hok : c.relocationError? m with
    | none =>
      rw [List.append_cons] at hp
      have hone := h.relocate (hp.sublist (List.sublist_append_left _ _)) hok
      rw [relocate_ok_iff.2 hok, List.append_cons]
      exact ih hone hp
    | some e =>
      rw [relocate_of_error hok]
      exact ih h.called (hp.sublist ((List.sublist_cons_self m rest).append_left done))

end Carried

/-- A cluster that lists a record and is given planned moves of it comes to list the record with exactly
the executed ones carried out. -/
theorem Placed.carried_relocateAll (h : c.Placed) (hb : c.Lists b) (hp : b.Plans needed ms) :
    (c.relocateAll ms).1.Carried b (c.executed ms) := by
  have hall := (h.carried hb).relocateAll (List.nil_append ms ▸ hp)
  rwa [List.nil_append] at hall

end Cluster

end StorageTiering
