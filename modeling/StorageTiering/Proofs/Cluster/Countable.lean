import StorageTiering.Proofs.Cluster.Execution
import StorageTiering.Proofs.Cluster.Space
/-!
# Clusters whose bytes can be counted

The bytes that the source of a move gets back are added in eight bytes. The sum fits as long as what is free on
a storage and what its replicas take can be counted together, and moves of stored replicas keep it so.

* `Cluster.Countable` — clusters of which this is true; `Cluster.Countable.relocate` keeps it.
* `Cluster.Fitting.freed_le_bytesOn` — moves that fit take no more from a storage than its replicas have.
* `Cluster.Countable.accepts` — moves that fit and have room are a plan.
* `Cluster.Executes.countable` — attempts at such moves keep the cluster countable.
-/

namespace StorageTiering.Cluster

variable {c c₀ : Cluster} {m : Move} {ms ms₀ : List Move} {node : NodeId} {storage : StorageId} {s : Store}
  {moved failed : Nat}

/-- What is free on a storage and what its replicas take can be counted together in eight bytes. -/
def Countable (c : Cluster) : Prop :=
  ∀ n ∈ c.nodes, ∀ s ∈ n.2.stores, s.remaining + c.bytesOn n.1 s.id < Text.byteBound 8

instance : DecidablePred Countable := fun c => by unfold Countable; infer_instance

theorem Countable.of_store? (h : c.Countable) (hs : c.store? node storage = some s) :
    s.remaining + c.bytesOn node storage < Text.byteBound 8 := by
  obtain ⟨n, hn, hmem, rfl⟩ := store?_eq_some hs
  exact h _ hn _ hmem

theorem Countable.congr {c' : Cluster} (h : c.Countable) (hn : c'.nodes = c.nodes)
    (hb : c'.blocks = c.blocks) : c'.Countable := by
  intro n hmem s hs
  rw [bytesOn, hb]
  exact h n (hn ▸ hmem) s hs

/-- A move that fits is one of a stored replica. -/
theorem Fits.holds (h : c.Fits m) : c.Holds m := by
  obtain ⟨b, hb, hblock, hsource, -⟩ := h.held
  exact ⟨b, hb, hblock, hsource⟩

/-! ### Moves of stored replicas -/

/-- A move of a stored replica takes from the source at least what the source gets back. -/
theorem Countable.relocate (h : c.Countable) (hc : c.Placed) (hm : c.Holds m) :
    (c.relocate m).1.Countable := by
  intro n hn s hs
  have hstore := (hc.relocate m).toLaid.store?_of_mem hn hs
  generalize n.1 = node, s.id = storage at hstore ⊢
  cases he : c.relocationError? m with
  | some e =>
    rw [relocate_of_error he] at hstore ⊢
    exact h.of_store? hstore
  | none =>
    obtain ⟨-, -, -, -, -, -, target, htarget, -, hfits⟩ := relocationError?_eq_none_iff.1 he
    rw [relocate_of_none he] at hstore ⊢
    have hbytes := hc.bytesOn_applyMove hm node storage
    change (c.applyMove m).store? node storage = some s at hstore
    change s.remaining + (c.applyMove m).bytesOn node storage < Text.byteBound 8
    rw [store?_applyMove] at hstore
    obtain ⟨s₀, hs₀, rfl⟩ := Option.map_eq_some_iff.1 hstore
    have hcounted := h.of_store? hs₀
    have hroom : node = m.targetNode ∧ storage = m.targetStorage → m.block.len ≤ s₀.remaining := by
      rintro ⟨rfl, rfl⟩
      obtain rfl := Option.some.inj (htarget.symm.trans hs₀)
      exact hfits
    by_cases ht : node = m.targetNode ∧ storage = m.targetStorage
    · have hroom := hroom ht
      by_cases hsrc : node = m.source.node ∧ storage = m.source.storage
      · have hrefund := Store.refunded_le_add { s₀ with remaining := s₀.remaining - m.block.len } m.block.len
        simp only [if_pos ht, if_pos hsrc] at hbytes hrefund ⊢
        omega
      · simp only [if_pos ht, if_neg hsrc] at hbytes ⊢
        omega
    · by_cases hsrc : node = m.source.node ∧ storage = m.source.storage
      · have hrefund := Store.refunded_le_add s₀ m.block.len
        simp only [if_neg ht, if_pos hsrc] at hbytes ⊢
        omega
      · simp only [if_neg ht, if_neg hsrc] at hbytes ⊢
        omega

/-! ### Moves that are planned beside each other -/

/-- The blocks with a replica on a storage take no more than all replicas there. -/
theorem sum_len_le_bytesOn (c : Cluster) (node : NodeId) (storage : StorageId) :
    ((c.blocks.filter fun b => b.replicas.any (Replica.isOn node storage)).map fun b => b.block.len).sum ≤
      c.bytesOn node storage := by
  rw [bytesOn]
  induction c.blocks with
  | nil => exact Nat.le_refl 0
  | cons b rest ih =>
    rw [List.filter_cons]
    split
    · rename_i hany
      obtain ⟨r, hr, hon⟩ := List.any_eq_true.1 hany
      have hcount := Nat.le_mul_of_pos_right b.block.len (List.countP_pos_iff.2 ⟨r, hr, hon⟩)
      simp only [List.map_cons, List.sum_cons]
      omega
    · simp only [List.map_cons, List.sum_cons]
      omega

/-- Moves that fit take no more from a storage than its replicas have: two of them from one storage are of
different blocks. -/
theorem Fitting.freed_le_bytesOn (h : c.Fitting ms) (node : NodeId) (storage : StorageId) :
    Move.freed ms node storage ≤ c.bytesOn node storage := by
  let leaving := ms.filter fun m => m.source.node == node && m.source.storage == storage
  have hsource : ∀ m ∈ leaving, m ∈ ms ∧ m.source.node = node ∧ m.source.storage = storage := by
    intro m hm
    obtain ⟨hmem, hon⟩ := List.mem_filter.1 hm
    exact ⟨hmem, by simpa using hon⟩
  have hdistinct : (leaving.map Move.block).Nodup := by
    refine List.pairwise_map.2 ((h.apart.filter _).imp_of_mem fun {a b} ha hb hab he => ?_)
    exact (hab (congrArg Block.id he)).1 ((hsource a ha).2.2.trans (hsource b hb).2.2.symm)
  have hstored : leaving.map Move.block ⊆
      (c.blocks.filter fun b => b.replicas.any (Replica.isOn node storage)).map PlacedBlock.block := by
    intro block hblock
    obtain ⟨m, hm, rfl⟩ := List.mem_map.1 hblock
    obtain ⟨hmem, hnode, hstorage⟩ := hsource m hm
    obtain ⟨b, hb, hsame, hreplica⟩ := (h.fits m hmem).holds
    refine List.mem_map.2 ⟨b, List.mem_filter.2 ⟨(block?_eq_some hb).1, ?_⟩, hsame⟩
    exact List.any_eq_true.2 ⟨m.source, hreplica, isOn_eq_true_iff.2 ⟨hnode, hstorage⟩⟩
  obtain ⟨blocks, hperm, hsub⟩ := List.subperm_of_subset hdistinct hstored
  calc Move.freed ms node storage
      = ((leaving.map Move.block).map Block.len).sum := by
        rw [List.map_map]
        rfl
    _ = (blocks.map Block.len).sum := (hperm.map _).sum_eq.symm
    _ ≤ _ := (hsub.map Block.len).sum_le_sum fun _ _ => Nat.zero_le _
    _ ≤ c.bytesOn node storage := by
        rw [List.map_map]
        exact c.sum_len_le_bytesOn node storage

/-- Moves that fit and have room together are a plan, if the bytes of the cluster can be counted. -/
theorem Countable.accepts (h : c.Countable) (hf : c.Fitting ms)
    (hroom : ∀ {node storage s}, c.store? node storage = some s → Move.load ms node storage ≤ s.remaining) :
    c.Accepts ms where
  toFitting := hf
  room := hroom
  countable := fun {node storage s} hs =>
    (Nat.add_le_add_left (hf.freed_le_bytesOn node storage) s.remaining).trans_lt (h.of_store? hs)

/-- Attempts at moves that fit leave a countable cluster. -/
theorem Executes.countable (h : Executes c₀ ms₀ c ms moved failed) (hc : c₀.Placed) (hf : c₀.Fitting ms₀)
    (h₀ : c₀.Countable) : c.Countable := by
  have hall : c.Placed ∧ c.Fitting ms ∧ c.Countable := by
    induction h with
    | start => exact ⟨hc, hf, h₀⟩
    | done _ hok ih =>
      obtain ⟨hc, hf, hcount⟩ := ih
      have hfits := hf.perm List.perm_middle
      exact ⟨hc.relocate _, hfits.relocate hok,
        hcount.relocate hc (hfits.fits _ List.mem_cons_self).holds⟩
    | again _ hno ih =>
      obtain ⟨hc, hf, hcount⟩ := ih
      rw [relocate_of_error hno]
      exact ⟨hc.congr rfl rfl, hf.called, hcount⟩
    | givenUp _ hno ih =>
      obtain ⟨hc, hf, hcount⟩ := ih
      rw [relocate_of_error hno]
      exact ⟨hc.congr rfl rfl, ((hf.perm List.perm_middle).sublist (List.sublist_cons_self _ _)).called, hcount⟩
  exact hall.2.2

end StorageTiering.Cluster
