import StorageTiering.Proofs.Cluster.Execution
import StorageTiering.Proofs.Cluster.Records
import StorageTiering.Proofs.Shortfall
/-!
# How far a cluster is from its policies

* `Cluster.deficit` — the moves that are left for the sound records at or below several paths.
* `Cluster.listedUnder_relocate` — the records after a move.
* `ListedBlock.Aims.swap` — a move brings its block one move nearer.
* `Cluster.Underway` — what is true while moves are executed that each aim at the policy of a block.
* `Cluster.Underway.deficit_le` — every move that is done lowers the deficit.
-/

namespace StorageTiering

/-! ### One record -/

namespace ListedBlock

variable {c : Cluster} {suite : Suite} {b : ListedBlock} {m : Move} {ms ms' : List Move}

/-- The record of a block after a move. -/
def after (m : Move) (b : ListedBlock) : ListedBlock :=
  if b.block.id = m.block.id then { b with replicas := Cluster.moveReplica m b.replicas } else b

theorem block_after (m : Move) (b : ListedBlock) : (b.after m).block = b.block := by
  rw [after]
  split <;> rfl

theorem after_of_ne (h : b.block.id ≠ m.block.id) : b.after m = b := if_neg h

theorem resolve_after (suite : Suite) (m : Move) (b : ListedBlock) :
    suite.resolve (b.after m).policy (b.after m).layout = suite.resolve b.policy b.layout := by
  rw [after]
  split <;> rfl

theorem Aims.perm (h : b.Aims suite ms) (hp : ms.Perm ms') : b.Aims suite ms' := by
  have hown : (Move.ofBlock b.block.id ms).Perm (Move.ofBlock b.block.id ms') := hp.filter _
  rcases h with hnil | ⟨d, hd, hm, hs⟩
  · exact .inl (hnil ▸ hown).nil_eq.symm
  · exact .inr ⟨d, hd, (hown.map _).symm.subperm.trans hm, (hown.map _).symm.subperm.trans hs⟩

theorem Aims.of_cons (h : b.Aims suite (m :: ms)) : b.Aims suite ms := by
  have hown : (Move.ofBlock b.block.id ms).Sublist (Move.ofBlock b.block.id (m :: ms)) :=
    (List.sublist_cons_self m ms).filter _
  rcases h with hnil | ⟨d, hd, hm, hs⟩
  · exact .inl (List.sublist_nil.1 (hnil ▸ hown))
  · exact .inr ⟨d, hd, (hown.map _).subperm.trans hm, (hown.map _).subperm.trans hs⟩

/-- What a move of a replica that is there does to the difference of its block. -/
theorem Aims.swap (h : b.Aims suite (m :: ms)) (hid : b.block.id = m.block.id)
    (hr : ∃ front r back, b.replicas = front ++ r :: back ∧ r.type = m.source.type ∧
      Cluster.moveReplica m b.replicas = front ++ Cluster.arrived m r :: back) :
    ∃ d d', b.difference? suite = some d ∧ (b.after m).difference? suite = some d' ∧
      d'.deficit + 1 = d.deficit ∧
      ((Move.ofBlock b.block.id ms).map Move.targetType).Subperm d'.missing ∧
      ((Move.ofBlock b.block.id ms).map fun m => m.source.type).Subperm d'.surplus := by
  have hown : Move.ofBlock b.block.id (m :: ms) = m :: Move.ofBlock b.block.id ms :=
    List.filter_cons_of_pos (by simp [hid])
  rw [Aims, hown] at h
  obtain ⟨d, hd, hmissing, hsurplus⟩ := h.resolve_left (List.cons_ne_nil _ _)
  rw [List.map_cons] at hmissing hsurplus
  obtain ⟨needed, hresolve, rfl⟩ : ∃ needed, suite.resolve b.policy b.layout = .ok (.required needed) ∧
      d = .between needed b.types := by
    rw [difference?] at hd
    split at hd
    · rename_i needed hresolve
      exact ⟨needed, hresolve, (Option.some.inj hd).symm⟩
    · cases hd
  obtain ⟨front, r, back, hsplit, htype, hmoved⟩ := hr
  have hpresent : b.types.Perm (m.source.type :: (front ++ back).map Replica.type) := by
    rw [types, hsplit, ← htype]
    exact (List.perm_middle.map Replica.type)
  have hpresent' : (b.after m).types.Perm (m.targetType :: (front ++ back).map Replica.type) := by
    rw [after, if_pos hid]
    show ((Cluster.moveReplica m b.replicas).map Replica.type).Perm _
    rw [hmoved]
    exact (List.perm_middle.map Replica.type)
  have ht : m.targetType ∈ (Difference.between needed b.types).missing :=
    hmissing.subset List.mem_cons_self
  have hs : m.source.type ∈ (Difference.between needed b.types).surplus :=
    hsurplus.subset List.mem_cons_self
  refine ⟨_, .between needed (b.after m).types, hd, ?_, Difference.deficit_swap hpresent hpresent' hs ht,
    ?_, ?_⟩
  · rw [difference?, resolve_after, hresolve]
  · have herase := hmissing.erase m.targetType
    rw [List.erase_cons_head] at herase
    exact herase.trans (Difference.missing_swap hpresent hpresent' hs ht).symm.subperm
  · have herase := hsurplus.erase m.source.type
    rw [List.erase_cons_head] at herase
    exact herase.trans (Difference.surplus_swap hpresent hpresent' hs ht).symm.subperm

end ListedBlock

namespace Cluster

variable {c c₀ : Cluster} {suite : Suite} {paths : List String} {b : ListedBlock} {m : Move}
  {ms rest : List Move} {moved failed : Nat} {g : ListedBlock → ListedBlock}

/-- The moves that are left for the sound records at or below several paths, each record once. -/
def deficit (suite : Suite) (paths : List String) (c : Cluster) : Nat :=
  ((c.listedUnder paths).map fun b => if b.Valid then b.shortfall suite else 0).sum

/-! ### The records after a move -/

theorem listedBlock?_relocate (hok : c.relocationError? m = none) (path : String) (f : File)
    (id : BlockId) : (c.relocate m).1.listedBlock? path f id =
      (c.listedBlock? path f id).map (ListedBlock.after m) := by
  rw [relocate_of_none hok, listedBlock?, listedBlock?, block?_applyMove, block?_called]
  cases h : c.block? id with
  | none => rfl
  | some p =>
    have hid : p.block.id = id := (block?_eq_some h).2
    simp only [Option.map_some, ListedBlock.after, hid]
    split <;> rfl

theorem listedUnder_relocate (hok : c.relocationError? m = none) (paths : List String) :
    (c.relocate m).1.listedUnder paths = (c.listedUnder paths).map (ListedBlock.after m) := by
  have hfiles : (c.relocate m).1.files = c.files := by
    obtain ⟨nodes, blocks, he, -⟩ := relocate_frame c m
    rw [he]
  rw [listedUnder, listedUnder, hfiles, List.map_flatMap]
  refine congrArg (fun k => List.flatMap k _) (funext fun f => ?_)
  simp only [fileItems, listedBlock?_relocate hok, List.map_filterMap, List.mapIdx_eq_zipIdx_map,
    List.filterMap_map]
  refine List.filterMap_congr fun x _ => ?_
  simp only [Function.comp_apply, Option.map_map]
  rfl

/-- Replicas of a block on one storage are of one type. -/
theorem Placed.type_eq (h : c.Placed) {p : PlacedBlock} (hp : p ∈ c.blocks) {r x : Replica}
    (hr : r ∈ p.replicas) (hx : x ∈ p.replicas) (hs : r.storage = x.storage) : r.type = x.type := by
  obtain ⟨s, hstore, ht⟩ := h.housed p hp r hr
  obtain ⟨s', hstore', ht'⟩ := h.housed p hp x hx
  rw [hs] at hstore
  rw [h.toLaid.store?_inj hstore hstore'] at hstore
  rw [← ht, ← ht', Option.some.inj (hstore.symm.trans hstore')]

/-- A move that fits takes a replica of its source type from the record of its block. -/
theorem Fits.split (h : c.Fits m) (hc : c.Placed) (hb : c.Lists b) (hid : b.block.id = m.block.id) :
    ∃ front r back, b.replicas = front ++ r :: back ∧ r.type = m.source.type ∧
      moveReplica m b.replicas = front ++ arrived m r :: back := by
  obtain ⟨⟨p, hp, -, hsource, -⟩, -⟩ := h
  obtain ⟨p', hp', -, hreplicas⟩ := hb.block?
  obtain rfl : p' = p := Option.some.inj (hp'.symm.trans (hid ▸ hp))
  obtain ⟨front, r, back, hsplit, hrs, -, hmoved⟩ := moveReplica_split ⟨m.source, hsource, rfl⟩
  have hr : r ∈ p'.replicas := hsplit ▸ List.mem_append_right _ List.mem_cons_self
  have ht := hc.type_eq (block?_eq_some hp).1 hr hsource hrs
  exact ⟨front, r, back, hreplicas ▸ hsplit, ht, hreplicas ▸ hmoved⟩

/-! ### Moves one after another -/

/-- What is true of a cluster on the way from `c₀`, with so many moves done and others open: the open
ones still fit and aim at the policies of sound records, and the sound records have come nearer. -/
structure Underway (suite : Suite) (paths : List String) (c₀ c : Cluster) (ms : List Move) (moved : Nat)
    (g : ListedBlock → ListedBlock) : Prop where
  placed : c.Placed
  fitting : c.Fitting ms
  listed : c.listedUnder paths = (c₀.listedUnder paths).map g
  aims : ∀ b ∈ c.listedUnder paths, b.Aims suite ms
  sound : ∀ b ∈ c₀.listedUnder paths, b.Valid ∨ g b = b ∧ ∀ m ∈ ms, m.block.id ≠ b.block.id
  owned : ∀ m ∈ ms, ∃ b ∈ c₀.listedUnder paths, b.Valid ∧ (g b).block.id = m.block.id
  lowered : ((c₀.listedUnder paths).map fun b => if b.Valid then (g b).shortfall suite else 0).sum +
    moved ≤ c₀.deficit suite paths

namespace Underway

theorem perm (h : Underway suite paths c₀ c ms moved g) (hp : ms.Perm rest) :
    Underway suite paths c₀ c rest moved g where
  placed := h.placed
  fitting := h.fitting.perm hp
  listed := h.listed
  aims := fun b hb => (h.aims b hb).perm hp
  sound := fun b hb => (h.sound b hb).imp_right fun hn => ⟨hn.1, fun m hm => hn.2 m (hp.mem_iff.2 hm)⟩
  owned := fun m hm => h.owned m (hp.mem_iff.2 hm)
  lowered := h.lowered

theorem of_cons (h : Underway suite paths c₀ c (m :: ms) moved g) :
    Underway suite paths c₀ c ms moved g where
  placed := h.placed
  fitting := h.fitting.sublist (List.sublist_cons_self m ms)
  listed := h.listed
  aims := fun b hb => (h.aims b hb).of_cons
  sound := fun b hb =>
    (h.sound b hb).imp_right fun hn => ⟨hn.1, fun m hm => hn.2 m (List.mem_cons_of_mem _ hm)⟩
  owned := fun m hm => h.owned m (List.mem_cons_of_mem _ hm)
  lowered := h.lowered

/-- A refused move leaves everything as it is. -/
theorem called (h : Underway suite paths c₀ c ms moved g) :
    Underway suite paths c₀ c.called ms moved g where
  placed := h.placed.congr rfl rfl
  fitting := h.fitting.called
  listed := h.listed
  aims := h.aims
  sound := h.sound
  owned := h.owned
  lowered := h.lowered

/-- A move that is open brings its block one move nearer, and the others still aim at the policy. -/
theorem swap (h : Underway suite paths c₀ c (m :: ms) moved g) (hb : b ∈ c.listedUnder paths)
    (hid : b.block.id = m.block.id) :
    (b.after m).Aims suite ms ∧ (b.after m).shortfall suite + 1 = b.shortfall suite := by
  have hsplit := (h.fitting.fits m List.mem_cons_self).split h.placed (lists_of_mem_listedUnder hb) hid
  obtain ⟨d, d', hd, hd', hlower, hmissing, hsurplus⟩ := (h.aims b hb).swap hid hsplit
  refine ⟨.inr ⟨d', hd', ?_, ?_⟩, ?_⟩
  · rwa [ListedBlock.block_after]
  · rwa [ListedBlock.block_after]
  · simp only [ListedBlock.shortfall, hd, hd', hlower]

/-- A move that is executed lowers what is left for the sound records, one of which is its own. -/
theorem sum_lt (h : Underway suite paths c₀ c (m :: ms) moved g) :
    ((c₀.listedUnder paths).map fun b =>
      if b.Valid then ((g b).after m).shortfall suite else 0).sum <
      ((c₀.listedUnder paths).map fun b => if b.Valid then (g b).shortfall suite else 0).sum := by
  have hstep : ∀ b ∈ c₀.listedUnder paths, (g b).block.id = m.block.id →
      ((g b).after m).shortfall suite < (g b).shortfall suite := fun b hb hid =>
    Nat.lt_of_succ_le (Nat.le_of_eq (h.swap (h.listed ▸ List.mem_map_of_mem hb) hid).2)
  obtain ⟨b, hb, hv, hid⟩ := h.owned m List.mem_cons_self
  refine List.sum_lt_sum _ _ (fun x hx => ?_) ⟨b, hb, ?_⟩
  · split
    · by_cases hxid : (g x).block.id = m.block.id
      · exact Nat.le_of_lt (hstep x hx hxid)
      · rw [ListedBlock.after_of_ne hxid]
    · exact Nat.le_refl 0
  · rw [if_pos hv, if_pos hv]
    exact hstep b hb hid

/-- A move that is executed brings its block one move nearer, and leaves the others as they are. -/
theorem relocate (h : Underway suite paths c₀ c (m :: ms) moved g) (hok : c.relocationError? m = none) :
    Underway suite paths c₀ (c.relocate m).1 ms (moved + 1) (ListedBlock.after m ∘ g) := by
  have hlisted := listedUnder_relocate hok paths
  refine ⟨h.placed.relocate m, h.fitting.relocate hok, ?_, fun b' hb' => ?_, fun b hb => ?_,
    fun m' hm' => ?_, ?_⟩
  · rw [hlisted, h.listed, List.map_map]
  · rw [hlisted] at hb'
    obtain ⟨b, hb, rfl⟩ := List.mem_map.1 hb'
    by_cases hid : b.block.id = m.block.id
    · exact (h.swap hb hid).1
    · rw [ListedBlock.after_of_ne hid]
      exact (h.aims b hb).of_cons
  · refine (h.sound b hb).imp_right fun ⟨hg, hn⟩ => ⟨?_, fun m' hm' => hn m' (List.mem_cons_of_mem _ hm')⟩
    rw [Function.comp_apply, hg]
    exact ListedBlock.after_of_ne (hn m List.mem_cons_self).symm
  · obtain ⟨b, hb, hv, hid⟩ := h.owned m' (List.mem_cons_of_mem _ hm')
    exact ⟨b, hb, hv, by rw [Function.comp_apply, ListedBlock.block_after, hid]⟩
  · have hless := h.sum_lt
    have hlowered := h.lowered
    simp only [Function.comp_apply]
    omega

/-- Every move that is done lowers the deficit. -/
theorem deficit_le (h : Underway suite paths c₀ c ms moved g) :
    c.deficit suite paths + moved ≤ c₀.deficit suite paths := by
  refine Nat.le_trans (Nat.add_le_add_right ?_ moved) h.lowered
  rw [deficit, h.listed, List.map_map]
  refine List.sum_le_sum fun b hb => ?_
  rw [Function.comp_apply]
  rcases h.sound b hb with hv | ⟨hg, -⟩
  · rw [if_pos hv]
    split
    · exact Nat.le_refl _
    · exact Nat.zero_le _
  · rw [hg]

end Underway

/-- What attempts at moves come to, if the moves fit and aim at policies. -/
theorem Executes.underway (h : Executes c₀ ms c rest moved failed)
    (h₀ : Underway suite paths c₀ c₀ ms 0 id) : ∃ g, Underway suite paths c₀ c rest moved g := by
  induction h with
  | start => exact ⟨id, h₀⟩
  | done _ hm ih =>
    obtain ⟨g, ih⟩ := ih
    exact ⟨_, (ih.perm List.perm_middle).relocate hm⟩
  | again _ hm ih =>
    obtain ⟨g, ih⟩ := ih
    rw [relocate_of_error hm]
    exact ⟨g, ih.called⟩
  | givenUp _ hm ih =>
    obtain ⟨g, ih⟩ := ih
    rw [relocate_of_error hm]
    exact ⟨g, (ih.perm List.perm_middle).of_cons.called⟩

end Cluster

end StorageTiering
