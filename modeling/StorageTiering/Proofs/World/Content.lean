import StorageTiering.Proofs.Cluster.Content
import StorageTiering.Proofs.Dispatch.Namespace
import StorageTiering.Proofs.World.Plain
/-!
# What a namespace holds

Nothing but the attempts at moves changes the files and blocks of a namespace.

* `World.alike_advance`, `World.alike_listPage`, `World.alike_report`, `World.alike_acquireLease`,
  `World.alike_releaseLease` — time that passes, and the calls of a run, leave them alone.
* `World.keptBy_conserves` — a dispatch moves only the blocks of its moves.
-/

namespace StorageTiering.World

variable {moved : BlockId → Prop} {c : Cluster}

theorem alike_advance (w : World) (stop : World → Bool) (t : Nat) :
    w.cluster.Alike (w.advance stop t).cluster := by
  refine advance_preserves (Q := fun w' => w.cluster.Alike w'.cluster) (fun _ _ _ _ h => h)
    (fun w' e rest _ h => h.trans ?_) stop t (.refl _)
  show w'.cluster.Alike (w'.apply e).cluster
  rcases cluster_apply w' e with ⟨d, -, he⟩ | he
  · rw [he]
    exact w'.cluster.alike_disturb d
  · rw [he]
    exact .refl _

theorem alike_wait (w : World) (ms : Nat) : w.cluster.Alike (w.wait ms).cluster :=
  wait_of_advance (Q := fun w' => w.cluster.Alike w'.cluster) (.refl _) w.alike_advance ms

theorem alike_checkSatisfier (w : World) : w.cluster.Alike w.checkSatisfier.1.cluster := by
  rw [checkSatisfier]
  split <;> exact ⟨rfl, rfl⟩

theorem alike_acquireLease (w : World) (holder : String) (intervalMs : Nat) :
    w.cluster.Alike (w.acquireLease holder intervalMs).1.cluster := by
  have hcluster := w.cluster.alike_acquireLease holder
  rw [acquireLease]
  split
  · exact .refl _
  · split
    all_goals
      rename_i heq
      rw [heq] at hcluster
      exact hcluster

theorem alike_releaseLease (w : World) (token : LeaseToken) :
    w.cluster.Alike (w.releaseLease token).cluster := by
  rw [releaseLease]
  split
  · exact ⟨rfl, rfl⟩
  · rw [Cluster.releaseLease]
    split <;> exact ⟨rfl, rfl⟩

theorem alike_report (w : World) : w.cluster.Alike w.report.1.cluster :=
  report_of_wait (Q := fun w' => w.cluster.Alike w'.cluster) (w.alike_wait _) fun _ _ h => h

theorem alike_listOnCluster (w : World) (path : String) (cursor : Option String) :
    w.cluster.Alike (w.listOnCluster path cursor).1.cluster := by
  rw [listOnCluster_eq]
  exact w.cluster.alike_listPage path cursor

theorem alike_listPage (w : World) (path : String) (cursor : Option String) :
    w.cluster.Alike (w.listPage path cursor).1.cluster :=
  listPage_of_wait (Q := fun w' => w.cluster.Alike w'.cluster) path cursor (w.alike_wait _) (fun _ _ h => h)
    fun v h => h.trans (v.alike_listOnCluster path cursor)

/-- A page has records of its path alone. -/
theorem mem_records_of_listPage {w w' : World} {path : String} {cursor : Option String} {page : Page}
    (h : w.listPage path cursor = (w', .ok page)) {b : ListedBlock} (hb : b ∈ page.blocks) :
    b ∈ (w'.cluster.itemsUnder path).map ListingItem.listed := by
  have hcluster : ∀ {v : World}, v.listOnCluster path cursor = (w', .ok page) →
      b ∈ (w'.cluster.itemsUnder path).map ListingItem.listed := by
    intro v hv
    have halike := v.alike_listOnCluster path cursor
    rw [hv] at halike
    rw [Cluster.itemsUnder_congr halike.files halike.blocks]
    rw [listOnCluster_eq] at hv
    have hpage := congrArg Prod.snd hv
    dsimp only at hpage
    split at hpage
    · rename_i heq
      exact Cluster.mem_records_of_listPage heq (Except.ok.inj hpage ▸ hb)
    · cases hpage
  rw [listPage] at h
  split at h
  · exact hcluster h
  · dsimp only at h
    split at h
    · exact hcluster h
    · cases h
    · cases h

/-- Attempts at moves of blocks that may be moved leave the other blocks where they are. -/
theorem keptBy_conserves (moved : BlockId → Prop) (c : Cluster) :
    KeptBy (fun m => moved m.block.id) fun w => c.Conserves moved w.cluster where
  begins := fun _ _ h => h
  settles := fun w m a hm h => by
    cases a with
    | perform => exact h.trans (w.cluster.conserves_relocate hm)
    | _ => exact h
  noted := fun _ _ _ h => h
  elapses := fun w stop t h => h.trans ((w.alike_advance stop t).conserves moved)
  signals := fun _ _ h => h

end StorageTiering.World
