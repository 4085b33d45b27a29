import StorageTiering.Proofs.Cluster.Plan
/-!
# Executing moves attempt by attempt

* `Cluster.Executes` — what attempts at several moves can lead to, whatever the order in which they are
  made: moves that are done, moves that are given up, and moves that are still open.
* `Cluster.Executes.count` — no move is lost on the way.
* `Cluster.Executes.preserves` — what single attempts preserve, all of them preserve.
-/

namespace StorageTiering.Cluster

/-- What attempts at the moves `ms₀` can lead to on the cluster `c₀`: a cluster, the moves that are
still open, and the numbers of those that are done and given up. -/
inductive Executes (c₀ : Cluster) (ms₀ : List Move) : Cluster → List Move → Nat → Nat → Prop
  | start : Executes c₀ ms₀ c₀ ms₀ 0 0
  /-- The cluster executes a move. -/
  | done {c : Cluster} {front back : List Move} {m : Move} {moved failed : Nat}
      (h : Executes c₀ ms₀ c (front ++ m :: back) moved failed) (hm : c.relocationError? m = none) :
      Executes c₀ ms₀ (c.relocate m).1 (front ++ back) (moved + 1) failed
  /-- The cluster refuses a move, which stays open. -/
  | again {c : Cluster} {front back : List Move} {m : Move} {moved failed : Nat} {e : TransferError}
      (h : Executes c₀ ms₀ c (front ++ m :: back) moved failed) (hm : c.relocationError? m = some e) :
      Executes c₀ ms₀ (c.relocate m).1 (front ++ m :: back) moved failed
  /-- The cluster refuses a move, which is given up. -/
  | givenUp {c : Cluster} {front back : List Move} {m : Move} {moved failed : Nat} {e : TransferError}
      (h : Executes c₀ ms₀ c (front ++ m :: back) moved failed) (hm : c.relocationError? m = some e) :
      Executes c₀ ms₀ (c.relocate m).1 (front ++ back) moved (failed + 1)

variable {c₀ c : Cluster} {ms₀ ms : List Move} {moved failed : Nat}

/-- Every move is done, given up, or still open. -/
theorem Executes.count (h : Executes c₀ ms₀ c ms moved failed) :
    ms.length + moved + failed = ms₀.length := by
  induction h with
  | start => rfl
  | done _ _ ih =>
    simp only [List.length_append, List.length_cons] at ih ⊢
    omega
  | again _ _ ih => exact ih
  | givenUp _ _ ih =>
    simp only [List.length_append, List.length_cons] at ih ⊢
    omega

/-- What single attempts preserve, all of them preserve. -/
theorem Executes.preserves {Q : Cluster → Prop} (hQ : ∀ c m, Q c → Q (c.relocate m).1)
    (h : Executes c₀ ms₀ c ms moved failed) (h₀ : Q c₀) : Q c := by
  induction h with
  | start => exact h₀
  | done _ _ ih => exact hQ _ _ ih
  | again _ _ ih => exact hQ _ _ ih
  | givenUp _ _ ih => exact hQ _ _ ih

/-- Attempts change neither the data that is gone, nor the types that accept nothing, nor the listings
that are still to fail. -/
theorem Executes.faults (h : Executes c₀ ms₀ c ms moved failed) :
    c.missing = c₀.missing ∧ c.refused = c₀.refused ∧ c.listingFailures = c₀.listingFailures := by
  refine h.preserves (Q := fun c => c.missing = c₀.missing ∧ c.refused = c₀.refused ∧
    c.listingFailures = c₀.listingFailures) (fun c m hc => ?_) ⟨rfl, rfl, rfl⟩
  obtain ⟨nodes, blocks, he, -⟩ := relocate_frame c m
  rw [he]
  exact hc

/-- No move is given up if the moves are a plan that the cluster accepts, no data is gone, and every type
accepts replicas. -/
theorem Executes.failed_eq_zero (h : Executes c₀ ms₀ c ms moved failed) (hp : c₀.Placed)
    (ha : c₀.Accepts ms₀) (hm : c₀.missing = []) (hr : c₀.refused = []) : failed = 0 := by
  have hall : c.Placed ∧ c.Accepts ms ∧ failed = 0 := by
    induction h with
    | start => exact ⟨hp, ha, rfl⟩
    | done _ hok ih =>
      obtain ⟨hp, ha, hf⟩ := ih
      exact ⟨hp.relocate _, (ha.perm List.perm_middle).relocate hp hok, hf⟩
    | again h hno ih | givenUp h hno ih =>
      obtain ⟨-, ha, -⟩ := ih
      obtain ⟨hmissing, hrefused, -⟩ := h.faults
      have hok := (ha.perm List.perm_middle).relocationError?_eq_none
        (by simp [hmissing, hm]) (by simp [hrefused, hr])
      exact absurd (hok.symm.trans hno) nofun
  exact hall.2.2

end StorageTiering.Cluster
