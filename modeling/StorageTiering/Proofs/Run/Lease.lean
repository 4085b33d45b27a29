import StorageTiering.Cluster.Description
import StorageTiering.Proofs.Run.Course
/-!
# The lease after a run

A run gives back the lease that it has acquired, whatever ends it, and leaves the lease of another holder
alone.

* `World.Undisputed` — nobody takes the lease away, and renewals and returns are accepted.
* `World.Held` — the lease is held by a run, and by nobody else; `World.Held.lasting` — it stays so through
  calls, waiting and dispatches.
* `Run.underLease_leaves_lease` — the part of a run that needs the lease.
* `Run.run_leaves_lease` — a whole run.
-/

namespace StorageTiering

/-- A disturbance that takes the lease from nobody and does not make renewals fail. -/
structure Disturbance.LeavesLease (d : Disturbance) : Prop where
  takes_none : ∀ holder bySatisfier, d ≠ .holdLease holder bySatisfier
  rejects_none : d ≠ .rejectRenewal true

namespace World

/-- Nobody takes the lease away from its holder, and the metadata service accepts that it is renewed and given
back. Listings and moves may fail, and whoever holds the lease may be asked to end at any time. -/
structure Undisputed (w : World) : Prop where
  accepts : w.cluster.rejectsRenewal = false
  takes_back : w.script.releaseFails = false
  events : ∀ e ∈ w.events, ∀ d, e.event = .disturb d → d.LeavesLease

/-- The lease is held with a token, and it is this token that is renewed. -/
structure Held (holder : String) (serial : Nat) (w : World) : Prop extends Undisputed w where
  lease : w.cluster.lease = some ⟨holder, some serial, false⟩
  renewal : ∀ r, w.renewal = some r → r.serial = serial
  lost : w.lost = none

variable {w : World} {holder : String} {serial : Nat}

theorem Undisputed.held_leased (h : w.Undisputed) (holder : String) (intervalMs : Nat) :
    (w.leased holder intervalMs).Held holder (w.cluster.granted + 1) where
  accepts := h.accepts
  takes_back := h.takes_back
  events := h.events
  lease := rfl
  renewal := by
    rintro r ⟨⟩
    rfl
  lost := rfl

namespace Held

/-! ### The passing of time -/

/-- The token that holds the lease can be renewed. -/
theorem renewTo (h : w.Held holder serial) (t : Nat) : (w.renewTo t).Held holder serial := by
  rw [World.renewTo]
  split
  · exact h
  · rename_i r hr
    -- the lease is never lost, because its token is the one that is renewed
    have hok : w.cluster.renewalError? r.serial = none := by
      simp [Cluster.renewalError?, h.accepts, h.lease, h.renewal r hr]
    rw [hok]
    split
    · exact h
    · refine ⟨⟨h.accepts, h.takes_back, h.events⟩, h.lease, ?_, h.lost⟩
      rintro r' ⟨⟩
      exact h.renewal r hr

theorem apply {e : TimedEvent} {rest : List TimedEvent} (h : w.Held holder serial) (he : w.events = e :: rest) :
    World.Held holder serial { w.apply e with events := rest } := by
  have hrest : ∀ e' ∈ rest, ∀ d, e'.event = .disturb d → d.LeavesLease := fun e' he' =>
    h.events e' (he ▸ List.mem_cons_of_mem _ he')
  have hpeace := h.events e (he ▸ List.mem_cons_self)
  rw [World.apply]
  dsimp only
  split
  · rename_i d hd
    obtain ⟨htakes, hrejects⟩ := hpeace d hd
    have hcluster : (d.apply w.cluster).lease = w.cluster.lease ∧
        (d.apply w.cluster).rejectsRenewal = false := by
      cases d with
      | holdLease holder bySatisfier => exact absurd rfl (htakes holder bySatisfier)
      | rejectRenewal rejects => exact ⟨rfl, Bool.eq_false_of_not_eq_true fun ht => hrejects (ht ▸ rfl)⟩
      | _ => exact ⟨rfl, h.accepts⟩
    exact ⟨⟨hcluster.2, h.takes_back, hrest⟩, hcluster.1.trans h.lease, h.renewal, h.lost⟩
  · exact ⟨⟨h.accepts, h.takes_back, hrest⟩, h.lease, h.renewal, h.lost⟩
  · exact ⟨⟨h.accepts, h.takes_back, hrest⟩, h.lease, h.renewal, h.lost⟩

theorem advance (h : w.Held holder serial) (stop : World → Bool) (t : Nat) :
    (w.advance stop t).Held holder serial :=
  advance_preserves_of_renewTo (fun _ _ h => ⟨⟨h.accepts, h.takes_back, h.events⟩, h.lease, h.renewal, h.lost⟩)
    (fun _ t h => h.renewTo t) (fun _ _ _ he h => h.apply he) stop t h

theorem wait (h : w.Held holder serial) (ms : Nat) : (w.wait ms).Held holder serial :=
  wait_of_advance h h.advance ms

/-! ### Calls -/

theorem beginAttempt (h : w.Held holder serial) (m : Move) : (w.beginAttempt m).1.Held holder serial := by
  have hscript : (w.script.nextAttempt m.block.id).1.releaseFails = w.script.releaseFails := by
    rw [Script.nextAttempt]
    split <;> rfl
  exact ⟨⟨h.accepts, hscript.trans h.takes_back, h.events⟩, h.lease, h.renewal, h.lost⟩

theorem settleAttempt (h : w.Held holder serial) (m : Move) (a : AttemptAnswer) :
    (w.settleAttempt m a).1.Held holder serial := by
  cases a with
  | perform =>
    obtain ⟨nodes, blocks, hcluster, -⟩ := Cluster.relocate_frame w.cluster m
    rw [World.settleAttempt]
    dsimp only [World.note]
    rw [hcluster]
    exact ⟨⟨h.accepts, h.takes_back, h.events⟩, h.lease, h.renewal, h.lost⟩
  | _ => exact ⟨⟨h.accepts, h.takes_back, h.events⟩, h.lease, h.renewal, h.lost⟩

theorem listOnCluster (h : w.Held holder serial) (path : String) (cursor : Option String) :
    (w.listOnCluster path cursor).1.Held holder serial := by
  obtain ⟨grace, failures, hcluster⟩ := Cluster.listPage_frame w.cluster path cursor
  rw [listOnCluster_eq, hcluster]
  exact ⟨⟨h.accepts, h.takes_back, h.events⟩, h.lease, h.renewal, h.lost⟩

theorem listPage (h : w.Held holder serial) (path : String) (cursor : Option String) :
    (w.listPage path cursor).1.Held holder serial :=
  listPage_of_wait path cursor (h.wait _)
    (fun _ _ h => ⟨⟨h.accepts, h.takes_back, h.events⟩, h.lease, h.renewal, h.lost⟩)
    fun _ h => h.listOnCluster path cursor

theorem report (h : w.Held holder serial) : w.report.1.Held holder serial :=
  report_of_wait (h.wait _) fun _ _ h => ⟨⟨h.accepts, h.takes_back, h.events⟩, h.lease, h.renewal, h.lost⟩

theorem checkSatisfier (h : w.Held holder serial) : w.checkSatisfier.1.Held holder serial := by
  rw [World.checkSatisfier]
  split <;> exact ⟨⟨h.accepts, h.takes_back, h.events⟩, h.lease, h.renewal, h.lost⟩

/-- A lease that is held is not granted again. -/
theorem acquireLease (h : w.Held holder serial) (other : String) (intervalMs : Nat) :
    (w.acquireLease other intervalMs).1 = w := by
  cases hs : w.script.acquireError with
  | none => rw [acquireLease_held hs h.lease]
  | some e => simp only [World.acquireLease, hs]

/-- A lease that is held stays so, whatever its holder does but for giving it back. -/
theorem lasting (holder : String) (serial : Nat) : World.Lasting (World.Held holder serial) where
  begins := fun _ m h => h.beginAttempt m
  settles := fun _ m a h => h.settleAttempt m a
  noted := fun _ _ _ h => ⟨⟨h.accepts, h.takes_back, h.events⟩, h.lease, h.renewal, h.lost⟩
  elapses := fun _ stop t h => h.advance stop t
  signals := fun _ _ h => ⟨⟨h.accepts, h.takes_back, h.events⟩, h.lease, h.renewal, h.lost⟩
  lists := fun _ path cursor h => h.listPage path cursor
  reports := fun _ h => h.report
  checks := fun _ h => h.checkSatisfier
  acquires := fun _ other intervalMs h => (h.acquireLease other intervalMs).symm ▸ h

/-- Whoever holds the lease can give it back. -/
theorem releaseLease (h : w.Held holder serial) : (w.releaseLease ⟨holder, serial⟩).cluster.lease = none := by
  simp [World.releaseLease, dropLease, h.lost, h.takes_back, Cluster.releaseLease, Cluster.accepts, h.lease]

end Held

/-- Asking for the satisfier is counted, and leaves the rest as it is. -/
theorem checkSatisfier_frame (w : World) :
    ∃ checks, w.checkSatisfier.1 = { w with cluster := { w.cluster with satisfierChecks := checks } } := by
  rw [checkSatisfier]
  split <;> exact ⟨_, rfl⟩

end World

namespace Run

variable {r r' : Run} {w w' : World} {rounds : Nat} {s : Status}

/-- A run goes on only if the satisfier is not active. -/
theorem satisfierActive_of_goesOn (h : satisfierVerdict w.checkSatisfier.2 = none) :
    w.cluster.satisfierActive = false := by
  rw [World.checkSatisfier] at h
  split at h
  · exact Bool.eq_false_of_not_eq_true fun hactive => by
      rw [Cluster.checkSatisfier, hactive] at h
      cases h
  · cases h
  · cases h

/-- The lease is given back by a run that has acquired it, and left to its holder by one that has not. -/
theorem underLease_leaves_lease (h : w.Undisputed)
    (hrun : r.underLease rounds w = (w', r', some (.status s))) :
    w'.cluster.lease = w.cluster.lease ∧ (w.cluster.lease.isSome → w' = w) := by
  rw [underLease] at hrun
  cases hscript : w.script.acquireError with
  | some e =>
    simp only [World.acquireLease, hscript] at hrun
    cases hrun
    exact ⟨rfl, fun _ => rfl⟩
  | none =>
    cases hlease : w.cluster.lease with
    | some lease =>
      rw [World.acquireLease_held hscript hlease] at hrun
      cases hrun
      exact ⟨hlease, fun _ => rfl⟩
    | none =>
      rw [World.acquireLease_free hscript hlease] at hrun
      -- from here on the lease is held, whatever the iterations do and whatever ends them
      have hheld := iterate_lasting (World.Held.lasting _ _) rounds 1 r
        (h.held_leased r.holder (r.settings.get .leaseRenewIntervalMs))
      dsimp only at hrun
      generalize iterate rounds 1 r _ = result at *
      obtain ⟨w₁, r₁, _ | ⟨s₁ | _⟩⟩ := result
      · cases hrun
      · cases hrun
        exact ⟨hheld.releaseLease, fun hsome => absurd hsome Bool.false_ne_true⟩
      · cases hrun

/-- A run that comes to a status leaves the lease as it was, free or in the hands of its holder, unless someone
takes it away or makes renewals fail meanwhile. If the satisfier is active or the lease is held, nothing is
listed or moved, and the namespace stays as it was. -/
theorem run_leaves_lease (h : w.Undisputed) (r : Run) (rounds : Nat)
    (hs : (r.run rounds w).2.2 = some (.status s)) : let w' := (r.run rounds w).1
    w'.cluster.lease = w.cluster.lease ∧
      (w.cluster.satisfierActive ∨ w.cluster.lease.isSome →
        ∃ checks, w' = { w with cluster := { w.cluster with satisfierChecks := checks } }) := by
  obtain ⟨checks, hframe⟩ := w.checkSatisfier_frame
  have hactive := @satisfierActive_of_goesOn w
  rw [run] at hs ⊢
  generalize w.checkSatisfier = call at *
  obtain ⟨w₁, answer⟩ := call
  obtain rfl := hframe
  dsimp only at hactive hs ⊢
  cases hverdict : satisfierVerdict answer with
  | some e =>
    rw [hverdict] at hs
    obtain s₁ | _ := e
    · exact ⟨rfl, fun _ => ⟨checks, rfl⟩⟩
    · cases hs
  | none =>
    rw [hverdict] at hs
    dsimp only at hs ⊢
    generalize hunder : r.underLease rounds _ = result at hs ⊢
    obtain ⟨w₂, r₂, _ | ⟨s₁ | _⟩⟩ := result
    · cases hs
    · obtain ⟨hlease, hstays⟩ := underLease_leaves_lease
        (w := { w with cluster := { w.cluster with satisfierChecks := checks } })
        ⟨h.accepts, h.takes_back, h.events⟩ hunder
      refine ⟨hlease, fun hbusy => ⟨checks, hstays ?_⟩⟩
      exact hbusy.resolve_left (by simp [hactive hverdict])
    · cases hs

/-- A cold block on a disk, and an archive. -/
def coldDescription : ClusterDescription where
  namespaceId := "ns"
  pageSize := none
  nodes := [⟨"a", "/r", [⟨.disk, 10⟩]⟩, ⟨"b", "/r", [⟨.archive, 10⟩]⟩]
  files := [⟨"/f", "COLD", some (.contiguous 1), [⟨1, 4, 1, [⟨"a", .disk⟩]⟩]⟩]
  faults := .none

/-- The cluster of this description, of which the disk is not reported any more. -/
def coldSample : Cluster :=
  match coldDescription.build with
  | .ok c => c.addNode "a" "/r" []
  | .error _ => .empty ""

/-- The namespace of this cluster with a lease. Listings begin to fail after the first iteration of a run. -/
def coldWorld (lease : Option HeldLease) : World :=
  { World.start { coldSample with lease := lease } .none [] with
    events := [⟨500, .disturb (.failListings 9 0)⟩] }

theorem undisputed_coldWorld (lease : Option HeldLease) : (coldWorld lease).Undisputed := by
  refine ⟨rfl, rfl, fun e he d hd => ?_⟩
  obtain rfl := List.mem_singleton.1 he
  cases hd
  exact ⟨nofun, nofun⟩

/-- A run that has moved the block and cannot list any more gives the lease back; one that finds the lease held
leaves everything as it was. -/
theorem run_leaves_lease_cold :
    let r := start none .standard .standard "h"
    let other := coldWorld (some ⟨"other", none, false⟩)
    (∃ reason, (r.run 4 (coldWorld none)).2.2 = some (.status (.serviceFailure reason))) ∧
      (r.run 4 (coldWorld none)).1.cluster.relocateCalls = 1 ∧
      (r.run 4 (coldWorld none)).1.cluster.lease = none ∧
      (r.run 4 other).2.2 = some (.status (.alreadyRunning "other")) ∧
      ∃ checks, (r.run 4 other).1 =
        { other with cluster := { other.cluster with satisfierChecks := checks } } := by
  intro r other
  have hend : (r.run 4 (coldWorld none)).2.2 = some (.status
      (.serviceFailure "listing / failed: Transient metadata error: listing / interrupted")) := by
    decide +kernel
  have hrefused : (r.run 4 other).2.2 = some (.status (.alreadyRunning "other")) := by decide +kernel
  have hmoved : (r.run 4 (coldWorld none)).1.cluster.relocateCalls = 1 := by decide +kernel
  obtain ⟨hfree, -⟩ := run_leaves_lease (undisputed_coldWorld none) r 4 hend
  obtain ⟨-, hstays⟩ := run_leaves_lease (undisputed_coldWorld _) r 4 hrefused
  exact ⟨⟨_, hend⟩, hmoved, hfree, hrefused, hstays (.inr rfl)⟩

end Run

end StorageTiering
