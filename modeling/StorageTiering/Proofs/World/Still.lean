import StorageTiering.Proofs.Cluster.Catalogue
import StorageTiering.World.Calls
/-!
# A namespace left to itself

* `World.Still` — nothing is scripted, nothing comes from outside, and nobody has asked for an end.
* `World.Secure` — the lease can be renewed.
* `World.Elapsed` — what the passing of time does to a still namespace: the clock goes on, and the
  lease is renewed, or lost unless it is secure.
* `World.leased` — a namespace whose lease has just been granted.
* `World.Consulted` — what listings do to a still namespace: time passes, and calls are counted.
-/

namespace StorageTiering

namespace World

variable {w w' w'' : World}

/-- Nothing is scripted, nothing comes from outside, and nobody has asked for an end. -/
structure Still (w : World) : Prop where
  script : w.script = .none
  events : w.events = []
  signal : w.signal = .proceed
  shutdown : w.shutdown = false

/-- The lease that is being renewed is the one that is held, and renewals are accepted. -/
def Secure (w : World) : Prop := ∀ r, w.renewal = some r → w.cluster.renewalError? r.serial = none

/-- What the passing of time does to a still namespace. -/
structure Elapsed (w w' : World) : Prop where
  frame : ∃ now renewal lost, w' = { w with now := now, renewal := renewal, lost := lost }
  secure : w.Secure → w'.Secure ∧ w'.lost = w.lost

theorem Elapsed.refl (w : World) : w.Elapsed w :=
  ⟨⟨w.now, w.renewal, w.lost, rfl⟩, fun h => ⟨h, rfl⟩⟩

theorem Elapsed.trans (h : w.Elapsed w') (h' : w'.Elapsed w'') : w.Elapsed w'' := by
  obtain ⟨⟨now, renewal, lost, rfl⟩, hs⟩ := h
  obtain ⟨⟨now', renewal', lost', rfl⟩, hs'⟩ := h'
  refine ⟨⟨now', renewal', lost', rfl⟩, fun h => ?_⟩
  obtain ⟨h₁, e₁⟩ := hs h
  obtain ⟨h₂, e₂⟩ := hs' h₁
  exact ⟨h₂, e₂.trans e₁⟩

theorem Elapsed.cluster (h : w.Elapsed w') : w'.cluster = w.cluster := by
  obtain ⟨⟨now, renewal, lost, rfl⟩, -⟩ := h
  rfl

theorem Elapsed.still (h : w.Elapsed w') (hw : w.Still) : w'.Still := by
  obtain ⟨⟨now, renewal, lost, rfl⟩, -⟩ := h
  exact ⟨hw.script, hw.events, hw.signal, hw.shutdown⟩

/-- A still namespace has no reason to be interrupted but a lost lease. -/
theorem Still.interruption?_eq_none_iff (h : w.Still) : w.interruption? = none ↔ w.lost = none := by
  rw [interruption?, h.shutdown]
  cases w.lost <;> simp

theorem renewTo_elapsed (t : Nat) (w : World) : w.Elapsed (w.renewTo t) := by
  rw [renewTo]
  split
  · exact .refl w
  · rename_i r hr
    split
    · exact .refl w
    · split
      · rename_i hok
        refine ⟨⟨_, _, _, rfl⟩, fun h => ⟨fun r' hr' => ?_, rfl⟩⟩
        exact Option.some.inj hr' ▸ hok
      · rename_i e he
        exact ⟨⟨_, _, _, rfl⟩, fun h => absurd (he.symm.trans (h r hr)) nofun⟩

theorem idleTo_elapsed (stop : World → Bool) (t : Nat) (w : World) : w.Elapsed (w.idleTo stop t) := by
  rw [idleTo]
  split
  · exact renewTo_elapsed t w
  · exact (renewTo_elapsed t w).trans ⟨⟨_, _, _, rfl⟩, fun h => ⟨h, rfl⟩⟩

theorem Still.advance_elapsed (h : w.Still) (stop : World → Bool) (t : Nat) :
    w.Elapsed (w.advance stop t) := by
  rw [advance]
  split
  · exact .refl w
  · rw [h.events, advanceOver]
    exact idleTo_elapsed stop t w

theorem Still.wait_elapsed (h : w.Still) (ms : Nat) : w.Elapsed (w.wait ms) := by
  rw [wait]
  split
  · exact .refl w
  · exact h.advance_elapsed _ _

theorem Still.rest_elapsed (h : w.Still) (ms : Nat) : w.Elapsed (w.rest ms) :=
  h.advance_elapsed _ _

/-! ### Listings -/

theorem listOnCluster_eq (w : World) (path : String) (cursor : Option String) :
    w.listOnCluster path cursor = ({ w with cluster := (w.cluster.listPage path cursor).1 },
      match (w.cluster.listPage path cursor).2 with
      | .ok page => .ok page
      | .error e => .error (.failed e)) := by
  rw [listOnCluster]
  split <;> simp only [*]

/-- What reports and listings do to a still namespace. -/
structure Consulted (w w' : World) : Prop where
  still : w'.Still
  secure : w.Secure → w'.Secure ∧ w'.lost = w.lost
  counted : ∃ calls grace failures, w'.cluster =
    { w.cluster with listCalls := calls, listingGrace := grace, listingFailures := failures }

theorem Elapsed.consulted (h : w.Elapsed w') (hw : w.Still) : w.Consulted w' :=
  ⟨h.still hw, h.secure, _, _, _, h.cluster⟩

theorem Consulted.trans (h : w.Consulted w') (h' : w'.Consulted w'') : w.Consulted w'' := by
  obtain ⟨-, hs, calls, grace, failures, hc⟩ := h
  obtain ⟨hstill, hs', calls', grace', failures', hc'⟩ := h'
  refine ⟨hstill, fun h => ?_, calls', grace', failures', by rw [hc', hc]⟩
  obtain ⟨h₁, e₁⟩ := hs h
  obtain ⟨h₂, e₂⟩ := hs' h₁
  exact ⟨h₂, e₂.trans e₁⟩

/-- The cluster of a still namespace reports at once. -/
theorem Still.report (h : w.Still) : w.report = (w, .ok w.cluster.reports) := by
  simp only [World.report, h.script, Script.none, wait, if_true]

/-- The cluster of a still namespace lists at once. -/
theorem Still.listPage_eq (h : w.Still) (path : String) (cursor : Option String) :
    w.listPage path cursor = ({ w with cluster := (w.cluster.listPage path cursor).1 },
      match (w.cluster.listPage path cursor).2 with
      | .ok page => .ok page
      | .error e => .error (.failed e)) := by
  have hlistings : w.script.listings = [] := congrArg Script.listings h.script
  have hwait : w.wait w.script.listingDelayMs = w := by
    rw [h.script]
    rfl
  refine Eq.trans ?_ (listOnCluster_eq w path cursor)
  rw [World.listPage, hwait]
  dsimp only
  rw [hlistings]

theorem Still.listPage (h : w.Still) (path : String) (cursor : Option String) :
    w.Consulted (w.listPage path cursor).1 := by
  obtain ⟨grace, failures, he⟩ := Cluster.listPage_frame w.cluster path cursor
  rw [h.listPage_eq]
  refine ⟨⟨h.script, h.events, h.signal, h.shutdown⟩, fun hs => ⟨?_, rfl⟩, _, _, _, he⟩
  intro r hr
  rw [he]
  exact hs r hr

/-! ### The lease -/

theorem acquireLease_held (hs : w.script.acquireError = none) {lease : HeldLease}
    (hl : w.cluster.lease = some lease) (holder : String) (intervalMs : Nat) :
    w.acquireLease holder intervalMs = (w, .error (.alreadyHeld lease.holder lease.bySatisfier)) := by
  simp only [acquireLease, hs, Cluster.acquireLease, hl]

/-- The namespace after a holder has been granted the lease. -/
def leased (w : World) (holder : String) (intervalMs : Nat) : World :=
  { w with
    cluster := { w.cluster with
      lease := some ⟨holder, some (w.cluster.granted + 1), false⟩, granted := w.cluster.granted + 1 },
    renewal := some ⟨w.cluster.granted + 1, intervalMs, w.now + intervalMs⟩,
    lost := none }

theorem acquireLease_free (hs : w.script.acquireError = none) (hl : w.cluster.lease = none)
    (holder : String) (intervalMs : Nat) : w.acquireLease holder intervalMs =
      (w.leased holder intervalMs, .ok ⟨holder, w.cluster.granted + 1⟩) := by
  simp only [acquireLease, hs, Cluster.acquireLease, hl, leased]

/-- A lease that has just been granted can be renewed, unless the namespace rejects renewals. -/
theorem secure_leased (h : w.cluster.rejectsRenewal = false) (holder : String) (intervalMs : Nat) :
    (w.leased holder intervalMs).Secure := by
  intro r hr
  obtain rfl := Option.some.inj hr
  simp [leased, Cluster.renewalError?, h]

end World

end StorageTiering
