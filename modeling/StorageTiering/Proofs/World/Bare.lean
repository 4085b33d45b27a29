import StorageTiering.Proofs.World.Plain
/-!
# Namespaces without a script

* `World.Bare` — nothing is scripted, and nobody asks anything of those who execute moves. Disturbances
  of the cluster, the loss of the lease and the end of the run may come at any time.
* `World.stops_or_le_now_advance` — waiting for a moment ends at that moment, unless something stops it.
-/

namespace StorageTiering.World

variable {w : World} {stop : World → Bool} {t : Nat}

/-- Nothing is scripted, and nobody asks anything of those who execute moves. -/
structure Bare (w : World) : Prop where
  script : w.script = .none
  signal : w.signal = .proceed
  unasked : ∀ e ∈ w.events, ∀ s, e.event ≠ .signal s

theorem Still.bare (h : w.Still) : w.Bare :=
  ⟨h.script, h.signal, by rw [h.events]; exact fun _ he => nomatch he⟩

theorem Bare.advance (h : w.Bare) (stop : World → Bool) (t : Nat) : (w.advance stop t).Bare := by
  refine advance_preserves (fun _ _ _ _ h => ⟨h.script, h.signal, h.unasked⟩) (fun w e rest he h => ?_) stop t h
  refine ⟨(script_apply w e).trans h.script, ?_, fun e' he' => h.unasked e' (he ▸ List.mem_cons_of_mem _ he')⟩
  have hunasked := h.unasked e (he ▸ List.mem_cons_self)
  show (w.apply e).signal = .proceed
  rw [apply]
  dsimp only
  split
  · exact h.signal
  · exact h.signal
  · rename_i s hs
    exact absurd hs (hunasked s)

/-- An attempt in a bare namespace is answered by its cluster, at once. -/
theorem Bare.beginAttempt (h : w.Bare) (m : Move) : w.beginAttempt m = (w.note .start m, .perform, 0) := by
  obtain ⟨now, cluster, script, events, renewal, lost, shutdown, signal, trace⟩ := w
  obtain rfl : script = .none := h.script
  rfl

/-! ### Calls -/

theorem Bare.wait (h : w.Bare) (ms : Nat) : (w.wait ms).Bare := wait_of_advance h h.advance ms

theorem Bare.report (h : w.Bare) : w.report.1.Bare := by
  simp only [World.report, h.script, Script.none, World.wait, if_true]
  exact h

theorem Bare.listPage (h : w.Bare) (path : String) (cursor : Option String) :
    (w.listPage path cursor).1.Bare := by
  simp only [World.listPage, h.script, Script.none, World.wait, if_true]
  rw [listOnCluster_eq]
  exact ⟨h.script, h.signal, h.unasked⟩

theorem Bare.checkSatisfier (h : w.Bare) : w.checkSatisfier.1.Bare := by
  rw [World.checkSatisfier]
  split
  · exact ⟨h.script, h.signal, h.unasked⟩
  · exact h
  · exact h

theorem Bare.acquireLease (h : w.Bare) (holder : String) (intervalMs : Nat) :
    (w.acquireLease holder intervalMs).1.Bare := by
  rw [World.acquireLease]
  split
  · exact h
  · split <;> exact ⟨h.script, h.signal, h.unasked⟩

/-! ### Waiting for a moment -/

theorem stops_or_le_now_idleTo (stop : World → Bool) (t : Nat) (w : World) :
    stop (w.idleTo stop t) ∨ t ≤ (w.idleTo stop t).now := by
  rw [idleTo]
  split
  · exact .inl ‹_›
  · exact .inr (Nat.le_max_right _ _)

theorem stops_or_le_now_advanceOver (stop : World → Bool) (t : Nat) (events : List TimedEvent) (w : World) :
    stop (advanceOver stop t events w) ∨ t ≤ (advanceOver stop t events w).now := by
  induction events generalizing w with
  | nil => exact stops_or_le_now_idleTo stop t w
  | cons e rest ih =>
    rw [advanceOver]
    split
    · exact stops_or_le_now_idleTo stop t w
    · dsimp only
      split
      · exact .inl ‹_›
      · split
        · exact .inl ‹_›
        · exact ih _

/-- Waiting for a moment ends at that moment, unless something stops it. -/
theorem stops_or_le_now_advance (stop : World → Bool) (t : Nat) (w : World) :
    stop (w.advance stop t) ∨ t ≤ (w.advance stop t).now := by
  rw [advance]
  split
  · exact .inl ‹_›
  · exact stops_or_le_now_advanceOver stop t w.events w

end StorageTiering.World
