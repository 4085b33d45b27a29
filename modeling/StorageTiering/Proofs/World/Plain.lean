import StorageTiering.Proofs.Cluster.Records
import StorageTiering.Proofs.World.Still
/-!
# Namespaces that answer for themselves

* `World.advance_preserves_of_renewTo`, `World.advance_preserves` — what renewals and events preserve holds
  after any time has passed.
* `World.report_of_wait`, `World.listPage_of_wait` — what a call needs beyond the delay before it.
* `World.Plain` — the cluster comes about by its operations, and answers listings itself.
* `World.Shows` — a plain namespace with the files and blocks of a cluster.
* `World.Spared` — a namespace in which at most so many listing calls will fail.
-/

namespace StorageTiering

namespace World

variable {w : World} {c : Cluster} {n : Nat}

/-! ### The passing of time -/

theorem events_renewTo (t : Nat) (w : World) : (w.renewTo t).events = w.events := by
  rw [renewTo]
  split
  · rfl
  · split
    · rfl
    · split <;> rfl

theorem wait_of_advance {Q : World → Prop} (h : Q w) (hadvance : ∀ stop t, Q (w.advance stop t)) (ms : Nat) :
    Q (w.wait ms) := by
  rw [wait]
  split
  · exact h
  · exact hadvance _ _

section Renewals

variable {Q : World → Prop} (hnow : ∀ (w : World) now, Q w → Q { w with now := now })
  (hrenew : ∀ (w : World) t, Q w → Q (w.renewTo t))

include hnow hrenew

theorem idleTo_preserves (stop : World → Bool) (t : Nat) (h : Q w) : Q (w.idleTo stop t) := by
  rw [idleTo]
  split
  · exact hrenew w t h
  · exact hnow _ _ (hrenew w t h)

variable
  (hevent : ∀ (w : World) e rest, w.events = e :: rest → Q w → Q { w.apply e with events := rest })

include hevent

theorem advanceOver_preserves (stop : World → Bool) (t : Nat) (events : List TimedEvent)
    (he : w.events = events) (h : Q w) : Q (advanceOver stop t events w) := by
  induction events generalizing w with
  | nil => exact idleTo_preserves hnow hrenew stop t h
  | cons e rest ih =>
    rw [advanceOver]
    split
    · exact idleTo_preserves hnow hrenew stop t h
    · have hrenewed := hrenew w (e.moment - 1) h
      have happlied := hevent _ e rest ((events_renewTo _ w).trans he) hrenewed
      dsimp only
      split
      · exact hrenewed
      · split
        · exact happlied
        · exact ih rfl happlied

/-- What stays true whatever the clock shows, through renewals and through events, is true after any time has
passed. -/
theorem advance_preserves_of_renewTo (stop : World → Bool) (t : Nat) (h : Q w) : Q (w.advance stop t) := by
  rw [advance]
  split
  · exact h
  · exact advanceOver_preserves hnow hrenew hevent stop t w.events rfl h

end Renewals

section Preserves

variable {Q : World → Prop}
  (hidle : ∀ (w : World) now renewal lost, Q w → Q { w with now := now, renewal := renewal, lost := lost })
  (hevent : ∀ (w : World) e rest, w.events = e :: rest → Q w → Q { w.apply e with events := rest })

include hidle

theorem renewTo_preserves (t : Nat) (h : Q w) : Q (w.renewTo t) := by
  rw [renewTo]
  split
  · exact h
  · split
    · exact h
    · split
      · exact hidle w w.now _ w.lost h
      · exact hidle w _ none _ h

include hevent

/-- What is true whatever the clock, the renewals and the loss of the lease are, and stays true through
events, is true after any time has passed. -/
theorem advance_preserves (stop : World → Bool) (t : Nat) (h : Q w) : Q (w.advance stop t) :=
  advance_preserves_of_renewTo (fun w now => hidle w now w.renewal w.lost)
    (fun _ t => renewTo_preserves hidle t) hevent stop t h

theorem wait_preserves (ms : Nat) (h : Q w) : Q (w.wait ms) :=
  wait_of_advance h (fun stop t => advance_preserves hidle hevent stop t h) ms

end Preserves

section Calls

variable {Q : World → Prop}

/-- What is true after the delay of a report, whatever reports are scripted, is true after the report. -/
theorem report_of_wait (hwait : Q (w.wait w.script.reportDelayMs))
    (hscript : ∀ (v : World) reports, Q v → Q { v with script := { v.script with reports := reports } }) :
    Q w.report.1 := by
  rw [report]
  split
  · exact hwait
  · dsimp only
    split <;> exact hscript _ _ hwait

/-- What is true after the delay of a listing, whatever listings are scripted and when the cluster lists, is true
after the listing. -/
theorem listPage_of_wait (path : String) (cursor : Option String)
    (hwait : Q (w.wait w.script.listingDelayMs))
    (hscript : ∀ (v : World) listings, Q v → Q { v with script := { v.script with listings := listings } })
    (hlist : ∀ v : World, Q v → Q (v.listOnCluster path cursor).1) : Q (w.listPage path cursor).1 := by
  rw [listPage]
  split
  · exact hlist _ hwait
  · dsimp only
    split
    · exact hlist _ (hscript _ _ hwait)
    · exact hscript _ _ hwait
    · exact hscript _ _ hwait

end Calls

/-- An event disturbs the cluster, or leaves it as it is. -/
theorem cluster_apply (w : World) (e : TimedEvent) :
    (∃ d, e.event = .disturb d ∧ (w.apply e).cluster = d.apply w.cluster) ∨
      (w.apply e).cluster = w.cluster := by
  rw [apply]
  split
  · exact .inl ⟨_, ‹_›, rfl⟩
  · exact .inr rfl
  · exact .inr rfl

theorem script_apply (w : World) (e : TimedEvent) : (w.apply e).script = w.script := by
  rw [apply]
  split <;> rfl

/-- No relocation is asked for while time passes. -/
theorem relocateCalls_wait (w : World) (ms : Nat) :
    (w.wait ms).cluster.relocateCalls = w.cluster.relocateCalls := by
  refine wait_preserves (Q := fun w' => w'.cluster.relocateCalls = w.cluster.relocateCalls)
    (fun _ _ _ _ h => h) (fun w' e rest _ h => ?_) ms rfl
  show (w'.apply e).cluster.relocateCalls = w.cluster.relocateCalls
  rcases cluster_apply w' e with ⟨d, -, he⟩ | he
  · rw [he, ← h]
    cases d <;> rfl
  · rw [he, h]

/-! ### Plain namespaces -/

/-- The cluster comes about by its operations, and answers listings itself. -/
structure Plain (w : World) : Prop where
  reachable : w.cluster.Reachable
  listings : w.script.listings = []

theorem Plain.advance (h : w.Plain) (stop : World → Bool) (t : Nat) : (w.advance stop t).Plain := by
  refine advance_preserves (fun w _ _ _ h => ⟨h.reachable, h.listings⟩) (fun w e rest _ h => ?_) stop t h
  refine ⟨?_, (congrArg Script.listings (script_apply w e)).trans h.listings⟩
  show (w.apply e).cluster.Reachable
  rcases cluster_apply w e with ⟨d, -, he⟩ | he
  · exact he ▸ h.reachable.disturb d
  · exact he ▸ h.reachable

theorem Plain.wait (h : w.Plain) (ms : Nat) : (w.wait ms).Plain := wait_of_advance h h.advance ms

theorem Plain.report (h : w.Plain) : w.report.1.Plain :=
  report_of_wait (h.wait _) fun _ _ h => ⟨h.reachable, h.listings⟩

/-- Without scripted answers the cluster lists. -/
theorem Plain.listPage_eq (h : w.Plain) (path : String) (cursor : Option String) :
    w.listPage path cursor = (w.wait w.script.listingDelayMs).listOnCluster path cursor := by
  rw [World.listPage, (h.wait _).listings]

theorem Plain.listOnCluster (h : w.Plain) (path : String) (cursor : Option String) :
    (w.listOnCluster path cursor).1.Plain := by
  have hr := h.reachable.listPage path cursor
  rw [World.listOnCluster]
  split
  · rename_i heq
    rw [heq] at hr
    exact ⟨hr, h.listings⟩
  · rename_i heq
    rw [heq] at hr
    exact ⟨hr, h.listings⟩

theorem Plain.listPage (h : w.Plain) (path : String) (cursor : Option String) :
    (w.listPage path cursor).1.Plain := by
  rw [h.listPage_eq]
  exact (h.wait _).listOnCluster path cursor

theorem Plain.settleAttempt (h : w.Plain) (m : Move) (a : AttemptAnswer) :
    (w.settleAttempt m a).1.Plain := by
  cases a with
  | perform => exact ⟨h.reachable.relocate m, h.listings⟩
  | _ => exact ⟨h.reachable, h.listings⟩

theorem Plain.beginAttempt (h : w.Plain) (m : Move) : (w.beginAttempt m).1.Plain := by
  refine ⟨h.reachable, ?_⟩
  show (w.script.nextAttempt m.block.id).1.listings = []
  rw [Script.nextAttempt]
  split
  · exact h.listings
  · exact h.listings

/-! ### What a namespace shows to a scan -/

/-- A plain namespace with the files and blocks of a cluster. -/
structure Shows (w : World) (c : Cluster) : Prop extends Plain w where
  files : w.cluster.files = c.files
  blocks : w.cluster.blocks = c.blocks

theorem Plain.shows (h : w.Plain) : w.Shows w.cluster := ⟨h, rfl, rfl⟩

theorem Shows.wait (h : w.Shows c) (ms : Nat) : (w.wait ms).Shows c := by
  have hframe : (w.wait ms).cluster.files = c.files ∧ (w.wait ms).cluster.blocks = c.blocks := by
    refine wait_preserves (Q := fun w => w.cluster.files = c.files ∧ w.cluster.blocks = c.blocks)
      (fun _ _ _ _ h => h) (fun w e rest _ h => ?_) ms ⟨h.files, h.blocks⟩
    show (w.apply e).cluster.files = c.files ∧ (w.apply e).cluster.blocks = c.blocks
    rcases cluster_apply w e with ⟨d, -, he⟩ | he
    · rw [he]
      cases d <;> exact h
    · exact he ▸ h
  exact ⟨h.toPlain.wait ms, hframe.1, hframe.2⟩

theorem Shows.listPage (h : w.Shows c) (path : String) (cursor : Option String) :
    (w.listPage path cursor).1.Shows c := by
  have hw := h.wait w.script.listingDelayMs
  rw [h.toPlain.listPage_eq]
  obtain ⟨grace, failures, he⟩ := Cluster.listPage_frame (w.wait w.script.listingDelayMs).cluster path cursor
  refine ⟨hw.toPlain.listOnCluster path cursor, ?_, ?_⟩
  · rw [listOnCluster_eq, he]
    exact hw.files
  · rw [listOnCluster_eq, he]
    exact hw.blocks

/-- At most so many listing calls will fail. -/
structure Spared (n : Nat) (w : World) : Prop where
  failures : w.cluster.listingFailures ≤ n
  events : ∀ e ∈ w.events, ∀ count after, e.event ≠ .disturb (.failListings count after)

theorem Spared.wait (h : w.Spared n) (ms : Nat) : (w.wait ms).Spared n := by
  refine wait_preserves (fun _ _ _ _ h => ⟨h.failures, h.events⟩) (fun w e rest he h => ?_) ms h
  refine ⟨?_, fun e' he' => h.events e' (he ▸ List.mem_cons_of_mem _ he')⟩
  show (w.apply e).cluster.listingFailures ≤ n
  rcases cluster_apply w e with ⟨d, hd, hc⟩ | hc
  · rw [hc]
    have hnone := h.events e (he ▸ List.mem_cons_self)
    cases d with
    | failListings count after => exact absurd hd (hnone count after)
    | _ => exact h.failures
  · exact hc ▸ h.failures

/-- A listing call fails for the moment, finds no file, or answers with the page to which its cursor
leads. -/
theorem Shows.listPage_cases {path : String} {cursor : Option String} {items : List ListingItem}
    (h : w.Shows c) (hl : Cluster.Leads (c.itemsUnder path) items cursor) :
    (∃ text, (w.listPage path cursor).2 = .error (.failed (.transient text)) ∧
      ∀ n, w.Spared n → ∃ k, n = k + 1 ∧ (w.listPage path cursor).1.Spared k) ∨
    ((∀ n, w.Spared n → (w.listPage path cursor).1.Spared n) ∧
      ((c.filesUnder path = [] ∧
          (w.listPage path cursor).2 = .error (.failed (.pathNotFound path))) ∨
        ∃ size, 1 ≤ size ∧ (w.listPage path cursor).2 = .ok (Cluster.pageOf size items))) := by
  have hw := h.wait w.script.listingDelayMs
  have hspared : ∀ n, w.Spared n → (w.wait w.script.listingDelayMs).Spared n := fun n hn => hn.wait _
  rw [h.toPlain.listPage_eq, listOnCluster_eq]
  generalize w.wait w.script.listingDelayMs = w' at *
  have hunder : w'.cluster.filesUnder path = c.filesUnder path := by
    rw [Cluster.filesUnder, Cluster.filesUnder, hw.files]
  rw [← Cluster.itemsUnder_congr hw.files hw.blocks path] at hl
  rcases Cluster.listPage_cases hl with ⟨text, he, hfail⟩ | ⟨hkeep, ⟨hnone, he⟩ | he⟩
  · refine .inl ⟨text, by rw [he], fun n hn => ?_⟩
    have hle := (hspared n hn).failures
    exact ⟨n - 1, by omega, by dsimp only; omega, (hspared n hn).events⟩
  · refine .inr ⟨fun n hn => ⟨?_, (hspared n hn).events⟩, .inl ⟨hunder ▸ hnone, by rw [he]⟩⟩
    exact hkeep.trans_le (hspared n hn).failures
  · refine .inr ⟨fun n hn => ⟨?_, (hspared n hn).events⟩,
      .inr ⟨_, hw.reachable.catalogued.room, by rw [he]⟩⟩
    exact hkeep.trans_le (hspared n hn).failures

end World

end StorageTiering
