import StorageTiering.Proofs.Federation.Status
import StorageTiering.Proofs.Run.Work
import StorageTiering.Proofs.SortedTable
import Mathlib.Data.List.Forall2
/-!
# Namespaces that take turns

The runs of a federation go on side by side. In whatever order they take their steps, each comes to the end
that it comes to alone, and so does the whole.

* `Session` — namespaces with what is left of their runs; `Session.turn`, `Session.turns`.
* `Session.member?_turns` — what turns have made of a namespace, its own turns have.
* `Federation.inTurns` — a federation whose namespaces take turns in an order.
* `Federation.Completes` — what the run of a namespace comes to alone; `Federation.Settles` for all of them.
* `Federation.exists_settles`, `Federation.isSome_inTurns` — answers in turns are those of the runs alone.
* `Federation.inTurns_outcome` — what the federation comes to, whatever the order.
-/

namespace StorageTiering

/-- Namespaces on their way, with what is left of their runs. -/
structure Session where
  worlds : SortedTable World
  works : SortedTable (Work (Option RunEnd))

namespace Session

variable {id other : NamespaceId}

/-- A namespace with what is left of its run. -/
def member? (s : Session) (id : NamespaceId) : Option (World × Work (Option RunEnd)) :=
  (s.worlds.find? id).bind fun w => (s.works.find? id).map fun t => (w, t)

/-- A namespace takes one step of its run. -/
def turn (s : Session) (id : NamespaceId) : Session :=
  match s.member? id with
  | some m => ⟨s.worlds.adjust id fun _ => (Work.turn m).1, s.works.adjust id fun _ => (Work.turn m).2⟩
  | none => s

/-- Namespaces take steps in an order. -/
def turns (s : Session) (order : List NamespaceId) : Session := order.foldl turn s

/-- The status of a namespace whose run is done. -/
def status? (s : Session) (id : NamespaceId) : Option Status :=
  (s.works.find? id).bind fun t => t.result?.join.map (Federation.memberStatus id)

/-- How many steps a namespace has left. -/
def steps (s : Session) (id : NamespaceId) : Nat := ((s.member? id).map fun m => m.2.steps m.1).getD 0

theorem member?_eq_some_iff {s : Session} {w : World} {t : Work (Option RunEnd)} :
    s.member? id = some (w, t) ↔ s.worlds.find? id = some w ∧ s.works.find? id = some t := by
  simp [member?, Option.bind_eq_some_iff]

/-- A turn is a step in its own namespace, and nothing to the others. -/
theorem member?_turn (s : Session) (id other : NamespaceId) :
    (s.turn id).member? other = if other = id then (s.member? other).map Work.turn else s.member? other := by
  rw [turn]
  split
  · rename_i m hm
    obtain ⟨hw, ht⟩ := member?_eq_some_iff.1 hm
    simp only [member?, SortedTable.find?_adjust]
    split
    · rename_i heq
      rw [heq, hw, ht]
      rfl
    · rfl
  · rename_i hm
    split
    · rename_i heq
      rw [heq, hm]
      rfl
    · rfl

/-- What turns have made of a namespace, its own turns have. -/
theorem member?_turns (s : Session) (order : List NamespaceId) (id : NamespaceId) :
    (s.turns order).member? id = (s.member? id).map (Work.turn^[order.count id]) := by
  induction order generalizing s with
  | nil => exact Option.map_id'.symm
  | cons first rest ih =>
    rw [turns, List.foldl_cons, ← turns, ih, member?_turn]
    by_cases h : id = first
    · subst h
      rw [if_pos rfl, List.count_cons_self, Option.map_map]
      rfl
    · rw [if_neg h, List.count_cons_of_ne (Ne.symm h)]

/-- A namespace that is not run stays as it is. -/
theorem find?_worlds_turns (s : Session) (order : List NamespaceId) (h : s.works.find? id = none) :
    (s.turns order).worlds.find? id = s.worlds.find? id := by
  induction order generalizing s with
  | nil => rfl
  | cons first rest ih =>
    have hturn : (s.turn first).works.find? id = none ∧
        (s.turn first).worlds.find? id = s.worlds.find? id := by
      rw [turn]
      split
      · rename_i m hm
        have hne : id ≠ first := by
          rintro rfl
          simp [member?, h] at hm
        simp [SortedTable.find?_adjust, hne, h]
      · exact ⟨h, rfl⟩
    rw [turns, List.foldl_cons, ← turns, ih _ hturn.1, hturn.2]

end Session

namespace Federation

variable (settings : Settings) (holder : String) (rounds : Nat) {paths : NamespacePaths}
  {worlds : SortedTable World} {p : NamespaceId × Option (List String)} {m : Finished}

/-! ### One namespace -/

/-- The run of one namespace in single steps. -/
def memberWork (settings : Settings) (holder : String) (rounds : Nat) (paths : Option (List String)) :
    Work (Option RunEnd) :=
  (Work.once fun w => (w.settle, ())).bind fun _ =>
    (Work.run (Run.start paths settings Suite.standard holder) rounds).bind fun result => .done result.2

theorem alone_memberWork (paths : Option (List String)) (w : World) :
    (memberWork settings holder rounds paths).alone w = runMember settings holder paths rounds w := by
  simp only [memberWork, runMember, Work.alone_bind, Work.alone_once, Work.alone_run, Work.alone_done]

/-- The runs of all namespaces before their first steps. -/
def begin (settings : Settings) (holder : String) (rounds : Nat) (paths : NamespacePaths)
    (worlds : SortedTable World) : Session :=
  ⟨worlds, paths.map fun p => (p.1, memberWork settings holder rounds p.2)⟩

/-- The outcome of a federation whose namespaces take their steps in an order: the namespaces after these steps,
and the status of the whole once every run is done. -/
def inTurns (settings : Settings) (holder : String) (rounds : Nat) (paths : NamespacePaths)
    (worlds : SortedTable World) (order : List NamespaceId) : SortedTable World × Option Status :=
  match fault? settings (fun id => (worlds.find? id).isSome) paths with
  | some fault => (worlds, some (.illegalArguments fault))
  | none =>
      let s := (begin settings holder rounds paths worlds).turns order
      (s.worlds, (paths.keys.mapM s.status?).map status)

/-- What the run of a namespace comes to alone. -/
def Completes (settings : Settings) (holder : String) (rounds : Nat) (worlds : SortedTable World)
    (p : NamespaceId × Option (List String)) (m : Finished) : Prop :=
  m.id = p.1 ∧ ∃ w e, worlds.find? p.1 = some w ∧
    runMember settings holder p.2 rounds w = (m.world, some e) ∧ m.status = memberStatus p.1 e

/-- A namespace after some turns. What it has left comes to what its run comes to alone. -/
theorem exists_member?_turns (h : paths.Ascending) (hp : p ∈ paths) {w : World}
    (hw : worlds.find? p.1 = some w) (order : List NamespaceId) :
    ∃ v t, ((begin settings holder rounds paths worlds).turns order).member? p.1 = some (v, t) ∧
      t.alone v = runMember settings holder p.2 rounds w ∧
      t.steps v = (begin settings holder rounds paths worlds).steps p.1 - order.count p.1 := by
  have hmember : (begin settings holder rounds paths worlds).member? p.1 =
      some (w, memberWork settings holder rounds p.2) := by
    rw [Session.member?_eq_some_iff, begin, SortedTable.find?_map_values, h.find?_eq_some_iff.2 hp]
    exact ⟨hw, rfl⟩
  have hturns := Session.member?_turns (begin settings holder rounds paths worlds) order p.1
  rw [hmember] at hturns
  refine ⟨_, _, hturns, ?_, ?_⟩
  · exact (Work.alone_turns _ _).trans (alone_memberWork _ _ _ _ _)
  · rw [Session.steps, hmember]
    exact Work.steps_turns _ _

/-- A namespace that has a status after some turns has come to what its run comes to alone. -/
theorem exists_completes (h : paths.Ascending) (hp : p ∈ paths) (hknown : (worlds.find? p.1).isSome)
    (order : List NamespaceId) {s : Status}
    (hs : ((begin settings holder rounds paths worlds).turns order).status? p.1 = some s) :
    ∃ m, Completes settings holder rounds worlds p m ∧ m.status = s ∧
      ((begin settings holder rounds paths worlds).turns order).worlds.find? m.id = some m.world := by
  obtain ⟨w, hw⟩ := Option.isSome_iff_exists.1 hknown
  obtain ⟨v, t, hmember, halone, -⟩ := exists_member?_turns settings holder rounds h hp hw order
  obtain ⟨hv, ht⟩ := Session.member?_eq_some_iff.1 hmember
  rw [Session.status?, ht, Option.bind_some, Option.map_eq_some_iff] at hs
  obtain ⟨e, he, rfl⟩ := hs
  rw [Work.alone_of_result? (Option.join_eq_some_iff.1 he)] at halone
  exact ⟨⟨p.1, v, memberStatus p.1 e⟩, ⟨rfl, w, e, hw, halone.symm, rfl⟩, rfl, hv⟩

/-- A namespace whose run ends alone has a status once it has had all its turns. -/
theorem status?_of_completes (h : paths.Ascending) (hp : p ∈ paths)
    (hm : Completes settings holder rounds worlds p m) {order : List NamespaceId}
    (henough : (begin settings holder rounds paths worlds).steps p.1 ≤ order.count p.1) :
    ((begin settings holder rounds paths worlds).turns order).status? p.1 = some m.status := by
  obtain ⟨-, w, e, hw, hrun, hstatus⟩ := hm
  obtain ⟨v, t, hmember, halone, hsteps⟩ := exists_member?_turns settings holder rounds h hp hw order
  have hdone : t.result?.isSome := by
    rw [Work.isSome_result?_iff t v, hsteps]
    omega
  obtain ⟨result, hresult⟩ := Option.isSome_iff_exists.1 hdone
  rw [Work.alone_of_result? hresult, hrun] at halone
  obtain rfl : result = some e := (Prod.mk.inj halone).2
  rw [Session.status?, (Session.member?_eq_some_iff.1 hmember).2, Option.bind_some, hresult, hstatus]
  rfl

/-! ### All namespaces -/

/-- What there is for each member of a list makes a list of its own. -/
theorem exists_list_of_forall₂ {α β γ : Type} {P : α → γ → Prop} {Q : γ → Prop} {f : γ → β} {l : List α}
    {l' : List β} (h : List.Forall₂ (fun a b => ∃ c, P a c ∧ f c = b ∧ Q c) l l') :
    ∃ cs, List.Forall₂ P l cs ∧ cs.map f = l' ∧ ∀ c ∈ cs, Q c := by
  induction h with
  | nil => exact ⟨[], .nil, rfl, nofun⟩
  | cons hfirst _ ih =>
    obtain ⟨c, hc, rfl, hq⟩ := hfirst
    obtain ⟨cs, hcs, rfl, hqs⟩ := ih
    exact ⟨c :: cs, .cons hc hcs, rfl, List.forall_mem_cons.2 ⟨hq, hqs⟩⟩

/-- Several answers are there exactly if each of them is. -/
theorem mapM_eq_some_iff {α β : Type} {f : α → Option β} {l : List α} {l' : List β} :
    l.mapM f = some l' ↔ List.Forall₂ (fun a b => f a = some b) l l' := by
  induction l generalizing l' with
  | nil => simp [List.forall₂_nil_left_iff, eq_comm]
  | cons a rest ih =>
    rw [List.mapM_cons, List.forall₂_cons_left_iff]
    simp only [Option.bind_eq_bind, Option.bind_eq_some_iff, ih, Option.pure_def, Option.some.injEq]
    constructor
    · rintro ⟨b, hb, bs, hbs, rfl⟩
      exact ⟨b, bs, hb, hbs, rfl⟩
    · rintro ⟨b, bs, hb, hbs, rfl⟩
      exact ⟨b, hb, bs, hbs, rfl⟩

theorem finish?_eq_some_iff {w : World} (hw : worlds.find? p.1 = some w) :
    finish? settings holder rounds ⟨p.1, p.2, w⟩ = some m ↔ Completes settings holder rounds worlds p m := by
  rw [finish?]
  dsimp only
  constructor
  · intro h
    cases hrun : runMember settings holder p.2 rounds w with
    | mk v end? =>
      rw [hrun] at h
      cases end? with
      | none => cases h
      | some e =>
        cases h
        exact ⟨rfl, w, e, hw, hrun, rfl⟩
  · rintro ⟨hid, u, e, hu, hrun, hs⟩
    obtain rfl : w = u := Option.some.inj (hw.symm.trans hu)
    obtain ⟨id, v, s⟩ := m
    obtain rfl : id = p.1 := hid
    obtain rfl : s = memberStatus p.1 e := hs
    rw [hrun]

/-- The runs of all namespaces come to what each of them comes to alone. -/
theorem runAll?_eq_some_iff (hknown : ∀ p ∈ paths, (worlds.find? p.1).isSome) {finished : List Finished} :
    runAll? settings holder rounds (members paths worlds) = some finished ↔
      List.Forall₂ (Completes settings holder rounds worlds) paths finished := by
  rw [runAll?, mapM_eq_some_iff]
  induction paths generalizing finished with
  | nil =>
    simp only [members, List.filterMap_nil, List.forall₂_nil_left_iff]
  | cons p rest ih =>
    obtain ⟨hfirst, hrest⟩ := List.forall_mem_cons.1 hknown
    obtain ⟨w, hw⟩ := Option.isSome_iff_exists.1 hfirst
    have hmembers : members (p :: rest) worlds = ⟨p.1, p.2, w⟩ :: members rest worlds := by
      simp [members, hw]
    rw [hmembers]
    simp only [List.forall₂_cons_left_iff, finish?_eq_some_iff settings holder rounds hw, ih hrest]

/-! ### The whole -/

/-- What a federation comes to: each namespace is left as its run alone leaves it and has the status of this
run, the worst of which is that of the whole, and the other namespaces are not touched. -/
structure Settles (settings : Settings) (holder : String) (rounds : Nat) (paths : NamespacePaths)
    (worlds after : SortedTable World) (s : Status) (finished : List Finished) : Prop where
  alone : List.Forall₂ (Completes settings holder rounds worlds) paths finished
  worst : IsWorst s (finished.map Finished.status)
  success : s = .success ↔ ∀ m ∈ finished, m.status = .success
  touched : ∀ m ∈ finished, after.find? m.id = some m.world
  others : ∀ id, id ∉ paths.keys → after.find? id = worlds.find? id

theorem run?_of_fit (h : ¬Unfit settings (fun id => (worlds.find? id).isSome) paths) :
    run? settings holder rounds paths worlds =
      (runAll? settings holder rounds (members paths worlds)).map fun finished =>
        ⟨status (finished.map Finished.status), finished⟩ := by
  rw [run?, fault?_eq_none_iff.2 h]

theorem inTurns_of_fit (h : ¬Unfit settings (fun id => (worlds.find? id).isSome) paths)
    (order : List NamespaceId) : inTurns settings holder rounds paths worlds order =
      (((begin settings holder rounds paths worlds).turns order).worlds,
        (paths.keys.mapM ((begin settings holder rounds paths worlds).turns order).status?).map status) := by
  rw [inTurns, fault?_eq_none_iff.2 h]

/-- Any answer is that of the runs alone. -/
theorem exists_settles (h : paths.Ascending) (hfit : ¬Unfit settings (fun id => (worlds.find? id).isSome) paths)
    (order : List NamespaceId) {s : Status}
    (hs : (inTurns settings holder rounds paths worlds order).2 = some s) :
    ∃ finished, run? settings holder rounds paths worlds = some ⟨s, finished⟩ ∧
      Settles settings holder rounds paths worlds (inTurns settings holder rounds paths worlds order).1 s
        finished := by
  obtain ⟨hpaths, hknown⟩ := known_of_fit hfit
  rw [inTurns_of_fit settings holder rounds hfit] at hs ⊢
  obtain ⟨statuses, hstatuses, rfl⟩ := Option.map_eq_some_iff.1 hs
  rw [mapM_eq_some_iff, SortedTable.keys, List.forall₂_map_left_iff] at hstatuses
  -- each status that is there is the one to which the run of its namespace comes alone
  have hall := ((List.forall₂_and_left _ _).2 ⟨fun p hp => hp, hstatuses⟩).imp fun p s hs =>
    exists_completes settings holder rounds h hs.1 (hknown p hs.1) order hs.2
  obtain ⟨finished, halone, rfl, htouched⟩ := exists_list_of_forall₂ hall
  have hne : finished.map Finished.status ≠ [] := by
    intro hnil
    rw [hnil] at hstatuses
    cases hstatuses
    exact hpaths rfl
  refine ⟨finished, ?_, halone, isWorst_status hne, ?_, htouched, fun id hid => ?_⟩
  · rw [run?_of_fit settings holder rounds hfit, (runAll?_eq_some_iff settings holder rounds hknown).2 halone]
    rfl
  · rw [status_eq_success_iff, List.forall_mem_map]
  · refine Session.find?_worlds_turns _ _ ?_
    rw [begin, SortedTable.find?_map_values, Option.map_eq_none_iff, SortedTable.find?_eq_none_iff]
    exact fun e he heq => hid (heq ▸ List.mem_map_of_mem he)

/-- If each run ends alone, there is an answer once every namespace has had all its turns. -/
theorem isSome_inTurns (h : paths.Ascending) (hfit : ¬Unfit settings (fun id => (worlds.find? id).isSome) paths)
    (hends : (run? settings holder rounds paths worlds).isSome) {order : List NamespaceId}
    (henough : ∀ p ∈ paths, (begin settings holder rounds paths worlds).steps p.1 ≤ order.count p.1) :
    (inTurns settings holder rounds paths worlds order).2.isSome := by
  obtain ⟨-, hknown⟩ := known_of_fit hfit
  rw [run?_of_fit settings holder rounds hfit, Option.isSome_map] at hends
  obtain ⟨finished, hfinished⟩ := Option.isSome_iff_exists.1 hends
  have halone := (List.forall₂_and_left _ _).2
    ⟨fun p hp => hp, (runAll?_eq_some_iff settings holder rounds hknown).1 hfinished⟩
  rw [inTurns_of_fit settings holder rounds hfit, Option.isSome_map]
  refine Option.isSome_iff_exists.2 ⟨finished.map Finished.status, mapM_eq_some_iff.2 ?_⟩
  rw [SortedTable.keys, List.forall₂_map_left_iff, List.forall₂_map_right_iff]
  exact halone.imp fun p m hm => status?_of_completes settings holder rounds h hm.1 hm.2 (henough p hm.1)

/-- Whatever the order in which the namespaces take their steps. If anything is wrong with settings, namespaces,
paths or connectors, the answer says so and no namespace is touched. Otherwise any answer is that of the runs
alone, the first of the worst statuses in the order of namespaces; and there is an answer once every namespace
has had all its turns, if each run ends alone. -/
theorem inTurns_outcome (h : paths.Ascending) (settings : Settings) (holder : String) (rounds : Nat)
    (worlds : SortedTable World) (order : List NamespaceId) :
    let known := fun id => (worlds.find? id).isSome
    let result := inTurns settings holder rounds paths worlds order
    (Unfit settings known paths → result.1 = worlds ∧ ∃ fault, result.2 = some (.illegalArguments fault)) ∧
    (¬Unfit settings known paths →
      (∀ s, result.2 = some s → ∃ finished, run? settings holder rounds paths worlds = some ⟨s, finished⟩ ∧
        Settles settings holder rounds paths worlds result.1 s finished) ∧
      ((run? settings holder rounds paths worlds).isSome →
        (∀ p ∈ paths, (begin settings holder rounds paths worlds).steps p.1 ≤ order.count p.1) →
        result.2.isSome)) := by
  intro known result
  refine ⟨fun hunfit => ?_, fun hfit => ⟨fun s hs => ?_, fun hends henough => ?_⟩⟩
  · obtain ⟨fault, hfault⟩ := Option.isSome_iff_exists.1 (isSome_fault?_iff.2 hunfit)
    have hresult : result = (worlds, some (.illegalArguments fault)) := by
      simp only [result, inTurns]
      rw [hfault]
    rw [hresult]
    exact ⟨rfl, fault, rfl⟩
  · exact exists_settles settings holder rounds h hfit order hs
  · exact isSome_inTurns settings holder rounds h hfit hends henough

/-- Namespaces of which one is in the hands of another holder. -/
def busyWorlds : SortedTable World :=
  [("a", World.start (.empty "a") .none []),
   ("b", World.start { Cluster.empty "b" with lease := some ⟨"other", none, false⟩ } .none []),
   ("c", World.start (.empty "c") .none [])]

/-- Two of these namespaces, as wholes. -/
def busyPaths : NamespacePaths := [("a", none), ("b", none)]

/-- Turn by turn, the namespaces come to the worse of their statuses; the third one is not touched. With a blank
name among them none is. -/
theorem inTurns_outcome_busy :
    let order := (List.replicate 9 ["b", "a"]).flatten
    let result := inTurns .standard "h" 1 busyPaths busyWorlds order
    (result.2 = some (.alreadyRunning "other") ∧ result.1.find? "c" = busyWorlds.find? "c") ∧
      (inTurns .standard "h" 1 (("", none) :: busyPaths) busyWorlds order).1 = busyWorlds := by
  intro order result
  have hascending : SortedTable.Ascending (("", none) :: busyPaths) := by
    unfold SortedTable.Ascending
    decide
  have hrun : (run? .standard "h" 1 busyPaths busyWorlds).map Outcome.status =
      some (.alreadyRunning "other") := by
    decide +kernel
  have hends : (run? .standard "h" 1 busyPaths busyWorlds).isSome := by
    rw [← Option.isSome_map, hrun]
    rfl
  have hfit : ¬Unfit .standard (fun id => (busyWorlds.find? id).isSome) busyPaths := by
    rw [← isSome_fault?_iff]
    decide +kernel
  have hunfit : Unfit .standard (fun id => (busyWorlds.find? id).isSome) (("", none) :: busyPaths) := by
    rw [← isSome_fault?_iff]
    decide +kernel
  obtain ⟨-, hbusy⟩ := inTurns_outcome (List.Pairwise.of_cons hascending) .standard "h" 1 busyWorlds order
  obtain ⟨hall, hanswer⟩ := hbusy hfit
  obtain ⟨s, hs⟩ := Option.isSome_iff_exists.1 (hanswer hends (by decide +kernel))
  obtain ⟨finished, hfinished, hsettles⟩ := hall s hs
  obtain rfl : s = .alreadyRunning "other" := by simpa [hfinished] using hrun
  refine ⟨⟨hs, hsettles.others "c" (by decide)⟩, ?_⟩
  exact ((inTurns_outcome hascending .standard "h" 1 busyWorlds order).1 hunfit).1

end Federation

end StorageTiering
