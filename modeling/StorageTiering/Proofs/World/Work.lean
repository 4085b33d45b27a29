import StorageTiering.World.Basic
import Mathlib.Logic.Function.Iterate
/-!
# Work in single steps

What is done to a namespace in one go, split where others may have their turn.

* `Work` — steps in a namespace and a result; `Work.bind` joins works.
* `Work.alone` — all steps without a break; `Work.alone_bind`.
* `Work.turn` — one step; `Work.alone_turns`, `Work.steps_turns` — what is left after so many.
-/

namespace StorageTiering

/-- Work in one namespace. A step changes the namespace, and how the work goes on depends on how the namespace
was before. -/
inductive Work (α : Type)
  | done (result : α)
  | step (act : World → World) (next : World → Work α)

namespace Work

variable {α β : Type}

/-- Work that goes on with the result of other work. -/
def bind : Work α → (α → Work β) → Work β
  | done a, k => k a
  | step act next, k => step act fun w => (next w).bind k

/-- A call, as one step. -/
def once (call : World → World × α) : Work α := step (fun w => (call w).1) fun w => done (call w).2

/-- Reads something of the namespace, as one step. -/
def look (f : World → α) : Work α := once fun w => (w, f w)

/-- All steps without a break: the namespace after them, and the result. -/
def alone : Work α → World → World × α
  | done a, w => (w, a)
  | step act next, w => (next w).alone (act w)

/-- How many steps there are. -/
def steps : Work α → World → Nat
  | done _, _ => 0
  | step act next, w => (next w).steps (act w) + 1

/-- The result of work that is done. -/
def result? : Work α → Option α
  | done a => some a
  | step _ _ => none

/-- A namespace and the work in it after one more step, if there is one. -/
def turn : World × Work α → World × Work α
  | (w, done a) => (w, done a)
  | (w, step act next) => (act w, next w)

@[simp] theorem alone_done (a : α) (w : World) : (done a).alone w = (w, a) := rfl

@[simp] theorem alone_once (call : World → World × α) (w : World) : (once call).alone w = call w := rfl

@[simp] theorem alone_look (f : World → α) (w : World) : (look f).alone w = (w, f w) := rfl

@[simp] theorem alone_bind (t : Work α) (k : α → Work β) (w : World) :
    (t.bind k).alone w = (k (t.alone w).2).alone (t.alone w).1 := by
  induction t generalizing w with
  | done a => rfl
  | step act next ih => exact ih w (act w)

/-! ### Turns -/

/-- The steps that are left come to the same. -/
theorem alone_turn (s : World × Work α) : (turn s).2.alone (turn s).1 = s.2.alone s.1 := by
  obtain ⟨w, _ | _⟩ := s <;> rfl

theorem steps_turn (s : World × Work α) : (turn s).2.steps (turn s).1 = s.2.steps s.1 - 1 := by
  obtain ⟨w, _ | _⟩ := s <;> rfl

theorem alone_turns (n : Nat) (s : World × Work α) :
    (turn^[n] s).2.alone (turn^[n] s).1 = s.2.alone s.1 := by
  induction n generalizing s with
  | zero => rfl
  | succ n ih => exact (ih (turn s)).trans (alone_turn s)

theorem steps_turns (n : Nat) (s : World × Work α) :
    (turn^[n] s).2.steps (turn^[n] s).1 = s.2.steps s.1 - n := by
  induction n generalizing s with
  | zero => rfl
  | succ n ih =>
    refine (ih (turn s)).trans ?_
    rw [steps_turn]
    omega

/-- Work has a result when no step is left. -/
theorem isSome_result?_iff (t : Work α) (w : World) : t.result?.isSome ↔ t.steps w = 0 := by
  cases t <;> simp [result?, steps]

theorem alone_of_result? {t : Work α} {a : α} (h : t.result? = some a) (w : World) : t.alone w = (w, a) := by
  cases t with
  | done b => rw [alone_done, Option.some.inj h]
  | step act next => cases h

end Work

end StorageTiering
