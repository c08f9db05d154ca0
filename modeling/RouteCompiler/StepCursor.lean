import RouteCompiler.Failure
import RouteCompiler.Request.Basic

/-!
The place of a traversal: the step being visited, its position counted from one, and the steps of
the whole integration.
-/

namespace RouteCompiler

structure StepCursor where
  index : Nat
  step : Step
  steps : List Step
  one_le_index : 1 ≤ index

namespace StepCursor

/-- A cursor at a position of one's own choice, which has to be positive. -/
def at? (index : Int) (step : Step) (steps : List Step) : Except Breakdown StepCursor :=
  if h : 1 ≤ index then .ok ⟨index.toNat, step, steps, by omega⟩
  else .error (.cursorIndex index)

/-- The cursor on the first step, if there are steps. -/
def first? : List Step → Option StepCursor
  | [] => none
  | s :: r => some ⟨1, s, s :: r, Nat.le_refl 1⟩

def remaining (c : StepCursor) : List Step := c.steps.drop c.index

def hasNext (c : StepCursor) : Bool := decide (c.index < c.steps.length)

/-- The cursor on the step behind this one, if there is one. -/
def next? (c : StepCursor) : Option StepCursor :=
  if h : c.index < c.steps.length then
    some ⟨c.index + 1, c.steps[c.index], c.steps, Nat.le_add_left 1 c.index⟩
  else none

theorem next?_eq_none_iff (c : StepCursor) : c.next? = none ↔ c.hasNext = false := by
  unfold next? hasNext
  split <;> simp_all

theorem steps_of_next? {c d : StepCursor} (h : c.next? = some d) :
    d.steps = c.steps ∧ d.index = c.index + 1 ∧ c.index < c.steps.length := by
  unfold next? at h
  split at h
  · simp only [Option.some.injEq] at h
    subst h
    exact ⟨rfl, rfl, ‹_›⟩
  · simp at h

end StepCursor
end RouteCompiler
