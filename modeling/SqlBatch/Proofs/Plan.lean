import SqlBatch.Plan
import Mathlib.Data.List.Basic
/-!
# Running a plan

`verdicts` and `calls` tell apart what a run gives and what it asks.  `run` is the run itself, for a
validator with effects; `recorded_eq` says that a validator which notes what it is called on notes
the calls of the plan, each once and in order.
-/

namespace SqlBatch

theorem Outcome.error?_eq_none {outcome : Outcome} :
    outcome.error? = none ↔ outcome = .diagnostics [] := by
  cases outcome with
  | diagnostics found => cases found <;> simp [error?]
  | _ => simp [error?]

namespace Task

def run {m : Type → Type} [Monad m] (validate : Text → m Outcome) : Task → m Verdict
  | .accept query line => pure { line, query }
  | .check statement query line => do
    let outcome ← validate statement
    pure { line, query, error := outcome.error? }
  | .incomplete query line => pure { line, query, error := some incompleteMessage }

end Task

namespace Plan

def noting (validate : Validator) (text : Text) : StateM (List Text) Outcome := do
  modify (· ++ [text])
  return validate text

def recorded (validate : Validator) (plan : Plan) : List Verdict × List Text :=
  (plan.mapM (Task.run (noting validate))).run []

variable (validate : Validator)

theorem calls_cons (task : Task) (rest : Plan) :
    calls (task :: rest) = task.checked?.toList ++ calls rest := by
  cases hchecked : task.checked? <;> simp [calls, hchecked]

private theorem run_noting (task : Task) (noted : List Text) :
    (task.run (noting validate)).run noted =
      (task.verdict validate, noted ++ task.checked?.toList) := by
  cases task with
  | check statement query line => rfl
  | _ => exact congrArg _ (List.append_nil noted).symm

private theorem mapM_run_noting (plan : Plan) (noted : List Text) :
    (plan.mapM (Task.run (noting validate))).run noted =
      (plan.verdicts validate, noted ++ plan.calls) := by
  induction plan generalizing noted with
  | nil => exact congrArg _ (List.append_nil noted).symm
  | cons task rest ih =>
      rw [List.mapM_cons, StateT.run_bind, run_noting, calls_cons, ← List.append_assoc]
      show (do
        let later ← (rest.mapM (Task.run (noting validate))).run (noted ++ task.checked?.toList)
        pure (task.verdict validate :: later.1, later.2)) = _
      rw [ih]
      rfl

theorem recorded_eq (plan : Plan) :
    plan.recorded validate = (plan.verdicts validate, plan.calls) :=
  mapM_run_noting validate plan []

end Plan
end SqlBatch
