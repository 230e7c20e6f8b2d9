import SqlBatch.Engine
import SqlBatch.Statement
import SqlBatch.Proofs.Plan
import SqlBatch.Proofs.Routine.Structure
/-!
# Engines

What makes a statement valid, whatever the parser (`validator_eq_nil_iff`): the parser takes it, or
refuses a routine whose structure is sound.  A parser that does not mind the layout of a text judges
it alike in every layout (`Reads.validator_iff`).
-/

namespace SqlBatch

namespace Answer

def isParsed : Answer → Bool
  | .parsed => true
  | _ => false

def isRefused : Answer → Bool
  | .refused _ => true
  | _ => false

/-- Two answers have the same effect on whether a statement is valid. -/
def Alike (answer other : Answer) : Prop :=
  answer.isParsed = other.isParsed ∧ answer.isRefused = other.isRefused

end Answer

namespace Engine

variable {engine : Engine}

theorem validator_eq_nil_iff {statement : Text} :
    engine.validator statement = .diagnostics [] ↔
      (engine statement).isParsed = true ∨
        (engine statement).isRefused = true ∧ Routine.starts statement = true ∧
          Routine.faults statement = [] := by
  unfold Engine.validator
  cases engine statement with
  | refused message =>
      cases hstarts : Routine.starts statement <;> simp [Answer.isParsed, Answer.isRefused]
  | _ => simp [Answer.isParsed, Answer.isRefused]

/-- What is to be expected of a parser of SQL where it comes upon a statement.  `space` are the
characters that it takes for white space. -/
structure Reads (engine : Engine) (space : Char → Prop) (statement : Statement) : Prop where
  /-- White space and semicolons around a text, and white space at the ends of its lines, make no
  difference. -/
  layout : ∀ text, Text.Relaid space text statement.text →
    (engine text).Alike (engine statement.text)
  /-- A routine with a block that nothing ends is not taken. -/
  blocks_end : statement.kind = .routine → 0 < (Routine.tally statement.text).depth →
    (engine statement.text).isParsed = false

theorem Reads.validator_iff {space : Char → Prop} {statement : Statement} {text : Text}
    (h : engine.Reads space statement)
    (hrelaid : Text.Relaid (fun c => Text.isBlank c = true ∧ space c) text statement.text) :
    engine.validator text = .diagnostics [] ↔
      engine.validator statement.text = .diagnostics [] := by
  have hakin := Routine.akin_of_relaid (fun _ => And.left) hrelaid
  have halike := h.layout text (hrelaid.mono fun _ _ => Text.LaidOut.mono fun _ => And.right)
  rw [validator_eq_nil_iff, validator_eq_nil_iff, halike.1, halike.2, hakin.starts,
    hakin.faults_iff]

end Engine
end SqlBatch
