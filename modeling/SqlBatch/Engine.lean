import SqlBatch.Diagnostic.Location
import SqlBatch.Routine.Structure
import SqlBatch.Validator
/-!
# Engines

Statements are judged by the answer of an SQL parser, which may be any.  Text that cannot be cut into
tokens is judged on that alone.  Of a routine that the parser refuses only the structure is checked.
-/

namespace SqlBatch

inductive Answer where
  | parsed
  /-- The text cannot be cut into tokens. -/
  | unreadable (message : Text)
  /-- The tokens make up no statements. -/
  | refused (message : Text)
  | cancelled (message : Text)
  deriving DecidableEq, Repr

abbrev Engine := Text → Answer

def Engine.validator (engine : Engine) : Validator := fun statement =>
  match engine statement with
  | .parsed => .diagnostics []
  | .unreadable message => .diagnostics [Diagnostic.ofParserMessage message]
  | .refused message =>
    if Routine.starts statement then .diagnostics (Routine.faults statement)
    else .diagnostics [Diagnostic.ofParserMessage message]
  | .cancelled message => .cancelled message

end SqlBatch
