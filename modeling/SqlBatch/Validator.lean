import SqlBatch.Diagnostic
/-!
# Validators

A validator judges the text of one statement.  Whatever goes wrong within it is an outcome too, so
that one statement cannot spoil the check of another.
-/

namespace SqlBatch

inductive Outcome where
  /-- The syntax errors of a statement; a valid one has none. -/
  | diagnostics (found : List Diagnostic)
  /-- The validator gave up on the statement. -/
  | cancelled (message : Text)
  /-- The validator failed. -/
  | internal (message : Text)
  /-- The validator broke down, perhaps with a message. -/
  | crashed (message : Option Text)
  deriving DecidableEq, Repr

abbrev Validator := Text → Outcome

namespace Outcome

/-- What is reported of a statement with this outcome; nothing if it is valid. -/
def error? : Outcome → Option Text
  | .diagnostics [] => none
  | .diagnostics found => some (Diagnostic.join found)
  | .cancelled message => some ("parse cancelled: ".toList ++ message)
  | .internal message => some ("Unexpected error: ".toList ++ message)
  | .crashed message =>
    some ("Unexpected error: ".toList ++ message.getD "validator panicked".toList)

end Outcome
end SqlBatch
