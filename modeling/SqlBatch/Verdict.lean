import SqlBatch.Text.Basic
/-!
# Verdicts

The result of checking one statement: it is valid, or there is an error.
-/

namespace SqlBatch

structure Verdict where
  /-- The line of the script that the statement starts on. -/
  line : Nat
  query : Text
  /-- What is wrong; nothing of a valid statement. -/
  error : Option Text := none
  deriving DecidableEq, Repr

def Verdict.isValid (verdict : Verdict) : Bool := verdict.error.isNone

end SqlBatch
