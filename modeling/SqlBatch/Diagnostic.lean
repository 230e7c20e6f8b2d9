import SqlBatch.Text.Decimal
/-!
# Diagnostics

A syntax error at a place of the statement that it was found in.
-/

namespace SqlBatch

structure Diagnostic where
  /-- Counted from one, within the statement. -/
  line : Nat
  /-- Counted from zero. -/
  column : Nat
  message : Text
  deriving DecidableEq, Repr

namespace Diagnostic

def display (diagnostic : Diagnostic) : Text :=
  "line ".toList ++ Text.decimal diagnostic.line ++ [':'] ++ Text.decimal diagnostic.column ++
    [' '] ++ diagnostic.message

def join (diagnostics : List Diagnostic) : Text :=
  Text.joinWith "; ".toList (diagnostics.map display)

end Diagnostic
end SqlBatch
