import SqlBatch.Text.Basic
/-!
# Statements

What a script is cut into.  Where a statement begins and ends is the business of the scanner.
-/

namespace SqlBatch

inductive StatementKind where
  /-- A statement that the delimiter in force ends. -/
  | ordinary
  /-- A `DELIMITER` line. -/
  | directive
  /-- The definition of a stored routine, its body with it. -/
  | routine
  deriving DecidableEq, Repr

structure Statement where
  /-- The text without its delimiter and without blank ends. -/
  text : Text
  /-- The line that the statement starts on, counted from one; of a routine, the line of its
  header. -/
  line : Nat
  kind : StatementKind
  /-- The delimiter that ended the statement, if one did. -/
  terminator : Option Text := none
  deriving DecidableEq, Repr

namespace Statement

def isTerminated (statement : Statement) : Bool := statement.terminator.isSome

/-- The text with its delimiter behind it again. -/
def source (statement : Statement) : Text :=
  statement.text ++ statement.terminator.getD []

end Statement
end SqlBatch
