import SqlBatch.Keyword
/-!
# Delimiters

The delimiter in force ends statements.  It is a semicolon until a line `DELIMITER token` names
another.
-/

namespace SqlBatch.Delimiter

def initial : Text := [';']

/-- The token that a `DELIMITER` line puts in force.  The token has no blanks in it and is the last
thing on the line. -/
def directive? (line : Text) : Option Text :=
  match Keyword.dropSpaced? "delimiter".toList (Text.trim line) with
  | some token => if token.isEmpty || token.any Text.isBlank then none else some token
  | none => none

/-- A text without its blank ends and without the delimiter that it may end with. -/
def strip (delimiter text : Text) : Text :=
  match delimiter.isSuffixOf? (Text.trim text) with
  | some body => Text.trimEnd body
  | none => Text.trim text

end SqlBatch.Delimiter
