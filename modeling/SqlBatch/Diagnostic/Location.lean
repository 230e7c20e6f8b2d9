import SqlBatch.Diagnostic
import SqlBatch.Text.Blank
import SqlBatch.Text.Word
/-!
# Locations in parser messages

A parser puts the place of an error behind its message, as `at Line: 2, Column: 5`, and counts
columns from one.  A message without such an ending is about the start of the statement.
-/

namespace SqlBatch.Diagnostic

def leadingDigits? (text : Text) : Option (Text × Text) :=
  match text.takeWhile Text.isDecimal with
  | [] => none
  | digits => some (digits, text.dropWhile Text.isDecimal)

/-- The digits of line and column, if a text is a location with nothing but blanks behind it. -/
def location? (text : Text) : Option (Text × Text) := do
  let text ← "at Line: ".toList.isPrefixOf? text
  let (line, text) ← leadingDigits? text
  let text ← ", Column: ".toList.isPrefixOf? text
  let (column, text) ← leadingDigits? text
  if text.all Text.isBlank then some (line, column) else none

/-- A text cut before the location that ends it, with the digits of the location. -/
def cutLocation? : Text → Option (Text × Text × Text)
  | [] => none
  | c :: rest =>
    match location? (c :: rest) with
    | some location => some ([], location)
    | none => (cutLocation? rest).map fun (message, location) => (c :: message, location)

/-- The number that digits write, or one for digits outside ASCII and numbers beyond sixty-four
bits. -/
def locationNumber (digits : Text) : Nat := (Text.readWord? digits).getD 1

def ofParserMessage (message : Text) : Diagnostic :=
  match cutLocation? message with
  | some (start, line, column) =>
    ⟨locationNumber line, locationNumber column - 1, Text.trim start⟩
  | none => ⟨1, 0, Text.trim message⟩

end SqlBatch.Diagnostic
