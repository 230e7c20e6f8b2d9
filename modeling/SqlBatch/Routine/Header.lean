import SqlBatch.Keyword
/-!
# Routine headers

A stored routine is a procedure, a function, a trigger or an event.  Its definition starts with
`CREATE` or `ALTER`, optional clauses, and the word for what it is; its name follows that word.
-/

namespace SqlBatch.Routine

def sorts : List Text :=
  ["procedure".toList, "function".toList, "trigger".toList, "event".toList]

def dropOrReplace? (text : Text) : Option Text := do
  let text ← Keyword.dropSpaced? "or".toList text
  Keyword.dropSpaced? "replace".toList text

/-- Drops `DEFINER = account` and the blanks after it; an account has no blanks in it. -/
def dropDefiner? (text : Text) : Option Text := do
  let text ← Keyword.drop? "definer".toList text
  let text ← ['='].isPrefixOf? (Text.trimStart text)
  Text.dropBlanks? ((Text.trimStart text).dropWhile (!Text.isBlank ·))

def dropIfNotExists? (text : Text) : Option Text := do
  let text ← Keyword.dropSpaced? "if".toList text
  let text ← Keyword.dropSpaced? "not".toList text
  Keyword.dropSpaced? "exists".toList text

/-- What follows a routine header, up to the word for what the routine is. -/
def header? (text : Text) : Option Text := do
  let text ← Keyword.dropAny? ["create".toList, "alter".toList] text
  let text ← Text.dropBlanks? text
  let text := (dropOrReplace? text).getD text
  let text := (dropDefiner? text).getD text
  let text := (Keyword.dropSpaced? "aggregate".toList text).getD text
  let text ← Keyword.dropAny? sorts text
  if Text.endsWord text then some text else none

/-- Whether a routine header stands anywhere in a text. -/
def starts (text : Text) : Bool := (Keyword.find? header? false text).isSome

/-- Characters of a routine name: quotes and dots are part of it. -/
def isNameChar (c : Char) : Bool :=
  Text.isWord c || c == '$' || c == '.' || c == '\x60' || c == '\x22'

def leadingName? (text : Text) : Option Text :=
  match text.takeWhile isNameChar with
  | [] => none
  | name => some name

/-- The name after the word for what a routine is.  Where nothing nameable follows
`IF NOT EXISTS`, the name is `IF`. -/
def nameAfterSort? (text : Text) : Option Text := do
  let text ← Keyword.dropAny? sorts text
  let text ← Text.dropBlanks? text
  ((dropIfNotExists? text).bind leadingName?).or (leadingName? text)

def name? (text : Text) : Option Text := Keyword.find? nameAfterSort? false text

end SqlBatch.Routine
