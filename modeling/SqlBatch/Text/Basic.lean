/-!
# Text

Scripts, statements and messages are lists of characters.  Strings of core appear only where text
enters or leaves the program.
-/

namespace SqlBatch

/-- A script, a statement or a message, character by character. -/
abbrev Text := List Char

namespace Text

/-- Whether `part` occurs in a text, its characters side by side. -/
def includes (part : Text) : Text → Bool
  | [] => part.isEmpty
  | c :: rest => part.isPrefixOf (c :: rest) || includes part rest

def afterLast? (mark : Text) : Text → Option Text
  | [] => mark.isPrefixOf? []
  | c :: rest =>
    match afterLast? mark rest with
    | some after => some after
    | none => mark.isPrefixOf? (c :: rest)

/-- The parts of a text in order, `gap` between neighbours. -/
def joinWith (gap : Text) : List Text → Text
  | [] => []
  | [part] => part
  | part :: parts => part ++ gap ++ joinWith gap parts

end Text
end SqlBatch
