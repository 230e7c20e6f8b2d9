import SqlBatch.Text.Decimal
/-!
# JSON in lines

A JSON value is laid out for a depth of nesting: arrays and objects put every item on a line of its
own, two spaces further in than their brackets.  In strings only the quote, the backslash and the
control characters below the space are escaped.
-/

namespace SqlBatch.Json

/-- A value, as it is written at a given depth. -/
abbrev Layout := Nat → Text

def newline (depth : Nat) : Text := '\n' :: List.replicate (2 * depth) ' '

def escape (c : Char) : Text :=
  match c with
  | '\x22' => ['\\', '\x22']
  | '\\' => ['\\', '\\']
  | '\x08' => ['\\', 'b']
  | '\t' => ['\\', 't']
  | '\n' => ['\\', 'n']
  | '\x0c' => ['\\', 'f']
  | '\r' => ['\\', 'r']
  | c =>
    if c.toNat < 0x20 then
      ['\\', 'u', '0', '0', Nat.digitChar (c.toNat / 16), Nat.digitChar (c.toNat % 16)]
    else [c]

def quote (text : Text) : Text := '\x22' :: text.flatMap escape ++ ['\x22']

def string (text : Text) : Layout := fun _ => quote text

def number (n : Nat) : Layout := fun _ => Text.decimal n

def boolean (b : Bool) : Layout := fun _ => if b then "true".toList else "false".toList

/-- Items between brackets, each on a line of its own. -/
def enclose (first last : Char) (items : List Layout) : Layout := fun depth =>
  if items.isEmpty then [first, last]
  else
    let lines := items.map fun item => newline (depth + 1) ++ item (depth + 1)
    first :: Text.joinWith [','] lines ++ newline depth ++ [last]

def array (items : List Layout) : Layout := enclose '[' ']' items

def object (fields : List (Text × Layout)) : Layout :=
  enclose '{' '}' (fields.map fun (key, value) depth => quote key ++ [':', ' '] ++ value depth)

end SqlBatch.Json
