import SqlBatch.Toml.Document
import SqlBatch.Toml.Lexical
/-!
# The lines of a TOML document

A line opens a table, sets a value or does neither.  The values are strings, integers, arrays without
items and inline tables of such values; everything else (dates, floats, booleans, arrays with items,
arrays of tables) is refused, as no setting has such a value.
-/

namespace SqlBatch.Toml

/-! ## Values -/

/-- The item behind an opening quote, digit, sign or bracket, and what follows it. -/
def item? (text : Text) : Option (Item × Text) :=
  match text with
  | [] => none
  | '[' :: rest => do
    let after ← [']'].isPrefixOf? (dropFiller false rest)
    return (.emptyArray, after)
  | c :: rest =>
    if c == '\x22' || c == '\x27' then
      let read :=
        if [c, c].isPrefixOf rest then linesFrom? c (rest.drop 2) else stringFrom? c rest
      read.map fun (text, after) => (.string text, after)
    else
      let goesOn (c : Char) : Bool := isBareKeyChar c || c == '+'
      (integer? (text.takeWhile goesOn)).map fun value => (.integer value, text.dropWhile goesOn)

/-- The value that the rest of an inline table makes, and what follows the table.  There are at most
`count` entries, those of inner tables included, and no key has more parts. -/
def inlineFrom? : Nat → Document → Text → Option (Document × Text)
  | 0, _, _ => none
  | count + 1, table, text =>
    match dropFiller false text with
    | '}' :: rest => some (table, rest)
    | text => do
      let (keys, after) ← keys? (count + 1) text
      let after ← ['='].isPrefixOf? after
      let (value, after) ← match dropSpaces after with
        | '{' :: rest => inlineFrom? count [([], .table .inline)] rest
        | text => (item? text).map fun (item, after) => ([([], item)], after)
      let table ← table.set? [] keys value
      match dropFiller false after with
      | ',' :: rest => inlineFrom? count table rest
      | '}' :: rest => some (table, rest)
      | _ => none

/-- A value and what follows it.  An inline table has at most `count` entries. -/
def value? (count : Nat) (text : Text) : Option (Document × Text) :=
  match text with
  | '{' :: rest => inlineFrom? count [([], .table .inline)] rest
  | _ => (item? text).map fun (item, after) => ([([], item)], after)

/-! ## Lines -/

inductive Line where
  | blank
  /-- A header: the lines after it set values in the table that it names. -/
  | table (path : List Text)
  | entry (keys : List Text) (value : Document)
  deriving DecidableEq, Repr

def line? (count : Nat) (text : Text) : Option (Line × Text) :=
  match dropLineEnd? text with
  | some after => some (.blank, after)
  | none =>
    match dropSpaces text with
    | '[' :: rest => do
      let (path, after) ← keys? count rest
      let after ← [']'].isPrefixOf? after
      return (.table path, ← dropLineEnd? after)
    | text => do
      let (keys, after) ← keys? count text
      let after ← ['='].isPrefixOf? after
      let (value, after) ← value? count (dropSpaces after)
      return (.entry keys value, ← dropLineEnd? after)

/-- The lines of a text with at most `count` characters, if every one can be read. -/
def readLines? : Nat → Text → Option (List Line)
  | _, [] => some []
  | 0, _ => none
  | count + 1, text => do
    let (line, after) ← line? (count + 1) text
    return line :: (← readLines? count after)

namespace Document

/-- The document with a line added to it, and the table that the lines after it set values in. -/
def add? (document : Document) (place : List Text) : Line → Option (Document × List Text)
  | .blank => some (document, place)
  | .table path => (document.open? path).map fun document => (document, path)
  | .entry keys value => (document.set? place keys value).map fun document => (document, place)

/-- The document that a text is, which a byte order mark may precede. -/
def ofText? (text : Text) : Option Document := do
  let text := (['\ufeff'].isPrefixOf? text).getD text
  let lines ← readLines? text.length text
  let (document, _) ← lines.foldlM
    (fun (state : Document × List Text) line => state.1.add? state.2 line) ([], [])
  return document

end Document
end SqlBatch.Toml
