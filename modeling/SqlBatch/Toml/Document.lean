import SqlBatch.Text.Basic
/-!
# TOML documents

A document is a list of what stands at its paths, a table before what is in it.  Tables remember how
they came about, because that decides who may add to them: dotted keys add to tables that dotted keys
made, a header's table gets its values from the lines under the header, and an inline table is closed.
-/

namespace SqlBatch.Toml

inductive Origin where
  /-- By braces. -/
  | inline
  /-- By a dotted key that leads through it. -/
  | dotted
  /-- By the header of a table within it. -/
  | implied
  /-- By its own header. -/
  | header
  deriving DecidableEq, Repr

inductive Item where
  | string (text : Text)
  | integer (value : Int)
  | emptyArray
  | table (origin : Origin)
  deriving DecidableEq, Repr

/-- What stands at the paths of a document, or of a value within one. -/
abbrev Document := List (List Text × Item)

namespace Document

/-- What stands at and below a path, by the paths that lead on from there. -/
def below (document : Document) (path : List Text) : Document :=
  document.filterMap fun (place, item) => (path.isPrefixOf? place).map fun rest => (rest, item)

def under (value : Document) (path : List Text) : Document :=
  value.map fun (place, item) => (path ++ place, item)

/-- Whether a dotted key, or else a header, may lead through a table. -/
def admits (dotted : Bool) : Origin → Bool
  | .inline => false
  | .dotted | .implied => true
  | .header => !dotted

/-- The document with tables all along the names that lead on from a place.  A dotted key makes
dotted tables, a header implied ones. -/
def descend? (dotted : Bool) (document : Document) (place : List Text) :
    List Text → Option Document
  | [] => some document
  | name :: rest =>
    let place := place ++ [name]
    match document.lookup place with
    | none =>
      descend? dotted (document ++ [(place, .table (if dotted then .dotted else .implied))])
        place rest
    | some (.table origin) =>
      if admits dotted origin then descend? dotted document place rest else none
    | some _ => none

/-- The document with a value at the keys that lead on from a place.  A dotted key may only add to
tables that dotted keys made. -/
def set? (document : Document) (place keys : List Text) (value : Document) : Option Document := do
  let parent := place ++ keys.dropLast
  let document ← descend? true document place keys.dropLast
  let isOpen := keys.length ≤ 1 || document.lookup parent == some (.table .dotted)
  if isOpen && (document.lookup (place ++ keys)).isNone then
    some (document ++ value.under (place ++ keys))
  else none

/-- The document with a table that a header names.  Only a table that other headers have implied may
be there already. -/
def open? (document : Document) (path : List Text) : Option Document := do
  let document ← descend? false document [] path.dropLast
  match document.lookup path with
  | none => some (document ++ [(path, .table .header)])
  | some (.table .implied) =>
    some (document.map fun (place, item) =>
      (place, if place = path then .table .header else item))
  | some _ => none

end Document
end SqlBatch.Toml
