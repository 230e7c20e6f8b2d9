import SqlBatch.Files.Basic
/-!
# Directory trees

A working directory held in memory.  Looking up a path walks from name to name: every name but the
last has to be a directory.  Above the working directory there are directories, but no name leads
from there to anything.
-/

namespace SqlBatch

/-- What stands in a directory, by the names that lead there. -/
abbrev FileTree := List (List Text × Node)

namespace FileTree

def directorySize : Nat := 4096

def maxNameSize : Nat := 255

def maxPathSize : Nat := 4095

/-- The names of a path, in order; a slash at the end gives an empty name. -/
def names (path : Text) : List Text :=
  path.foldr
    (fun c names =>
      if c == '/' then [] :: names
      else match names with
        | [] => [[c]]
        | name :: others => (c :: name) :: others)
    [[]]

def ofPaths (nodes : List (Text × Node)) : FileTree :=
  nodes.map fun (path, node) => (names path, node)

/-- What stands where names lead.  A directory is there as soon as something is in it. -/
def node? (tree : FileTree) (place : List Text) : Option Node :=
  if place.isEmpty then some (.directory directorySize)
  else match tree.find? (·.1 == place) with
  | some (_, node) => some node
  | none =>
    if tree.any fun entry => place.isPrefixOf entry.1 then some (.directory directorySize)
    else none

inductive Place where
  /-- Above the working directory. -/
  | above
  | within (names : List Text)
  deriving DecidableEq, Repr

def Place.parent : Place → Place
  | .above | .within [] => .above
  | .within (name :: names) => .within (name :: names).dropLast

def child? (tree : FileTree) (name : Text) : Place → Option (Place × Node)
  | .above => none
  | .within names => (tree.node? (names ++ [name])).map fun node => (.within (names ++ [name]), node)

def walk (tree : FileTree) (place : Place) (here : Node) : List Text → Except FileError Node
  | [] => .ok here
  | name :: rest =>
    match here with
    | .file .. => .error .notDirectory
    | .directory _ =>
      if name.isEmpty || name = ['.'] then walk tree place here rest
      else if name = ['.', '.'] then walk tree place.parent (.directory directorySize) rest
      else if maxNameSize < Utf8.size name then .error .nameTooLong
      else match tree.child? name place with
      | none => .error .notFound
      | some (place, node) => walk tree place node rest

def files (tree : FileTree) : Files := fun path =>
  if path.contains '\x00' then .error .nullInPath
  else if maxPathSize < Utf8.size path then .error .nameTooLong
  else if path.isEmpty then .error .notFound
  else
    let start := if path.head? = some '/' then Place.above else .within []
    walk tree start (.directory directorySize) (names path)

end FileTree
end SqlBatch
