import SqlBatch.Text.Utf8
/-!
# Files

What looking up a path finds.  Programs see the files of a machine only through such look-ups.
-/

namespace SqlBatch

inductive Node where
  /-- A file may hold more than the size it is said to have: it grows, or it is a pipe. -/
  | file (bytes : List UInt8) (size : Nat := bytes.length) (size_le : size ≤ bytes.length := by omega)
  | directory (size : Nat)
  deriving DecidableEq, Repr

/-- The size of a node as it is known before anything is read. -/
def Node.size : Node → Nat
  | .file _ size _ => size
  | .directory size => size

inductive FileError where
  | notFound
  | notDirectory
  | isDirectory
  | nameTooLong
  /-- No path holds a null character. -/
  | nullInPath
  | notUtf8
  /-- Anything else, as the system words it. -/
  | other (message : Text)
  deriving DecidableEq, Repr

def FileError.message : FileError → Text
  | .notFound => "No such file or directory (os error 2)".toList
  | .notDirectory => "Not a directory (os error 20)".toList
  | .isDirectory => "Is a directory (os error 21)".toList
  | .nameTooLong => "File name too long (os error 36)".toList
  | .nullInPath => "file name contained an unexpected NUL byte".toList
  | .notUtf8 => "stream did not contain valid UTF-8".toList
  | .other message => message

abbrev Files := Text → Except FileError Node

namespace Files

def ofList (found : List (Text × Except FileError Node)) : Files := fun path =>
  (found.lookup path).getD (.error .notFound)

def isFile (files : Files) (path : Text) : Bool :=
  match files path with
  | .ok (.file ..) => true
  | _ => false

def contents : Node → Except FileError Text
  | .directory _ => .error .isDirectory
  | .file bytes _ _ =>
    match Utf8.decode bytes with
    | .ok text => .ok text
    | .error _ => .error .notUtf8

end Files
end SqlBatch
