import SqlBatch.Dialect
import SqlBatch.Text.Decimal
import SqlBatch.Toml.Line
/-!
# Settings

What a configuration file may set.  Every setting is optional; a key that is unknown or has a value of
the wrong sort spoils the file.
-/

namespace SqlBatch

inductive OutputFormat where
  | json
  | text
  deriving DecidableEq, Repr

namespace OutputFormat

def name : OutputFormat → Text
  | .json => "json".toList
  | .text => "text".toList

def ofName? (name : Text) : Option OutputFormat :=
  [OutputFormat.json, .text].find? (·.name == name)

end OutputFormat

structure Settings where
  dialect : Option Dialect := none
  format : Option OutputFormat := none
  logLevel : Option Text := none
  /-- The largest script that is read, in bytes. -/
  maxScriptBytes : Option Nat := none
  deriving DecidableEq, Repr

namespace Settings

/-- A number of bytes fits in sixty-four bits. -/
def byteCount? (value : Int) : Option Nat :=
  if 0 ≤ value && value ≤ Text.maxWord then some value.toNat else none

/-- The name that a value chooses: a string, or the only key of a table, with nothing under it. -/
def choice? : Toml.Document → Option Text
  | [([], .string name)] => some name
  | [([], .table _), ([name], .table _)] => some name
  | [([], .table _), ([name], .emptyArray)] => some name
  | _ => none

def text? : Toml.Document → Option Text
  | [([], .string text)] => some text
  | _ => none

def integer? : Toml.Document → Option Int
  | [([], .integer value)] => some value
  | _ => none

def optional? (read : Toml.Document → Option α) (value : Toml.Document) : Option (Option α) :=
  if value.isEmpty then some none else (read value).map some

def keys : List Text := ["dialect", "format", "log_level", "max_script_bytes"].map String.toList

def ofDocument? (document : Toml.Document) : Option Settings := do
  let value (key : String) : Toml.Document := document.below [key.toList]
  if document.all fun (path, _) => path.head?.any keys.contains then
    return {
      dialect := ← optional? (choice? · >>= Dialect.ofName?) (value "dialect")
      format := ← optional? (choice? · >>= OutputFormat.ofName?) (value "format")
      logLevel := ← optional? text? (value "log_level")
      maxScriptBytes := ← optional? (integer? · >>= byteCount?) (value "max_script_bytes") }
  else none

def ofText? (text : Text) : Option Settings := Toml.Document.ofText? text >>= ofDocument?

end Settings
end SqlBatch
