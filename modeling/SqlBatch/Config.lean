import SqlBatch.CommandLine
import SqlBatch.Failure
/-!
# The configuration

What the command line says comes before what the configuration file says, and that before what is
built in.  There is at most one configuration file: the one that the command line names, else the
one of the project, else the one of the user.
-/

namespace SqlBatch

inductive Input where
  | inline (query : Text)
  | stdin
  | file (path : Text)
  deriving DecidableEq, Repr

def Input.label : Input → Text
  | .inline _ => "<query>".toList
  | .stdin => "<stdin>".toList
  | .file path => path

structure Config where
  inputs : List Input
  dialect : Dialect
  format : OutputFormat
  logLevel : Text
  maxScriptBytes : Nat
  /-- The configuration file that was read. -/
  path : Option Text
  deriving DecidableEq, Repr

def Settings.load (files : Files) (path : Text) : Except Failure Settings :=
  match (files path).bind Files.contents with
  | .error cause => .error (.configUnreadable path cause)
  | .ok document =>
    match Settings.ofText? document with
    | none => .error (.configInvalid path)
    | some settings => .ok settings

namespace Config

def projectFile : Text := ".sqlcheck.toml".toList

def defaultLogLevel : Text := "warn".toList

/-- Ten mebibytes. -/
def defaultMaxScriptBytes : Nat := 10 * 1024 * 1024

/-- The inline query comes first, then the files; without any the standard input is read. -/
def inputsOf (arguments : Arguments) : List Input :=
  let named := arguments.query.toList.map Input.inline ++
    arguments.files.map fun name => if name = ['-'] then .stdin else .file name
  if named.isEmpty then [.stdin] else named

def resolve (arguments : Arguments) (settings : Settings) (path : Option Text) : Config where
  inputs := inputsOf arguments
  dialect := (arguments.dialect.or settings.dialect).getD .mysql
  format := (arguments.format.or settings.format).getD .json
  logLevel := (arguments.logLevel.or settings.logLevel).getD defaultLogLevel
  maxScriptBytes := settings.maxScriptBytes.getD defaultMaxScriptBytes
  path := path

/-- The configuration file to read.  `userFile` is where the user would have one. -/
def findFile (files : Files) (userFile : Option Text) (arguments : Arguments) :
    Except Failure (Option Text) :=
  match arguments.config with
  | some path => if files.isFile path then .ok (some path) else .error (.configMissing path)
  | none =>
    if files.isFile projectFile then .ok (some projectFile) else .ok (userFile.filter files.isFile)

def ofArguments (files : Files) (userFile : Option Text) (arguments : Arguments) :
    Except Failure Config := do
  let path ← findFile files userFile arguments
  let settings ← match path with
    | none => .ok {}
    | some path => Settings.load files path
  return resolve arguments settings path

end Config
end SqlBatch
