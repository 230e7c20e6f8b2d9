import SqlBatch.Settings
/-!
# The command line

Arguments are read from left to right.  A value that stands alone is held back until the next option
or the end of the line, and only then looked at; a value behind an equals sign is looked at once.
An argument that starts with a dash and has more to it is never a value that stands alone, except
after `--`.
-/

namespace SqlBatch

structure Arguments where
  /-- Script files in order; a dash is the standard input. -/
  files : List Text := []
  query : Option Text := none
  dialect : Option Dialect := none
  format : Option OutputFormat := none
  /-- The configuration file. -/
  config : Option Text := none
  logLevel : Option Text := none
  deriving DecidableEq, Repr

namespace CommandLine

inductive Refusal where
  | unknownArgument
  | invalidValue
  /-- An option is given twice. -/
  | argumentConflict
  /-- A flag is given a value. -/
  | tooManyValues
  | displayHelp
  | displayVersion
  deriving DecidableEq, Repr

inductive Switch where
  | query
  | dialect
  | format
  | config
  | logLevel
  | help
  | version
  deriving DecidableEq, Repr

namespace Switch

def ofName? (name : Text) : Option Switch :=
  if name = "query".toList then some .query
  else if name = "dialect".toList then some .dialect
  else if name = "format".toList then some .format
  else if name = "config".toList then some .config
  else if name = "log-level".toList then some .logLevel
  else if name = "help".toList then some .help
  else if name = "version".toList then some .version
  else none

def ofLetter? : Char → Option Switch
  | 'q' => some .query
  | 'h' => some .help
  | 'V' => some .version
  | _ => none

/-- A flag has no value; what it answers instead of the arguments. -/
def flag? : Switch → Option Refusal
  | .help => some .displayHelp
  | .version => some .displayVersion
  | _ => none

end Switch

/-! ## Values -/

/-- The one value of an option, which must not be there yet. -/
def once {α : Type} (before : Option α) (value : Option α) : Except Refusal (Option α) :=
  if before.isSome then .error .argumentConflict
  else if value.isNone then .error .invalidValue
  else .ok value

def path? (value : Text) : Option Text := if value.isEmpty then none else some value

def set (arguments : Arguments) (switch : Switch) (value : Text) : Except Refusal Arguments :=
  match switch with
  | .query => do return { arguments with query := ← once arguments.query (some value) }
  | .dialect => do
    return { arguments with dialect := ← once arguments.dialect (Dialect.ofName? value) }
  | .format => do
    return { arguments with format := ← once arguments.format (OutputFormat.ofName? value) }
  | .config => do return { arguments with config := ← once arguments.config (path? value) }
  | .logLevel => do return { arguments with logLevel := ← once arguments.logLevel (some value) }
  | .help | .version => .error .tooManyValues

/-! ## Reading -/

inductive Held where
  /-- A switch, and its value once that has come. -/
  | switch (switch : Switch) (value : Option Text)
  /-- Files that stand next to each other. -/
  | files (names : List Text)
  deriving DecidableEq, Repr

structure Reading where
  settled : Arguments := {}
  held : Option Held := none
  /-- After `--` everything is a file. -/
  onlyFiles : Bool := false
  deriving DecidableEq, Repr

namespace Reading

def settle (reading : Reading) : Except Refusal Arguments :=
  match reading.held with
  | none => .ok reading.settled
  | some (.switch _ none) => .error .invalidValue
  | some (.switch switch (some value)) => set reading.settled switch value
  | some (.files names) =>
    if names.any List.isEmpty then .error .invalidValue
    else .ok { reading.settled with files := reading.settled.files ++ names }

def readFile (reading : Reading) (name : Text) : Except Refusal Reading :=
  match reading.held with
  | some (.files names) => .ok { reading with held := some (.files (names ++ [name])) }
  | _ => do return { reading with settled := ← reading.settle, held := some (.files [name]) }

def readSwitch (reading : Reading) (switch : Switch) (attached : Option Text) :
    Except Refusal Reading :=
  match switch.flag?, attached with
  | some _, some _ => .error .tooManyValues
  | some answer, none => do
    let _ ← reading.settle
    .error answer
  | none, some value => do
    return { reading with settled := ← set (← reading.settle) switch value, held := none }
  | none, none => do
    return { reading with settled := ← reading.settle, held := some (.switch switch none) }

/-- A name behind two dashes, perhaps with an equals sign and a value. -/
def readLong (reading : Reading) (text : Text) : Except Refusal Reading :=
  match Switch.ofName? (text.takeWhile (· != '=')) with
  | none => .error .unknownArgument
  | some switch => reading.readSwitch switch (['='].isPrefixOf? (text.dropWhile (· != '=')))

/-- A letter behind one dash; what follows is its value, with an equals sign or without. -/
def readShort (reading : Reading) (letter : Char) (rest : Text) : Except Refusal Reading :=
  match Switch.ofLetter? letter with
  | none => .error .unknownArgument
  | some switch =>
    let value := if rest.isEmpty then none else some ((['='].isPrefixOf? rest).getD rest)
    reading.readSwitch switch (if switch.flag?.isSome then none else value)

def readArgument (reading : Reading) (argument : Text) : Except Refusal Reading :=
  if reading.onlyFiles then reading.readFile argument
  else match argument with
  | ['-', '-'] => .ok { reading with onlyFiles := true }
  | '-' :: '-' :: text => reading.readLong text
  | '-' :: letter :: rest => reading.readShort letter rest
  | _ =>
    match reading.held with
    | some (.switch switch none) =>
      .ok { reading with held := some (.switch switch (some argument)) }
    | _ => reading.readFile argument

end Reading

def parse (arguments : List Text) : Except Refusal Arguments := do
  (← arguments.foldlM Reading.readArgument {}).settle

end CommandLine
end SqlBatch
