import SqlBatch.Run
/-!
# The program

Looks up the paths that a run may ask for, reads the standard input if the run does, and prints what
the run leaves behind.
-/

namespace SqlBatch.Program

/-- The number that the system gives an error, which may arrive with its sign turned. -/
def errorNumber (code : UInt32) : Nat := min code.toNat (UInt32.size - code.toNat)

def fileError : IO.Error → FileError
  | .noFileOrDirectory .. => .notFound
  | .inappropriateType _ code details
  | .invalidArgument _ code details
  | .permissionDenied _ code details
  | .resourceExhausted _ code details =>
    match errorNumber code with
    | 20 => .notDirectory
    | 21 => .isDirectory
    | 36 => .nameTooLong
    | number => .other (details.toList ++ " (os error ".toList ++ Text.decimal number ++ [')'])
  | error => .other (toString error).toList

def lookUp (path : Text) : IO (Except FileError Node) := do
  if path.isEmpty then return .error .notFound
  let place := (← IO.currentDir) / String.ofList path
  try
    let found ← place.metadata
    match found.type with
    | .dir => return .ok (.directory found.byteSize.toNat)
    | _ =>
      let bytes := (← IO.FS.readBinFile place).toList
      -- A file that has shrunk in between had the size that is left of it.
      return .ok (.file bytes (min found.byteSize.toNat bytes.length) (Nat.min_le_right ..))
  catch error => return .error (fileError error)

def userFile? : IO (Option Text) := do
  let file (directory : String) : Text := directory.toList ++ "/sqlcheck/config.toml".toList
  match ← IO.getEnv "XDG_CONFIG_HOME" with
  | some directory =>
    if "/".toList.isPrefixOf directory.toList then return some (file directory)
  | none => pure ()
  return (← IO.getEnv "HOME").map fun home => file (home ++ "/.config")

/-- Reads on until `wanted` bytes are there or the input ends. -/
partial def readUpTo (input : IO.FS.Stream) (wanted : Nat) (bytes : Array UInt8) :
    IO (List UInt8) := do
  if wanted ≤ bytes.size then return bytes.toList
  let more ← input.read (USize.ofNat (min (wanted - bytes.size) 65536))
  if more.isEmpty then return bytes.toList
  readUpTo input wanted (bytes ++ more.data)

def paths (userFile : Option Text) (arguments : Arguments) : List Text :=
  match arguments.config with
  | some path => path :: arguments.files
  | none => Config.projectFile :: (userFile.toList ++ arguments.files)

def stdinWanted (files : Files) (userFile : Option Text) (arguments : Arguments) : Nat :=
  match Config.ofArguments files userFile arguments with
  | .error _ => 0
  | .ok config =>
    if config.inputs.contains .stdin then stdinBytes config.maxScriptBytes else 0

end SqlBatch.Program

open SqlBatch in
def main (arguments : List String) : IO UInt32 := do
  let words := arguments.map String.toList
  let userFile ← Program.userFile?
  let mut files : Files := fun _ => .error .notFound
  let mut stdin := []
  if let .ok parsed := CommandLine.parse words then
    let mut found := []
    for path in Program.paths userFile parsed do
      found := (path, ← Program.lookUp path) :: found
    files := Files.ofList found
    stdin ← Program.readUpTo (← IO.getStdin) (Program.stdinWanted files userFile parsed) #[]
  let ending := run files userFile stdin words
  IO.print (String.ofList ending.stdout)
  IO.eprint (String.ofList ending.stderr)
  return UInt32.ofNat ending.status
