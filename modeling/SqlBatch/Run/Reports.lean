import SqlBatch.Config
import SqlBatch.Report
/-!
# The reports of a run

A run reads every input and checks each on its own; the reports come in the order of the inputs.  It
is all or nothing: the first input that cannot be read, or is larger than allowed, is all that the
run tells.
-/

namespace SqlBatch

/-! ## Reading inputs -/

/-- A script is at most `limit` bytes long. -/
def withinLimit (input : Input) (limit : Nat) (script : Text) : Except Failure Text :=
  if limit < Utf8.size script then .error (.inputTooLarge input.label limit) else .ok script

/-- How many bytes of the standard input are read: one more than allowed, so that too many are
noticed, as far as that can be counted. -/
def stdinBytes (limit : Nat) : Nat := min (limit + 1) Text.maxWord

/-- The script of an input.  `stdin` holds what the standard input has left. -/
def readInput (files : Files) (stdin : List UInt8) (limit : Nat) (input : Input) :
    Except Failure Text :=
  match input with
  | .inline query => withinLimit input limit query
  | .stdin =>
    match Utf8.decode (stdin.take (stdinBytes limit)) with
    | .error fault => .error (.stdinUnreadable fault)
    | .ok script => withinLimit input limit script
  | .file path =>
    match files path with
    | .error cause => .error (.fileUnreadable path cause)
    | .ok node =>
      if limit < node.size then .error (.fileTooLarge path node.size limit)
      else match Files.contents node with
      | .error cause => .error (.fileUnreadable path cause)
      | .ok script => withinLimit input limit script

def stdinAfter (stdin : List UInt8) : Input → List UInt8
  | .stdin => []
  | _ => stdin

def readInputs (files : Files) (limit : Nat) (stdin : List UInt8) :
    List Input → Except Failure (List (Input × Text))
  | [] => .ok []
  | input :: rest => do
    let script ← readInput files stdin limit input
    return (input, script) :: (← readInputs files limit (stdinAfter stdin input) rest)

/-! ## Checking and printing -/

/-- The report on one input.  An inline query is checked as one entry, everything else as a
script. -/
def reportInput (validate : Validator) (input : Input) (script : Text) : SourceReport where
  source := input.label
  report :=
    match input with
    | .inline _ => .ofEntries validate [⟨script, 1⟩]
    | _ => .ofScript validate script

def Config.check (validators : Dialect → Validator) (config : Config) (files : Files)
    (stdin : List UInt8) : Except Failure (List SourceReport) := do
  let scripts ← readInputs files config.maxScriptBytes stdin config.inputs
  return scripts.map fun (input, script) => reportInput (validators config.dialect) input script

end SqlBatch
