import SqlBatch.Comment
import SqlBatch.Delimiter
import SqlBatch.Routine.Block
import SqlBatch.Routine.Header
import SqlBatch.Statement
/-!
# The scanner

A scanner takes a script line by line and queues each statement as soon as it is complete.  What a
line is depends on the state, in this order:

- within a block comment, it is part of the comment up to the `*/` that closes it;
- a blank line and a line comment belong to the statement around them and end nothing;
- a line that leaves a block comment open counts for the nesting of blocks, and ends nothing;
- a `DELIMITER` line ends the statement before it, except within a routine, which it is part of;
- any other line counts for the nesting of blocks, and ends the statement if it ends with the
  delimiter in force and no block of a routine is open.
-/

namespace SqlBatch

structure Scanner where
  /-- The delimiter in force. -/
  delimiter : Text := Delimiter.initial
  /-- The lines of the statement under way, blank ends of lines removed, a line feed after each. -/
  buffer : Text := []
  /-- The first line in the buffer. -/
  bufferStart : Option Nat := none
  inBlockComment : Bool := false
  inRoutine : Bool := false
  /-- Blocks of the routine that are open. -/
  depth : Nat := 0
  /-- The header line of the routine under way, or of the last one. -/
  routineStart : Nat := 0
  /-- Lines taken so far. -/
  lineNumber : Nat := 0
  /-- Complete statements that nobody has asked for yet, oldest first. -/
  ready : List Statement := []
  deriving DecidableEq, Repr

namespace Scanner

def append (s : Scanner) (raw : Text) : Scanner :=
  { s with
    bufferStart := s.bufferStart.or (some s.lineNumber)
    buffer := s.buffer ++ Text.trimEnd raw ++ ['\n'] }

/-- Keeps a blank line that stands within a statement. -/
def appendBlank (s : Scanner) : Scanner :=
  if s.buffer.isEmpty then s else { s with buffer := s.buffer ++ ['\n'] }

/-- Enters a routine at its header, and counts the blocks that code of a routine opens and closes.
Closers without an opener are dropped. -/
def track (s : Scanner) (line : Text) : Scanner :=
  let code := Text.trim (Comment.stripBlocks line)
  if code.isEmpty then s
  else
    let s :=
      if !s.inRoutine && Routine.starts code then
        { s with inRoutine := true, depth := 0, routineStart := s.lineNumber }
      else s
    if s.inRoutine then
      { s with depth := s.depth + (Routine.balance code).opened - (Routine.balance code).closed }
    else s

/-- Queues a statement, unless its text is empty. -/
def queue (s : Scanner) (statement : Statement) : Scanner :=
  if statement.text.isEmpty then s else { s with ready := s.ready ++ [statement] }

/-- Ends the statement under way and leaves the routine, if one is.  `terminated` says whether the
delimiter in force ended it. -/
def flush (s : Scanner) (terminated : Bool) : Scanner :=
  let text :=
    if terminated then Delimiter.strip s.delimiter s.buffer else Text.trim s.buffer
  let terminator := if terminated then some s.delimiter else none
  let emptied := { s with buffer := [], bufferStart := none }
  if s.inRoutine then
    { emptied with inRoutine := false, depth := 0 }.queue
      ⟨text, s.routineStart, .routine, terminator⟩
  else
    emptied.queue ⟨text, s.bufferStart.getD s.lineNumber, .ordinary, terminator⟩

/-- Counts code of a line in the buffer, and ends the statement where that code does. -/
def complete (s : Scanner) (code : Text) : Scanner :=
  let s := s.track code
  if s.delimiter.isSuffixOf code && (!s.inRoutine || s.depth == 0) then s.flush true else s

/-- A line that starts within a block comment.  What follows the `*/` is code again. -/
def feedComment (s : Scanner) (raw : Text) : Scanner :=
  let s := s.append raw
  match Comment.afterBlock? (Text.trim raw) with
  | none => s
  | some code =>
    if Comment.leavesBlockOpen code then s
    else { s with inBlockComment := false }.complete (Text.trim code)

def feedDirective (s : Scanner) (raw token : Text) : Scanner :=
  let s :=
    if s.inRoutine then s.append raw
    else (s.flush false).queue ⟨Text.trim raw, s.lineNumber, .directive, none⟩
  { s with delimiter := token }

/-- Takes the next line of the script, which comes without its line end. -/
def feed (s : Scanner) (raw : Text) : Scanner :=
  let s := { s with lineNumber := s.lineNumber + 1 }
  let line := Text.trim raw
  if s.inBlockComment then s.feedComment raw
  else if line.isEmpty then s.appendBlank
  else if Comment.isLineComment line then s.append raw
  else if Comment.leavesBlockOpen line then
    ({ s.append raw with inBlockComment := true }).track line
  else match Delimiter.directive? line with
    | some token => s.feedDirective raw token
    | none => (s.append raw).complete line

/-- Ends the script: what is left in the buffer is a statement without a terminator. -/
def finish (s : Scanner) : Scanner := { s.flush false with inBlockComment := false }

def pop (s : Scanner) : Option Statement × Scanner :=
  match s.ready with
  | [] => (none, s)
  | statement :: later => (some statement, { s with ready := later })

def drain (s : Scanner) : List Statement × Scanner := (s.ready, { s with ready := [] })

def feedAll (s : Scanner) (lines : List Text) : Scanner := lines.foldl feed s

end Scanner
end SqlBatch
