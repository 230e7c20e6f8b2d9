import SqlBatch.Comment
import SqlBatch.Diagnostic
import SqlBatch.Routine.Block
import SqlBatch.Routine.Header
import SqlBatch.Text.Lines
/-!
# The structure of routines

All that is asked of a stored routine is a name and blocks that balance.  Comments count for
nothing.  A line that closes more blocks than are open is an error, and counting starts afresh after
it.
-/

namespace SqlBatch.Routine

def noName : Diagnostic := ⟨1, 0, "routine definition has no name".toList⟩

def unmatchedEnd (line : Nat) : Diagnostic := ⟨line, 0, "END without a matching BEGIN".toList⟩

def missingEnd (line depth : Nat) : Diagnostic :=
  ⟨line, 0,
    "missing END for ".toList ++ Text.decimal depth ++ " open block(s)".toList⟩

/-- The code of a line; none if the whole line is within a block comment. -/
def codeOf? (inComment : Bool) (line : Text) : Option Text :=
  if inComment then Comment.afterBlock? line else some line

/-- Faults of the blocks on the lines from `number` on.  `last` is the last line before them that
has code, and `depth` counts the blocks that are open. -/
def blockFaults (number : Nat) (inComment : Bool) (depth last : Nat) : List Text → List Diagnostic
  | [] => if depth = 0 then [] else [missingEnd last depth]
  | raw :: rest =>
    match codeOf? inComment (Text.trim raw) with
    | none => blockFaults (number + 1) true depth last rest
    | some code =>
      if code.isEmpty || Comment.isLineComment code then
        blockFaults (number + 1) false depth last rest
      else
        let counted := balance (Comment.stripBlocks code)
        let opened := depth + counted.opened
        let inComment := Comment.leavesBlockOpen code
        if opened < counted.closed then
          unmatchedEnd number :: blockFaults (number + 1) inComment 0 number rest
        else
          blockFaults (number + 1) inComment (opened - counted.closed) number rest

def faults (definition : Text) : List Diagnostic :=
  (if (name? definition).isNone then [noName] else []) ++
    blockFaults 1 false 0 1 (Text.lines definition)

end SqlBatch.Routine
