import SqlBatch.Text.Blank
/-!
# Comments

A line comment takes a whole line, a block comment runs from `/*` to the next `*/` and may span
lines.  Block comments do not nest.
-/

namespace SqlBatch.Comment

def blockOpen : Text := ['/', '*']

def blockClose : Text := ['*', '/']

/-- Whether the first characters of a line, blanks apart, make the whole line a comment. -/
def isLineComment (line : Text) : Bool :=
  let start := Text.trimStart line
  ['-', '-'].isPrefixOf start || ['#'].isPrefixOf start

def leavesBlockOpen (line : Text) : Bool :=
  match Text.afterLast? blockOpen line with
  | some after => !Text.includes blockClose after
  | none => false

/-- For a line that starts within a block comment: what follows the last `*/` on it. -/
def afterBlock? (line : Text) : Option Text := Text.afterLast? blockClose line

/-- A text from which block comments are left out, one space for each; `inside` says whether it
starts within one. -/
def stripFrom : Bool → Text → Text
  | _, [] => []
  | false, '/' :: '*' :: rest => ' ' :: stripFrom true rest
  | false, c :: rest => c :: stripFrom false rest
  | true, '*' :: '/' :: rest => stripFrom false rest
  | true, _ :: rest => stripFrom true rest

/-- The code of a line: each block comment on it, closed or not, becomes one space. -/
def stripBlocks (line : Text) : Text := stripFrom false line

end SqlBatch.Comment
