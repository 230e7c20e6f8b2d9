import SqlBatch.Text.Basic
import SqlBatch.Text.MarkRanges
import SqlBatch.Text.WordRanges
/-!
# Word characters, decimal digits and letters

A word is a maximal run of word characters.  Keywords are words, so the end of a word is what
tells `END` from `END_DATE`.
-/

namespace SqlBatch.Text

/-- Letters, marks, digits, connectors and joiners of any script. -/
def isWord (c : Char) : Bool :=
  if c.toNat < 0x80 then c.isAlphanum || c == '_'
  else wordRanges.any fun range => range.1 ≤ c.toNat && c.toNat ≤ range.2

def isDecimal (c : Char) : Bool :=
  if c.toNat < 0x80 then c.isDigit
  else digitRanges.any fun range => range.1 ≤ c.toNat && c.toNat ≤ range.2

/-- A letter of any script: a word character that is no digit, mark, connector or joiner. -/
def isLetter (c : Char) : Bool :=
  if c.toNat < 0x80 then c.isAlpha
  else isWord c && !isDecimal c &&
    !markRanges.any fun range => range.1 ≤ c.toNat && c.toNat ≤ range.2

/-- Whether no word goes on into the text. -/
def endsWord : Text → Bool
  | [] => true
  | c :: _ => !isWord c

end SqlBatch.Text
