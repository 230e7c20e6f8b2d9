import SqlBatch.Dialect.Characters
import SqlBatch.Grammar.Lexeme
/-!
# Quotes

How a string or a quoted name is read, once what opens it is known.  A closing quote that is written
twice belongs to the text.
-/

namespace SqlBatch.Grammar

structure Quotes where
  /-- The opening quote, behind the letters that belong to it. -/
  opening : Text
  closing : Char
  /-- Whether a backslash takes the next character with it. -/
  escapes : Bool
  /-- What is left open where the closing quote is missing. -/
  unclosed : Unclosed
  /-- The place that is named then; none for the end of the statement. -/
  blamed : Option Position
  deriving DecidableEq, Repr

namespace Quotes

def ofChar? (dialect : Dialect) (position : Position) (c : Char) : Option Quotes :=
  if dialect.isStringQuote c then
    some ⟨[c], c, dialect.escapesInStrings, .string, some position⟩
  else
    (dialect.closingQuote? c).map fun closing => ⟨[c], closing, false, .name closing, some position⟩

/-- What a letter opens with the characters after it.  Of most such strings the quote is named when
they are left open, of escape strings the letter, of raw ones what follows the quote. -/
def ofLetter? (dialect : Dialect) (position : Position) (letter : Char)
    (next afterNext : Option Char) : Option Quotes := do
  let quote := '\x27'
  let second ← next
  let opened := position.after letter
  let isQuote := second == quote
  let isAnyQuote := isQuote || second == '\x22'
  match letter.toUpper with
  | 'N' =>
    if isQuote then
      some ⟨[letter, quote], quote, dialect.escapesInStrings, .string, some opened⟩
    else none
  | 'X' => if isQuote then some ⟨[letter, quote], quote, true, .string, some opened⟩ else none
  | 'B' =>
    if isAnyQuote && dialect.hasByteStrings then
      some ⟨[letter, second], second, false, .string, some opened⟩
    else none
  | 'R' =>
    if isAnyQuote && dialect.hasRawStrings then
      some ⟨[letter, second], second, false, .string, some (opened.after second)⟩
    else none
  | 'E' =>
    if isQuote && dialect.hasEscapeStrings then
      some ⟨[letter, quote], quote, true, .escapeString, some position⟩
    else none
  | 'U' =>
    if second == '&' && afterNext == some quote && dialect.hasEscapeStrings then
      some ⟨[letter, second, quote], quote, false, .unicodeString, none⟩
    else none
  | _ => none

def fault (quotes : Quotes) (stop : Position) : LexError :=
  ⟨quotes.unclosed, quotes.blamed.getD stop⟩

def lexeme (quotes : Quotes) (text : Text) : Lexeme := .quoted quotes.opening text quotes.closing

end Quotes
end SqlBatch.Grammar
