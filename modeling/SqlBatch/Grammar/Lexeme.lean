import SqlBatch.Text.Decimal
/-!
# Lexemes

The smallest parts of a statement, with the places where they start.
-/

namespace SqlBatch.Grammar

/-- A place in a statement, line and column counted from one. -/
structure Position where
  line : Nat := 1
  column : Nat := 1
  deriving DecidableEq, Repr

namespace Position

def after (position : Position) (c : Char) : Position :=
  if c = '\n' then ⟨position.line + 1, 1⟩ else ⟨position.line, position.column + 1⟩

def suffix (position : Position) : Text :=
  " at Line: ".toList ++ Text.decimal position.line ++ ", Column: ".toList ++
    Text.decimal position.column

end Position

inductive Lexeme where
  /-- A name or a keyword. -/
  | word (text : Text)
  /-- A number, a placeholder or a text between dollar signs, as it is written. -/
  | literal (text : Text)
  /-- What stands between quotes. -/
  | quoted (opening text : Text) (closing : Char)
  | symbol (text : Text)
  deriving DecidableEq, Repr

namespace Lexeme

def display : Lexeme → Text
  | .word text | .literal text | .symbol text => text
  | .quoted opening text closing => opening ++ text ++ [closing]

/-- The capital letter that a character is written with.  Outside ASCII only the long s and the
dotless i have a capital in ASCII. -/
def capital (c : Char) : Char :=
  if c = '\u017f' then 'S' else if c = '\u0131' then 'I' else c.toUpper

def keyword? : Lexeme → Option Text
  | .word text => some (text.map capital)
  | _ => none

def isKeyword (lexeme : Lexeme) (keyword : Text) : Bool := lexeme.keyword? == some keyword

def isSymbol (lexeme : Lexeme) (c : Char) : Bool := lexeme == .symbol [c]

end Lexeme

structure Token where
  lexeme : Lexeme
  start : Position
  deriving DecidableEq, Repr

/-! ## Faults -/

inductive Unclosed where
  | string
  /-- A string in which backslashes escape because a letter says so. -/
  | escapeString
  /-- A string in which characters are named by number. -/
  | unicodeString
  | name (closing : Char)
  | dollars
  | taggedDollars
  | comment
  deriving DecidableEq, Repr

namespace Unclosed

def message : Unclosed → Text
  | .string => "Unterminated string literal".toList
  | .escapeString => "Unterminated encoded string literal".toList
  | .unicodeString => "Unterminated unicode encoded string literal".toList
  | .name closing => "Expected close delimiter '".toList ++ closing :: "' before EOF.".toList
  | .dollars => "Unterminated dollar-quoted string".toList
  | .taggedDollars => "Unterminated dollar-quoted, expected $".toList
  | .comment => "Unexpected EOF while in a multi-line comment".toList

end Unclosed

/-- Why a statement cannot be cut into lexemes: what it leaves open, and the place that is named for
it. -/
structure LexError where
  unclosed : Unclosed
  place : Position
  deriving DecidableEq, Repr

def LexError.message (error : LexError) : Text := error.unclosed.message ++ error.place.suffix

end SqlBatch.Grammar
