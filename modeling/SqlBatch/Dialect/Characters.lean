import SqlBatch.Dialect
import SqlBatch.Text.Blank
import SqlBatch.Text.Word
/-!
# The characters of a dialect

What names are made of, what opens a comment, a string or a quoted name, and which signs stand
together.
-/

namespace SqlBatch.Dialect

/-! ## Names -/

def startsName (dialect : Dialect) (c : Char) : Bool :=
  match dialect with
  | .ansi => c.isAlpha
  | .sqlite => c.isAlpha || c == '_' || (0x7F ≤ c.toNat && c.toNat ≤ 0xFFFF)
  | .postgres => c == '_' || Text.isLetter c
  | .generic | .mssql => c == '_' || c == '#' || c == '@' || Text.isLetter c
  | .mysql =>
    c == '_' || c == '$' || c == '@' || (0x80 ≤ c.toNat && c.toNat ≤ 0xFFFF) || Text.isLetter c

def continuesName (dialect : Dialect) (c : Char) : Bool :=
  c.isDigit || dialect.startsName c ||
    match dialect with
    | .ansi => c == '_'
    | .postgres | .generic | .mssql => c == '$'
    | .sqlite | .mysql => false

def namesWithDigits (dialect : Dialect) : Bool := dialect == .mysql

/-! ## Comments -/

def nestsComments : Dialect → Bool
  | .generic | .postgres => true
  | _ => false

/-- Whether a character and the next two start a comment that ends with the line.  MySQL has `#`
comments too, and wants a blank after `--`. -/
def startsLineComment (dialect : Dialect) (c : Char) (next afterNext : Option Char) : Bool :=
  match dialect with
  | .mysql => c == '#' || (c == '-' && next == some '-' && afterNext.any Text.isBlank)
  | _ => c == '-' && next == some '-'

def endsLineComment (dialect : Dialect) (c : Char) : Bool :=
  c == '\n' || (c == '\r' && dialect == .postgres)

/-! ## Strings and quoted names -/

def escapesInStrings (dialect : Dialect) : Bool := dialect == .mysql

def isStringQuote (dialect : Dialect) (c : Char) : Bool :=
  c == '\x27' || (c == '\x22' && dialect == .mysql)

/-- What closes the quoted name that a character opens, if it does open one. -/
def closingQuote? (dialect : Dialect) (c : Char) : Option Char :=
  match dialect with
  | .mysql => if c = '\x60' then some c else none
  | .postgres => if c = '\x22' then some c else none
  | .ansi | .generic => if c = '\x22' || c = '\x60' then some c else none
  | .mssql => if c = '[' then some ']' else if c = '\x22' then some c else none
  | .sqlite => if c = '[' then some ']' else if c = '\x22' || c = '\x60' then some c else none

/-- Whether `B` before a string makes it a string of bits or bytes. -/
def hasByteStrings : Dialect → Bool
  | .mysql | .generic | .postgres => true
  | _ => false

/-- Whether `E` before a string lets a backslash escape, and `U&` names characters by number. -/
def hasEscapeStrings : Dialect → Bool
  | .generic | .postgres => true
  | _ => false

def hasRawStrings (dialect : Dialect) : Bool := dialect == .generic

/-- Whether dollar signs may quote; otherwise they only name placeholders. -/
def quotesWithDollars (dialect : Dialect) : Bool := dialect != .sqlite

/-! ## Signs -/

/-- Whether signs run together into one operator, as long as they follow each other. -/
def runsOperators (dialect : Dialect) : Bool := dialect == .postgres

def startsOperator (c : Char) : Bool := "-|%<>&~#".toList.contains c

def continuesOperator (c : Char) : Bool := "+-*/<>=~!@#%^&|\x60?".toList.contains c

def pairs : List Text :=
  ["<=", ">=", "<>", "!=", "==", "=>", "<<", ">>", "||", "&&", "->", "::", ":=", "#-", "#>",
    "@>", "@?", "@@"].map String.toList

def isPair (dialect : Dialect) (c next : Char) : Bool :=
  pairs.contains [c, next] ||
    (dialect == .generic && (["//", "##", "@-"].map String.toList).contains [c, next])

/-- What else a name starts with whose first sign is `#` or `@`, whatever these characters are.  It
gives nothing where the sign is none of a name. -/
def nameAfterSign? (dialect : Dialect) (sign : Char) (next afterNext : Option Char) :
    Option Text := do
  let second ← next
  if second == ' ' then none
  else if sign == '@' && second == '@' && dialect != .generic then
    let third ← afterNext
    if third == ' ' then none else some [second, third]
  else if dialect.isPair sign second then none
  else if sign == '@' && (second == '\x27' || second == '\x22' || second == '\x60') then none
  else some [second]

end SqlBatch.Dialect
