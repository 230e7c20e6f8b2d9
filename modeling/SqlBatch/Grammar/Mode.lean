import SqlBatch.Grammar.Quotes
import SqlBatch.Text.Blank
/-!
# Modes

A statement is read one character at a time, with a look at the next two.  The mode says what the
character belongs to: `step` gives the tokens that are complete and the mode after the character,
`close` what the end of the statement makes of a mode.  Blanks and comments give no token.
-/

namespace SqlBatch.Grammar

inductive NumberPart where
  | whole
  | fraction
  | exponent
  | hexadecimal
  deriving DecidableEq, Repr

/-- What the next character belongs to.  Texts under way are kept last character first. -/
inductive Mode where
  | gap
  | word (start : Position) (read : Text)
  | number (part : NumberPart) (start : Position) (read : Text)
  /-- Within signs that run together. -/
  | operator (start : Position) (read : Text)
  | quoted (quotes : Quotes) (start : Position) (read : Text)
  | lineComment
  /-- Within a block comment, `depth` others around it. -/
  | blockComment (depth : Nat)
  /-- Behind a dollar sign: within a placeholder, or within the tag of a quoted text. -/
  | dollar (start : Position) (read : Text)
  | dollarQuoted (tag : Text) (start : Position) (read : Text)
  /-- The next character belongs to the one before it; then `mode` goes on. -/
  | skip (mode : Mode)
  deriving DecidableEq, Repr

namespace Mode

/-! ## The first character of something -/

/-- `mode`, once `count` characters have been skipped. -/
def after (count : Nat) (mode : Mode) : Mode :=
  match count with
  | 0 => mode
  | n + 1 => skip (after n mode)

def enterSymbol (dialect : Dialect) (position : Position) (c : Char) (next : Option Char) :
    List Token × Mode :=
  if dialect.runsOperators && Dialect.startsOperator c then ([], operator position [c])
  else
    match next.filter (dialect.isPair c) with
    | some second => ([⟨.symbol [c, second], position⟩], skip gap)
    | none => ([⟨.symbol [c], position⟩], gap)

def enterName (dialect : Dialect) (position : Position) (c : Char) (next afterNext : Option Char) :
    List Token × Mode :=
  if c == '#' || c == '@' then
    match dialect.nameAfterSign? c next afterNext with
    | some more => ([], after more.length (word position (more.reverse ++ [c])))
    | none => enterSymbol dialect position c next
  else
    match Quotes.ofLetter? dialect position c next afterNext with
    | some quotes => ([], after (quotes.opening.length - 1) (quoted quotes position []))
    | none => ([], word position [c])

/-- The token that a character is when it starts something new, if it is one, and the mode after
it. -/
def enter (dialect : Dialect) (position : Position) (c : Char) (next afterNext : Option Char) :
    List Token × Mode :=
  if [' ', '\t', '\n', '\r'].contains c then ([], gap)
  else if dialect.startsLineComment c next afterNext then ([], lineComment)
  else if c == '/' && next == some '*' then ([], skip (blockComment 0))
  else
    match Quotes.ofChar? dialect position c with
    | some quotes => ([], quoted quotes position [])
    | none =>
      if c.isDigit then ([], number .whole position [c])
      else if c == '.' && next.any Char.isDigit then ([], number .fraction position [c])
      else if dialect.startsName c then enterName dialect position c next afterNext
      else if c == '$' then ([], dollar position [])
      else if Text.isBlank c then ([], gap)
      else enterSymbol dialect position c next

/-! ## Characters within something -/

def isHexDigit (c : Char) : Bool := c.isDigit || ('a' ≤ c && c ≤ 'f') || ('A' ≤ c && c ≤ 'F')

def exponent? (start : Position) (read : Text) (c : Char) (next afterNext : Option Char) :
    Option Mode :=
  if c == 'e' || c == 'E' then
    match next with
    | none => none
    | some second =>
      if second.isDigit then some (number .exponent start (c :: read))
      else if (second == '+' || second == '-') && afterNext.any Char.isDigit then
        some (skip (number .exponent start (second :: c :: read)))
      else none
  else none

def number? (dialect : Dialect) (part : NumberPart) (start : Position) (read : Text) (c : Char)
    (next afterNext : Option Char) : Option Mode :=
  let named := if dialect.namesWithDigits && dialect.continuesName c then
    some (word start (c :: read)) else none
  match part with
  | .hexadecimal => if isHexDigit c then some (number part start (c :: read)) else none
  | .exponent => if c.isDigit then some (number part start (c :: read)) else none
  | .fraction =>
    if c.isDigit then some (number part start (c :: read))
    else (exponent? start read c next afterNext).or named
  | .whole =>
    if c.isDigit then some (number part start (c :: read))
    else if c == '.' then some (number .fraction start (c :: read))
    else if c == 'x' && read == ['0'] then some (number .hexadecimal start (c :: read))
    else (exponent? start read c next afterNext).or named

def stepBlock (dialect : Dialect) (depth : Nat) (c : Char) (next : Option Char) : Mode :=
  if c == '*' && next == some '/' then
    skip (if depth = 0 then gap else blockComment (depth - 1))
  else if dialect.nestsComments && c == '/' && next == some '*' then
    skip (blockComment (depth + 1))
  else blockComment depth

def stepQuoted (quotes : Quotes) (start : Position) (read : Text) (c : Char) (next : Option Char) :
    List Token × Mode :=
  if c == quotes.closing then
    if next == some c then ([], skip (quoted quotes start (c :: read)))
    else ([⟨quotes.lexeme read.reverse, start⟩], gap)
  else if c == '\\' && quotes.escapes then
    match next with
    | some second => ([], skip (quoted quotes start (second :: c :: read)))
    | none => ([], quoted quotes start (c :: read))
  else ([], quoted quotes start (c :: read))

def dollarLiteral (tag text : Text) : Text :=
  let mark := '$' :: tag ++ ['$']
  mark ++ text ++ mark

/-- The tokens that end with the current character, and the mode after it. -/
def step (dialect : Dialect) (position : Position) (c : Char) (next afterNext : Option Char) :
    Mode → List Token × Mode
  | gap => enter dialect position c next afterNext
  | word start read =>
    if dialect.continuesName c then ([], word start (c :: read))
    else behind ⟨.word read.reverse, start⟩
  | number part start read =>
    match number? dialect part start read c next afterNext with
    | some mode => ([], mode)
    | none =>
      if c == 'L' && part != .hexadecimal then ([⟨.literal (c :: read).reverse, start⟩], gap)
      else behind ⟨.literal read.reverse, start⟩
  | operator start read =>
    if Dialect.continuesOperator c then ([], operator start (c :: read))
    else behind ⟨.symbol read.reverse, start⟩
  | quoted quotes start read => stepQuoted quotes start read c next
  | lineComment => ([], if dialect.endsLineComment c then gap else lineComment)
  | blockComment depth => ([], stepBlock dialect depth c next)
  | dollar start read =>
    if c == '$' && dialect.quotesWithDollars then ([], dollarQuoted read.reverse start [])
    else if Text.isLetter c || Text.isDecimal c || c == '_' || c == '$' then
      ([], dollar start (c :: read))
    else behind ⟨.literal ('$' :: read.reverse), start⟩
  | dollarQuoted tag start read =>
    let read := c :: read
    match (('$' :: tag ++ ['$']).reverse).isPrefixOf? read with
    | some text => ([⟨.literal (dollarLiteral tag text.reverse), start⟩], gap)
    | none => ([], dollarQuoted tag start read)
  | skip mode => ([], mode)
where
  /-- The character starts something new behind a token. -/
  behind (token : Token) : List Token × Mode :=
    let (tokens, mode) := enter dialect position c next afterNext
    (token :: tokens, mode)

/-- What the end of the statement makes of a mode, at the place after its last character. -/
def close (stop : Position) : Mode → Except LexError (List Token)
  | gap | lineComment => .ok []
  | word start read => .ok [⟨.word read.reverse, start⟩]
  | number _ start read => .ok [⟨.literal read.reverse, start⟩]
  | operator start read => .ok [⟨.symbol read.reverse, start⟩]
  | quoted quotes _ _ => .error (quotes.fault stop)
  | blockComment _ => .error ⟨.comment, stop⟩
  | dollar start read => .ok [⟨.literal ('$' :: read.reverse), start⟩]
  | dollarQuoted tag _ _ =>
    .error ⟨if tag.isEmpty then .dollars else .taggedDollars, stop⟩
  | skip mode => mode.close stop

end Mode
end SqlBatch.Grammar
