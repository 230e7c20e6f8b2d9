import SqlBatch.Text.Basic
/-!
# The words of TOML

Blanks, strings of the four sorts, integers and keys, each read from the front of a text.  `none`
means that the text is no TOML.
-/

namespace SqlBatch.Toml

/-! ## Characters -/

def isSpace (c : Char) : Bool := c == ' ' || c == '\t'

/-- Control characters may stand nowhere, except for the tab and line ends. -/
def isControl (c : Char) : Bool := (c.toNat < 0x20 && c != '\t') || c.toNat == 0x7F

def isBareKeyChar (c : Char) : Bool := c.isAlphanum || c == '_' || c == '-'

def dropSpaces (text : Text) : Text := text.dropWhile isSpace

def dropNewline? : Text → Option Text
  | '\n' :: rest => some rest
  | '\r' :: '\n' :: rest => some rest
  | _ => none

/-- Drops what may stand behind an entry: spaces, a comment, the line end. -/
def dropLineEnd? (text : Text) : Option Text :=
  let text := dropSpaces text
  let text := if text.head? = some '#' then text.dropWhile (!isControl ·) else text
  match text with
  | [] => some []
  | _ => dropNewline? text

/-- Drops spaces, line ends and comments; `comment` tells whether the text starts within one. -/
def dropFiller (comment : Bool) : Text → Text
  | [] => []
  | '\n' :: rest => dropFiller false rest
  | '\r' :: '\n' :: rest => dropFiller false rest
  | c :: rest =>
    if comment then if isControl c then c :: rest else dropFiller true rest
    else if c == '#' then dropFiller true rest
    else if isSpace c then dropFiller false rest
    else c :: rest

def isLines : Text → Bool
  | [] => true
  | '\n' :: rest => isLines rest
  | '\r' :: '\n' :: rest => isLines rest
  | c :: rest => !isControl c && isLines rest

/-! ## Strings -/

def digit? (base : Nat) (c : Char) : Option Nat :=
  let value :=
    if c.isDigit then c.toNat - '0'.toNat
    else if 'a' ≤ c && c ≤ 'f' then c.toNat - 'a'.toNat + 10
    else if 'A' ≤ c && c ≤ 'F' then c.toNat - 'A'.toNat + 10
    else 16
  if value < base then some value else none

def charOfHex? (digits : Text) : Option Char := do
  let code ← digits.foldlM (fun n c => (digit? 16 c).map (16 * n + ·)) 0
  if code < 0xD800 || (0xDFFF < code && code < 0x110000) then some (Char.ofNat code) else none

def escaped? : Char → Option Char
  | 'b' => some '\x08'
  | 't' => some '\t'
  | 'n' => some '\n'
  | 'f' => some '\x0c'
  | 'r' => some '\r'
  | 'e' => some '\x1b'
  | '\x22' => some '\x22'
  | '\\' => some '\\'
  | _ => none

/-- Whether a backslash has hidden a line end. -/
inductive Fold where
  | none
  /-- After the backslash: spaces, then the line end. -/
  | lineEnd
  /-- After the line end: blanks are dropped. -/
  | indent
  deriving DecidableEq, Repr

def unescape : Fold → Text → Option Text
  | .lineEnd, [] => .none
  | _, [] => some []
  | .lineEnd, c :: rest =>
    if c == '\n' then unescape .indent rest
    else if isSpace c || c == '\r' then unescape .lineEnd rest
    else .none
  | _, '\\' :: 'x' :: a :: b :: rest => do
    let c ← charOfHex? [a, b]
    return c :: (← unescape .none rest)
  | _, '\\' :: 'u' :: a :: b :: c :: d :: rest => do
    let c ← charOfHex? [a, b, c, d]
    return c :: (← unescape .none rest)
  | _, '\\' :: 'U' :: a :: b :: c :: d :: e :: f :: g :: h :: rest => do
    let c ← charOfHex? [a, b, c, d, e, f, g, h]
    return c :: (← unescape .none rest)
  | _, '\\' :: '\n' :: rest => unescape .indent rest
  | _, '\\' :: c :: rest =>
    if isSpace c || c == '\r' then unescape .lineEnd rest
    else do
      let c ← escaped? c
      return c :: (← unescape .none rest)
  | fold, c :: rest =>
    if c == '\\' then .none
    else if fold == .indent && (isSpace c || c == '\n' || c == '\r') then unescape .indent rest
    else (c :: ·) <$> unescape .none rest

def untilQuote? (quote : Char) : Text → Option (Text × Text)
  | [] => none
  | c :: rest =>
    if c == quote then some ([], rest)
    else if isControl c then none
    else if c == '\\' && quote == '\x22' then
      match rest with
      | [] => none
      | escaped :: rest =>
        if isControl escaped then none
        else (untilQuote? quote rest).map fun (text, after) => (c :: escaped :: text, after)
    else (untilQuote? quote rest).map fun (text, after) => (c :: text, after)

/-- What stands before the three quotes that close a string over lines, and what follows them.  Of
five quotes in a row the first two belong to the string. -/
def untilQuotes? (quote : Char) : Text → Option (Text × Text)
  | [] => none
  | c :: rest =>
    if c == quote && [quote, quote].isPrefixOf rest then
      let extra := ((rest.drop 2).takeWhile (· == quote)).take 2
      some (extra, rest.drop (2 + extra.length))
    else if c == '\\' && quote == '\x22' then
      match rest with
      | [] => none
      | escaped :: rest =>
        (untilQuotes? quote rest).map fun (text, after) => (c :: escaped :: text, after)
    else (untilQuotes? quote rest).map fun (text, after) => (c :: text, after)

def stringFrom? (quote : Char) (text : Text) : Option (Text × Text) := do
  let (raw, after) ← untilQuote? quote text
  return (← if quote == '\x22' then unescape .none raw else some raw, after)

/-- The text of a string over lines whose opening quotes have been read, and what follows it.  A
line end right behind the opening quotes does not count. -/
def linesFrom? (quote : Char) (text : Text) : Option (Text × Text) := do
  let (raw, after) ← untilQuotes? quote ((dropNewline? text).getD text)
  if !isLines raw then none
  return (← if quote == '\x22' then unescape .none raw else some raw, after)

/-! ## Integers -/

/-- The number that digits write; one underscore may stand between two digits. -/
def digitsFrom? (base n : Nat) (afterDigit : Bool) : Text → Option Nat
  | [] => if afterDigit then some n else none
  | c :: rest =>
    if c == '_' then if afterDigit then digitsFrom? base n false rest else none
    else do
      let d ← digit? base c
      digitsFrom? base (base * n + d) true rest

def decimal? (text : Text) : Option Nat :=
  if text.head? = some '0' && text.length != 1 then none else digitsFrom? 10 0 false text

def integer? : Text → Option Int
  | '0' :: 'x' :: digits => Int.ofNat <$> digitsFrom? 16 0 false digits
  | '0' :: 'o' :: digits => Int.ofNat <$> digitsFrom? 8 0 false digits
  | '0' :: 'b' :: digits => Int.ofNat <$> digitsFrom? 2 0 false digits
  | '-' :: digits => (fun n => -Int.ofNat n) <$> decimal? digits
  | '+' :: digits => Int.ofNat <$> decimal? digits
  | digits => Int.ofNat <$> decimal? digits

/-! ## Keys -/

def key? (text : Text) : Option (Text × Text) :=
  match text with
  | [] => none
  | c :: rest =>
    if c == '\x22' || c == '\x27' then stringFrom? c rest
    else
      match text.takeWhile isBareKeyChar with
      | [] => none
      | key => some (key, text.dropWhile isBareKeyChar)

/-- Keys with dots between them, at most `count`, and what follows them without its spaces. -/
def keys? : Nat → Text → Option (List Text × Text)
  | 0, _ => none
  | count + 1, text => do
    let (key, after) ← key? (dropSpaces text)
    match dropSpaces after with
    | '.' :: rest => (keys? count rest).map fun (keys, after) => (key :: keys, after)
    | after => some ([key], after)

end SqlBatch.Toml
