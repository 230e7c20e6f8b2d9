import SqlBatch.Grammar.Token
/-!
# Pieces of SQL

The statements that the grammar knows, as sequences of what is expected next.  Reading keeps a
stack of expectations; a token meets the first of them or is an error, and optional ones are dropped
when their token does not come.
-/

namespace SqlBatch.Grammar

inductive Expectation where
  /-- The first word of a statement, or a semicolon. -/
  | statement
  | keyword (word : Text)
  | symbol (c : Char)
  | name
  /-- A literal, a name, a string, or an item in parentheses, of which `room` may open. -/
  | item (room : Nat)
  /-- What is selected: items, or a star. -/
  | selection
  /-- Perhaps a comma or a plus and another item. -/
  | moreItems
  /-- Perhaps `FROM` and a name. -/
  | source
  /-- Perhaps `WHERE` and a comparison. -/
  | condition
  deriving DecidableEq, Repr

/-- How many parentheses may open where an item is selected or inserted.  A new value in an update
stands one level higher, an operand one level lower. -/
def room : Nat := 47

def form? (lexeme : Lexeme) : Option (List Expectation) :=
  lexeme.keyword?.bind fun word => forms.lookup word
where
  forms : List (Text × List Expectation) :=
    [("SELECT", [.selection, .moreItems, .source]),
      ("INSERT", [.keyword "INTO".toList, .name, .keyword "VALUES".toList, .symbol '(', .item room,
        .symbol ')']),
      ("DELETE", [.keyword "FROM".toList, .name]),
      ("UPDATE", [.name, .keyword "SET".toList, .name, .symbol '=', .item (room + 1)]),
      ("DROP", [.keyword "TABLE".toList, .name]),
      ("CREATE", [.keyword "TABLE".toList, .name, .symbol '(', .name, .keyword "INT".toList,
        .symbol ')']),
      ("COMMIT", [])].map fun (word, form) => (word.toList, form)

inductive ParseError where
  /-- `what` was expected; `found` came, or nothing did. -/
  | expected (what : Text) (found : Option Token)
  | recursionLimit
  deriving DecidableEq, Repr

def ParseError.message : ParseError → Text
  | .expected what none => "Expected: ".toList ++ what ++ ", found: EOF".toList
  | .expected what (some token) =>
    "Expected: ".toList ++ what ++ ", found: ".toList ++ token.lexeme.display ++
      token.start.suffix
  | .recursionLimit => "sql parser error: recursion limit exceeded".toList

namespace Expectation

def display : Expectation → Text
  | .statement => "an SQL statement".toList
  | .keyword word => word
  | .symbol c => [c]
  | .name => "identifier".toList
  | .item _ | .selection | .moreItems => "an expression".toList
  | .source => "FROM".toList
  | .condition => "WHERE".toList

def isOptional : Expectation → Bool
  | .statement | .moreItems | .source | .condition => true
  | _ => false

def meetItem? (lexeme : Lexeme) (room : Nat) : Option (List Expectation) :=
  match lexeme with
  | .symbol _ => if lexeme.isSymbol '(' then some [.item (room - 1), .symbol ')'] else none
  | _ => some []

/-- What a token leaves to expect; none if it does not meet the expectation. -/
def meet? (lexeme : Lexeme) : Expectation → Option (List Expectation)
  | .statement => if lexeme.isSymbol ';' then some [.statement] else form? lexeme
  | .keyword word => if lexeme.isKeyword word then some [] else none
  | .symbol c => if lexeme.isSymbol c then some [] else none
  | .name =>
    match lexeme with
    | .word _ | .quoted .. => some []
    | .literal _ | .symbol _ => none
  | .item room => meetItem? lexeme room
  | .selection => if lexeme.isSymbol '*' then some [] else meetItem? lexeme room
  | .moreItems =>
    if lexeme.isSymbol ',' then some [.item room, .moreItems]
    else if lexeme.isSymbol '+' then some [.item (room - 1), .moreItems]
    else none
  | .source => if lexeme.isKeyword "FROM".toList then some [.name, .condition] else none
  | .condition =>
    if lexeme.isKeyword "WHERE".toList then some [.name, .symbol '=', .item (room - 1)] else none

end Expectation

/-- Reads tokens against a stack of expectations.  Behind a whole statement there may be a semicolon
and another one; the word `END` there ends what is read. -/
def read : List Expectation → List Token → Except ParseError Unit
  | [], [] => .ok ()
  | [], token :: rest =>
    if token.lexeme.isSymbol ';' then read [.statement] rest
    else if token.lexeme.isKeyword "END".toList then .ok ()
    else .error (.expected "end of statement".toList (some token))
  | expectation :: stack, [] =>
    if expectation.isOptional then read stack []
    else .error (.expected expectation.display none)
  | expectation :: stack, token :: rest =>
    if expectation == .item 0 && token.lexeme.isSymbol '(' then .error .recursionLimit
    else match expectation.meet? token.lexeme with
    | some more => read (more ++ stack) rest
    | none =>
      if expectation.isOptional && expectation != .statement then read stack (token :: rest)
      else .error (.expected expectation.display (some token))
termination_by stack tokens => (tokens.length, stack.length)

/-- Whether a text is a list of statements, any of them empty. -/
def parse (tokens : List Token) : Except ParseError Unit := read [.statement] tokens

end SqlBatch.Grammar
