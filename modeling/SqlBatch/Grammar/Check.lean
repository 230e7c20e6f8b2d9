import SqlBatch.Engine
import SqlBatch.Grammar.Piece
/-!
# The grammar check

A parser for a fragment of SQL: seven forms of statements, enough to try the program on.  It refuses
everything else, much of it good SQL.  Nothing that is proved of runs rests on it.
-/

namespace SqlBatch.Grammar

def engine (dialect : Dialect) : Engine := fun statement =>
  match tokens dialect statement with
  | .error error => .unreadable error.message
  | .ok tokens =>
    match parse tokens with
    | .ok () => .parsed
    | .error .recursionLimit => .cancelled ParseError.recursionLimit.message
    | .error error => .refused error.message

def check (dialect : Dialect) : Validator := (engine dialect).validator

end SqlBatch.Grammar
