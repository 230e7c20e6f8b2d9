import SqlBatch.Grammar.Mode
/-!
# Tokens

A statement cut into lexemes, or what it leaves open.
-/

namespace SqlBatch.Grammar

def tokensFrom (dialect : Dialect) (position : Position) (mode : Mode) :
    Text → Except LexError (List Token)
  | [] => mode.close position
  | c :: rest => do
    let (tokens, mode) := mode.step dialect position c rest.head? rest.tail.head?
    return tokens ++ (← tokensFrom dialect (position.after c) mode rest)

def tokens (dialect : Dialect) (statement : Text) : Except LexError (List Token) :=
  tokensFrom dialect {} .gap statement

end SqlBatch.Grammar
