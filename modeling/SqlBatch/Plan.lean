import SqlBatch.Delimiter
import SqlBatch.Routine.Block
import SqlBatch.Routine.Header
import SqlBatch.Statement
import SqlBatch.Validator
import SqlBatch.Verdict
/-!
# Plans

What to check is planned before anything is checked.  A plan comes from the statements of a script,
whose kind is trusted, or from query entries, whose routines may be spread over several entries.
Each task of a plan gives one verdict, and only a `check` calls the validator.
-/

namespace SqlBatch

/-- A query as somebody entered it, with its line. -/
structure Entry where
  text : Text
  line : Nat
  deriving DecidableEq, Repr

namespace Entry

/-- Queries with their places, counted from one. -/
def numbered (queries : List Text) : List Entry :=
  queries.mapIdx fun index text => ⟨text, index + 1⟩

end Entry

inductive Task where
  /-- Valid without a check. -/
  | accept (query : Text) (line : Nat)
  /-- To be judged by the validator, without the delimiter. -/
  | check (statement query : Text) (line : Nat)
  /-- A routine whose end never came. -/
  | incomplete (query : Text) (line : Nat)
  deriving DecidableEq, Repr

namespace Task

def incompleteMessage : Text := "Incomplete procedure definition".toList

def verdict (validate : Validator) : Task → Verdict
  | .accept query line => { line, query }
  | .check statement query line => { line, query, error := (validate statement).error? }
  | .incomplete query line => { line, query, error := some incompleteMessage }

def checked? : Task → Option Text
  | .check statement _ _ => some statement
  | _ => none

end Task

abbrev Plan := List Task

namespace Plan

structure Pending where
  text : Text
  line : Nat
  deriving DecidableEq, Repr

def abandon : Option Pending → Plan
  | none => []
  | some routine => [.incomplete routine.text routine.line]

/-! ## Statements -/

/-- A routine without its end stays pending while directives follow. -/
def ofStatementsFrom (pending : Option Pending) : List Statement → Plan
  | [] => abandon pending
  | statement :: rest =>
    if (Text.trim statement.text).isEmpty then ofStatementsFrom pending rest
    else match statement.kind, statement.isTerminated with
    | .directive, _ =>
      .accept statement.text statement.line :: ofStatementsFrom pending rest
    | .routine, false =>
      abandon pending ++ ofStatementsFrom (some ⟨statement.text, statement.line⟩) rest
    | _, _ =>
      abandon pending ++
        .check statement.text statement.text statement.line :: ofStatementsFrom none rest

def ofStatements (statements : List Statement) : Plan := ofStatementsFrom none statements

/-! ## Entries -/

/-- Whether an entry ends a pending routine: the delimiter in force ends it, and there is an `END`
before that. -/
def closesRoutine (delimiter query : Text) : Bool :=
  match delimiter.isSuffixOf? query with
  | some body => Routine.mentionsEnd body
  | none => false

/-- Blank entries are left out, directives set the delimiter, and a routine takes all entries up to
the one that closes it. -/
def ofEntriesFrom (delimiter : Text) (pending : Option Pending) : List Entry → Plan
  | [] => abandon pending
  | entry :: rest =>
    let query := Text.trim entry.text
    if query.isEmpty then ofEntriesFrom delimiter pending rest
    else match Delimiter.directive? query, pending with
    | some token, _ => .accept query entry.line :: ofEntriesFrom token pending rest
    | none, some routine =>
      let text := routine.text ++ '\n' :: query
      if closesRoutine delimiter query then
        .check (Delimiter.strip delimiter text) text routine.line ::
          ofEntriesFrom delimiter none rest
      else ofEntriesFrom delimiter (some ⟨text, routine.line⟩) rest
    | none, none =>
      if Routine.starts query && !delimiter.isSuffixOf query then
        ofEntriesFrom delimiter (some ⟨query, entry.line⟩) rest
      else
        .check (Delimiter.strip delimiter query) query entry.line ::
          ofEntriesFrom delimiter none rest

def ofEntries (entries : List Entry) : Plan := ofEntriesFrom Delimiter.initial none entries

/-! ## Results -/

def verdicts (validate : Validator) (plan : Plan) : List Verdict := plan.map (Task.verdict validate)

def calls (plan : Plan) : List Text := plan.filterMap Task.checked?

end Plan
end SqlBatch
