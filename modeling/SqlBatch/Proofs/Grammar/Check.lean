import SqlBatch.Grammar.Check
import SqlBatch.Proofs.Engine
/-!
# What the grammar refuses

Of what can be created the fragment knows only tables.
-/

namespace SqlBatch.Grammar

/-- Whether the first statement creates something that is no table. -/
def createsOther : List Token → Bool
  | [] => false
  | token :: rest =>
    if token.lexeme.isSymbol ';' then createsOther rest
    else token.lexeme.isKeyword "CREATE".toList &&
      rest.head?.any fun what => !what.lexeme.isKeyword "TABLE".toList

theorem parse_createsOther {tokens : List Token} (h : createsOther tokens = true) :
    ∃ found, parse tokens = .error (.expected "TABLE".toList (some found)) := by
  induction tokens with
  | nil => contradiction
  | cons token rest ih =>
      rw [createsOther] at h
      by_cases hempty : token.lexeme.isSymbol ';' = true
      · rw [if_pos hempty] at h
        have hagain : Expectation.statement.meet? token.lexeme = some [.statement] := by
          rw [Expectation.meet?, if_pos hempty]
        rw [parse, read, hagain]
        exact ih h
      rw [if_neg hempty, Bool.and_eq_true] at h
      obtain ⟨hcreate, hother⟩ := h
      have hform : Expectation.statement.meet? token.lexeme =
          some [.keyword "TABLE".toList, .name, .symbol '(', .name, .keyword "INT".toList,
            .symbol ')'] := by
        rw [Expectation.meet?, if_neg hempty, form?, beq_iff_eq.1 hcreate]
        rfl
      cases rest with
      | nil => contradiction
      | cons what rest =>
          have htable : (Expectation.keyword "TABLE".toList).meet? what.lexeme = none := by
            rw [Expectation.meet?, if_neg]
            simpa using hother
          refine ⟨what, ?_⟩
          rw [parse, read, hform]
          simp only [List.cons_append]
          rw [read, htable]
          rfl

theorem engine_isRefused {dialect : Dialect} {text : Text}
    (h : (tokens dialect text).toOption.any createsOther = true) :
    (engine dialect text).isRefused = true := by
  unfold engine
  cases htokens : tokens dialect text with
  | error error => simp [htokens, Except.toOption] at h
  | ok found =>
      rw [htokens] at h
      obtain ⟨token, hparse⟩ := parse_createsOther h
      dsimp only
      rw [hparse]
      rfl

end SqlBatch.Grammar
