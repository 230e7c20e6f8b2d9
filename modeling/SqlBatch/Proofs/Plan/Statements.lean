import SqlBatch.Proofs.Plan
import SqlBatch.Proofs.Scanner.WellFormed
import Mathlib.Data.List.Chain
/-!
# The answers to statements

A list of statements gives one verdict for each statement that is not blank, and the validator is
called once on the text of each that it is to judge.  The verdicts come in the order of the
statements but for one thing: a routine that is left open is answered behind the directives that
directly follow it.  In what a script is cut into only the last statement may be an open routine, so
there nothing changes places.
-/

namespace SqlBatch

open Text

namespace Statement

def isChecked (statement : Statement) : Bool :=
  statement.kind != .directive && !statement.isOpenRoutine

def verdict (validate : Validator) (statement : Statement) : Verdict where
  line := statement.line
  query := statement.text
  error :=
    if statement.kind = .directive then none
    else if statement.isOpenRoutine then some Task.incompleteMessage
    else (validate statement.text).error?

def task (statement : Statement) : Task :=
  if statement.kind = .directive then .accept statement.text statement.line
  else if statement.isOpenRoutine then .incomplete statement.text statement.line
  else .check statement.text statement.text statement.line

theorem verdict_task (validate : Validator) (statement : Statement) :
    statement.task.verdict validate = statement.verdict validate := by
  unfold task verdict
  split
  · rfl
  · split <;> rfl

theorem checked?_task (statement : Statement) :
    statement.task.checked? = if statement.isChecked then some statement.text else none := by
  unfold task isChecked
  split
  · next hkind => simp [hkind, Task.checked?]
  · next hkind => cases hopen : statement.isOpenRoutine <;> simp [hkind, Task.checked?]

theorem isValid_verdict {validate : Validator} {statement : Statement}
    (h : statement.isChecked = true) :
    (statement.verdict validate).isValid = true ↔
      validate statement.text = .diagnostics [] := by
  simp only [isChecked, Bool.and_eq_true, bne_iff_ne, Bool.not_eq_true'] at h
  rw [Verdict.isValid, Option.isNone_iff_eq_none, ← Outcome.error?_eq_none, verdict, if_neg h.1,
    h.2]
  rfl

private theorem isChecked_of_isOpenRoutine {statement : Statement}
    (h : statement.isOpenRoutine = true) : statement.isChecked = false := by
  simp [isChecked, h]

private theorem isChecked_of_directive {statement : Statement} (h : statement.kind = .directive) :
    statement.isChecked = false := by
  simp [isChecked, h]

end Statement

namespace Plan

def inked (statements : List Statement) : List Statement :=
  statements.filter fun statement => !(trim statement.text).isEmpty

/-! ## The order of the answers -/

/-- An open routine changes places with each directive that directly follows it. -/
def deferred : List Statement → List Statement
  | first :: second :: rest =>
    if first.isOpenRoutine && second.kind == .directive then second :: deferred (first :: rest)
    else first :: deferred (second :: rest)
  | statements => statements
termination_by statements => statements.length

section Deferred

variable {first second : Statement} (rest : List Statement)

@[simp] theorem deferred_singleton (statement : Statement) :
    deferred [statement] = [statement] := by
  rw [deferred]
  rintro _ _ _ ⟨⟩

theorem deferred_directive (hopen : first.isOpenRoutine = true) (hkind : second.kind = .directive) :
    deferred (first :: second :: rest) = second :: deferred (first :: rest) := by
  rw [deferred, hopen, hkind]
  rfl

theorem deferred_stays (h : ¬ (first.isOpenRoutine = true ∧ second.kind = .directive)) :
    deferred (first :: second :: rest) = first :: deferred (second :: rest) := by
  rw [deferred, if_neg (by simpa using h)]

theorem deferred_cons (h : first.isOpenRoutine = false) :
    deferred (first :: rest) = first :: deferred rest := by
  cases rest with
  | nil => simp [deferred]
  | cons second rest => exact deferred_stays rest (by simp [h])

end Deferred

theorem deferred_perm (statements : List Statement) : (deferred statements).Perm statements := by
  fun_induction deferred statements with
  | case1 first second rest _ ih => exact (ih.cons second).trans (.swap first second rest)
  | case2 first second rest _ ih => exact ih.cons first
  | case3 => exact .refl _

/-- What the validator is to judge keeps its order. -/
theorem filter_isChecked_deferred (statements : List Statement) :
    (deferred statements).filter Statement.isChecked = statements.filter Statement.isChecked := by
  fun_induction deferred statements with
  | case1 first second rest hswap ih =>
      simp only [Bool.and_eq_true, beq_iff_eq] at hswap
      have hfirst := Statement.isChecked_of_isOpenRoutine hswap.1
      have hsecond := Statement.isChecked_of_directive hswap.2
      simp [ih, hfirst, hsecond]
  | case2 first second rest _ ih => rw [List.filter_cons, ih, ← List.filter_cons]
  | case3 => rfl

/-- Nothing changes places exactly if no directive directly follows an open routine. -/
theorem deferred_eq_self_iff (statements : List Statement) :
    deferred statements = statements ↔
      statements.IsChain fun first second =>
        ¬ (first.isOpenRoutine = true ∧ second.kind = .directive) := by
  fun_induction deferred statements with
  | case1 first second rest hswap _ =>
      simp only [Bool.and_eq_true, beq_iff_eq] at hswap
      have hne : second ≠ first := by
        rintro rfl
        rw [Statement.kind_of_isOpenRoutine hswap.1] at hswap
        exact nomatch hswap.2
      simp [hne, hswap]
  | case2 first second rest hstays ih =>
      simp only [Bool.and_eq_true, beq_iff_eq] at hstays
      rw [List.cons.injEq, ih, List.isChain_cons_cons]
      simp [hstays]
  | case3 statements hshort =>
      rcases statements with _ | ⟨first, _ | ⟨second, rest⟩⟩
      · simp
      · simp
      · exact absurd rfl (hshort first second rest)

/-! ## The plan -/

private theorem inked_cons (statement : Statement) (rest : List Statement) :
    inked (statement :: rest) =
      if AllBlank statement.text then inked rest else statement :: inked rest := by
  by_cases hblank : AllBlank statement.text <;> simp [inked, hblank]

theorem ofStatementsFrom_cons (pending : Option Pending) (statement : Statement)
    (rest : List Statement) :
    ofStatementsFrom pending (statement :: rest) =
      if AllBlank statement.text then ofStatementsFrom pending rest
      else if statement.kind = .directive then
        statement.task :: ofStatementsFrom pending rest
      else if statement.isOpenRoutine then
        abandon pending ++ ofStatementsFrom (some ⟨statement.text, statement.line⟩) rest
      else abandon pending ++ statement.task :: ofStatementsFrom none rest := by
  simp only [ofStatementsFrom, List.isEmpty_iff, trim_eq_nil, Statement.task]
  split
  · rfl
  · cases hkind : statement.kind <;> cases hend : statement.isTerminated <;>
      simp [Statement.isOpenRoutine, hkind, hend]

/-- The plan of the statements behind a routine that is pending is that of all of them. -/
theorem ofStatementsFrom_eq (statements : List Statement) :
    ofStatementsFrom none statements = (deferred (inked statements)).map Statement.task ∧
      ∀ routine : Statement, routine.isOpenRoutine = true →
        ofStatementsFrom (some ⟨routine.text, routine.line⟩) statements =
          (deferred (routine :: inked statements)).map Statement.task := by
  induction statements with
  | nil =>
      refine ⟨by simp [ofStatementsFrom, abandon, inked, deferred], ?_⟩
      intro routine hopen
      have hkind := Statement.kind_of_isOpenRoutine hopen
      simp [ofStatementsFrom, abandon, inked, Statement.task, hopen, hkind]
  | cons statement rest ih =>
      obtain ⟨hnone, hsome⟩ := ih
      have htask : ∀ routine : Statement, routine.isOpenRoutine = true →
          abandon (some ⟨routine.text, routine.line⟩) = [routine.task] := by
        intro routine hopen
        have hkind := Statement.kind_of_isOpenRoutine hopen
        simp [abandon, Statement.task, hopen, hkind]
      simp only [ofStatementsFrom_cons, inked_cons]
      split
      · exact ⟨hnone, hsome⟩
      split
      · next hkind =>
        have hopen : statement.isOpenRoutine = false := by simp [Statement.isOpenRoutine, hkind]
        refine ⟨by rw [deferred_cons _ hopen, hnone, List.map_cons], ?_⟩
        intro routine hroutine
        rw [deferred_directive _ hroutine hkind, hsome routine hroutine, List.map_cons]
      next hkind =>
      split
      · next hopen =>
        refine ⟨by simpa [abandon] using hsome statement hopen, ?_⟩
        intro routine hroutine
        rw [deferred_stays _ fun h => hkind h.2, hsome statement hopen, htask routine hroutine,
          List.map_cons, List.singleton_append]
      · next hopen =>
        rw [Bool.not_eq_true] at hopen
        refine ⟨by rw [deferred_cons _ hopen, hnone]; rfl, ?_⟩
        intro routine hroutine
        rw [deferred_stays _ fun h => hkind h.2, deferred_cons _ hopen, hnone,
          htask routine hroutine, List.map_cons, List.map_cons, List.singleton_append]

theorem ofStatements_eq (statements : List Statement) :
    ofStatements statements = (deferred (inked statements)).map Statement.task :=
  (ofStatementsFrom_eq statements).1

theorem verdicts_map_task (validate : Validator) (statements : List Statement) :
    verdicts validate (statements.map Statement.task) =
      statements.map (Statement.verdict validate) := by
  rw [verdicts, List.map_map]
  exact List.map_congr_left fun statement _ => Statement.verdict_task validate statement

theorem calls_map_task (statements : List Statement) :
    calls (statements.map Statement.task) =
      (statements.filter Statement.isChecked).map Statement.text := by
  induction statements with
  | nil => rfl
  | cons statement rest ih =>
      rw [List.map_cons, calls_cons, ih, Statement.checked?_task, List.filter_cons]
      cases statement.isChecked <;> rfl

/-- Each statement that is not blank is answered once, and open routines are answered behind the
directives that directly follow them; where there are none, the order is kept. -/
theorem statements_answered_in_order (validate : Validator) (statements : List Statement) :
    verdicts validate (ofStatements statements) =
        (deferred (inked statements)).map (Statement.verdict validate) ∧
      calls (ofStatements statements) =
        ((inked statements).filter Statement.isChecked).map Statement.text ∧
      (deferred (inked statements)).Perm (inked statements) ∧
      (deferred (inked statements) = inked statements ↔
        (inked statements).IsChain fun first second =>
          ¬ (first.isOpenRoutine = true ∧ second.kind = .directive)) := by
  rw [ofStatements_eq, verdicts_map_task, calls_map_task, filter_isChecked_deferred]
  exact ⟨rfl, rfl, deferred_perm _, deferred_eq_self_iff _⟩

def directiveBehindOpenRoutine : List Statement :=
  [⟨"CREATE PROCEDURE p()".toList, 1, .routine, none⟩, ⟨"DELIMITER //".toList, 2, .directive, none⟩]

/-- The first answer is not that to the first statement. -/
theorem directiveBehindOpenRoutine_overtakes :
    (verdicts (fun _ => .diagnostics []) (ofStatements directiveBehindOpenRoutine)).map
        (fun verdict => (verdict.line, verdict.query)) ≠
      (inked directiveBehindOpenRoutine).map fun statement => (statement.line, statement.text) := by
  decide

/-! ## Scripts -/

theorem inked_split (script : Text) : inked (split script) = split script := by
  rw [inked, List.filter_eq_self]
  intro statement hmem
  simpa using (wellFormed_of_mem_split hmem).not_allBlank

theorem deferred_split (script : Text) : deferred (split script) = split script := by
  rw [deferred_eq_self_iff, List.isChain_iff_getElem]
  rintro i hi ⟨hopen, -⟩
  have hmem : (split script)[i] ∈ (split script).dropLast := by
    rw [← List.getElem_dropLast (by rw [List.length_dropLast]; omega)]
    exact List.getElem_mem _
  rw [Scanner.isOpenRoutine_of_mem_dropLast hmem] at hopen
  contradiction

theorem ofStatements_split (script : Text) :
    ofStatements (split script) = (split script).map Statement.task := by
  rw [ofStatements_eq, inked_split, deferred_split]

/-- Each statement of a script is answered on its own and in its place. -/
theorem script_answered_statementwise (validate : Validator) (script : Text) :
    verdicts validate (ofStatements (split script)) =
        (split script).map (Statement.verdict validate) ∧
      calls (ofStatements (split script)) =
        ((split script).filter Statement.isChecked).map Statement.text ∧
      recorded validate (ofStatements (split script)) =
        (verdicts validate (ofStatements (split script)), calls (ofStatements (split script))) ∧
      (∀ statement ∈ (split script).dropLast, statement.isOpenRoutine = false) ∧
      (∀ statement ∈ split script, statement.isChecked = true →
        ((statement.verdict validate).isValid = true ↔
          validate statement.text = .diagnostics [])) ∧
      ∀ (other : Validator) (i : Nat),
        (∀ statement ∈ (split script)[i]?, other statement.text = validate statement.text) →
        (verdicts other (ofStatements (split script)))[i]? =
          (verdicts validate (ofStatements (split script)))[i]? := by
  have hverdicts : ∀ v, verdicts v (ofStatements (split script)) =
      (split script).map (Statement.verdict v) := by
    intro v
    rw [ofStatements_split, verdicts_map_task]
  refine ⟨hverdicts validate, by rw [ofStatements_split, calls_map_task], recorded_eq _ _,
    fun _ => Scanner.isOpenRoutine_of_mem_dropLast, fun _ _ => Statement.isValid_verdict, ?_⟩
  intro other i hsame
  rw [hverdicts, hverdicts, List.getElem?_map, List.getElem?_map]
  cases hi : (split script)[i]? with
  | none => rfl
  | some statement =>
      have htext := hsame statement hi
      simp only [Option.map_some, Statement.verdict, htext]

def fourStatements : Text :=
  "DELIMITER //\nSELECT 1//\nSELECT 2//\nCREATE PROCEDURE p()".toList

def breaksOnce (text : Text) : Outcome :=
  if text = "SELECT 1".toList then .crashed none else .diagnostics []

theorem fourStatements_answered :
    verdicts breaksOnce (ofStatements (split fourStatements)) =
        [{ line := 1, query := "DELIMITER //".toList },
          { line := 2, query := "SELECT 1".toList,
            error := some "Unexpected error: validator panicked".toList },
          { line := 3, query := "SELECT 2".toList },
          { line := 4, query := "CREATE PROCEDURE p()".toList,
            error := some Task.incompleteMessage }] ∧
      calls (ofStatements (split fourStatements)) = ["SELECT 1".toList, "SELECT 2".toList] ∧
      (verdicts (fun _ => .diagnostics []) (ofStatements (split fourStatements)))[2]? =
        (verdicts breaksOnce (ofStatements (split fourStatements)))[2]? := by
  obtain ⟨hverdicts, hcalls, -, -, -, hother⟩ :=
    script_answered_statementwise breaksOnce fourStatements
  refine ⟨hverdicts.trans (by decide +kernel), hcalls.trans (by decide +kernel), hother _ 2 ?_⟩
  decide +kernel

end Plan
end SqlBatch
