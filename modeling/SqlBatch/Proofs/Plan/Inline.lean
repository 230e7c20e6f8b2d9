import SqlBatch.Proofs.Grammar.Check
import SqlBatch.Proofs.Report
import SqlBatch.Proofs.Scanner.Alone
import SqlBatch.Proofs.Scanner.OpenBlocks
/-!
# One statement, entered or in a script

A text of one statement may be checked as an entry or as a script.  An entry is taken for what the
whole text looks like, header and end, while the scanner goes by the lines and their comments; so the
two may come to different verdicts (`headerOnTwoLinesOpen_judged_apart`).  Where both take the text
for the same, the verdicts agree if the parser does not mind the layout (`entry_judged_as_script`).
-/

namespace SqlBatch.Plan

open Text Scanner

theorem ofStatements_singleton {script : Text} {statement : Statement}
    (hsplit : split script = [statement]) : ofStatements (split script) = [statement.task] := by
  rw [ofStatements_split, hsplit, List.map_singleton]

theorem isValid_check {engine : Engine} (text query : Text) (line : Nat) :
    ((Task.check text query line).verdict engine.validator).isValid = true ↔
      engine.validator text = .diagnostics [] := by
  rw [Task.verdict, Verdict.isValid, Option.isNone_iff_eq_none, Outcome.error?_eq_none]

def headerOnTwoLinesOpen : Text := "CREATE\nPROCEDURE p() SELECT 1".toList

theorem headerOnTwoLinesOpen_judged_apart :
    (split headerOnTwoLinesOpen).length = 1 ∧
      (verdicts (Grammar.check .mysql) (ofEntries [⟨headerOnTwoLinesOpen, 1⟩])).map
        Verdict.isValid = [false] ∧
      (verdicts (Grammar.check .mysql) (ofStatements (split headerOnTwoLinesOpen))).map
        Verdict.isValid = [true] := by
  have hsplit : split headerOnTwoLinesOpen = [⟨headerOnTwoLinesOpen, 1, .ordinary, none⟩] := by
    decide +kernel
  have hrefused : (Grammar.engine .mysql headerOnTwoLinesOpen).isRefused = true :=
    Grammar.engine_isRefused (by decide +kernel)
  have hvalid : Grammar.check .mysql headerOnTwoLinesOpen = .diagnostics [] :=
    Engine.validator_eq_nil_iff.2 (.inr ⟨hrefused, by decide +kernel, by decide +kernel⟩)
  refine ⟨by rw [hsplit]; rfl, by decide +kernel, ?_⟩
  rw [ofStatements_singleton hsplit]
  exact congrArg (fun valid => [valid]) ((isValid_check _ _ _).2 hvalid)

/-! ## The same verdict -/

/-- The text of a statement is taken for the same, whether it is an entry or a script: for a
directive, for a routine and for the end of one. -/
structure Unequivocal (script : Text) (statement : Statement) : Prop where
  directive : (Delimiter.directive? script).isSome = true ↔ statement.kind = .directive
  unfolded : Unfolded script
  /-- Without a semicolon at its end, an entry that looks like a routine is one that goes on. -/
  routine : ¬ Delimiter.initial <:+ trim script →
    (Routine.starts script = true ↔ statement.kind = .routine)
  /-- With a semicolon at its end, a routine goes on only where a block of it is open. -/
  openRoutine : statement.isOpenRoutine = true → Delimiter.initial <:+ trim script →
    LeftOpen script

section Verdicts

variable {engine : Engine} {script : Text} {statement : Statement}

theorem isValid_soloTask_of_check {line : Nat} (hdirective : Delimiter.directive? script = none)
    (hwhole : Delimiter.initial <:+ trim script ∨ Routine.starts script = false) :
    ((soloTask script line).verdict engine.validator).isValid = true ↔
      engine.validator (Delimiter.strip Delimiter.initial script) = .diagnostics [] := by
  have hcheck : soloTask script line =
      .check (Delimiter.strip Delimiter.initial script) (trim script) line := by
    rw [soloTask, hdirective, if_neg (by simp), if_neg]
    rcases hwhole with hends | hstarts
    · rw [List.isSuffixOf_iff_suffix.2 hends, Bool.not_true, Bool.and_false]
      exact Bool.false_ne_true
    · rw [hstarts, Bool.false_and]
      exact Bool.false_ne_true
  rw [hcheck, isValid_check]

section Alone

variable {space : Char → Prop} (h : Unequivocal script statement)
  (hreads : engine.Reads space statement) (hspaced : Spaced space ('\n' :: script))
  {front body back : List Text} (halone : Alone script statement front body back) (line : Nat)

include hreads hspaced halone

theorem validator_strip_iff :
    engine.validator (Delimiter.strip Delimiter.initial script) = .diagnostics [] ↔
      engine.validator statement.text = .diagnostics [] :=
  hreads.validator_iff (halone.relaid fun c hc hblank => ⟨hblank, hspaced c hc hblank⟩)

include h

/-- An entry that the scanner leaves open is invalid. -/
private theorem not_isValid_soloTask (hopen : statement.isOpenRoutine = true) :
    ((soloTask script line).verdict engine.validator).isValid = false := by
  have hkind := Statement.kind_of_isOpenRoutine hopen
  have hdirective : Delimiter.directive? script = none := by
    rw [← Option.not_isSome_iff_eq_none, h.directive, hkind]
    decide
  by_cases hends : Delimiter.initial <:+ trim script
  · have hblock := tally_depth_of_leftOpen h.unfolded (h.openRoutine hopen hends)
    rw [halone.akin.tally] at hblock
    rw [← Bool.not_eq_true, isValid_soloTask_of_check hdirective (.inl hends),
      validator_strip_iff hreads hspaced halone, Engine.validator_eq_nil_iff,
      hreads.blocks_end hkind hblock, Routine.faults_eq_nil_iff]
    rintro (hparsed | ⟨-, -, -, -, hnone⟩)
    · contradiction
    · omega
  · have hstarts := (h.routine hends).2 hkind
    have hsuffix : Delimiter.initial.isSuffixOf (trim script) = false := by
      rwa [← Bool.not_eq_true, List.isSuffixOf_iff_suffix]
    rw [soloTask, hdirective, if_neg (by simp), if_pos (by rw [hstarts, hsuffix]; rfl)]
    rfl

private theorem isValid_soloTask_iff (hchecked : statement.isChecked = true) :
    ((soloTask script line).verdict engine.validator).isValid = true ↔
      engine.validator statement.text = .diagnostics [] := by
  have hkinds := hchecked
  simp only [Statement.isChecked, Bool.and_eq_true, bne_iff_ne, Bool.not_eq_true'] at hkinds
  obtain ⟨hkind, hclosed⟩ := hkinds
  have hdirective : Delimiter.directive? script = none := by
    rwa [← Option.not_isSome_iff_eq_none, h.directive]
  have hwhole : Delimiter.initial <:+ trim script ∨ Routine.starts script = false := by
    by_cases hends : Delimiter.initial <:+ trim script
    · exact .inl hends
    · refine .inr (Bool.not_eq_true _ ▸ fun hstarts => hends (halone.ends ?_))
      have hroutine := (h.routine hends).1 hstarts
      simpa [Statement.isOpenRoutine, hroutine] using hclosed
  rw [isValid_soloTask_of_check hdirective hwhole, validator_strip_iff hreads hspaced halone]

end Alone

/-- A text of one statement gets the same verdict as an entry and as a script, unless the one takes
it for something else than the other. -/
theorem entry_judged_as_script {space : Char → Prop} (hsplit : split script = [statement])
    (h : Unequivocal script statement) (hreads : engine.Reads space statement)
    (hspaced : Spaced space ('\n' :: script)) :
    ∃ entered fed : Verdict,
      verdicts engine.validator (ofEntries [⟨script, 1⟩]) = [entered] ∧
        verdicts engine.validator (ofStatements (split script)) = [fed] ∧
        entered.isValid = fed.isValid := by
  have hmem : statement ∈ split script := by simp [hsplit]
  have hfed := ofStatements_singleton hsplit
  by_cases hkind : statement.kind = .directive
  · have hdirective := h.directive.2 hkind
    have hink : ¬ AllBlank script := by
      intro hblank
      rw [← Delimiter.directive?_trim, trim_eq_nil.2 hblank] at hdirective
      contradiction
    refine ⟨_, _, by rw [ofEntries_singleton hink]; rfl, by rw [hfed]; rfl, ?_⟩
    rw [soloTask, if_pos hdirective, Statement.task, if_pos hkind]
    rfl
  obtain ⟨front, body, back, halone⟩ := exists_alone hsplit h.unfolded hkind
  have hink := halone.not_allBlank (wellFormed_of_mem_split hmem).not_allBlank
  refine ⟨_, _, by rw [ofEntries_singleton hink]; rfl, by rw [hfed]; rfl, ?_⟩
  rw [Statement.verdict_task]
  cases hopen : statement.isOpenRoutine with
  | true =>
      rw [not_isValid_soloTask h hreads hspaced halone _ hopen, Statement.verdict, if_neg hkind,
        if_pos hopen]
      rfl
  | false =>
      have hchecked : statement.isChecked = true := by simp [Statement.isChecked, hkind, hopen]
      rw [Bool.eq_iff_iff, isValid_soloTask_iff h hreads hspaced halone _ hchecked,
        Statement.isValid_verdict hchecked]

end Verdicts

/-! ## Loose semicolons -/

def selectsOne : Engine := fun text =>
  if (ink text).filter (· != ';') = "SELECT1".toList then .parsed
  else .refused "Expected: SELECT 1".toList

theorem selectsOne_reads {statement : Statement}
    (h : statement.kind = .routine → (selectsOne statement.text).isParsed = false) :
    selectsOne.Reads (isBlank · = true) statement where
  layout text hrelaid := by
    have hsame : (ink text).filter (· != ';') = (ink statement.text).filter (· != ';') := by
      refine hrelaid.eq (f := fun text => (ink text).filter (· != ';')) fun u v hstep => ?_
      cases hstep with
      | before hw => simp only [ink_append, ink_of_allBlank hw, List.nil_append]
      | behind hw => simp only [ink_append, ink_of_allBlank hw, List.append_nil]
      | lineEnd hw => simp only [ink_append, ink_of_allBlank hw, List.append_nil]
      | semicolonLine => rfl
      | semicolon =>
          have hnone : (ink Delimiter.initial).filter (· != ';') = [] := rfl
          simp only [ink_append, List.filter_append, hnone, List.append_nil]
    unfold selectsOne
    rw [hsame]
    exact ⟨rfl, rfl⟩
  blocks_end hkind _ := h hkind

def looseSelect : Text := ";\n  SELECT 1 ;\n\n;".toList

def looseRoutine : Text :=
  ";\nCREATE PROCEDURE p() BEGIN  \nSELECT 1;\nEND;\n\n;".toList

def missingEnd : Text := "CREATE PROCEDURE p() BEGIN\nSELECT 1;".toList

private theorem isValid_entered {validate : Validator} {script : Text} {entered fed : Verdict}
    {valid : Bool} (hentered : verdicts validate (ofEntries [⟨script, 1⟩]) = [entered])
    (hfed : verdicts validate (ofStatements (split script)) = [fed])
    (hsame : entered.isValid = fed.isValid)
    (hvalid : (verdicts validate (ofStatements (split script))).map Verdict.isValid = [valid]) :
    (verdicts validate (ofEntries [⟨script, 1⟩])).map Verdict.isValid = [valid] := by
  rw [hentered, List.map_singleton, hsame, ← hvalid, hfed, List.map_singleton]

theorem looseSemicolons_judged_alike :
    ((verdicts selectsOne.validator (ofEntries [⟨looseSelect, 1⟩])).map Verdict.isValid = [true] ∧
      (verdicts selectsOne.validator (ofStatements (split looseSelect))).map Verdict.isValid =
        [true]) ∧
    ((verdicts selectsOne.validator (ofEntries [⟨looseRoutine, 1⟩])).map Verdict.isValid = [true] ∧
      (verdicts selectsOne.validator (ofStatements (split looseRoutine))).map Verdict.isValid =
        [true]) ∧
    (verdicts selectsOne.validator (ofEntries [⟨missingEnd, 1⟩])).map Verdict.isValid = [false] ∧
      (verdicts selectsOne.validator (ofStatements (split missingEnd))).map Verdict.isValid =
        [false] := by
  have hspaced : ∀ script, Spaced (isBlank · = true) ('\n' :: script) := fun _ _ _ hblank => hblank
  have hselect : split looseSelect = [⟨"SELECT 1".toList, 2, .ordinary, some [';']⟩] := by
    decide +kernel
  have hroutine : split looseRoutine =
      [⟨"CREATE PROCEDURE p() BEGIN\nSELECT 1;\nEND".toList, 2, .routine, some [';']⟩] := by
    decide +kernel
  have hmissing : split missingEnd = [⟨missingEnd, 1, .routine, none⟩] := by decide +kernel
  obtain ⟨_, _, hentered, hfed, hsame⟩ := entry_judged_as_script hselect
    ⟨by decide +kernel, by decide +kernel, by decide +kernel, fun hopen => by contradiction⟩
    (selectsOne_reads (by decide +kernel)) (hspaced _)
  obtain ⟨_, _, henteredRoutine, hfedRoutine, hsameRoutine⟩ := entry_judged_as_script hroutine
    ⟨by decide +kernel, by decide +kernel, by decide +kernel, fun hopen => by contradiction⟩
    (selectsOne_reads (by decide +kernel)) (hspaced _)
  obtain ⟨_, _, henteredOpen, hfedOpen, hsameOpen⟩ := entry_judged_as_script hmissing
    ⟨by decide +kernel, by decide +kernel, by decide +kernel,
      fun _ _ => ⟨by decide +kernel, by decide +kernel⟩⟩
    (selectsOne_reads (by decide +kernel)) (hspaced _)
  have hvalid : (verdicts selectsOne.validator (ofStatements (split looseSelect))).map
      Verdict.isValid = [true] := by decide +kernel
  have hvalidRoutine : (verdicts selectsOne.validator (ofStatements (split looseRoutine))).map
      Verdict.isValid = [true] := by decide +kernel
  have hinvalid : (verdicts selectsOne.validator (ofStatements (split missingEnd))).map
      Verdict.isValid = [false] := by decide +kernel
  exact ⟨⟨isValid_entered hentered hfed hsame hvalid, hvalid⟩,
    ⟨isValid_entered henteredRoutine hfedRoutine hsameRoutine hvalidRoutine, hvalidRoutine⟩,
    isValid_entered henteredOpen hfedOpen hsameOpen hinvalid, hinvalid⟩

end SqlBatch.Plan
