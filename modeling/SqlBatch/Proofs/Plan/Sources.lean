import SqlBatch.Proofs.Plan.Statements
import SqlBatch.Proofs.Scanner.Scope
/-!
# Statements entered one by one

The statements of a script may also be entered as queries, each with its delimiter behind it.  The
plan of the entries finds the delimiter in force anew, from the texts of the directives.  It is the
one that the scanner found (`split_endedInForce`), so that each entry loses the delimiter that the
scanner ended the statement with, and both plans do the same.
-/

namespace SqlBatch

open Text

def Statement.entry (statement : Statement) : Entry := ⟨statement.source, statement.line⟩

/-! ## Plans that do the same -/

/-- What a verdict says, without the text that it is shown with. -/
def Verdict.judgement (verdict : Verdict) : Nat × Bool × Option Text :=
  (verdict.line, verdict.isValid, verdict.error)

namespace Task

/-- A task without the text that its verdict is shown with. -/
def bare : Task → Task
  | .accept _ line => .accept [] line
  | .check statement _ line => .check statement [] line
  | .incomplete _ line => .incomplete [] line

@[simp] theorem checked?_bare (task : Task) : task.bare.checked? = task.checked? := by
  cases task <;> rfl

@[simp] theorem judgement_bare (validate : Validator) (task : Task) :
    (task.bare.verdict validate).judgement = (task.verdict validate).judgement := by
  cases task <;> rfl

theorem judgement_run_bare {m : Type → Type} [Monad m] [LawfulMonad m]
    (validate : Text → m Outcome) (task : Task) :
    Verdict.judgement <$> task.bare.run validate = Verdict.judgement <$> task.run validate := by
  cases task with
  | check statement query line =>
      simp only [bare, run, map_bind, map_pure]
      rfl
  | _ =>
      simp only [bare, run, map_pure]
      rfl

end Task

namespace Plan

def Alike (plan other : Plan) : Prop := plan.map Task.bare = other.map Task.bare

section Alike

variable {plan other : Plan} (h : Alike plan other)

include h

theorem Alike.calls_eq : calls plan = calls other := by
  have hbare : ∀ p : Plan, calls p = (p.map Task.bare).filterMap Task.checked? := by
    intro p
    rw [List.filterMap_map]
    exact List.filterMap_congr fun task _ => task.checked?_bare.symm
  rw [hbare, hbare other, h]

theorem Alike.judgements_eq (validate : Validator) :
    (verdicts validate plan).map Verdict.judgement =
      (verdicts validate other).map Verdict.judgement := by
  have hbare : ∀ p : Plan, (verdicts validate p).map Verdict.judgement =
      (p.map Task.bare).map fun task => (task.verdict validate).judgement := by
    intro p
    rw [verdicts, List.map_map, List.map_map]
    exact List.map_congr_left fun task _ => (task.judgement_bare validate).symm
  rw [hbare, hbare other, h]

theorem Alike.judgements_run_eq {m : Type → Type} [Monad m] [LawfulMonad m]
    (validate : Text → m Outcome) :
    List.map Verdict.judgement <$> plan.mapM (Task.run validate) =
      List.map Verdict.judgement <$> other.mapM (Task.run validate) := by
  have hbare : ∀ p : Plan, List.map Verdict.judgement <$> p.mapM (Task.run validate) =
      (p.map Task.bare).mapM fun task => Verdict.judgement <$> task.run validate := by
    intro p
    induction p with
    | nil => simp
    | cons task rest ih =>
        rw [List.map_cons, List.mapM_cons, List.mapM_cons, ← ih, Task.judgement_run_bare]
        simp
  rw [hbare, hbare other, h]

end Alike

/-! ## The entries of a script -/

/-- A statement that is entered as what it is: a directive, or a statement with a delimiter behind
it that does not look like one. -/
structure Enterable (statement : Statement) : Prop where
  wellFormed : statement.WellFormed
  terminated : statement.kind ≠ .directive → statement.isTerminated = true
  undirected : statement.kind ≠ .directive → Delimiter.directive? statement.source = none

section Cons

variable {delimiter : Text} {statement : Statement} (h : Enterable statement)
  (rest : List Entry)

include h

private theorem ofEntriesFrom_directive (hkind : statement.kind = .directive) :
    ofEntriesFrom delimiter none (statement.entry :: rest) =
      statement.task :: ofEntriesFrom (statement.behind delimiter) none rest := by
  obtain ⟨hterminator, token, htoken⟩ := h.wellFormed.directive hkind
  have hsource : statement.source = statement.text := by
    rw [Statement.source, hterminator]
    exact List.append_nil _
  have hbehind : statement.behind delimiter = token := by
    rw [Statement.behind, if_pos hkind, htoken, Option.getD_some]
  simp only [ofEntriesFrom, Statement.entry, hsource, h.wellFormed.text_trim, htoken,
    List.isEmpty_iff, if_neg h.wellFormed.text_ne_nil, hbehind, Statement.task, if_pos hkind]

private theorem ofEntriesFrom_terminated (hkind : statement.kind ≠ .directive)
    (hended : ∀ d ∈ statement.terminator, d = delimiter) :
    ofEntriesFrom delimiter none (statement.entry :: rest) =
      .check statement.text statement.source statement.line ::
        ofEntriesFrom (statement.behind delimiter) none rest := by
  obtain ⟨d, hterminator⟩ := Option.isSome_iff_exists.1 (h.terminated hkind)
  obtain rfl := hended d hterminator
  have hsolid := h.wellFormed.terminator d hterminator
  have hsource : statement.source = statement.text ++ d := by
    rw [Statement.source, hterminator, Option.getD_some]
  have hstart : trimStart statement.text = statement.text := by
    rw [← h.wellFormed.text_trim, trimStart_trim]
  have hquery : trim statement.source = statement.source := by
    rw [hsource, trim_append_solid hsolid, hstart]
  have hne : statement.source ≠ [] := by simp [hsource, hsolid.1]
  have hends : d.isSuffixOf statement.source = true := by
    rw [hsource, List.isSuffixOf_iff_suffix]
    exact List.suffix_append _ _
  have hstrip : Delimiter.strip d statement.source = statement.text := by
    have hstripped := Delimiter.strip_append hsolid allBlank_nil statement.text
    rwa [List.append_nil, ← hsource, h.wellFormed.text_trim] at hstripped
  have hbehind : statement.behind d = d := if_neg hkind
  simp only [ofEntriesFrom, Statement.entry, hquery, List.isEmpty_iff, if_neg hne,
    h.undirected hkind, hends, Bool.not_true, Bool.and_false, Bool.false_eq_true, if_false, hstrip,
    hbehind]

end Cons

private theorem bare_task {statement : Statement} (hkind : statement.kind ≠ .directive)
    (hterminated : statement.isTerminated = true) :
    statement.task.bare = .check statement.text [] statement.line := by
  have hopen : statement.isOpenRoutine = false := by
    rw [Statement.isOpenRoutine, hterminated, Bool.not_true, Bool.and_false]
  rw [Statement.task, if_neg hkind, hopen, if_neg Bool.false_ne_true, Task.bare]

/-- Entries do what the statements do that they are made from, as long as the delimiter in force is
the same. -/
theorem alike_ofEntriesFrom {delimiter : Text} {statements : List Statement}
    (hended : EndedInForce delimiter statements)
    (henterable : ∀ statement ∈ statements, Enterable statement) :
    Alike (ofEntriesFrom delimiter none (statements.map Statement.entry))
      (statements.map Statement.task) := by
  induction statements generalizing delimiter with
  | nil => rfl
  | cons statement rest ih =>
      obtain ⟨hhere, hlater⟩ := hended
      obtain ⟨hfirst, hrest⟩ := List.forall_mem_cons.1 henterable
      have htail := ih hlater hrest
      unfold Alike at htail ⊢
      rw [List.map_cons, List.map_cons, List.map_cons]
      by_cases hkind : statement.kind = .directive
      · rw [ofEntriesFrom_directive hfirst _ hkind, List.map_cons, htail]
      · rw [ofEntriesFrom_terminated hfirst _ hkind hhere, List.map_cons, htail,
          bare_task hkind (hfirst.terminated hkind), Task.bare]

/-- A script is judged the same if each of its statements is entered on its own: the validator is
called on the same texts in the same order, and what it says of each is said of the same lines. -/
theorem entered_statements_judged_alike {script : Text}
    (hterminated : ∀ statement ∈ split script, statement.kind ≠ .directive →
      statement.isTerminated = true)
    (hunfolded : Scanner.Unfolded script)
    (hundirected : ∀ statement ∈ split script, statement.kind ≠ .directive →
      Delimiter.directive? statement.source = none) :
    calls (ofEntries ((split script).map Statement.entry)) = calls (ofStatements (split script)) ∧
      (∀ validate : Validator,
        (verdicts validate (ofEntries ((split script).map Statement.entry))).map
            Verdict.judgement =
          (verdicts validate (ofStatements (split script))).map Verdict.judgement) ∧
      ∀ {m : Type → Type} [Monad m] [LawfulMonad m] (validate : Text → m Outcome),
        List.map Verdict.judgement <$>
            (ofEntries ((split script).map Statement.entry)).mapM (Task.run validate) =
          List.map Verdict.judgement <$>
            (ofStatements (split script)).mapM (Task.run validate) := by
  have halike : Alike (ofEntries ((split script).map Statement.entry))
      (ofStatements (split script)) := by
    rw [ofStatements_eq, inked_split, deferred_split]
    exact alike_ofEntriesFrom (Scanner.split_endedInForce hunfolded) fun statement hmem =>
      ⟨wellFormed_of_mem_split hmem, hterminated statement hmem, hundirected statement hmem⟩
  exact ⟨halike.calls_eq, halike.judgements_eq, halike.judgements_run_eq⟩

def changingDelimiters : Text :=
  "SELECT 1
;
DELIMITER //
CREATE PROCEDURE p() BEGIN
SELECT 2;
END//
DELIMITER ;
SELECT 3;".toList

theorem changingDelimiters_judged_alike :
    calls (ofEntries ((split changingDelimiters).map Statement.entry)) =
        ["SELECT 1".toList, "CREATE PROCEDURE p() BEGIN\nSELECT 2;\nEND".toList,
          "SELECT 3".toList] ∧
      (verdicts breaksOnce (ofEntries ((split changingDelimiters).map Statement.entry))).map
          Verdict.judgement =
        [(1, false, some "Unexpected error: validator panicked".toList), (3, true, none),
          (4, true, none), (7, true, none), (8, true, none)] ∧
      List.map Verdict.judgement <$>
          (ofEntries ((split changingDelimiters).map Statement.entry)).mapM
            (Task.run (noting breaksOnce)) =
        List.map Verdict.judgement <$>
          (ofStatements (split changingDelimiters)).mapM (Task.run (noting breaksOnce)) := by
  have hterminated : ∀ statement ∈ split changingDelimiters, statement.kind ≠ .directive →
      statement.isTerminated = true := by decide +kernel
  obtain ⟨hcalls, hverdicts, hruns⟩ :=
    entered_statements_judged_alike hterminated (by decide +kernel) (by decide +kernel)
  rw [hcalls, hverdicts]
  exact ⟨by decide +kernel, by decide +kernel, hruns _⟩

end Plan
end SqlBatch
