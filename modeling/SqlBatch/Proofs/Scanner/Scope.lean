import SqlBatch.Proofs.Scanner.Parallel
import SqlBatch.Proofs.Scanner.RoundTrip
import SqlBatch.Proofs.Scanner.WellFormed
/-!
# The scope of delimiters

A delimiter is in force from the line behind its `DELIMITER` line up to the next such line
(`delimiter_eq_lastSet`).  Where all `DELIMITER` lines stand outside of routines, the directives
among the statements tell as much (`split_endedInForce`).

A statement ends by the delimiter in force on its last line, or by a directive behind it, or by the
end of the script (`statement_ended`).
-/

namespace SqlBatch

open Text

def Statement.behind (delimiter : Text) (statement : Statement) : Text :=
  if statement.kind = .directive then (Delimiter.directive? statement.text).getD delimiter
  else delimiter

/-- The delimiter that ends a statement is the one in force there, if `delimiter` is in force before
the first. -/
def EndedInForce (delimiter : Text) : List Statement → Prop
  | [] => True
  | statement :: rest =>
    (∀ d ∈ statement.terminator, d = delimiter) ∧ EndedInForce (statement.behind delimiter) rest

theorem endedInForce_append (delimiter : Text) (first second : List Statement) :
    EndedInForce delimiter (first ++ second) ↔
      EndedInForce delimiter first ∧
        EndedInForce (first.foldl Statement.behind delimiter) second := by
  induction first generalizing delimiter with
  | nil => simp [EndedInForce]
  | cons statement rest ih => simp [EndedInForce, ih, and_assoc]

namespace Scanner

/-! ## The directives among the statements -/

/-- No `DELIMITER` line of the script stands within a routine. -/
def Unfolded (script : Text) : Prop :=
  ∀ k < (lines script).length,
    ((after (lines script) k).sets? (lineAt (lines script) (k + 1))).isSome = true →
      (after (lines script) k).inRoutine = false

instance (script : Text) : Decidable (Unfolded script) := Nat.decidableBallLT _ _

/-- The delimiters of the statements in the queue are those that its directives put in force, and so
is the delimiter in force behind them. -/
structure InForce (delimiter : Text) (queued : List Statement) : Prop where
  ended : EndedInForce Delimiter.initial queued
  delimiter : queued.foldl Statement.behind Delimiter.initial = delimiter

namespace InForce

variable {delimiter : Text} {queued : List Statement} (h : InForce delimiter queued)

include h

theorem append {statement : Statement} (hended : ∀ d ∈ statement.terminator, d = delimiter) :
    InForce (statement.behind delimiter) (queued ++ [statement]) where
  ended := by
    rw [endedInForce_append, h.delimiter]
    exact ⟨h.ended, hended, trivial⟩
  delimiter := by
    rw [List.foldl_append, h.delimiter]
    rfl

theorem append_underWay (t : Scanner) {terminated : Bool}
    (hended : terminated = true → t.delimiter = delimiter) :
    InForce delimiter (queued ++ unlessEmpty (t.underWay terminated)) := by
  have hkind : (t.underWay terminated).kind ≠ .directive := by
    cases hroutine : t.inRoutine <;> simp [underWay, hroutine]
  have hbehind : (t.underWay terminated).behind delimiter = delimiter := if_neg hkind
  by_cases htext : (t.underWay terminated).text = []
  · rwa [unlessEmpty_of_nil htext, List.append_nil]
  · rw [unlessEmpty_of_ne_nil htext]
    have happend : InForce ((t.underWay terminated).behind delimiter)
        (queued ++ [t.underWay terminated]) := by
      apply h.append
      cases terminated with
      | true => simpa [underWay] using hended rfl
      | false => simp [underWay]
    rwa [hbehind] at happend

end InForce

theorem InForce.feed {s : Scanner} {lines : List Text} (h : InForce s.delimiter s.ready)
    (hcarries : s.Carries lines) {raw : Text}
    (hunfolded : (s.sets? raw).isSome = true → s.inRoutine = false) :
    InForce (s.feed raw).delimiter (s.feed raw).ready := by
  cases hending : s.mode.ending raw with
  | «open» =>
      have hreading := reading_ne_directive_of_open hunfolded hending
      rw [feed_of_open hending, hold_ready, hold_delimiter_of_reading hreading]
      exact h
  | closing =>
      rw [ready_of_closing hending, hcarries.delimiter_of_closing hending]
      exact h.append_underWay _ fun _ => hold_delimiter_of_closing hcarries.delimiter hending
  | directive token =>
      have hreading := (Mode.reading_of_ending_directive hending).1
      have hdelimiter : (s.feed raw).delimiter = token := by rw [feed_of_directive hending]
      have hbehind : (s.directiveOn raw).behind s.delimiter = token := by
        have htoken : Delimiter.directive? (trim raw) = some token := by
          rw [Delimiter.directive?_trim, directive?_of_reading hreading]
        simp [Statement.behind, directiveOn, htoken]
      have hflushed : InForce s.delimiter (s.ready ++ unlessEmpty (s.underWay false)) :=
        h.append_underWay s (by simp)
      rw [hdelimiter, hcarries.ready_of_directive hending, ← hbehind]
      exact hflushed.append (by simp [directiveOn])

theorem inForce_after {script : Text} (hunfolded : Unfolded script) {k : Nat}
    (hk : k ≤ (lines script).length) :
    InForce (after (lines script) k).delimiter (after (lines script) k).ready := by
  induction k with
  | zero => exact ⟨trivial, rfl⟩
  | succ k ih =>
      obtain ⟨carried, hcarries⟩ := (Reachable.feedAll .fresh _).exists_carries
      rw [after_succ hk]
      exact (ih (Nat.le_of_lt hk)).feed hcarries (hunfolded k hk)

/-- Where no `DELIMITER` line stands within a routine, the directives among the statements of a
script tell the delimiter that ends each of the others. -/
theorem split_endedInForce {script : Text} (hunfolded : Unfolded script) :
    EndedInForce Delimiter.initial (split script) := by
  rw [split_eq_after, ready_finish]
  exact ((inForce_after hunfolded (Nat.le_refl _)).append_underWay _ (by simp)).ended

/-- The last directive among the statements sets `d`, and `d` is what a script begins with if there
is none. -/
def LastSets (front : List Statement) (d : Text) : Prop :=
  match front.reverse.find? (·.kind = .directive) with
  | some directive => Delimiter.directive? directive.text = some d
  | none => d = Delimiter.initial

theorem lastSets_foldl {front : List Statement} (h : ∀ statement ∈ front, statement.WellFormed) :
    LastSets front (front.foldl Statement.behind Delimiter.initial) := by
  unfold LastSets
  induction front using List.reverseRecOn with
  | nil => rfl
  | append_singleton front last ih =>
      obtain ⟨hfront, hlast⟩ := List.forall_mem_append.1 h
      have hbehind : (front ++ [last]).foldl Statement.behind Delimiter.initial =
          last.behind (front.foldl Statement.behind Delimiter.initial) := List.foldl_append
      rw [hbehind, List.reverse_append, List.reverse_singleton, List.singleton_append,
        List.find?_cons, Statement.behind]
      by_cases hkind : last.kind = .directive
      · obtain ⟨-, token, htoken⟩ := (hlast last (by simp)).directive hkind
        simp [hkind, htoken]
      · simpa [hkind] using ih hfront

/-! ## The `DELIMITER` lines of the script -/

def lastSet (lines : List Text) (k : Nat) : Text :=
  ((List.range k).filterMap fun i => (after lines i).sets? (lineAt lines (i + 1))).getLast?.getD
    Delimiter.initial

theorem lastSet_succ (lines : List Text) (k : Nat) :
    lastSet lines (k + 1) =
      ((after lines k).sets? (lineAt lines (k + 1))).getD (lastSet lines k) := by
  rw [lastSet, List.range_succ, List.filterMap_append, List.getLast?_append]
  cases hsets : (after lines k).sets? (lineAt lines (k + 1)) <;> simp [hsets, lastSet]

theorem sets?_of_closing {s : Scanner} {raw : Text} (h : s.mode.ending raw = .closing) :
    s.sets? raw = none := by
  have hmode : s.mode.inBlockComment = s.inBlockComment := rfl
  unfold sets?
  cases hreading : reading s.inBlockComment raw with
  | directive token =>
      rw [Mode.ending, hmode, hreading] at h
      cases hroutine : s.mode.inRoutine <;> simp [hroutine] at h
  | _ => rfl

/-- A `DELIMITER` line sets the delimiter wherever it stands, and no other line does. -/
theorem Carries.delimiter_feed {s : Scanner} {lines : List Text} (h : s.Carries lines)
    (raw : Text) : (s.feed raw).delimiter = (s.sets? raw).getD s.delimiter := by
  cases hending : s.mode.ending raw with
  | «open» =>
      rw [feed_of_open hending]
      cases hreading : reading s.inBlockComment raw with
      | directive token =>
          rw [sets?_of_reading hreading, Scanner.hold, hreading]
          rfl
      | _ => rw [hold_delimiter_of_reading (by simp [hreading]), sets?, hreading, Option.getD_none]
  | closing => rw [h.delimiter_of_closing hending, sets?_of_closing hending, Option.getD_none]
  | directive token =>
      rw [sets?_of_reading (Mode.reading_of_ending_directive hending).1, feed_of_directive hending,
        Option.getD_some]

/-- The delimiter in force is the one that the last `DELIMITER` line has set. -/
theorem delimiter_eq_lastSet {lines : List Text} {k : Nat} (hk : k ≤ lines.length) :
    (after lines k).delimiter = lastSet lines k := by
  induction k with
  | zero => rfl
  | succ k ih =>
      obtain ⟨carried, hcarries⟩ : ∃ carried, (after lines k).Carries carried :=
        (Reachable.feedAll .fresh _).exists_carries
      rw [after_succ hk, hcarries.delimiter_feed, ih (Nat.le_of_lt hk), lastSet_succ]

/-! ## Statements without a terminator -/

/-- Right behind each ordinary statement without a terminator a directive stands. -/
def CutOff : List Statement → Prop
  | [] => True
  | statement :: rest =>
    (statement.kind = .ordinary → statement.terminator = none →
      ∃ next ∈ rest.head?, next.kind = .directive) ∧ CutOff rest

theorem CutOff.append {front back : List Statement} (hfront : CutOff front) (hback : CutOff back) :
    CutOff (front ++ back) := by
  induction front with
  | nil => exact hback
  | cons statement rest ih =>
      refine ⟨fun hkind hopen => ?_, ih hfront.2⟩
      obtain ⟨next, hnext, hdirective⟩ := hfront.1 hkind hopen
      exact ⟨next, List.mem_head?_append_of_mem_head? hnext, hdirective⟩

theorem CutOff.behind {front back : List Statement} (h : CutOff (front ++ back)) : CutOff back := by
  induction front with
  | nil => exact h
  | cons statement rest ih => exact ih h.2

private theorem cutOff_unlessEmpty {statement : Statement} (h : statement.terminator ≠ none) :
    CutOff (unlessEmpty statement) := by
  by_cases htext : statement.text = []
  · rw [unlessEmpty_of_nil htext]
    trivial
  · rw [unlessEmpty_of_ne_nil htext]
    exact ⟨fun _ hopen => absurd hopen h, trivial⟩

private theorem cutOff_queuedOn {s : Scanner} (raw : Text) : CutOff (s.queuedOn raw) := by
  unfold queuedOn
  cases hending : s.mode.ending raw with
  | «open» => trivial
  | closing => exact cutOff_unlessEmpty (by simp [underWay])
  | directive token =>
      have hreading := (Mode.reading_of_ending_directive hending).1
      have hself : unlessEmpty (s.directiveOn raw) = [s.directiveOn raw] :=
        unlessEmpty_of_ne_nil (mt trim_eq_nil.1 (not_allBlank_of_reading_directive hreading))
      have hdirective : CutOff [s.directiveOn raw] := ⟨by simp [directiveOn], trivial⟩
      rw [hself]
      by_cases htext : (s.counted.underWay false).text = []
      · rwa [unlessEmpty_of_nil htext]
      · rw [unlessEmpty_of_ne_nil htext]
        exact ⟨fun _ _ => ⟨s.directiveOn raw, rfl, rfl⟩, hdirective⟩

theorem cutOff_after {lines : List Text} {k : Nat} (hk : k ≤ lines.length) :
    CutOff (after lines k).ready := by
  induction k with
  | zero => trivial
  | succ k ih =>
      rw [after_succ hk, ready_feed]
      exact (ih (Nat.le_of_lt hk)).append (cutOff_queuedOn _)

/-! ## Each statement -/

/-- A statement stands in what has been queued before or in what is added. -/
theorem added_or_queued {queued added front back : List Statement} {statement : Statement}
    (h : queued ++ added = front ++ statement :: back) :
    (∃ middle, front = queued ++ middle ∧ added = middle ++ statement :: back) ∨
      ∃ rest, queued = front ++ statement :: rest ∧ back = rest ++ added := by
  rcases List.append_eq_append_iff.1 h with hadded | ⟨rest, hqueued, hback⟩
  · exact .inl hadded
  · cases rest with
    | nil => exact .inl ⟨[], by simpa using hqueued.symm, hback.symm⟩
    | cons other rest =>
        obtain ⟨rfl, hrest⟩ := List.cons.inj hback
        exact .inr ⟨rest, hqueued, hrest⟩

theorem eq_of_unlessEmpty {statement other : Statement} {middle back : List Statement}
    (h : unlessEmpty other = middle ++ statement :: back) :
    middle = [] ∧ statement = other ∧ back = [] := by
  by_cases htext : other.text = []
  · simp [unlessEmpty_of_nil htext] at h
  · rw [unlessEmpty_of_ne_nil htext] at h
    cases middle with
    | nil => simpa [eq_comm] using h
    | cons _ _ => simp at h

/-- A statement with a terminator is all that its last line queues, and that line ends with the
delimiter in force. -/
theorem Carries.terminated_of_queuedOn {s : Scanner} {lines : List Text} (h : s.Carries lines)
    {raw : Text} {middle back : List Statement} {statement : Statement}
    (hadded : s.queuedOn raw = middle ++ statement :: back) {d : Text}
    (hd : statement.terminator = some d) :
    middle = [] ∧ back = [] ∧ d <:+ trimEnd raw ∧ s.delimiter = d := by
  unfold queuedOn at hadded
  cases hending : s.mode.ending raw with
  | «open» => simp [hending] at hadded
  | closing =>
      rw [hending] at hadded
      obtain ⟨rfl, rfl, rfl⟩ := eq_of_unlessEmpty hadded
      obtain rfl : s.delimiter = d := by
        rw [← hold_delimiter_of_closing h.delimiter hending]
        simpa [underWay] using hd
      exact ⟨rfl, rfl, Mode.delimiter_isSuffix_of_closing h.delimiter hending, rfl⟩
  | directive token =>
      -- neither what is flushed nor the directive has a terminator
      have hmem : statement ∈ middle ++ statement :: back := by simp
      rw [← hadded, hending] at hmem
      simp only [List.mem_append, mem_unlessEmpty] at hmem
      rcases hmem with ⟨rfl, -⟩ | ⟨rfl, -⟩ <;> simp [underWay, directiveOn] at hd

private theorem exists_last_line {lines : List Text} {k : Nat} (hk : k ≤ lines.length)
    {front back : List Statement} {statement : Statement}
    (h : (after lines k).ready = front ++ statement :: back) {d : Text}
    (hd : statement.terminator = some d) :
    ∃ j < k, (after lines j).ready = front ∧ (after lines (j + 1)).ready = front ++ [statement] ∧
      d <:+ trimEnd (lineAt lines (j + 1)) ∧ (after lines j).delimiter = d := by
  induction k generalizing back with
  | zero => exact absurd h (by simp [after, feedAll])
  | succ k ih =>
      have hready := ready_feed (after lines k) (lineAt lines (k + 1))
      rw [← after_succ hk] at hready
      rcases added_or_queued (hready.symm.trans h) with
        ⟨middle, hfront, hadded⟩ | ⟨rest, hqueued, -⟩
      · obtain ⟨carried, hcarries⟩ : ∃ carried, (after lines k).Carries carried :=
          (Reachable.feedAll .fresh _).exists_carries
        obtain ⟨rfl, rfl, hsuffix, hdelimiter⟩ := hcarries.terminated_of_queuedOn hadded hd
        rw [List.append_nil] at hfront
        exact ⟨k, Nat.lt_succ_self k, hfront.symm, h, hsuffix, hdelimiter⟩
      · obtain ⟨j, hj, hbefore⟩ := ih (Nat.le_of_lt hk) hqueued
        exact ⟨j, Nat.lt_succ_of_lt hj, hbefore⟩

section Split

variable {script : Text} {front back : List Statement} {statement : Statement}
  (h : split script = front ++ statement :: back)

include h

theorem eq_nil_of_isOpenRoutine (hopen : statement.isOpenRoutine = true) : back = [] := by
  rcases List.eq_nil_or_concat' back with hback | ⟨rest, last, rfl⟩
  · exact hback
  · have hlast : split script = (front ++ statement :: rest) ++ [last] := by simpa using h
    have hmem : statement ∈ (split script).dropLast := by
      rw [hlast, List.dropLast_concat]
      simp
    rw [isOpenRoutine_of_mem_dropLast hmem] at hopen
    contradiction

theorem directive_of_unterminated (hkind : statement.kind = .ordinary)
    (hopen : statement.terminator = none) : ∀ next ∈ back.head?, next.kind = .directive := by
  intro next hnext
  rw [split_eq_after, ready_finish] at h
  rcases added_or_queued h with ⟨middle, -, hlast⟩ | ⟨rest, hqueued, rfl⟩
  · obtain ⟨-, -, rfl⟩ := eq_of_unlessEmpty hlast
    simp at hnext
  · have hcut := cutOff_after (Nat.le_refl (lines script).length)
    rw [hqueued] at hcut
    obtain ⟨other, hother, hdirective⟩ := hcut.behind.1 hkind hopen
    obtain rfl := Option.mem_unique hnext (List.mem_head?_append_of_mem_head? hother)
    exact hdirective

theorem exists_last_line_of_split {d : Text} (hd : statement.terminator = some d) :
    ∃ k < (lines script).length, (after (lines script) k).ready = front ∧
      (after (lines script) (k + 1)).ready = front ++ [statement] ∧
      d <:+ trimEnd (lineAt (lines script) (k + 1)) ∧ (after (lines script) k).delimiter = d := by
  rw [split_eq_after, ready_finish] at h
  rcases added_or_queued h with ⟨middle, -, hlast⟩ | ⟨rest, hqueued, -⟩
  · obtain ⟨-, rfl, -⟩ := eq_of_unlessEmpty hlast
    simp [underWay] at hd
  · exact exists_last_line (Nat.le_refl (lines script).length) hqueued hd

/-- A routine without a terminator is the last statement of its script, another statement without
one is the last or stands before a directive, and a terminator is the delimiter that was last set
before the line that ends in it. -/
theorem statement_ended :
    (statement.kind = .routine → statement.terminator = none → back = []) ∧
      (statement.kind = .ordinary → statement.terminator = none →
        ∀ next ∈ back.head?, next.kind = .directive) ∧
      ∀ d, statement.terminator = some d →
        (∃ k < (lines script).length, (after (lines script) k).ready = front ∧
          (after (lines script) (k + 1)).ready = front ++ [statement] ∧
          d <:+ trimEnd (lineAt (lines script) (k + 1)) ∧ lastSet (lines script) k = d) ∧
        (Unfolded script → LastSets front d) := by
  refine ⟨fun hkind hopen => ?_, directive_of_unterminated h, fun d hd => ?_⟩
  · apply eq_nil_of_isOpenRoutine h
    simp [Statement.isOpenRoutine, Statement.isTerminated, hkind, hopen]
  · obtain ⟨k, hk, hfront, hready, hsuffix, hdelimiter⟩ := exists_last_line_of_split h hd
    refine ⟨⟨k, hk, hfront, hready, hsuffix, ?_⟩, fun hunfolded => ?_⟩
    · rw [← delimiter_eq_lastSet (Nat.le_of_lt hk), hdelimiter]
    · have hforce := inForce_after hunfolded (Nat.le_of_lt hk)
      rw [hfront, hdelimiter] at hforce
      have hwell : ∀ other ∈ front, other.WellFormed := by
        intro other hother
        have hmem : other ∈ split script := by
          rw [h]
          exact List.mem_append_left _ hother
        exact wellFormed_of_mem_split hmem
      rw [← hforce.delimiter]
      exact lastSets_foldl hwell

end Split

def cutOffByDirective : Text := "SELECT 1;\nSELECT 2\nDELIMITER //\nSELECT 3 -- ;\n//".toList

def foldedDirective : Text :=
  "CREATE PROCEDURE p() BEGIN\nDELIMITER //\nEND//\nSELECT 2//".toList

theorem directives_end_statements :
    (∀ next ∈ (split cutOffByDirective)[2]?, next.kind = .directive) ∧
      LastSets ((split cutOffByDirective).take 3) "//".toList ∧
      ¬ Unfolded foldedDirective ∧
      ∃ k < 4, (after (lines foldedDirective) k).ready = [] ∧
        (after (lines foldedDirective) (k + 1)).ready.length = 1 ∧
        lastSet (lines foldedDirective) k = "//".toList := by
  have hcut : split cutOffByDirective =
      [⟨"SELECT 1".toList, 1, .ordinary, some [';']⟩] ++
        ⟨"SELECT 2".toList, 2, .ordinary, none⟩ ::
          [⟨"DELIMITER //".toList, 3, .directive, none⟩,
            ⟨"SELECT 3 -- ;".toList, 4, .ordinary, some "//".toList⟩] := by decide +kernel
  have hbehind : split cutOffByDirective =
      [⟨"SELECT 1".toList, 1, .ordinary, some [';']⟩,
        ⟨"SELECT 2".toList, 2, .ordinary, none⟩,
        ⟨"DELIMITER //".toList, 3, .directive, none⟩] ++
          ⟨"SELECT 3 -- ;".toList, 4, .ordinary, some "//".toList⟩ :: [] := by decide +kernel
  have hfolded : split foldedDirective =
      [] ++ ⟨"CREATE PROCEDURE p() BEGIN\nDELIMITER //\nEND".toList, 1, .routine,
          some "//".toList⟩ ::
        [⟨"SELECT 2".toList, 4, .ordinary, some "//".toList⟩] := by decide +kernel
  obtain ⟨-, hnext, -⟩ := statement_ended hcut
  obtain ⟨-, -, hsets⟩ := statement_ended hbehind
  obtain ⟨-, -, hends⟩ := statement_ended hfolded
  obtain ⟨⟨k, hk, hfront, hready, -, hlast⟩, -⟩ := hends _ rfl
  have hlength : (lines foldedDirective).length = 4 := by decide +kernel
  refine ⟨?_, ?_, by decide +kernel, k, hlength ▸ hk, hfront, by rw [hready]; rfl, hlast⟩
  · rw [hcut]
    exact hnext rfl rfl
  · rw [hbehind]
    exact (hsets _ rfl).2 (by decide +kernel)

end Scanner
end SqlBatch
