import SqlBatch.Proofs.Routine.Balance
import SqlBatch.Proofs.Scanner.Nesting
import SqlBatch.Proofs.Scanner.Scope
/-!
# Blocks that the scanner closes

The scanner ends a routine only where no block of it is open.  The check of the routine counts the
blocks anew, over the text that the scanner has made of the lines.  The two counts agree if the first
code of the text is the routine header, so a routine that has ended is not missing an `END`
(`missingEnd_unreported`).
-/

namespace SqlBatch.Scanner

open Text

/-! ## The first line of code -/

def lead? (lines : List Text) : Option Text := lines.find? fun line => decide (Coded line)

/-- A routine header stands on the first line with code, if there is such a line. -/
def Leads (lines : List Text) : Prop := ∀ line ∈ lead? lines, Routine.starts line = true

private theorem coded_trim {line : Text} : Coded (trim line) ↔ Coded line := by
  rw [Coded, Coded, allBlank_trim, Comment.isLineComment_trim]

theorem lead?_append (front back : List Text) :
    lead? (front ++ back) = (lead? front).or (lead? back) := List.find?_append

theorem lead?_append_coded (lines : List Text) {raw : Text} (h : Coded raw) :
    lead? (lines ++ [raw]) = (lead? lines).or (some raw) := by
  rw [lead?_append]
  simp [lead?, h]

private theorem lead?_append_not_coded (lines : List Text) {raw : Text} (h : ¬ Coded raw) :
    lead? (lines ++ [raw]) = lead? lines := by
  rw [lead?_append]
  simp [lead?, h]

theorem Leads.front {front back : List Text} (h : Leads (front ++ back)) : Leads front := by
  intro line hline
  apply h
  rw [lead?_append, Option.mem_def.1 hline]
  rfl

theorem lead?_rowOf (line : Text) :
    lead? (rowOf line) = if Coded line then some (trim line) else none := by
  by_cases hblank : trim line = []
  · have hcoded : ¬ Coded line := fun hcoded => hcoded.1 (trim_eq_nil.1 hblank)
    rw [rowOf, if_pos hblank, if_neg hcoded]
    rfl
  · rw [rowOf, if_neg hblank]
    by_cases hcoded : Coded line <;> simp [lead?, coded_trim, hcoded]

theorem lead?_flatMap_rowOf (lines : List Text) :
    lead? (lines.flatMap rowOf) = (lead? lines).map trim := by
  induction lines with
  | nil => rfl
  | cons line lines ih =>
      rw [List.flatMap_cons, lead?_append, ih, lead?_rowOf]
      by_cases hcoded : Coded line <;> simp [lead?, hcoded]

theorem leads_flatMap_rowOf {lines : List Text} : Leads (lines.flatMap rowOf) ↔ Leads lines := by
  rw [Leads, lead?_flatMap_rowOf]
  simp [Leads]

/-! ## The blocks of a text -/

/-- A delimiter without words opens and closes nothing. -/
theorem depthBehind_of_delimited {raw v d : Text} (hcoded : Coded raw) (hv : trimEnd raw = v ++ d)
    (hd : Wordless d) (depth : Nat) : depthBehind depth v = depthBehind depth raw := by
  have hbalance : Routine.balance raw = Routine.balance v := by
    rw [← Routine.balance_trim raw, ← trim_trimEnd, hv, Routine.balance_trim,
      Routine.balance_append hd]
  have hplain : Comment.isLineComment v = false := by
    by_contra hcomment
    rw [Bool.not_eq_false] at hcomment
    have hwhole := Comment.isLineComment_of_isPrefix (List.prefix_append v d) hcomment
    rw [← hv, ← Comment.isLineComment_trim, trim_trimEnd, Comment.isLineComment_trim,
      hcoded.2] at hwhole
    contradiction
  rw [depthBehind, depthBehind, if_pos hcoded, Routine.balance_trim, Routine.balance_trim, hbalance]
  by_cases hblank : AllBlank v
  · rw [if_neg fun hv => hv.1 hblank, Routine.balance_wordless hblank.wordless]
    rfl
  · rw [if_pos ⟨hblank, hplain⟩]

/-- The check counts the blocks on a line as the scanner does within a routine. -/
private theorem read_depth {t : Routine.Tally} (hout : t.inComment = false) {line : Text}
    (hopen : includes Comment.blockOpen line = false) :
    (t.read line).inComment = false ∧ (t.read line).depth = depthBehind t.depth line := by
  rw [Routine.Tally.read_of_unopened hout hopen, depthBehind, Routine.balance_trim]
  by_cases hcomment : Comment.isLineComment line = true
  · have hcoded : ¬ Coded line := fun hcoded => by simp [hcoded.2] at hcomment
    rw [if_pos hcomment, if_neg hcoded]
    exact ⟨hout, rfl⟩
  · rw [if_neg hcomment]
    by_cases hblank : AllBlank line
    · have hcoded : ¬ Coded line := fun hcoded => hcoded.1 hblank
      simp [hcoded, Routine.balance_wordless hblank.wordless]
    · have hcoded : Coded line := ⟨hblank, Bool.eq_false_iff.2 hcomment⟩
      simp [hcoded]

private theorem foldl_read_depth {lines : List Text}
    (hopen : ∀ line ∈ lines, includes Comment.blockOpen line = false) {t : Routine.Tally}
    (hout : t.inComment = false) :
    (lines.foldl Routine.Tally.read t).depth = lines.foldl depthBehind t.depth := by
  induction lines generalizing t with
  | nil => rfl
  | cons line lines ih =>
      obtain ⟨hline, hlines⟩ := List.forall_mem_cons.1 hopen
      obtain ⟨hnext, hdepth⟩ := read_depth hout hline
      rw [List.foldl_cons, List.foldl_cons, ih hlines hnext, hdepth]

theorem tally_depth {text : Text} {group : List Text} (hrows : rows text = group.flatMap rowOf)
    (hopen : ∀ line ∈ group, includes Comment.blockOpen line = false) :
    (Routine.tally text).depth = openBlocks group := by
  rw [Routine.tally_eq_foldl_rows, hrows, List.foldl_flatMap]
  simp only [Routine.foldl_rowOf]
  exact foldl_read_depth hopen rfl

theorem rows_trim_passage {group : List Text} (hfeed : ∀ line ∈ group, '\n' ∉ line) :
    rows (trim (passage group)) = group.flatMap rowOf := by
  rw [← rows_block hfeed, ← trim_block]
  obtain ⟨v, w, hv, hw, hblock⟩ := exists_eq_append_trim_append (block group)
  conv_rhs => rw [hblock, rows_append_blank hw, rows_blank_append hv]

/-! ## The scanner behind a line -/

/-- There are no comments around the lines under way, and if they begin with a routine header, then
the scanner counts their blocks from there on. -/
structure Nests (s : Scanner) (carried : List Text) : Prop where
  carries : s.Carries carried
  feed : ∀ line ∈ carried, '\n' ∉ line
  unopened : ∀ line ∈ carried, includes Comment.blockOpen line = false
  out : s.inBlockComment = false
  wordless : Wordless s.delimiter
  blocks : Leads carried → s.inRoutine = (lead? carried).isSome ∧ s.depth = openBlocks carried

theorem Carries.nests {s : Scanner} (h : s.Carries []) (hwordless : Wordless s.delimiter) :
    Nests s [] where
  carries := h
  feed := by simp
  unopened := by simp
  out := h.inBlockComment_eq_false
  wordless := hwordless
  blocks := fun _ => ⟨h.inRoutine_eq_false, h.depth h.inRoutine_eq_false⟩

def Closed (statement : Statement) : Prop :=
  ∀ d, statement.terminator = some d → Solid d ∧ Wordless d ∧
    (statement.kind = .routine → Leads (rows statement.text) →
      (Routine.tally statement.text).depth = 0)

theorem closed_of_unterminated {statement : Statement} (h : statement.terminator = none) :
    Closed statement := by
  intro d hd
  rw [h] at hd
  contradiction

/-- Code that is no `DELIMITER` line to the scanner is none. -/
theorem plain_of_reading {raw : Text} (hopen : includes Comment.blockOpen raw = false)
    (hcoded : Coded raw) (hreading : ∀ token, reading false raw ≠ .directive token) :
    Plain raw := by
  refine ⟨hopen, ?_⟩
  rw [Option.eq_none_iff_forall_ne_some]
  intro token htoken
  apply hreading token
  rw [reading_of_plain hopen, if_neg hcoded.1, hcoded.2, if_neg Bool.false_ne_true, htoken]

/-- The line on which the scanner enters a routine has its header. -/
theorem Mode.starts_of_hold {m : Mode} {raw : Text}
    (hopen : includes Comment.blockOpen raw = false) (hout : m.inBlockComment = false)
    (hbefore : m.inRoutine = false) (hin : (m.hold raw).inRoutine = true) :
    Coded raw ∧ Routine.starts raw = true := by
  by_cases hcoded : Coded raw
  · refine ⟨hcoded, ?_⟩
    cases hdirective : Delimiter.directive? raw with
    | none =>
        rw [(hold_of_coded ⟨hopen, hdirective⟩ hout hcoded).1, track_of_plain hopen, hbefore,
          Bool.false_or] at hin
        split at hin
        · assumption
        · rw [hbefore] at hin
          contradiction
    | some token =>
        have hreading := reading_of_plain hopen
        rw [if_neg hcoded.1, hcoded.2, if_neg Bool.false_ne_true, hdirective] at hreading
        rw [hold, hout, hreading, hbefore] at hin
        contradiction
  · rw [(hold_of_not_coded hopen hout hcoded).1, hbefore] at hin
    contradiction

/-- The delimiter ends a routine only where no block is open. -/
theorem hold_depth_of_closing {s : Scanner} {raw : Text} (hdelimiter : Solid s.delimiter)
    (hclosing : s.mode.ending raw = .closing) (hin : (s.hold raw).inRoutine = true) :
    (s.hold raw).depth = 0 := by
  obtain ⟨-, -, -, -, hsurface⟩ := Mode.exists_code_of_closing hdelimiter hclosing
  have hmode : (s.mode.hold raw).inRoutine = true := by
    rw [← mode_hold]
    exact hin
  rw [Mode.atSurface, hmode, Bool.not_true, Bool.false_or, beq_iff_eq, ← mode_hold] at hsurface
  exact hsurface

namespace Nests

variable {s : Scanner} {carried : List Text} {raw : Text} (h : Nests s carried)
  (hfeed : '\n' ∉ raw) (hopen : includes Comment.blockOpen raw = false)

include h hopen

theorem hold_inBlockComment (hreading : ∀ token, reading s.inBlockComment raw ≠ .directive token) :
    (s.hold raw).inBlockComment = false := by
  show (s.hold raw).mode.inBlockComment = false
  rw [mode_hold]
  by_cases hcoded : Coded raw
  · rw [h.out] at hreading
    rw [(Mode.hold_of_coded (plain_of_reading hopen hcoded hreading) h.out hcoded).1,
      Mode.track_inBlockComment]
    exact h.out
  · rw [(Mode.hold_of_not_coded hopen h.out hcoded).1]
    exact h.out

theorem blocks_hold (hreading : ∀ token, reading s.inBlockComment raw ≠ .directive token)
    (hleads : Leads (carried ++ [raw])) :
    (s.hold raw).inRoutine = (lead? (carried ++ [raw])).isSome ∧
      (s.hold raw).depth = openBlocks (carried ++ [raw]) := by
  obtain ⟨hin, hdepth⟩ := h.blocks hleads.front
  have hmode := mode_hold s raw
  rw [openBlocks_append]
  by_cases hcoded : Coded raw
  · -- the header of the routine is on an earlier line, or it is on this one
    have hentered : s.mode.inRoutine = true ∨
        s.mode.depth = 0 ∧ Coded raw ∧ Routine.starts raw = true := by
      cases hlead : lead? carried with
      | some line =>
          rw [hlead] at hin
          exact .inl hin
      | none =>
          rw [hlead] at hin
          refine .inr ⟨h.carries.depth hin, hcoded, hleads raw ?_⟩
          rw [lead?_append_coded carried hcoded, hlead]
          rfl
    rw [h.out] at hreading
    rw [Mode.hold_of_plain (plain_of_reading hopen hcoded hreading) h.out hentered] at hmode
    rw [lead?_append_coded carried hcoded, ← hdepth]
    refine ⟨?_, congrArg Mode.depth hmode⟩
    rw [Option.isSome_or, Option.isSome_some, Bool.or_true]
    exact congrArg Mode.inRoutine hmode
  · rw [(Mode.hold_of_not_coded hopen h.out hcoded).1] at hmode
    rw [lead?_append_not_coded carried hcoded, depthBehind, if_neg hcoded, ← hin, ← hdepth]
    exact ⟨congrArg Mode.inRoutine hmode, congrArg Mode.depth hmode⟩

/-- If a routine is under way behind a line, then its header stands first, whether or not the line is
counted with all that is on it. -/
private theorem leads_of_hold (hcoded : Coded raw) {v : Text} (hleads : Leads (carried ++ [v]))
    (hin : (s.hold raw).inRoutine = true) : Leads (carried ++ [raw]) := by
  intro line hline
  rw [lead?_append_coded carried hcoded] at hline
  cases hlead : lead? carried with
  | some first =>
      rw [hlead] at hline
      obtain rfl : first = line := Option.some.inj hline
      exact hleads.front first hlead
  | none =>
      rw [hlead] at hline
      obtain rfl : raw = line := Option.some.inj hline
      obtain ⟨hbefore, -⟩ := h.blocks hleads.front
      rw [hlead] at hbefore
      have hmode : (s.mode.hold raw).inRoutine = true := by
        rw [← mode_hold]
        exact hin
      exact (Mode.starts_of_hold hopen h.out hbefore hmode).2

include hfeed

theorem hold (hreading : ∀ token, reading s.inBlockComment raw ≠ .directive token) :
    Nests (s.hold raw) (withLine carried raw) := by
  have hdelimiter := hold_delimiter_of_reading hreading
  by_cases hidle : carried = [] ∧ AllBlank raw
  · obtain ⟨rfl, hblank⟩ := hidle
    rw [withLine_nil_of_blank hblank]
    apply (h.carries.hold_blank hblank).nests
    rw [hdelimiter]
    exact h.wordless
  · have hwith : withLine carried raw = carried ++ [raw] := if_neg hidle
    rw [hwith]
    exact {
      carries := by
        rw [← hwith]
        exact h.carries.hold raw
      feed := List.forall_mem_append.2 ⟨h.feed, List.forall_mem_singleton.2 hfeed⟩
      unopened := List.forall_mem_append.2 ⟨h.unopened, List.forall_mem_singleton.2 hopen⟩
      out := h.hold_inBlockComment hopen hreading
      wordless := by
        rw [hdelimiter]
        exact h.wordless
      blocks := h.blocks_hold hopen hreading }

/-- The delimiter ends a statement only where no block is open. -/
theorem closed_of_closing (hclosing : s.mode.ending raw = .closing)
    (hne : ((s.hold raw).underWay true).text ≠ []) : Closed ((s.hold raw).underWay true) := by
  have hread := Mode.reads_code_of_closing hclosing h.out
  have hreading : ∀ token, reading s.inBlockComment raw ≠ .directive token := by
    rw [h.out, reading_eq_iff.2 hread]
    exact fun _ => nofun
  have hcoded : Coded raw := by
    cases hread with
    | code hink hplain => exact ⟨hink, hplain⟩
  obtain ⟨v, hv, htext⟩ := h.carries.text_of_closing hclosing
  obtain ⟨hpassage, -, hfeeds⟩ := h.carries.lines_of_closing h.feed hfeed hv htext hne
  have hrows : rows ((s.hold raw).underWay true).text = (carried ++ [v]).flatMap rowOf := by
    rw [hpassage, rows_trim_passage hfeeds]
  have hend : includes Comment.blockOpen v = false := by
    obtain ⟨w, -, hraw⟩ := exists_eq_trimEnd_append raw
    rw [hv, List.append_assoc] at hraw
    exact Comment.includes_blockOpen_of_isInfix ⟨[], s.delimiter ++ w, hraw.symm⟩ hopen
  intro d hd
  obtain rfl : s.delimiter = d := by
    rw [← hold_delimiter_of_closing h.carries.delimiter hclosing]
    exact Option.some.inj hd
  refine ⟨h.carries.delimiter, h.wordless, fun hkind hleads => ?_⟩
  have hin : (s.hold raw).inRoutine = true := by
    cases hroutine : (s.hold raw).inRoutine with
    | true => rfl
    | false => simp [underWay, hroutine] at hkind
  rw [hrows, leads_flatMap_rowOf] at hleads
  have hled := h.leads_of_hold hopen hcoded hleads hin
  calc (Routine.tally ((s.hold raw).underWay true).text).depth
      = openBlocks (carried ++ [v]) := by
        apply tally_depth hrows
        exact List.forall_mem_append.2 ⟨h.unopened, List.forall_mem_singleton.2 hend⟩
    _ = openBlocks (carried ++ [raw]) := by
        rw [openBlocks_append, openBlocks_append, depthBehind_of_delimited hcoded hv h.wordless]
    _ = (s.hold raw).depth := (h.blocks_hold hopen hreading hled).2.symm
    _ = 0 := hold_depth_of_closing h.carries.delimiter hclosing hin

end Nests

/-! ## A whole script -/

/-- There are no block comments in the script, no `DELIMITER` lines in its routines, and no words in
its delimiters. -/
structure Legible (script : Text) : Prop where
  unopened : includes Comment.blockOpen script = false
  unfolded : Unfolded script
  tokens : ∀ k < (lines script).length,
    ∀ token ∈ (after (lines script) k).sets? (lineAt (lines script) (k + 1)), Wordless token

theorem Nests.exists_feed {s : Scanner} {carried : List Text} (h : Nests s carried) {raw : Text}
    (hfeed : '\n' ∉ raw) (hopen : includes Comment.blockOpen raw = false)
    (hunfolded : (s.sets? raw).isSome = true → s.inRoutine = false)
    (htokens : ∀ token ∈ s.sets? raw, Wordless token)
    (hready : ∀ statement ∈ s.ready, Closed statement) :
    (∃ carried', Nests (s.feed raw) carried') ∧
      ∀ statement ∈ (s.feed raw).ready, Closed statement := by
  cases hending : s.mode.ending raw with
  | «open» =>
      rw [feed_of_open hending, hold_ready]
      exact ⟨⟨_, h.hold hfeed hopen (reading_ne_directive_of_open hunfolded hending)⟩, hready⟩
  | closing =>
      have hdelimiter := h.carries.delimiter_of_closing hending
      refine ⟨⟨[], (h.carries.of_closing hending).nests (by rw [hdelimiter]; exact h.wordless)⟩, ?_⟩
      rw [ready_of_closing hending, List.forall_mem_append]
      refine ⟨hready, fun statement hstatement => ?_⟩
      obtain ⟨rfl, hne⟩ := mem_unlessEmpty.1 hstatement
      exact h.closed_of_closing hfeed hopen hending hne
  | directive token =>
      have hreading := (Mode.reading_of_ending_directive hending).1
      have hdelimiter : (s.feed raw).delimiter = token := by rw [feed_of_directive hending]
      have htoken := htokens token (sets?_of_reading hreading)
      refine ⟨⟨[], (h.carries.of_directive hending).nests (by rw [hdelimiter]; exact htoken)⟩, ?_⟩
      rw [h.carries.ready_of_directive hending, List.forall_mem_append, List.forall_mem_append,
        List.forall_mem_singleton]
      refine ⟨⟨hready, fun statement hstatement => ?_⟩, closed_of_unterminated rfl⟩
      obtain ⟨rfl, -⟩ := mem_unlessEmpty.1 hstatement
      exact closed_of_unterminated rfl

section Script

variable {script : Text} (h : Legible script)

include h

theorem Legible.unopened_lineAt {k : Nat} (hk : k < (lines script).length) :
    includes Comment.blockOpen (lineAt (lines script) (k + 1)) = false :=
  Comment.includes_blockOpen_of_isInfix (isInfix_of_mem_lines (lineAt_mem hk)) h.unopened

theorem Legible.nests_after {k : Nat} (hk : k ≤ (lines script).length) :
    (∃ carried, Nests (after (lines script) k) carried) ∧
      ∀ statement ∈ (after (lines script) k).ready, Closed statement := by
  induction k with
  | zero => exact ⟨⟨[], carries_initial.nests (by decide)⟩, by simp [after, feedAll]⟩
  | succ k ih =>
      obtain ⟨⟨carried, hnests⟩, hready⟩ := ih (Nat.le_of_lt hk)
      rw [after_succ hk]
      exact hnests.exists_feed (lineFeed_notMem_of_mem_lines (lineAt_mem hk)) (h.unopened_lineAt hk)
        (h.unfolded k hk) (h.tokens k hk) hready

theorem Legible.closed_of_mem_split {statement : Statement} (hmem : statement ∈ split script) :
    Closed statement := by
  rw [split_eq_after, ready_finish] at hmem
  rcases List.mem_append.1 hmem with hearly | hlast
  · exact (h.nests_after (Nat.le_refl _)).2 statement hearly
  · obtain ⟨rfl, -⟩ := mem_unlessEmpty.1 hlast
    exact closed_of_unterminated rfl

end Script

/-! ## The routine header among the lines of a segment -/

theorem routineStart_after_le {lines : List Text} {k : Nat} (hk : k ≤ lines.length) :
    (after lines k).routineStart ≤ k := by
  induction k with
  | zero => exact Nat.le_refl _
  | succ k ih =>
      have hbefore := ih (Nat.le_of_lt hk)
      rw [after_succ hk, feed_routineStart, hold_routineStart, after_lineNumber (Nat.le_of_lt hk)]
      split <;> omega

theorem Legible.heads_of_entersRoutine {script : Text} (h : Legible script) {k : Nat}
    (hk : k < (lines script).length) (henters : EntersRoutine (lines script) (k + 1)) :
    Coded (lineAt (lines script) (k + 1)) ∧
      Routine.starts (lineAt (lines script) (k + 1)) = true := by
  obtain ⟨⟨carried, hnests⟩, -⟩ := h.nests_after (Nat.le_of_lt hk)
  obtain ⟨hbefore, hstart⟩ := henters
  have hle := routineStart_after_le (Nat.le_of_lt hk)
  rw [Nat.add_sub_cancel] at hbefore
  have hmode : (after (lines script) k).mode.inRoutine = false := hbefore
  apply Mode.starts_of_hold (h.unopened_lineAt hk) hnests.out hmode
  rw [← mode_hold]
  show ((after (lines script) k).hold (lineAt (lines script) (k + 1))).inRoutine = true
  by_contra hin
  rw [after_succ hk, feed_routineStart, hold_routineStart, Bool.eq_false_iff.2 hin, Bool.and_false,
    if_neg Bool.false_ne_true] at hstart
  omega

/-- Behind lines without code, the first line of code is what it is. -/
private theorem lead?_span {lines : List Text} {first last k : Nat} (hfirst : first ≤ k + 1)
    (hlast : k + 1 ≤ last) (hcoded : Coded (lineAt lines (k + 1)))
    (hbefore : ∀ i, first ≤ i → i < k + 1 → ¬ Coded (lineAt lines i)) :
    lead? (span lines first last) = some (lineAt lines (k + 1)) := by
  have hnone : lead? (span lines first k) = none := by
    rw [lead?, List.find?_eq_none]
    intro line hline
    obtain ⟨i, ⟨hi, hik⟩, rfl⟩ := mem_span.1 hline
    simpa using hbefore i hi (by omega)
  have hself : lead? (span lines (k + 1) (k + 1)) = some (lineAt lines (k + 1)) := by
    rw [span_self]
    simp [lead?, hcoded]
  rw [← span_append lines hfirst (show k ≤ last by omega), lead?_append, hnone, Option.none_or,
    ← span_append lines (show k + 1 ≤ k + 1 + 1 by omega) hlast, lead?_append, hself,
    Option.some_or]

/-- If the lines of a text and of the delimiter behind it begin with a routine header, then the lines
of the text do. -/
theorem leads_rows_of_delimited {text w d line : Text} (hw : AllBlank w) (hsolid : Solid d)
    (hword : Wordless d) (hlead : lead? (rows (text ++ (w ++ d))) = some line)
    (hstarts : Routine.starts line = true) : Leads (rows text) := by
  intro first hfirst
  by_cases hfeed : '\n' ∈ w
  · obtain ⟨v, x, rfl⟩ := List.append_of_mem hfeed
    have hrows : rows (text ++ (v ++ '\n' :: x ++ d)) = rows text ++ rows (x ++ d) := by
      rw [List.append_assoc, ← List.append_assoc, List.cons_append, rows_append_lineFeed,
        rows_append_blank (allBlank_append.1 hw).1]
    rw [hrows, lead?_append, Option.mem_def.1 hfirst, Option.some_or] at hlead
    rw [Option.some.inj hlead]
    exact hstarts
  · have hd : '\n' ∉ d := fun hmem => by
      have hblank := hsolid.2 _ hmem
      simp [isBlank] at hblank
    obtain ⟨front, last, -, hrows, hbehind⟩ := exists_rows_append text
    rw [hbehind (w ++ d) (by simp [hfeed, hd]), lead?_append] at hlead
    rw [hrows, lead?_append] at hfirst
    cases hfront : lead? front with
    | some other =>
        rw [hfront, Option.some_or] at hlead hfirst
        rw [← Option.some.inj hfirst, Option.some.inj hlead]
        exact hstarts
    | none =>
        -- the header is on the last line, before the delimiter
        rw [hfront, Option.none_or, lead?_rowOf] at hlead hfirst
        obtain ⟨-, hline⟩ := Option.ite_none_right_eq_some.1 hlead
        obtain ⟨-, hown⟩ := Option.ite_none_right_eq_some.1 hfirst
        rw [← Option.some.inj hline] at hstarts
        rw [← Option.some.inj hown]
        rw [Routine.starts_trim,
          Routine.starts_append (wordless_append.2 ⟨hw.wordless, hword⟩)] at hstarts
        rwa [Routine.starts_trim]

/-- A routine that the scanner has ended lacks no `END`, if nothing but blank lines and line comments
stands before its header. -/
theorem missingEnd_unreported {script : Text} (h : Legible script) {seg : Segment}
    (hmem : seg.statement ∈ split script) (hfits : seg.Fits (lines script))
    (hkind : seg.statement.kind = .routine) (hterminated : seg.statement.isTerminated = true)
    (hbefore : ∀ i, seg.first ≤ i → i < seg.statement.line →
      AllBlank (lineAt (lines script) i) ∨
        Comment.isLineComment (lineAt (lines script) i) = true) :
    ∀ fault ∈ Routine.faults seg.statement.text,
      includes "missing END".toList fault.message = false := by
  obtain ⟨d, hd⟩ := Option.isSome_iff_exists.1 hterminated
  obtain ⟨hsolid, hword, hclosed⟩ := h.closed_of_mem_split hmem d hd
  obtain ⟨w, hw, htext⟩ := hfits.terminated d hd
  obtain ⟨hfirst, hlast, henters⟩ := hfits.routine hkind
  have hpos := hfits.first_pos
  have hlength := hfits.last_le
  obtain ⟨k, hk⟩ : ∃ k, seg.statement.line = k + 1 := ⟨seg.statement.line - 1, by omega⟩
  rw [hk] at hfirst hlast henters hbefore
  obtain ⟨hcoded, hstarts⟩ := h.heads_of_entersRoutine (by omega) henters
  have hspan := lead?_span hfirst hlast hcoded fun i hi hik hline =>
    (hbefore i hi hik).elim hline.1 (Bool.eq_false_iff.1 hline.2)
  have hfeeds : ∀ line ∈ span (lines script) seg.first seg.last, '\n' ∉ line := by
    intro line hline
    obtain ⟨i, ⟨hi, hilast⟩, rfl⟩ := mem_span.1 hline
    obtain ⟨j, rfl⟩ : ∃ j, i = j + 1 := ⟨i - 1, by omega⟩
    exact lineFeed_notMem_of_mem_lines (lineAt_mem (by omega))
  have hlead : lead? (rows (seg.statement.text ++ (w ++ d))) =
      some (trim (lineAt (lines script) (k + 1))) := by
    rw [← List.append_assoc, ← htext, rows_trim_passage hfeeds, lead?_flatMap_rowOf, hspan]
    rfl
  have hleads := leads_rows_of_delimited hw hsolid hword hlead
    ((Routine.starts_trim _).trans hstarts)
  intro fault hfault
  obtain rfl | ⟨number, rfl⟩ := Routine.eq_of_mem_faults (hclosed hkind hleads) hfault
  · decide
  · rfl

def namelessRoutine : Text :=
  "DELIMITER $$\n-- nested\nCREATE PROCEDURE () BEGIN\nBEGIN SELECT 1; END;\nEND $$\n".toList

def namelessSegment : Segment where
  statement :=
    ⟨"-- nested\nCREATE PROCEDURE () BEGIN\nBEGIN SELECT 1; END;\nEND".toList, 3, .routine,
      some ['$', '$']⟩
  first := 2
  last := 5

private theorem namelessSegment_fits : namelessSegment.Fits (lines namelessRoutine) where
  first_pos := by decide
  first_le := by decide
  last_le := by decide +kernel
  directive := fun hkind => nomatch hkind
  unterminated := fun hd => nomatch hd
  terminated := by
    rintro _ ⟨rfl⟩
    exact ⟨[' '], by decide, by decide +kernel⟩
  ordinary := fun hkind => nomatch hkind
  routine := fun _ => ⟨by decide, by decide, by decide +kernel, by decide +kernel⟩

theorem namelessRoutine_closed :
    Routine.noName ∈ Routine.faults namelessSegment.statement.text ∧
      ∀ fault ∈ Routine.faults namelessSegment.statement.text,
        includes "missing END".toList fault.message = false := by
  have hlegible : Legible namelessRoutine :=
    ⟨by decide +kernel, by decide +kernel, by decide +kernel⟩
  have hbefore : ∀ i, namelessSegment.first ≤ i → i < namelessSegment.statement.line →
      AllBlank (lineAt (lines namelessRoutine) i) ∨
        Comment.isLineComment (lineAt (lines namelessRoutine) i) = true := by
    intro i hfirst hlt
    obtain rfl : i = 2 := Nat.le_antisymm (Nat.le_of_lt_succ hlt) hfirst
    exact .inr (by decide +kernel)
  exact ⟨by decide +kernel, missingEnd_unreported hlegible (by decide +kernel)
    namelessSegment_fits rfl rfl hbefore⟩

end SqlBatch.Scanner
