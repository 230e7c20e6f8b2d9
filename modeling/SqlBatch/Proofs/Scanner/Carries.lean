import SqlBatch.Proofs.Scanner.Mode
import SqlBatch.Proofs.Text.Tidy
/-!
# The lines under way

`Carries s lines` is what holds of every scanner that can be reached: its buffer is made up of the
last lines that it has taken, the first of which is not blank, and the rest of its state fits these
lines.  A line that ends no statement joins the lines under way; the end of a statement leaves none.
-/

namespace SqlBatch.Scanner

open Text

/-- The statement under way is made up of `lines`. -/
structure Carries (s : Scanner) (lines : List Text) : Prop where
  buffer : s.buffer = block lines
  start : s.bufferStart = if lines = [] then none else some (s.lineNumber + 1 - lines.length)
  length_le : lines.length ≤ s.lineNumber
  first : ∀ line ∈ lines.head?, ¬ AllBlank line
  comment : s.inBlockComment = true → lines ≠ []
  routine : s.inRoutine = true →
    lines ≠ [] ∧ s.lineNumber < s.routineStart + lines.length ∧ s.routineStart ≤ s.lineNumber
  depth : s.inRoutine = false → s.depth = 0
  delimiter : Solid s.delimiter

/-- The lines under way behind one more line: a statement does not begin with a blank line. -/
def withLine (lines : List Text) (raw : Text) : List Text :=
  if lines = [] ∧ AllBlank raw then [] else lines ++ [raw]

theorem withLine_of_ne_nil {lines : List Text} (h : lines ≠ []) (raw : Text) :
    withLine lines raw = lines ++ [raw] := if_neg fun hboth => h hboth.1

theorem withLine_of_ink (lines : List Text) {raw : Text} (h : ¬ AllBlank raw) :
    withLine lines raw = lines ++ [raw] := if_neg fun hboth => h hboth.2

theorem withLine_nil_of_blank {raw : Text} (h : AllBlank raw) : withLine [] raw = [] :=
  if_pos ⟨rfl, h⟩

/-! ## What a held line leaves alone -/

section Hold

variable (s : Scanner) (raw : Text)

@[simp] theorem track_buffer (line : Text) : (s.track line).buffer = s.buffer := by
  rw [track_eq]
  split <;> rfl

@[simp] theorem track_bufferStart (line : Text) : (s.track line).bufferStart = s.bufferStart := by
  rw [track_eq]
  split <;> rfl

@[simp] theorem track_lineNumber (line : Text) : (s.track line).lineNumber = s.lineNumber := by
  rw [track_eq]
  split <;> rfl

@[simp] theorem track_ready (line : Text) : (s.track line).ready = s.ready := by
  rw [track_eq]
  split <;> rfl

theorem track_inRoutine (line : Text) :
    (s.track line).inRoutine = (s.inRoutine || Routine.starts (Comment.stripBlocks line)) := by
  rw [track_eq]
  split <;> simp_all

theorem track_routineStart (line : Text) :
    (s.track line).routineStart =
      if !s.inRoutine && (s.track line).inRoutine then s.lineNumber else s.routineStart := by
  rw [track_inRoutine, track_eq]
  cases s.inRoutine <;> cases Routine.starts (Comment.stripBlocks line) <;> rfl

@[simp] theorem appendBlank_bufferStart : s.appendBlank.bufferStart = s.bufferStart := by
  unfold appendBlank
  split <;> rfl

@[simp] theorem appendBlank_inRoutine : s.appendBlank.inRoutine = s.inRoutine :=
  congrArg Mode.inRoutine (mode_appendBlank s)

@[simp] theorem appendBlank_routineStart : s.appendBlank.routineStart = s.routineStart := by
  unfold appendBlank
  split <;> rfl

@[simp] theorem appendBlank_lineNumber : s.appendBlank.lineNumber = s.lineNumber := by
  unfold appendBlank
  split <;> rfl

@[simp] theorem appendBlank_ready : s.appendBlank.ready = s.ready := by
  unfold appendBlank
  split <;> rfl

@[simp] theorem hold_lineNumber : (s.hold raw).lineNumber = s.lineNumber + 1 := by
  unfold hold
  cases reading s.inBlockComment raw <;> simp [append]

@[simp] theorem hold_ready : (s.hold raw).ready = s.ready := by
  unfold hold
  cases reading s.inBlockComment raw <;> simp [append]

theorem hold_routineStart :
    (s.hold raw).routineStart =
      if !s.inRoutine && (s.hold raw).inRoutine then s.lineNumber + 1 else s.routineStart := by
  unfold hold
  cases reading s.inBlockComment raw with
  | commentEnd code => exact track_routineStart _ _
  | commentStart => exact track_routineStart _ _
  | code => exact track_routineStart _ _
  | _ => simp [append]

theorem hold_buffer :
    (s.hold raw).buffer =
      if reading s.inBlockComment raw = .blank ∧ s.buffer = [] then []
      else s.buffer ++ (trimEnd raw ++ ['\n']) := by
  cases hreading : reading s.inBlockComment raw with
  | blank =>
      have hraw : trimEnd raw = [] := trimEnd_eq_nil.2 (allBlank_of_reading hreading)
      by_cases hbuffer : s.buffer = [] <;> simp [hold, hreading, appendBlank, hbuffer, hraw]
  | _ => simp [hold, hreading, append]

theorem hold_bufferStart :
    (s.hold raw).bufferStart =
      if reading s.inBlockComment raw = .blank then s.bufferStart
      else s.bufferStart.or (some (s.lineNumber + 1)) := by
  cases hreading : reading s.inBlockComment raw with
  | blank =>
      simp [hold, hreading]
  | _ => simp [hold, hreading, append]

end Hold

namespace Mode

@[simp] theorem track_nil (m : Mode) : m.track [] = m := by
  have hstarts : Routine.starts [] = false := Routine.starts_wordless wordless_nil
  have hbalance : Routine.balance [] = ⟨0, 0⟩ := Routine.balance_wordless wordless_nil
  obtain ⟨delimiter, inComment, inRoutine, depth⟩ := m
  cases inRoutine <;> simp [track, Comment.stripBlocks, Comment.stripFrom, hstarts, hbalance]

/-- A held line counts some code, and changes nothing else but the block comment and, if it is a
`DELIMITER` line, the delimiter. -/
theorem hold_eq_track (m : Mode) (raw : Text) :
    ∃ (inComment : Bool) (delimiter code : Text),
      m.hold raw = Mode.track ⟨delimiter, inComment, m.inRoutine, m.depth⟩ code ∧
        (delimiter = m.delimiter ∨ reading m.inBlockComment raw = .directive delimiter) := by
  unfold hold
  cases reading m.inBlockComment raw with
  | commentEnd code => exact ⟨false, m.delimiter, code, rfl, .inl rfl⟩
  | commentStart => exact ⟨true, m.delimiter, trim raw, rfl, .inl rfl⟩
  | code => exact ⟨m.inBlockComment, m.delimiter, trim raw, rfl, .inl rfl⟩
  | directive token => exact ⟨m.inBlockComment, token, [], (track_nil _).symm, .inr rfl⟩
  | _ => exact ⟨m.inBlockComment, m.delimiter, [], (track_nil _).symm, .inl rfl⟩

private theorem hold_depth {m : Mode} (hdepth : m.inRoutine = false → m.depth = 0) (raw : Text)
    (h : (m.hold raw).inRoutine = false) : (m.hold raw).depth = 0 := by
  obtain ⟨inComment, delimiter, code, hhold, -⟩ := hold_eq_track m raw
  rw [hhold] at h ⊢
  simp only [track] at h ⊢
  split at h
  · contradiction
  · next hnot =>
    rw [if_neg hnot]
    exact hdepth h

private theorem hold_delimiter_solid {m : Mode} (hsolid : Solid m.delimiter) (raw : Text) :
    Solid (m.hold raw).delimiter := by
  obtain ⟨inComment, delimiter, code, hhold, hdelimiter⟩ := hold_eq_track m raw
  have hsame : (m.hold raw).delimiter = delimiter := by
    rw [hhold, track_delimiter]
  rw [hsame]
  rcases hdelimiter with rfl | hreading
  · exact hsolid
  · exact Delimiter.solid_of_directive? (directive?_of_reading hreading)

end Mode

/-! ## The lines under way, step by step -/

theorem Carries.inBlockComment_eq_false {s : Scanner} (h : s.Carries []) :
    s.inBlockComment = false := by
  rw [Bool.eq_false_iff]
  exact fun hcomment => h.comment hcomment rfl

theorem Carries.inRoutine_eq_false {s : Scanner} (h : s.Carries []) : s.inRoutine = false := by
  rw [Bool.eq_false_iff]
  exact fun hroutine => (h.routine hroutine).1 rfl

theorem Carries.mode_eq {s : Scanner} (h : s.Carries []) :
    s.mode = ⟨s.delimiter, false, false, 0⟩ := by
  rw [mode, h.inBlockComment_eq_false, h.inRoutine_eq_false, h.depth h.inRoutine_eq_false]

theorem Carries.hold_blank {s : Scanner} (h : s.Carries []) {raw : Text} (hblank : AllBlank raw) :
    (s.hold raw).Carries [] := by
  have hmode : (s.hold raw).mode = s.mode := by
    rw [mode_hold, Mode.hold_of_blank _ hblank]
  have hreading : reading s.inBlockComment raw = .blank := by
    rw [h.inBlockComment_eq_false]
    exact reading_eq_iff.2 (.blank hblank)
  have hcomment : (s.hold raw).inBlockComment = false :=
    (congrArg Mode.inBlockComment hmode).trans h.inBlockComment_eq_false
  have hroutine : (s.hold raw).inRoutine = false :=
    (congrArg Mode.inRoutine hmode).trans h.inRoutine_eq_false
  exact {
    buffer := by rw [hold_buffer, if_pos ⟨hreading, h.buffer⟩, block_nil]
    start := by rw [hold_bufferStart, if_pos hreading, h.start, if_pos rfl, if_pos rfl]
    length_le := Nat.zero_le _
    first := by simp
    comment := by simp [hcomment]
    routine := by simp [hroutine]
    depth := fun _ => (congrArg Mode.depth hmode).trans (h.depth h.inRoutine_eq_false)
    delimiter := by
      have hdelimiter : (s.hold raw).delimiter = s.delimiter := congrArg Mode.delimiter hmode
      rw [hdelimiter]
      exact h.delimiter }

theorem Carries.hold {s : Scanner} {lines : List Text} (h : s.Carries lines) (raw : Text) :
    (s.hold raw).Carries (withLine lines raw) := by
  by_cases hidle : lines = [] ∧ AllBlank raw
  · obtain ⟨rfl, hblank⟩ := hidle
    rw [withLine_nil_of_blank hblank]
    exact h.hold_blank hblank
  have hwith : withLine lines raw = lines ++ [raw] := if_neg hidle
  have hkept : ¬ (reading s.inBlockComment raw = .blank ∧ s.buffer = []) := by
    rintro ⟨hreading, hbuffer⟩
    rw [h.buffer, block_eq_nil] at hbuffer
    exact hidle ⟨hbuffer, allBlank_of_reading hreading⟩
  have hmode := mode_hold s raw
  have hlength := h.length_le
  rw [hwith]
  exact {
    buffer := by
      rw [hold_buffer, if_neg hkept, h.buffer, block_append]
      simp [block]
    start := by
      rw [hold_bufferStart, h.start, if_neg (List.append_ne_nil_of_right_ne_nil _ (by simp))]
      by_cases hnil : lines = []
      · have hink : reading s.inBlockComment raw ≠ .blank :=
          fun hreading => hkept ⟨hreading, by rw [h.buffer, hnil, block_nil]⟩
        simp [hnil, hink]
      · have hnumber : s.lineNumber + 1 + 1 - (lines ++ [raw]).length =
            s.lineNumber + 1 - lines.length := by
          rw [List.length_append, List.length_singleton]
          omega
        rw [hold_lineNumber, hnumber, if_neg hnil]
        simp
    length_le := by simpa using h.length_le
    first := by
      cases lines with
      | nil => simpa using fun hblank => hidle ⟨rfl, hblank⟩
      | cons line lines => simpa using h.first
    comment := by simp
    routine := by
      intro hroutine
      rw [hold_routineStart, hroutine, hold_lineNumber, List.length_append, List.length_singleton]
      refine ⟨by simp, ?_⟩
      cases hbefore : s.inRoutine with
      | false => simp
      | true =>
          obtain ⟨-, hlast, hfirst⟩ := h.routine hbefore
          simp only [Bool.not_true, Bool.false_and, Bool.false_eq_true, if_false]
          omega
    depth := by
      intro hroutine
      have hdepth := Mode.hold_depth (m := s.mode) h.depth raw
      rw [← hmode] at hdepth
      exact hdepth hroutine
    delimiter := by
      have hdelimiter := Mode.hold_delimiter_solid (m := s.mode) h.delimiter raw
      rwa [← hmode] at hdelimiter }

/-! ## The end of a statement -/

/-- What ends a statement is some code at the end of the line, and that code ends with the
delimiter. -/
theorem Mode.exists_code_of_closing {m : Mode} {raw : Text} (hsolid : Solid m.delimiter)
    (h : m.ending raw = .closing) :
    ∃ code, code <:+ trim raw ∧ m.delimiter <:+ code ∧
      m.hold raw = Mode.track { m with inBlockComment := false } code ∧
      (m.hold raw).atSurface = true := by
  have hat : ∀ (n : Mode) (code : Text), n.endingAt code = .closing →
      n.delimiter <:+ code ∧ (n.track code).atSurface = true := by
    intro n code hclosing
    unfold endingAt at hclosing
    split at hclosing
    · next hboth => simpa using hboth
    · contradiction
  unfold ending at h
  unfold hold
  cases hreading : reading m.inBlockComment raw with
  | commentEnd code =>
      rw [hreading] at h
      obtain ⟨hsuffix, hsurface⟩ := hat _ _ h
      obtain ⟨-, after, hcloses, -, rfl⟩ := commentEnd_of_reading hreading
      refine ⟨_, ?_, hsuffix, rfl, hsurface⟩
      -- the line is not blank behind the comment, so its blank end is that of the code there
      obtain ⟨before, hline⟩ := exists_eq_append_of_afterLast? hcloses
      have hink : ¬ AllBlank after := by
        intro hblank
        rw [trim_eq_nil.2 hblank] at hsuffix
        exact hsolid.1 (List.suffix_nil.1 hsuffix)
      have hafter : trimEnd after = after := by
        have hend := trimEnd_trim raw
        rw [hline, trimEnd_append hink] at hend
        exact List.append_cancel_left hend
      rw [← trimStart_trimEnd, hafter, hline]
      exact (List.dropWhile_suffix _).trans (List.suffix_append _ _)
  | code =>
      rw [hreading] at h
      obtain ⟨hsuffix, hsurface⟩ := hat _ _ h
      have hsame : { m with inBlockComment := false } = m := by
        rw [← inComment_of_reading_code hreading]
      exact ⟨trim raw, List.suffix_refl _, hsuffix, by rw [hsame], hsurface⟩
  | directive token =>
      rw [hreading] at h
      cases hroutine : m.inRoutine <;> simp [hroutine] at h
  | _ =>
      rw [hreading] at h
      contradiction

/-- Outside of comments, what ends a statement is a line of code. -/
theorem Mode.reads_code_of_closing {m : Mode} {raw : Text} (h : m.ending raw = .closing)
    (hout : m.inBlockComment = false) : Reads false raw .code := by
  have hreads := reads_reading false raw
  unfold ending at h
  rw [hout] at h
  cases hreading : reading false raw with
  | code =>
      rw [hreading] at hreads
      exact hreads
  | commentEnd code =>
      rw [hreading] at hreads
      nomatch hreads
  | directive token =>
      rw [hreading] at h
      cases hroutine : m.inRoutine <;> simp [hroutine] at h
  | _ =>
      rw [hreading] at h
      contradiction

section Closing

variable {m : Mode} {raw : Text}

theorem Mode.hold_delimiter_of_closing (hsolid : Solid m.delimiter) (h : m.ending raw = .closing) :
    (m.hold raw).delimiter = m.delimiter := by
  obtain ⟨code, -, -, hhold, -⟩ := exists_code_of_closing hsolid h
  rw [hhold, track_delimiter]

theorem Mode.hold_inBlockComment_of_closing (hsolid : Solid m.delimiter)
    (h : m.ending raw = .closing) : (m.hold raw).inBlockComment = false := by
  obtain ⟨code, -, -, hhold, -⟩ := exists_code_of_closing hsolid h
  rw [hhold, track_inBlockComment]

theorem hold_delimiter_of_closing {s : Scanner} (hsolid : Solid s.delimiter)
    (h : s.mode.ending raw = .closing) : (s.hold raw).delimiter = s.delimiter := by
  show (s.hold raw).mode.delimiter = s.mode.delimiter
  rw [mode_hold]
  exact Mode.hold_delimiter_of_closing hsolid h

/-- The line that the delimiter ends a statement on ends with the delimiter. -/
theorem Mode.delimiter_isSuffix_of_closing (hsolid : Solid m.delimiter)
    (h : m.ending raw = .closing) : m.delimiter <:+ trimEnd raw := by
  obtain ⟨code, hcode, hsuffix, -, -⟩ := exists_code_of_closing hsolid h
  rw [← trimStart_trimEnd] at hcode
  exact (hsuffix.trans hcode).trans (List.dropWhile_suffix _)

end Closing

theorem Carries.flush {s : Scanner} {lines : List Text} (h : s.Carries lines)
    (hcomment : s.inBlockComment = false) (terminated : Bool) :
    (s.flush terminated).Carries [] := by
  rw [flush_eq]
  exact {
    buffer := rfl
    start := rfl
    length_le := Nat.zero_le _
    first := by simp
    comment := by simp [hcomment]
    routine := by simp
    depth := by
      intro _
      show (if s.inRoutine then 0 else s.depth) = 0
      cases hroutine : s.inRoutine with
      | true => rfl
      | false => exact h.depth hroutine
    delimiter := h.delimiter }

theorem Carries.of_closing {s : Scanner} {lines : List Text} (h : s.Carries lines) {raw : Text}
    (hclosing : s.mode.ending raw = .closing) : (s.feed raw).Carries [] := by
  have hcomment : (s.hold raw).mode.inBlockComment = false := by
    rw [mode_hold]
    exact Mode.hold_inBlockComment_of_closing h.delimiter hclosing
  rw [feed_of_closing hclosing]
  exact (h.hold raw).flush hcomment true

theorem Carries.delimiter_of_closing {s : Scanner} {lines : List Text} (h : s.Carries lines)
    {raw : Text} (hclosing : s.mode.ending raw = .closing) :
    (s.feed raw).delimiter = s.delimiter := by
  rw [feed_of_closing hclosing, flush_eq]
  exact hold_delimiter_of_closing h.delimiter hclosing

theorem ready_of_closing {s : Scanner} {raw : Text} (hclosing : s.mode.ending raw = .closing) :
    (s.feed raw).ready = s.ready ++ unlessEmpty ((s.hold raw).underWay true) := by
  rw [feed_of_closing hclosing, flush_eq, ← hold_ready s raw]

theorem Carries.of_directive {s : Scanner} {lines : List Text} (h : s.Carries lines)
    {raw token : Text} (hdirective : s.mode.ending raw = .directive token) :
    (s.feed raw).Carries [] := by
  obtain ⟨hreading, hroutine⟩ := Mode.reading_of_ending_directive hdirective
  have hcounted := h.flush (inComment_of_reading_directive hreading) false
  rw [feed_of_directive hdirective, queue_eq, flush_eq]
  rw [flush_eq] at hcounted
  exact {
    buffer := rfl
    start := rfl
    length_le := Nat.zero_le _
    first := by simp
    comment := hcounted.comment
    routine := by simp
    depth := hcounted.depth
    delimiter := Delimiter.solid_of_directive? (directive?_of_reading hreading) }

theorem Carries.finish {s : Scanner} {lines : List Text} (h : s.Carries lines) :
    s.finish.Carries [] := by
  have hout : Carries { s with inBlockComment := false } lines :=
    { h with comment := fun hcomment => nomatch hcomment }
  have hflush := hout.flush rfl false
  rw [flush_eq] at hflush
  rw [Scanner.finish, flush_eq]
  exact { hflush with }

theorem carries_initial : ({} : Scanner).Carries [] where
  buffer := rfl
  start := rfl
  length_le := Nat.zero_le _
  first := by simp
  comment := by simp
  routine := by simp
  depth := fun _ => rfl
  delimiter := Delimiter.solid_initial

theorem Carries.of_ready {s : Scanner} {lines : List Text} (h : s.Carries lines)
    (ready : List Statement) : Carries { s with ready := ready } lines := { h with }

theorem Carries.exists_feed {s : Scanner} {lines : List Text} (h : s.Carries lines) (raw : Text) :
    ∃ lines', (s.feed raw).Carries lines' := by
  cases hending : s.mode.ending raw with
  | «open» =>
      rw [feed_of_open hending]
      exact ⟨_, h.hold raw⟩
  | closing => exact ⟨[], h.of_closing hending⟩
  | directive token => exact ⟨[], h.of_directive hending⟩

theorem ready_isPrefix_feed (s : Scanner) (raw : Text) : s.ready <+: (s.feed raw).ready := by
  cases hending : s.mode.ending raw with
  | «open» =>
      have hready : (s.feed raw).ready = s.ready := by rw [feed_of_open hending, hold_ready]
      exact ⟨[], by rw [List.append_nil, hready]⟩
  | closing =>
      rw [ready_of_closing hending]
      exact List.prefix_append _ _
  | directive token =>
      rw [feed_of_directive hending, queue_eq, flush_eq]
      exact (List.prefix_append _ _).trans (List.prefix_append _ _)

/-! ## Reachable scanners -/

/-- The scanners that some calls lead to from a fresh one. -/
inductive Reachable : Scanner → Prop where
  | fresh : Reachable {}
  | feed {s : Scanner} (raw : Text) : Reachable s → Reachable (s.feed raw)
  | finish {s : Scanner} : Reachable s → Reachable s.finish
  | pop {s : Scanner} : Reachable s → Reachable s.pop.2
  | drain {s : Scanner} : Reachable s → Reachable s.drain.2

theorem Reachable.exists_carries {s : Scanner} (h : s.Reachable) : ∃ lines, s.Carries lines := by
  induction h with
  | fresh => exact ⟨[], carries_initial⟩
  | feed raw _ ih =>
      obtain ⟨lines, hlines⟩ := ih
      exact hlines.exists_feed raw
  | finish _ ih =>
      obtain ⟨lines, hlines⟩ := ih
      exact ⟨[], hlines.finish⟩
  | @pop s _ ih =>
      obtain ⟨lines, hlines⟩ := ih
      refine ⟨lines, ?_⟩
      rcases hready : s.ready with _ | ⟨statement, later⟩
      · simpa only [Scanner.pop, hready] using hlines
      · simpa only [Scanner.pop, hready] using hlines.of_ready later
  | drain _ ih =>
      obtain ⟨lines, hlines⟩ := ih
      exact ⟨lines, hlines.of_ready []⟩

/-- A reachable scanner with an empty buffer is between two statements. -/
theorem Reachable.carries_nil {s : Scanner} (h : s.Reachable) (hbuffer : s.buffer = []) :
    s.Carries [] := by
  obtain ⟨lines, hlines⟩ := h.exists_carries
  obtain rfl : lines = [] := by rw [← block_eq_nil, ← hlines.buffer, hbuffer]
  exact hlines

theorem Carries.bufferStart_eq_none {s : Scanner} {lines : List Text} (h : s.Carries lines) :
    s.bufferStart = none ↔ lines = [] := by
  rw [h.start]
  split <;> simp_all

/-! ## The text of the statement under way -/

theorem Carries.text_eq {s : Scanner} {lines : List Text} (h : s.Carries lines) :
    (s.underWay false).text = trim (passage lines) := by
  show trim s.buffer = trim (passage lines)
  rw [h.buffer, trim_block]

theorem withLine_of_closing {m : Mode} {raw : Text} (hclosing : m.ending raw = .closing)
    (lines : List Text) : withLine lines raw = lines ++ [raw] := by
  apply withLine_of_ink
  intro hblank
  rw [Mode.ending_of_blank _ hblank] at hclosing
  contradiction

/-- Where the delimiter ends a statement, the text is what stands before the delimiter. -/
theorem Carries.text_of_closing {s : Scanner} {lines : List Text} (h : s.Carries lines) {raw : Text}
    (hclosing : s.mode.ending raw = .closing) :
    ∃ v, trimEnd raw = v ++ s.delimiter ∧
      ((s.hold raw).underWay true).text = trim (block lines ++ v) := by
  obtain ⟨v, hv⟩ := Mode.delimiter_isSuffix_of_closing h.delimiter hclosing
  have hdelimiter := hold_delimiter_of_closing h.delimiter hclosing
  refine ⟨v, hv.symm, ?_⟩
  calc ((s.hold raw).underWay true).text
      = Delimiter.strip s.delimiter (s.hold raw).buffer := by
        rw [← hdelimiter]
        rfl
    _ = Delimiter.strip s.delimiter (block (lines ++ [raw])) := by
        rw [(h.hold raw).buffer, withLine_of_closing hclosing]
    _ = Delimiter.strip s.delimiter (block lines ++ v ++ s.delimiter ++ ['\n']) := by
        have hraw : trimEnd raw = v ++ s.delimiter := hv.symm
        simp [block, hraw]
    _ = trim (block lines ++ v) := Delimiter.strip_append h.delimiter (by decide) _

/-! ## The lines of its text -/

section TextLines

variable {s : Scanner} {lines : List Text} (h : s.Carries lines)
  (hfeed : ∀ line ∈ lines, '\n' ∉ line)

include h hfeed

theorem Carries.hasLines_text : HasLines (s.underWay false).text lines := by
  rw [h.text_eq]
  exact hasLines_passage h.first hfeed

section Closing

variable {raw v : Text} (hraw : '\n' ∉ raw) (hv : trimEnd raw = v ++ s.delimiter)
  (htext : ((s.hold raw).underWay true).text = trim (block lines ++ v))
  (hne : ((s.hold raw).underWay true).text ≠ [])

include hraw hv htext hne

/-- The last line of a text that the delimiter ends stands before the delimiter. -/
theorem Carries.lines_of_closing :
    ((s.hold raw).underWay true).text = trim (passage (lines ++ [v])) ∧
      (∀ line ∈ (lines ++ [v]).head?, ¬ AllBlank line) ∧ ∀ line ∈ lines ++ [v], '\n' ∉ line := by
  refine ⟨by rw [htext, trim_passage_concat], ?_, ?_⟩
  · cases lines with
    | nil => simpa [htext] using hne
    | cons line lines => simpa using h.first
  · have hend := lineFeed_notMem_trimEnd hraw
    rw [hv, List.mem_append, not_or] at hend
    exact List.forall_mem_append.2 ⟨hfeed, List.forall_mem_singleton.2 hend.1⟩

theorem Carries.hasLines_text_of_closing :
    HasLines ((s.hold raw).underWay true).text (lines ++ [v]) := by
  obtain ⟨hpassage, hfirst, hends⟩ := h.lines_of_closing hfeed hraw hv htext hne
  rw [hpassage]
  exact hasLines_passage hfirst hends

end Closing

end TextLines

/-! ## The statement under way -/

section Line

variable {t : Scanner} {carried : List Text} (h : t.Carries carried) (terminated : Bool)

include h

theorem Carries.line_of_ordinary (hne : carried ≠ []) (hout : t.inRoutine = false) :
    (t.underWay terminated).line = t.lineNumber + 1 - carried.length := by
  simp only [underWay, hout, h.start, if_neg hne, Bool.false_eq_true, if_false, Option.getD_some]

theorem Carries.line_of_routine (hin : t.inRoutine = true) :
    (t.underWay terminated).line = t.routineStart ∧
      t.lineNumber + 1 - carried.length ≤ t.routineStart ∧ t.routineStart ≤ t.lineNumber := by
  obtain ⟨-, hfirst, hlast⟩ := h.routine hin
  refine ⟨?_, by omega, hlast⟩
  simp only [underWay, hin, if_true]

/-- Nothing but blank lines is never under way. -/
theorem Carries.eq_nil_of_allBlank (hblank : ∀ line ∈ carried, AllBlank line) : carried = [] := by
  cases carried with
  | nil => rfl
  | cons line rest => exact absurd (hblank line (by simp)) (h.first line (by simp))

end Line

theorem Carries.text_eq_nil_iff {s : Scanner} {lines : List Text} (h : s.Carries lines) :
    (s.underWay false).text = [] ↔ lines = [] := by
  rw [h.text_eq, ← trim_block, trim_eq_nil, allBlank_block]
  constructor
  · exact h.eq_nil_of_allBlank
  · rintro rfl
    simp

theorem Carries.unlessEmpty_underWay {s : Scanner} {lines : List Text} (h : s.Carries lines)
    (hne : lines ≠ []) : unlessEmpty (s.underWay false) = [s.underWay false] :=
  unlessEmpty_of_ne_nil (mt h.text_eq_nil_iff.1 hne)

theorem Carries.unlessEmpty_underWay_nil {s : Scanner} (h : s.Carries []) :
    unlessEmpty (s.underWay false) = [] := unlessEmpty_of_nil (h.text_eq_nil_iff.2 rfl)

/-- What ends without a text is a delimiter on a line of its own. -/
theorem Carries.lone_of_closing {s : Scanner} {lines : List Text} (h : s.Carries lines) {raw : Text}
    (hclosing : s.mode.ending raw = .closing) (hempty : ((s.hold raw).underWay true).text = []) :
    lines = [] ∧ trim raw = s.delimiter := by
  obtain ⟨v, hv, htext⟩ := h.text_of_closing hclosing
  rw [htext, trim_eq_nil, allBlank_append, allBlank_block] at hempty
  obtain ⟨hblank, hv_blank⟩ := hempty
  refine ⟨h.eq_nil_of_allBlank hblank, ?_⟩
  calc trim raw
      = trim (v ++ s.delimiter) := by rw [← hv, trim_trimEnd]
    _ = s.delimiter := by rw [trim_blank_append hv_blank, h.delimiter.trim_eq]

theorem Carries.text_of_closing_eq_nil_iff {s : Scanner} {lines : List Text} (h : s.Carries lines)
    {raw : Text} (hclosing : s.mode.ending raw = .closing) :
    ((s.hold raw).underWay true).text = [] ↔ lines = [] ∧ trim raw = s.delimiter := by
  refine ⟨h.lone_of_closing hclosing, ?_⟩
  rintro ⟨rfl, hlone⟩
  obtain ⟨v, hv, htext⟩ := h.text_of_closing hclosing
  have hsame : trimStart v ++ s.delimiter = [] ++ s.delimiter := by
    by_cases hblank : AllBlank v
    · rw [trimStart_eq_nil.2 hblank]
    · rw [List.nil_append, ← trimStart_append hblank, ← hv, trimStart_trimEnd, hlone]
  have hblank : AllBlank v := trimStart_eq_nil.1 (List.append_cancel_right hsame)
  rw [htext, block_nil, List.nil_append, trim_eq_nil.2 hblank]

/-- A `DELIMITER` line is counted before what is under way is flushed, but nothing under way starts
on it. -/
theorem Carries.unlessEmpty_counted {s : Scanner} {lines : List Text} (h : s.Carries lines) :
    unlessEmpty (s.counted.underWay false) = unlessEmpty (s.underWay false) := by
  by_cases hnil : lines = []
  · have hbuffer : s.buffer = [] := by rw [h.buffer, hnil, block_nil]
    simp [unlessEmpty, underWay, counted, hbuffer]
  · simp [underWay, counted, h.start, hnil]

/-- A `DELIMITER` line queues what is under way, and then itself. -/
theorem Carries.ready_of_directive {s : Scanner} {carried : List Text} (h : s.Carries carried)
    {raw token : Text} (hdirective : s.mode.ending raw = .directive token) :
    (s.feed raw).ready = s.ready ++ unlessEmpty (s.underWay false) ++ [s.directiveOn raw] := by
  obtain ⟨hreading, -⟩ := Mode.reading_of_ending_directive hdirective
  have hink : (s.directiveOn raw).text ≠ [] :=
    mt trim_eq_nil.1 (not_allBlank_of_reading_directive hreading)
  have hone := unlessEmpty_of_ne_nil hink
  rw [feed_of_directive hdirective, queue_eq, flush_eq]
  show s.ready ++ unlessEmpty (s.counted.underWay false) ++ unlessEmpty (s.directiveOn raw) = _
  rw [h.unlessEmpty_counted, hone]

end SqlBatch.Scanner
