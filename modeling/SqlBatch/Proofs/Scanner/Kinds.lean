import SqlBatch.Proofs.Comment.LastMark
import SqlBatch.Proofs.Routine.Lines
import SqlBatch.Proofs.Scanner.Commented
/-!
# Kinds of statements

A statement is a routine if and only if the code on one of its lines has a routine header
(`kind_eq_routine_iff`).  What is code is told by a `Survey`, which reads the lines of a text from
left to right.  `Attends` is the invariant: the scanner is in a routine exactly if the survey of the
lines under way has come upon a header.
-/

namespace SqlBatch.Scanner

open Text

/-! ## The code of a text -/

/-- What reading the lines of a text from left to right shows. -/
structure Survey where
  /-- A block comment is open behind the text. -/
  inComment : Bool := false
  /-- The comments of all lines are clear. -/
  clear : Bool := true
  /-- The code of some line has the header of a routine. -/
  headed : Bool := false
  deriving DecidableEq

namespace Survey

def read (r : Survey) (line : Text) : Survey :=
  if !r.inComment && Comment.isLineComment line then r
  else
    { inComment := Comment.endsInside r.inComment (trim line)
      clear := r.clear && decide (Clear r.inComment (trim line))
      headed := r.headed || Routine.starts (Comment.stripFrom r.inComment (trim line)) }

end Survey

def survey (lines : List Text) : Survey := lines.foldl Survey.read {}

namespace Survey

variable {r : Survey} {raw : Text}

theorem read_trim (r : Survey) (line : Text) : r.read (trim line) = r.read line := by
  simp only [read, Comment.isLineComment_trim, trim_trim]

theorem read_nil (r : Survey) : r.read [] = r := by
  obtain ⟨inComment, clear, headed⟩ := r
  cases inComment <;> cases clear <;> cases headed <;> decide +kernel

theorem read_of_lineComment (hout : r.inComment = false) (h : Comment.isLineComment raw = true) :
    r.read raw = r := by
  rw [read, hout, h]
  rfl

theorem read_of_plain (hplain : r.inComment = false → Comment.isLineComment raw = false) :
    r.read raw =
      { inComment := Comment.endsInside r.inComment (trim raw)
        clear := r.clear && decide (Clear r.inComment (trim raw))
        headed := r.headed || Routine.starts (Comment.stripFrom r.inComment (trim raw)) } := by
  rw [read, if_neg]
  cases hin : r.inComment with
  | true => simp
  | false => simp [hplain hin]

theorem clear_of_read (h : (r.read raw).clear = true) : r.clear = true := by
  unfold read at h
  split at h
  · exact h
  · exact (Bool.and_eq_true_iff.1 h).1

theorem survey_concat (lines : List Text) (raw : Text) :
    survey (lines ++ [raw]) = (survey lines).read raw := List.foldl_concat ..

theorem survey_text {text : Text} {group : List Text} (h : HasLines text group) :
    survey (lines text) = survey group := h.foldl_eq read_trim read_nil {}

end Survey

/-- The header of a routine is in the code of a line, behind the lines `front` of the text. -/
structure HeadedAt (text : Text) (front : List Text) (line : Text) : Prop where
  lines : ∃ back, lines text = front ++ line :: back
  plain : (survey front).inComment = false → Comment.isLineComment line = false
  starts : Routine.starts (Comment.stripFrom (survey front).inComment (trim line)) = true

theorem exists_headedAt {text : Text} (h : (survey (lines text)).headed = true) :
    ∃ front line, HeadedAt text front line := by
  have hfront : ∀ front back, lines text = front ++ back → (survey front).headed = true →
      ∃ front line, HeadedAt text front line := by
    intro front
    induction front using List.reverseRecOn with
    | nil => exact fun _ _ hnone => nomatch hnone
    | append_singleton front line ih =>
        intro back hlines hheaded
        have hmore : lines text = front ++ line :: back := by simpa using hlines
        rw [Survey.survey_concat] at hheaded
        by_cases hcomment : (survey front).inComment = false ∧ Comment.isLineComment line = true
        · rw [Survey.read_of_lineComment hcomment.1 hcomment.2] at hheaded
          exact ih _ hmore hheaded
        have hplain : (survey front).inComment = false → Comment.isLineComment line = false :=
          fun hout => Bool.eq_false_iff.2 fun hline => hcomment ⟨hout, hline⟩
        rw [Survey.read_of_plain hplain] at hheaded
        rcases Bool.or_eq_true_iff.1 hheaded with hearlier | hhere
        · exact ih _ hmore hearlier
        · exact ⟨front, line, ⟨back, hmore⟩, hplain, hhere⟩
  exact hfront (lines text) [] (List.append_nil _).symm h

/-- If no comment begins on the line of a header, the header is one of the text. -/
theorem HeadedAt.starts_text {text line : Text} {front : List Text}
    (h : HeadedAt text front line) (hmarks : includes Comment.blockOpen line = false) :
    Routine.starts text = true := by
  obtain ⟨back, hlines⟩ := h.lines
  have hline : line ∈ Text.lines text := by simp [hlines]
  have htrim : includes Comment.blockOpen (trim line) = false := by simpa using hmarks
  refine Routine.starts_of_mem_lines hline ?_
  rw [← Routine.starts_trim]
  have hstarts := h.starts
  cases hin : (survey front).inComment with
  | false =>
      have hcode : Comment.stripFrom false (trim line) = trim line :=
        Comment.stripBlocks_eq_self htrim
      rwa [hin, hcode] at hstarts
  | true =>
      rw [hin] at hstarts
      rcases Comment.exists_stripFrom_true_eq htrim with hnil | ⟨before, hline⟩
      · rw [hnil] at hstarts
        contradiction
      · rw [hline]
        exact Routine.starts_append_left (by simp [Comment.blockClose]; decide) hstarts

/-! ## A line of a statement -/

/-- A line that sets no delimiter is in a routine from the header on. -/
theorem Mode.hold_survey {m : Mode} {r : Survey} {raw : Text}
    (hdepth : m.inRoutine = false → m.depth = 0) (hcomment : m.inBlockComment = r.inComment)
    (hroutine : m.inRoutine = r.headed) (hclear : (r.read raw).clear = true)
    (hdirective : ∀ token, m.ending raw ≠ .directive token) :
    (m.hold raw).inBlockComment = (r.read raw).inComment ∧
      (m.hold raw).inRoutine = (r.read raw).headed := by
  by_cases hline : r.inComment = false ∧ Comment.isLineComment raw = true
  · obtain ⟨hout, hplain⟩ := hline
    have hreading : reading m.inBlockComment raw = .lineComment := by
      rw [hcomment, hout, reading_eq_iff]
      exact .lineComment (Comment.not_allBlank_of_isLineComment hplain) hplain
    rw [Survey.read_of_lineComment hout hplain, hold, hreading]
    exact ⟨hcomment, hroutine⟩
  · have hplain : r.inComment = false → Comment.isLineComment raw = false :=
      fun hout => Bool.eq_false_iff.2 fun h => hline ⟨hout, h⟩
    rw [Survey.read_of_plain hplain] at hclear ⊢
    have hclear_here : Clear r.inComment (trim raw) :=
      of_decide_eq_true (Bool.and_eq_true_iff.1 hclear).2
    by_cases htoken : ∃ token, reading m.inBlockComment raw = .directive token
    · -- in a routine, a `DELIMITER` line is one more line of it
      obtain ⟨token, htoken⟩ := htoken
      have hin : m.inRoutine = true := by
        by_contra hout
        apply hdirective token
        rw [ending, htoken]
        exact if_neg hout
      have hout := inComment_of_reading_directive htoken
      rw [← hcomment, hout] at hclear_here
      have hends : Comment.endsInside false (trim raw) = false := by
        rw [Comment.endsInside_eq hclear_here]
        rw [hout, reading_eq_iff] at htoken
        cases htoken with
        | directive _ _ hclosed => exact hclosed
      rw [hold, htoken, ← hcomment, ← hroutine, hout, hin, hends]
      exact ⟨rfl, rfl⟩
    · have hnest := nest_hold hdepth
        (show m.inBlockComment = false → Comment.isLineComment (trim raw) = false by
          rwa [Comment.isLineComment_trim, hcomment])
        (by simpa using htoken) (by rwa [hcomment])
      rw [hold_trim] at hnest
      have hin := congrArg Nest.inComment hnest
      have hheaded := congrArg Nest.inRoutine hnest
      rw [← hcomment, ← hroutine]
      exact ⟨hin, hheaded⟩

/-! ## The delimiter -/

/-- The delimiter does not go on with a word of the text, and makes up no comment mark. -/
structure Distinct (text d : Text) : Prop where
  word : endsWord d = true
  markless : Comment.Markless d
  apart : Comment.Apart Comment.blockMarks text d

/-- A delimiter changes neither the comments of a line nor whether there is a header on it. -/
theorem Survey.read_of_tail {r : Survey} {raw v d : Text} (hsolid : Solid d)
    (hv : v ++ d = trimEnd raw) (hdistinct : Distinct (trim v) d)
    (hplain : r.inComment = false → Comment.isLineComment raw = false)
    (hclear : (r.read v).clear = true) :
    (r.read raw).clear = true ∧ (r.read raw).headed = (r.read v).headed := by
  obtain ⟨w, hw, hraw⟩ := exists_trim_eq_append_solid hsolid hv
  have hmarkless := hdistinct.markless.blank_append hw
  have hapart := hdistinct.apart.blank_append (by decide) hw
  have hfront : r.inComment = false → Comment.isLineComment v = false := by
    intro hout
    rw [Bool.eq_false_iff]
    intro hcomment
    have hwhole := Comment.isLineComment_of_isPrefix (List.prefix_append v d) hcomment
    rw [hv, ← Comment.isLineComment_trim, trim_trimEnd, Comment.isLineComment_trim, hplain hout]
      at hwhole
    contradiction
  rw [read_of_plain hfront] at hclear ⊢
  rw [read_of_plain hplain, hraw]
  obtain ⟨hbefore, hhere⟩ := Bool.and_eq_true_iff.1 hclear
  constructor
  · have hclear_raw := Clear.append (of_decide_eq_true hhere) hmarkless hapart
    exact Bool.and_eq_true_iff.2 ⟨hbefore, decide_eq_true hclear_raw⟩
  · rcases Comment.stripFrom_append hmarkless r.inComment hapart with htail | hsame
    · simp only
      rw [htail, ← List.append_assoc, Routine.starts_append_solid hsolid hdistinct.word,
        ← Routine.starts_trim, trim_append_blank hw, Routine.starts_trim]
    · simp only
      rw [hsame]

/-! ## Along the lines of a script -/

structure Attends (s : Scanner) (lines : List Text) : Prop where
  carries : s.Carries lines
  feed : ∀ line ∈ lines, '\n' ∉ line
  agrees : (survey lines).clear = true →
    s.inBlockComment = (survey lines).inComment ∧ s.inRoutine = (survey lines).headed

def Classified (statement : Statement) : Prop :=
  statement.kind ≠ .directive → (survey (lines statement.text)).clear = true →
    (∀ d ∈ statement.terminator, Distinct statement.text d) →
    (statement.kind = .routine ↔ (survey (lines statement.text)).headed = true)

theorem Carries.attends {s : Scanner} (h : s.Carries []) : s.Attends [] where
  carries := h
  feed := by simp
  agrees := fun _ => ⟨h.inBlockComment_eq_false, h.inRoutine_eq_false⟩

namespace Attends

variable {s : Scanner} {lines : List Text} {raw : Text}

theorem agrees_hold (h : s.Attends lines) (hclear : ((survey lines).read raw).clear = true)
    (hdirective : ∀ token, s.mode.ending raw ≠ .directive token) :
    (s.hold raw).inBlockComment = ((survey lines).read raw).inComment ∧
      (s.hold raw).inRoutine = ((survey lines).read raw).headed := by
  obtain ⟨hcomment, hroutine⟩ := h.agrees (Survey.clear_of_read hclear)
  have hmode := Mode.hold_survey (m := s.mode) h.carries.depth hcomment hroutine hclear hdirective
  rwa [← mode_hold] at hmode

theorem hold (h : s.Attends lines) (hraw : '\n' ∉ raw)
    (hdirective : ∀ token, s.mode.ending raw ≠ .directive token) :
    (s.hold raw).Attends (withLine lines raw) := by
  by_cases hidle : lines = [] ∧ AllBlank raw
  · obtain ⟨rfl, hblank⟩ := hidle
    rw [withLine_nil_of_blank hblank]
    exact (h.carries.hold_blank hblank).attends
  · have hwith : withLine lines raw = lines ++ [raw] := if_neg hidle
    have hcarries := h.carries.hold raw
    rw [hwith] at hcarries ⊢
    exact {
      carries := hcarries
      feed := List.forall_mem_append.2 ⟨h.feed, List.forall_mem_singleton.2 hraw⟩
      agrees := by
        intro hclear
        rw [Survey.survey_concat] at hclear ⊢
        exact h.agrees_hold hclear hdirective }

private theorem classified_unterminated (h : s.Attends lines) : Classified (s.underWay false) := by
  intro _ hclear _
  have hsurvey := Survey.survey_text (h.carries.hasLines_text h.feed)
  rw [hsurvey] at hclear ⊢
  rw [← (h.agrees hclear).2]
  simp [underWay]

private theorem classified_closing (h : s.Attends lines) (hraw : '\n' ∉ raw)
    (hclosing : s.mode.ending raw = .closing) (hne : ((s.hold raw).underWay true).text ≠ []) :
    Classified ((s.hold raw).underWay true) := by
  obtain ⟨v, hv, htext⟩ := h.carries.text_of_closing hclosing
  have hdelimiter := hold_delimiter_of_closing h.carries.delimiter hclosing
  have hsurvey := Survey.survey_text (h.carries.hasLines_text_of_closing h.feed hraw hv htext hne)
  intro _ hclear hdistinct
  have hfits : Distinct (trim v) s.delimiter := by
    have hwhole : Distinct ((s.hold raw).underWay true).text s.delimiter :=
      hdistinct _ (congrArg some hdelimiter)
    refine ⟨hwhole.word, hwhole.markless, ?_⟩
    by_cases hblank : AllBlank v
    · rw [trim_eq_nil.2 hblank]
      exact Comment.apart_nil _
    · have hapart := hwhole.apart
      rw [htext] at hapart
      exact hapart.congr (getLast?_trim_append hblank _).symm
  rw [hsurvey, Survey.survey_concat] at hclear ⊢
  have hcomment := (h.agrees (Survey.clear_of_read hclear)).1
  have hplain : (survey lines).inComment = false → Comment.isLineComment raw = false := by
    intro hout
    cases Mode.reads_code_of_closing hclosing (hcomment.trans hout) with
    | code _ hplain => exact hplain
  obtain ⟨hclear_raw, hheaded⟩ :=
    Survey.read_of_tail h.carries.delimiter hv.symm hfits hplain hclear
  rw [← hheaded, ← (h.agrees_hold hclear_raw (by simp [hclosing])).2]
  simp [underWay]

end Attends

theorem invariant_attends : Invariant Attends Classified where
  carries := Attends.carries
  idle := Carries.attends
  hold := fun h hraw hopen => h.hold hraw (by simp [hopen])
  closing := Attends.classified_closing
  underWay := fun h _ => h.classified_unterminated
  directive := fun _ _ hkind => absurd rfl hkind

/-- A statement with clear comments is a routine if the code on a line of it has a routine header,
and only then.  If no comment begins on that line, the header is found in the text as a whole as
well. -/
theorem kind_eq_routine_iff {script : Text} {statement : Statement}
    (hmem : statement ∈ split script) (hkind : statement.kind ≠ .directive)
    (hclear : (survey (lines statement.text)).clear = true)
    (hdistinct : ∀ d ∈ statement.terminator, Distinct statement.text d) :
    (statement.kind = .routine ↔ (survey (lines statement.text)).headed = true) ∧
    (statement.kind = .routine → ∃ front line, HeadedAt statement.text front line) ∧
    ∀ front line, HeadedAt statement.text front line → includes Comment.blockOpen line = false →
      Routine.starts statement.text = true := by
  have hiff := invariant_attends.of_mem_split hmem hkind hclear hdistinct
  exact ⟨hiff, fun hroutine => exists_headedAt (hiff.1 hroutine), fun _ _ => HeadedAt.starts_text⟩

def blockUnderDelimiter : Text :=
  "DELIMITER $$\nCREATE PROCEDURE p()\nBEGIN /* a */ -- b\nSELECT 1;\nEND$$\n".toList

theorem blockUnderDelimiter_routine :
    (survey (lines "CREATE PROCEDURE p()\nBEGIN /* a */ -- b\nSELECT 1;\nEND".toList)).headed =
        true ∧
      Routine.starts "CREATE PROCEDURE p()\nBEGIN /* a */ -- b\nSELECT 1;\nEND".toList = true := by
  have hmem : ⟨"CREATE PROCEDURE p()\nBEGIN /* a */ -- b\nSELECT 1;\nEND".toList, 2, .routine,
      some ['$', '$']⟩ ∈ split blockUnderDelimiter := by decide +kernel
  have hdistinct :
      Distinct "CREATE PROCEDURE p()\nBEGIN /* a */ -- b\nSELECT 1;\nEND".toList ['$', '$'] :=
    ⟨by decide +kernel, ⟨by decide +kernel, by decide +kernel⟩, by decide +kernel⟩
  have hheaded : HeadedAt "CREATE PROCEDURE p()\nBEGIN /* a */ -- b\nSELECT 1;\nEND".toList []
      "CREATE PROCEDURE p()".toList :=
    ⟨⟨["BEGIN /* a */ -- b", "SELECT 1;", "END"].map String.toList, by decide +kernel⟩,
      by decide +kernel, by decide +kernel⟩
  obtain ⟨hiff, -, hstarts⟩ := kind_eq_routine_iff hmem (by decide) (by decide +kernel)
    fun d hd => by cases hd; exact hdistinct
  exact ⟨hiff.1 rfl, hstarts _ _ hheaded (by decide +kernel)⟩

def headerOnTwoLines : Text := "CREATE\nPROCEDURE p() SELECT 1;".toList

/-- A header on two lines is found in the text of the statement, but makes no routine. -/
theorem headerOnTwoLines_ordinary :
    ¬ ∀ statement ∈ split headerOnTwoLines, statement.kind ≠ .directive →
      (statement.kind = .routine ↔ Routine.starts statement.text = true) := by
  decide +kernel

/-- A header around a comment makes a routine, but is not found in the text. -/
theorem headerAroundComment_routine :
    ¬ ∀ statement ∈ split "CREATE /* x */ PROCEDURE p() SELECT 1;".toList,
      statement.kind ≠ .directive →
      (statement.kind = .routine ↔ Routine.starts statement.text = true) := by
  decide +kernel

end SqlBatch.Scanner
