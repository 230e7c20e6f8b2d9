import SqlBatch.Scanner
import SqlBatch.Proofs.Comment
import SqlBatch.Proofs.Routine.Header
import SqlBatch.Proofs.Routine.Block
/-!
# What a line does to a scanner

How a scanner reads a line, and whether the line ends a statement, is decided by a small part of its
state, the mode, and by the line without its blank ends.  `feed_of_open`, `feed_of_closing` and
`feed_of_directive` are the three things that feeding a line may do; `mode_hold` says that the mode
of the scanner behind a line comes from the mode before it.
-/

namespace SqlBatch.Scanner

open Text

inductive Reading where
  /-- Part of a block comment that is open at both ends of the line. -/
  | comment
  /-- The end of a block comment, and the code behind it. -/
  | commentEnd (code : Text)
  | blank
  | lineComment
  /-- Code that leaves a block comment open. -/
  | commentStart
  | directive (token : Text)
  | code
  deriving DecidableEq

/-- The reading of a line; `inComment` says whether it starts within a block comment. -/
def reading (inComment : Bool) (raw : Text) : Reading :=
  let line := trim raw
  if inComment then
    match Comment.afterBlock? line with
    | none => .comment
    | some code => if Comment.leavesBlockOpen code then .comment else .commentEnd (trim code)
  else if line.isEmpty then .blank
  else if Comment.isLineComment line then .lineComment
  else if Comment.leavesBlockOpen line then .commentStart
  else match Delimiter.directive? line with
    | some token => .directive token
    | none => .code

inductive Reads : Bool → Text → Reading → Prop where
  | comment {raw : Text}
    (stays : ∀ code, Comment.afterBlock? (trim raw) = some code →
      Comment.leavesBlockOpen code = true) : Reads true raw .comment
  | commentEnd {raw after : Text} (closes : Comment.afterBlock? (trim raw) = some after)
    (closed : Comment.leavesBlockOpen after = false) : Reads true raw (.commentEnd (trim after))
  | blank {raw : Text} (blank : AllBlank raw) : Reads false raw .blank
  | lineComment {raw : Text} (ink : ¬ AllBlank raw) (comment : Comment.isLineComment raw = true) :
    Reads false raw .lineComment
  | commentStart {raw : Text} (ink : ¬ AllBlank raw) (plain : Comment.isLineComment raw = false)
    (opens : Comment.leavesBlockOpen (trim raw) = true) : Reads false raw .commentStart
  | directive {raw token : Text} (ink : ¬ AllBlank raw) (plain : Comment.isLineComment raw = false)
    (closed : Comment.leavesBlockOpen (trim raw) = false)
    (names : Delimiter.directive? raw = some token) : Reads false raw (.directive token)
  | code {raw : Text} (ink : ¬ AllBlank raw) (plain : Comment.isLineComment raw = false)
    (closed : Comment.leavesBlockOpen (trim raw) = false)
    (names : Delimiter.directive? raw = none) : Reads false raw .code

theorem reads_reading (inComment : Bool) (raw : Text) :
    Reads inComment raw (reading inComment raw) := by
  unfold reading
  cases inComment with
  | true =>
      simp only [if_true]
      cases hafter : Comment.afterBlock? (trim raw) with
      | none => exact .comment fun code hcode => by rw [hafter] at hcode; contradiction
      | some after =>
          show Reads true raw (if Comment.leavesBlockOpen after then _ else _)
          cases hopen : Comment.leavesBlockOpen after with
          | true =>
              rw [if_pos rfl]
              refine .comment fun code hcode => ?_
              obtain rfl : after = code := by simpa [hafter] using hcode
              exact hopen
          | false =>
              rw [if_neg Bool.false_ne_true]
              exact .commentEnd hafter hopen
  | false =>
      simp only [Bool.false_eq_true, if_false, Comment.isLineComment_trim,
        Delimiter.directive?_trim, List.isEmpty_iff, trim_eq_nil]
      by_cases hblank : AllBlank raw
      · rw [if_pos hblank]
        exact .blank hblank
      · rw [if_neg hblank]
        cases hplain : Comment.isLineComment raw with
        | true => exact .lineComment hblank hplain
        | false =>
            cases hopen : Comment.leavesBlockOpen (trim raw) with
            | true => exact .commentStart hblank hplain hopen
            | false =>
                cases htoken : Delimiter.directive? raw with
                | some token => exact .directive hblank hplain hopen htoken
                | none => exact .code hblank hplain hopen htoken

theorem Reads.unique {inComment : Bool} {raw : Text} {r q : Reading} (hr : Reads inComment raw r)
    (hq : Reads inComment raw q) : r = q := by
  cases hr <;> cases hq <;> simp_all

theorem reading_eq_iff {inComment : Bool} {raw : Text} {r : Reading} :
    reading inComment raw = r ↔ Reads inComment raw r := by
  constructor
  · rintro rfl
    exact reads_reading inComment raw
  · exact (reads_reading inComment raw).unique

theorem allBlank_of_reading {inComment : Bool} {raw : Text}
    (h : reading inComment raw = .blank) : AllBlank raw := by
  cases reading_eq_iff.1 h with
  | blank hblank => exact hblank

theorem commentEnd_of_reading {inComment : Bool} {raw code : Text}
    (h : reading inComment raw = .commentEnd code) :
    inComment = true ∧ ∃ after, Comment.afterBlock? (trim raw) = some after ∧
      Comment.leavesBlockOpen after = false ∧ code = trim after := by
  cases reading_eq_iff.1 h with
  | commentEnd closes closed => exact ⟨rfl, _, closes, closed, rfl⟩

theorem inComment_of_reading_code {inComment : Bool} {raw : Text}
    (h : reading inComment raw = .code) : inComment = false := by
  cases reading_eq_iff.1 h with
  | code => rfl

theorem inComment_of_reading_directive {inComment : Bool} {raw token : Text}
    (h : reading inComment raw = .directive token) : inComment = false := by
  cases reading_eq_iff.1 h with
  | directive => rfl

theorem not_allBlank_of_reading_directive {inComment : Bool} {raw token : Text}
    (h : reading inComment raw = .directive token) : ¬ AllBlank raw := by
  cases reading_eq_iff.1 h with
  | directive ink => exact ink

theorem directive?_of_reading {inComment : Bool} {raw token : Text}
    (h : reading inComment raw = .directive token) : Delimiter.directive? raw = some token := by
  cases reading_eq_iff.1 h with
  | directive _ _ _ names => exact names

/-- The part of a scanner that decides what becomes of the next line. -/
structure Mode where
  delimiter : Text
  inBlockComment : Bool
  inRoutine : Bool
  depth : Nat
  deriving DecidableEq

def mode (s : Scanner) : Mode := ⟨s.delimiter, s.inBlockComment, s.inRoutine, s.depth⟩

inductive Ending where
  /-- The statement, if one is under way, goes on. -/
  | open
  /-- The delimiter ends the statement on this line. -/
  | closing
  /-- The statement before this line ends without a delimiter. -/
  | directive (token : Text)
  deriving DecidableEq

namespace Mode

def track (m : Mode) (line : Text) : Mode :=
  let code := Comment.stripBlocks line
  if m.inRoutine || Routine.starts code then
    { m with
      inRoutine := true
      depth := (if m.inRoutine then m.depth else 0) + (Routine.balance code).opened -
        (Routine.balance code).closed }
  else m

@[simp] theorem track_delimiter (m : Mode) (line : Text) :
    (m.track line).delimiter = m.delimiter := by
  simp only [track, apply_ite Mode.delimiter, ite_self]

@[simp] theorem track_inBlockComment (m : Mode) (line : Text) :
    (m.track line).inBlockComment = m.inBlockComment := by
  simp only [track, apply_ite Mode.inBlockComment, ite_self]

@[simp] theorem track_inRoutine (m : Mode) (line : Text) :
    (m.track line).inRoutine = (m.inRoutine || Routine.starts (Comment.stripBlocks line)) := by
  simp only [track, apply_ite Mode.inRoutine]
  cases m.inRoutine <;> cases Routine.starts (Comment.stripBlocks line) <;> rfl

/-- The mode behind a line, as long as the line ends no statement. -/
def hold (m : Mode) (raw : Text) : Mode :=
  match reading m.inBlockComment raw with
  | .comment | .blank | .lineComment => m
  | .commentEnd code => { m with inBlockComment := false }.track code
  | .commentStart => { m with inBlockComment := true }.track (trim raw)
  | .directive token => { m with delimiter := token }
  | .code => m.track (trim raw)

def atSurface (m : Mode) : Bool := !m.inRoutine || m.depth == 0

def endingAt (m : Mode) (code : Text) : Ending :=
  if m.delimiter.isSuffixOf code && (m.track code).atSurface then .closing else .open

def ending (m : Mode) (raw : Text) : Ending :=
  match reading m.inBlockComment raw with
  | .directive token => if m.inRoutine then .open else .directive token
  | .commentEnd code => { m with inBlockComment := false }.endingAt code
  | .code => m.endingAt (trim raw)
  | _ => .open

end Mode

/-- The scanner behind a line, as long as the line ends no statement. -/
def hold (s : Scanner) (raw : Text) : Scanner :=
  let next := { s with lineNumber := s.lineNumber + 1 }
  match reading s.inBlockComment raw with
  | .comment | .lineComment => next.append raw
  | .commentEnd code => { next.append raw with inBlockComment := false }.track code
  | .blank => next.appendBlank
  | .commentStart => ({ next.append raw with inBlockComment := true }).track (trim raw)
  | .directive token => { next.append raw with delimiter := token }
  | .code => (next.append raw).track (trim raw)

/-! ## The mode of each operation -/

theorem track_eq (s : Scanner) (line : Text) :
    s.track line =
      if s.inRoutine || Routine.starts (Comment.stripBlocks line) then
        { s with
          inRoutine := true
          depth := (s.mode.track line).depth
          routineStart := if s.inRoutine then s.routineStart else s.lineNumber }
      else s := by
  -- a line with no code but blanks is skipped, and it would count for nothing anyway
  have hblank : (trim (Comment.stripBlocks line)).isEmpty = true →
      Routine.starts (Comment.stripBlocks line) = false ∧
        Routine.balance (Comment.stripBlocks line) = ⟨0, 0⟩ := by
    intro hempty
    have hwordless : Wordless (Comment.stripBlocks line) :=
      AllBlank.wordless (trim_eq_nil.1 (List.isEmpty_iff.1 hempty))
    exact ⟨Routine.starts_wordless hwordless, Routine.balance_wordless hwordless⟩
  obtain ⟨delimiter, buffer, bufferStart, inComment, inRoutine, depth⟩ := s
  simp only [track, Mode.track, mode, Routine.starts_trim, Routine.balance_trim]
  split
  · next hempty =>
    obtain ⟨hstarts, hbalance⟩ := hblank hempty
    cases inRoutine <;> simp [hstarts, hbalance]
  · cases inRoutine <;> cases Routine.starts (Comment.stripBlocks line) <;> simp

theorem mode_track (s : Scanner) (line : Text) : (s.track line).mode = s.mode.track line := by
  rw [track_eq]
  unfold Mode.track mode
  split <;> simp_all

theorem mode_appendBlank (s : Scanner) : s.appendBlank.mode = s.mode := by
  unfold appendBlank
  split <;> rfl

theorem mode_hold (s : Scanner) (raw : Text) : (s.hold raw).mode = s.mode.hold raw := by
  unfold hold Mode.hold
  have hcomment : s.mode.inBlockComment = s.inBlockComment := rfl
  rw [hcomment]
  cases reading s.inBlockComment raw with
  | comment => rfl
  | lineComment => rfl
  | commentEnd code => exact mode_track _ _
  | blank => exact mode_appendBlank _
  | commentStart => exact mode_track _ _
  | directive token => rfl
  | code => exact mode_track _ _

def unlessEmpty (statement : Statement) : List Statement :=
  if statement.text.isEmpty then [] else [statement]

/-- The statement under way, as it is when the delimiter or something else ends it. -/
def underWay (s : Scanner) (terminated : Bool) : Statement where
  text := if terminated then Delimiter.strip s.delimiter s.buffer else trim s.buffer
  line := if s.inRoutine then s.routineStart else s.bufferStart.getD s.lineNumber
  kind := if s.inRoutine then .routine else .ordinary
  terminator := if terminated then some s.delimiter else none

theorem unlessEmpty_of_nil {statement : Statement} (h : statement.text = []) :
    unlessEmpty statement = [] := if_pos (List.isEmpty_iff.2 h)

theorem unlessEmpty_of_ne_nil {statement : Statement} (h : statement.text ≠ []) :
    unlessEmpty statement = [statement] := if_neg (mt List.isEmpty_iff.1 h)

theorem queue_eq (s : Scanner) (statement : Statement) :
    s.queue statement = { s with ready := s.ready ++ unlessEmpty statement } := by
  unfold queue unlessEmpty
  split
  · rw [List.append_nil]
  · rfl

theorem flush_eq (s : Scanner) (terminated : Bool) :
    s.flush terminated =
      { s with
        buffer := []
        bufferStart := none
        inRoutine := false
        depth := if s.inRoutine then 0 else s.depth
        ready := s.ready ++ unlessEmpty (s.underWay terminated) } := by
  obtain ⟨delimiter, buffer, bufferStart, inComment, inRoutine, depth⟩ := s
  cases inRoutine <;> simp [flush, queue_eq, underWay]

theorem ready_finish (s : Scanner) :
    s.finish.ready = s.ready ++ unlessEmpty (s.underWay false) := by
  rw [finish, flush_eq]

/-! ## The three things that a line may do -/

theorem track_delimiter (s : Scanner) (line : Text) : (s.track line).delimiter = s.delimiter := by
  rw [track_eq]
  split <;> rfl

theorem Mode.endingAt_eq (m : Mode) (code : Text) :
    m.endingAt code = .closing ∨ m.endingAt code = .open := by
  unfold endingAt
  split
  · exact .inl rfl
  · exact .inr rfl

theorem Mode.reading_of_ending_directive {m : Mode} {raw token : Text}
    (h : m.ending raw = .directive token) :
    reading m.inBlockComment raw = .directive token ∧ m.inRoutine = false := by
  have hcode : ∀ (n : Mode) (code : Text), n.endingAt code ≠ .directive token := by
    intro n code
    rcases n.endingAt_eq code with hn | hn <;> simp [hn]
  unfold ending at h
  cases hreading : reading m.inBlockComment raw with
  | directive other =>
      rw [hreading] at h
      cases hroutine : m.inRoutine <;> simp_all
  | commentEnd code =>
      rw [hreading] at h
      exact absurd h (hcode _ _)
  | code =>
      rw [hreading] at h
      exact absurd h (hcode _ _)
  | _ =>
      rw [hreading] at h
      contradiction

theorem complete_eq (s : Scanner) (code : Text) :
    s.complete code =
      if s.mode.endingAt code = .closing then (s.track code).flush true else s.track code := by
  have htest : (s.mode.endingAt code = .closing) =
      ((s.track code).delimiter.isSuffixOf code &&
        (!(s.track code).inRoutine || (s.track code).depth == 0)) := by
    unfold Mode.endingAt
    rw [← mode_track, track_delimiter]
    have hsurface : (s.track code).mode.atSurface =
        (!(s.track code).inRoutine || (s.track code).depth == 0) := rfl
    rw [hsurface]
    split <;> simp_all [mode]
  simp only [complete, htest]

def counted (s : Scanner) : Scanner := { s with lineNumber := s.lineNumber + 1 }

theorem feed_eq (s : Scanner) (raw : Text) :
    s.feed raw =
      match reading s.inBlockComment raw with
      | .comment | .lineComment => s.counted.append raw
      | .commentEnd code => { s.counted.append raw with inBlockComment := false }.complete code
      | .blank => s.counted.appendBlank
      | .commentStart =>
        ({ s.counted.append raw with inBlockComment := true }).track (trim raw)
      | .directive token => s.counted.feedDirective raw token
      | .code => (s.counted.append raw).complete (trim raw) := by
  obtain ⟨delimiter, buffer, bufferStart, inComment, inRoutine, depth⟩ := s
  unfold feed reading
  cases inComment with
  | true =>
      simp only [feedComment, if_true]
      cases Comment.afterBlock? (trim raw) with
      | none => rfl
      | some code => cases hopen : Comment.leavesBlockOpen code <;> simp [hopen, counted]
  | false =>
      simp only [Bool.false_eq_true, if_false]
      split
      · rfl
      · split
        · rfl
        · split
          · rfl
          · cases Delimiter.directive? (trim raw) <;> rfl

def directiveOn (s : Scanner) (raw : Text) : Statement :=
  ⟨trim raw, s.lineNumber + 1, .directive, none⟩

/-- A line leaves the statement under way open, or the delimiter ends it there, or a `DELIMITER`
line ends it before that line. -/
theorem feed_eq_ending (s : Scanner) (raw : Text) :
    s.feed raw =
      match s.mode.ending raw with
      | .open => s.hold raw
      | .closing => (s.hold raw).flush true
      | .directive token =>
        { (s.counted.flush false).queue (s.directiveOn raw) with delimiter := token } := by
  have hcode : ∀ (t : Scanner) (code : Text), t.complete code =
      match t.mode.endingAt code with
      | .open => t.track code
      | .closing => (t.track code).flush true
      | .directive token =>
        { (s.counted.flush false).queue (s.directiveOn raw) with delimiter := token } := by
    intro t code
    rw [complete_eq]
    rcases t.mode.endingAt_eq code with h | h <;> simp [h]
  rw [feed_eq]
  unfold Mode.ending hold
  have hcomment : s.mode.inBlockComment = s.inBlockComment := rfl
  rw [hcomment]
  cases reading s.inBlockComment raw with
  | comment => rfl
  | lineComment => rfl
  | blank => rfl
  | commentStart => rfl
  | commentEnd code => exact hcode { s.counted.append raw with inBlockComment := false } code
  | directive token =>
      have hroutine : s.counted.inRoutine = s.mode.inRoutine := rfl
      cases h : s.mode.inRoutine with
      | true =>
          simp only [feedDirective, hroutine, h, if_true]
          rfl
      | false =>
          simp only [feedDirective, hroutine, h, Bool.false_eq_true, if_false]
          rfl
  | code => exact hcode (s.counted.append raw) (trim raw)

theorem feed_of_open {s : Scanner} {raw : Text} (h : s.mode.ending raw = .open) :
    s.feed raw = s.hold raw := by
  rw [feed_eq_ending, h]

theorem feed_of_closing {s : Scanner} {raw : Text} (h : s.mode.ending raw = .closing) :
    s.feed raw = (s.hold raw).flush true := by
  rw [feed_eq_ending, h]

theorem feed_of_directive {s : Scanner} {raw token : Text}
    (h : s.mode.ending raw = .directive token) :
    s.feed raw = { (s.counted.flush false).queue (s.directiveOn raw) with delimiter := token } := by
  rw [feed_eq_ending, h]

/-! ## Only the line without its blank ends counts -/

@[simp] theorem reading_trim (inComment : Bool) (raw : Text) :
    reading inComment (trim raw) = reading inComment raw := by
  simp only [reading, trim_trim]

namespace Mode

@[simp] theorem hold_trim (m : Mode) (raw : Text) : m.hold (trim raw) = m.hold raw := by
  simp only [hold, reading_trim, trim_trim]

@[simp] theorem ending_trim (m : Mode) (raw : Text) : m.ending (trim raw) = m.ending raw := by
  simp only [ending, reading_trim, trim_trim]

theorem hold_congr {raw other : Text} (h : trim raw = trim other) (m : Mode) :
    m.hold raw = m.hold other := by
  rw [← hold_trim, h, hold_trim]

theorem ending_congr {raw other : Text} (h : trim raw = trim other) (m : Mode) :
    m.ending raw = m.ending other := by
  rw [← ending_trim, h, ending_trim]

theorem reading_of_blank (inComment : Bool) {raw : Text} (h : AllBlank raw) :
    reading inComment raw = if inComment then .comment else .blank := by
  cases inComment with
  | false => exact reading_eq_iff.2 (.blank h)
  | true =>
      refine reading_eq_iff.2 (.comment fun code hcode => ?_)
      rw [trim_eq_nil.2 h] at hcode
      contradiction

theorem hold_of_blank (m : Mode) {raw : Text} (h : AllBlank raw) : m.hold raw = m := by
  rw [hold, reading_of_blank _ h]
  cases m.inBlockComment <;> rfl

theorem ending_of_blank (m : Mode) {raw : Text} (h : AllBlank raw) : m.ending raw = .open := by
  rw [ending, reading_of_blank _ h]
  cases m.inBlockComment <;> rfl

end Mode

/-! ## Lines without block comments -/

def Coded (raw : Text) : Prop := ¬ AllBlank raw ∧ Comment.isLineComment raw = false

instance (raw : Text) : Decidable (Coded raw) :=
  inferInstanceAs (Decidable (¬ AllBlank raw ∧ _))

/-- A line that takes part in no block comment and sets no delimiter. -/
def Plain (raw : Text) : Prop :=
  includes Comment.blockOpen raw = false ∧ Delimiter.directive? raw = none

section Plain

variable {m : Mode} {raw : Text} (hplain : includes Comment.blockOpen raw = false)

include hplain

theorem reading_of_plain :
    reading false raw =
      if AllBlank raw then .blank
      else if Comment.isLineComment raw then .lineComment
      else match Delimiter.directive? raw with
        | some token => .directive token
        | none => .code := by
  have hclosed : Comment.leavesBlockOpen (trim raw) = false :=
    Comment.leavesBlockOpen_eq_false
      (Comment.includes_blockOpen_of_isInfix (trim_isInfix raw) hplain)
  rw [reading, if_neg Bool.false_ne_true]
  simp only [List.isEmpty_iff, trim_eq_nil, Comment.isLineComment_trim, hclosed,
    Delimiter.directive?_trim, Bool.false_eq_true, if_false]

theorem Mode.track_of_plain :
    m.track (trim raw) =
      if m.inRoutine || Routine.starts raw then
        { m with
          inRoutine := true
          depth := (if m.inRoutine then m.depth else 0) + (Routine.balance raw).opened -
            (Routine.balance raw).closed }
      else m := by
  have hcode : Comment.stripBlocks (trim raw) = trim raw :=
    Comment.stripBlocks_eq_self
      (Comment.includes_blockOpen_of_isInfix (trim_isInfix raw) hplain)
  simp only [Mode.track, hcode, Routine.starts_trim, Routine.balance_trim]

end Plain

namespace Mode

variable {m : Mode} {raw : Text}

theorem hold_of_not_coded (hopen : includes Comment.blockOpen raw = false)
    (hout : m.inBlockComment = false) (hcoded : ¬ Coded raw) :
    m.hold raw = m ∧ m.ending raw = .open := by
  have hreading := reading_of_plain hopen
  by_cases hblank : AllBlank raw
  · exact ⟨hold_of_blank m hblank, ending_of_blank m hblank⟩
  · have hcomment : Comment.isLineComment raw = true := by
      by_contra hnot
      exact hcoded ⟨hblank, Bool.eq_false_iff.2 hnot⟩
    rw [if_neg hblank, if_pos hcomment] at hreading
    rw [hold, ending, hout, hreading]
    exact ⟨rfl, rfl⟩

theorem hold_of_coded (hraw : Plain raw) (hout : m.inBlockComment = false) (hcoded : Coded raw) :
    m.hold raw = m.track (trim raw) ∧ m.ending raw = m.endingAt (trim raw) := by
  have hreading := reading_of_plain hraw.1
  rw [if_neg hcoded.1, hcoded.2, if_neg Bool.false_ne_true, hraw.2] at hreading
  rw [hold, ending, hout, hreading]
  exact ⟨rfl, rfl⟩

end Mode

end SqlBatch.Scanner
