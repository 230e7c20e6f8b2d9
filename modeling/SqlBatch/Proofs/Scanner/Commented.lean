import SqlBatch.Proofs.Comment.Spans
import SqlBatch.Proofs.Scanner.Segmentation
import SqlBatch.Proofs.Scanner.Stays
/-!
# Routines with block comments

What a scanner counts of a routine, compared with a reading from left to right that takes all code
outside of comments (`Nest.read`).  The two agree on lines with clear comments (`nest_feedAll`).
They differ where a line closes a comment from an earlier line and opens another one behind some
code: the scanner does not count that code.
-/

namespace SqlBatch.Scanner

open Text

/-- A routine under way, as reading from left to right finds it. -/
structure Nest where
  inComment : Bool := false
  inRoutine : Bool := false
  depth : Nat := 0
  deriving DecidableEq

namespace Nest

def count (n : Nest) (inComment : Bool) (code : Text) : Nest where
  inComment
  inRoutine := n.inRoutine || Routine.starts code
  depth :=
    if n.inRoutine || Routine.starts code then
      n.depth + (Routine.balance code).opened - (Routine.balance code).closed
    else n.depth

/-- Takes all code of a line that lies outside of block comments. -/
def read (n : Nest) (line : Text) : Nest :=
  n.count (Comment.endsInside n.inComment line) (Comment.stripFrom n.inComment line)

def readAll (n : Nest) (lines : List Text) : Nest := lines.foldl read n

private theorem count_congr {code other : Text} (h : trim code = trim other) (n : Nest)
    (inComment : Bool) : n.count inComment code = n.count inComment other := by
  rw [count, count, ← Routine.starts_trim code, ← Routine.balance_trim code, h,
    Routine.starts_trim, Routine.balance_trim]

theorem count_of_wordless {code : Text} (h : Wordless code) (n : Nest) (inComment : Bool) :
    n.count inComment code = { n with inComment } := by
  simp [count, Routine.starts_wordless h, Routine.balance_wordless h]

end Nest

/-- The comments of a line can be told by their last marks: no two marks share a character, and if
the line starts within a comment, no mark stands behind the end of that comment. -/
def Clear : Bool → Text → Prop
  | true, line => Comment.goesOn line = false
  | false, line => Comment.Untangled line

instance : (inComment : Bool) → (line : Text) → Decidable (Clear inComment line)
  | true, line => inferInstanceAs (Decidable (Comment.goesOn line = false))
  | false, line => inferInstanceAs (Decidable (Comment.Untangled line))

theorem Clear.append {inComment : Bool} {line x : Text} (h : Clear inComment line)
    (hx : Comment.Markless x) (hapart : Comment.Apart Comment.blockMarks line x) :
    Clear inComment (line ++ x) := by
  cases inComment with
  | true => exact (Comment.goesOn_append hx hapart).trans h
  | false => exact Comment.Untangled.append hx hapart h

def AllClear (n : Nest) : List Text → Prop
  | [] => True
  | line :: rest => Clear n.inComment line ∧ AllClear (n.read line) rest

instance decidableAllClear : (n : Nest) → (lines : List Text) → Decidable (AllClear n lines)
  | _, [] => instDecidableTrue
  | n, line :: rest =>
    letI := decidableAllClear (n.read line) rest
    inferInstanceAs (Decidable (_ ∧ _))

/-! ## One line -/

namespace Mode

def nest (m : Mode) : Nest := ⟨m.inBlockComment, m.inRoutine, m.depth⟩

variable {m : Mode} (hdepth : m.inRoutine = false → m.depth = 0)

include hdepth

theorem nest_track (inComment : Bool) (line : Text) :
    (track { m with inBlockComment := inComment } line).nest =
      m.nest.count inComment (Comment.stripBlocks line) := by
  obtain ⟨delimiter, inBlockComment, inRoutine, depth⟩ := m
  cases inRoutine with
  | true => rfl
  | false =>
      obtain rfl : depth = 0 := hdepth rfl
      cases hstarts : Routine.starts (Comment.stripBlocks line) <;>
        simp [track, nest, Nest.count, hstarts]

variable {raw : Text}

private theorem nest_hold_inside (hin : m.inBlockComment = true)
    (hclear : Comment.goesOn raw = false) : (m.hold raw).nest = m.nest.read raw := by
  obtain ⟨w, hw, htrim⟩ := Comment.exists_afterBlock?_trim raw
  have hread : m.nest.read raw =
      m.nest.count (Comment.endsInside true raw) (Comment.stripFrom true raw) := by
    rw [← hin]
    rfl
  rcases Comment.code_of_not_goesOn hclear with
    ⟨hnone, hstrip, hends⟩ | ⟨after, hafter, hopen, hstrip, hends⟩
  · rw [hnone, eq_comm, Option.map_eq_none_iff] at htrim
    have hreading : reading m.inBlockComment raw = .comment := by
      rw [hin, reading_eq_iff]
      refine .comment fun code hcode => ?_
      rw [htrim] at hcode
      contradiction
    rw [hread, hstrip, hends, hold, hreading, Nest.count_of_wordless wordless_nil, ← hin]
    rfl
  · rw [hafter, eq_comm, Option.map_eq_some_iff] at htrim
    obtain ⟨code, hcode, rfl⟩ := htrim
    have hcode_open : includes Comment.blockOpen code = false :=
      Comment.includes_blockOpen_of_isInfix (List.prefix_append code w).isInfix hopen
    have hreading : reading m.inBlockComment raw = .commentEnd (trim code) := by
      rw [hin, reading_eq_iff]
      exact .commentEnd hcode (Comment.leavesBlockOpen_eq_false hcode_open)
    have hhold : m.hold raw = track { m with inBlockComment := false } (trim code) := by
      rw [hold, hreading]
    rw [hhold, track_trim, nest_track hdepth, Comment.stripBlocks_eq_self hcode_open, hread,
      hstrip, hends]
    exact Nest.count_congr (trim_append_blank hw code).symm _ _

private theorem nest_hold_outside (hout : m.inBlockComment = false)
    (hplain : Comment.isLineComment raw = false)
    (hdirective : ∀ token, reading false raw ≠ .directive token)
    (hclear : Comment.Untangled raw) : (m.hold raw).nest = m.nest.read raw := by
  have hends : Comment.endsInside false raw = Comment.leavesBlockOpen (trim raw) := by
    rw [Comment.endsInside_eq hclear, Comment.leavesBlockOpen_trim]
    rfl
  have hread : m.nest.read raw =
      m.nest.count (Comment.leavesBlockOpen (trim raw)) (Comment.stripBlocks raw) := by
    rw [← hends, ← hout]
    unfold Comment.stripBlocks
    rw [← hout]
    rfl
  have hreads := reads_reading m.inBlockComment raw
  unfold hold
  revert hreads hdirective
  rw [hout]
  generalize reading false raw = r
  intro hdirective hreads
  cases hreads with
  | blank hblank =>
      have hcode : Comment.stripBlocks raw = raw :=
        Comment.stripFrom_false_of_notMem (hblank.notMem (by decide))
      rw [hread, hcode, trim_eq_nil.2 hblank, Nest.count_of_wordless hblank.wordless, ← hout]
      exact congrArg (fun inComment => Nest.mk inComment m.inRoutine m.depth) hout
  | lineComment _ hcomment =>
      rw [hplain] at hcomment
      contradiction
  | commentStart _ _ hopens =>
      rw [hread, hopens, track_trim]
      exact nest_track hdepth true raw
  | directive => exact absurd rfl (hdirective _)
  | code _ _ hclosed =>
      have hsame : { m with inBlockComment := false } = m := by rw [← hout]
      rw [hread, hclosed, ← nest_track hdepth, hsame]
      exact congrArg nest (track_trim m raw)

theorem nest_hold (hplain : m.inBlockComment = false → Comment.isLineComment raw = false)
    (hdirective : ∀ token, reading m.inBlockComment raw ≠ .directive token)
    (hclear : Clear m.inBlockComment raw) : (m.hold raw).nest = m.nest.read raw := by
  cases hin : m.inBlockComment with
  | true =>
      rw [hin] at hclear
      exact nest_hold_inside hdepth hin hclear
  | false =>
      rw [hin] at hclear hdirective
      exact nest_hold_outside hdepth hin (hplain hin) hdirective hclear

end Mode

/-! ## Along the lines of a script -/

section Feed

variable {s : Scanner} {carried : List Text} (h : s.Carries carried)
  (hdelimiter : s.delimiter = Delimiter.initial)

include h hdelimiter

/-- A statement that a semicolon ends without a routine among those that are complete is none. -/
theorem inRoutine_eq_false_of_closing {raw : Text} (hclosing : s.mode.ending raw = .closing)
    (hopen : ∀ statement ∈ (s.feed raw).ready, statement.kind ≠ .routine) :
    (s.hold raw).inRoutine = false := by
  rw [ready_of_closing hclosing] at hopen
  by_cases hempty : ((s.hold raw).underWay true).text = []
  · -- the line is a semicolon and nothing else
    obtain ⟨rfl, hlone⟩ := h.lone_of_closing hclosing hempty
    obtain ⟨code, hcode, hsuffix, hhold, -⟩ :=
      Mode.exists_code_of_closing (m := s.mode) h.delimiter hclosing
    rw [hlone] at hcode
    obtain rfl : code = s.delimiter := hcode.eq_of_length_le hsuffix.length_le
    have hstarts : Routine.starts (Comment.stripBlocks Delimiter.initial) = false := by
      decide +kernel
    show (s.hold raw).mode.inRoutine = false
    rw [mode_hold, hhold, Mode.track_inRoutine, hdelimiter, hstarts, Bool.or_false]
    exact h.inRoutine_eq_false
  · have hkind := hopen ((s.hold raw).underWay true) (by simp [unlessEmpty_of_ne_nil hempty])
    rw [Bool.eq_false_iff]
    intro hin
    simp [underWay, hin] at hkind

theorem nest_feed {raw : Text} (hclear : Clear s.inBlockComment raw)
    (hplain : Comment.isLineComment raw = false) (hdirective : Delimiter.directive? raw = none)
    (hopen : ∀ statement ∈ (s.feed raw).ready, statement.kind ≠ .routine) :
    (s.feed raw).mode.nest = s.mode.nest.read raw ∧ (s.feed raw).delimiter = Delimiter.initial := by
  have hreading : ∀ token, reading s.inBlockComment raw ≠ .directive token := by
    intro token hreading
    rw [directive?_of_reading hreading] at hdirective
    contradiction
  have hhold := Mode.nest_hold (m := s.mode) h.depth (fun _ => hplain) hreading hclear
  rw [← mode_hold] at hhold
  cases hending : s.mode.ending raw with
  | «open» =>
      rw [feed_of_open hending, hold_delimiter_of_reading hreading]
      exact ⟨hhold, hdelimiter⟩
  | closing =>
      have hout := inRoutine_eq_false_of_closing h hdelimiter hending hopen
      rw [h.delimiter_of_closing hending]
      refine ⟨?_, hdelimiter⟩
      rw [← hhold, feed_of_closing hending, flush_eq, hout]
      simp [mode, Mode.nest, hout]
  | directive token => exact absurd (Mode.reading_of_ending_directive hending).1 (hreading token)

end Feed

theorem ready_isPrefix_feedAll (s : Scanner) (lines : List Text) :
    s.ready <+: (s.feedAll lines).ready := by
  induction lines generalizing s with
  | nil => exact List.prefix_refl _
  | cons raw lines ih => exact (ready_isPrefix_feed s raw).trans (ih (s.feed raw))

theorem nest_feedAll {s : Scanner} {carried lines : List Text} (h : s.Carries carried)
    (hdelimiter : s.delimiter = Delimiter.initial) (hclear : AllClear s.mode.nest lines)
    (hcode : ∀ line ∈ lines, Comment.isLineComment line = false ∧
      Delimiter.directive? line = none)
    (hopen : ∀ statement ∈ (s.feedAll lines).ready, statement.kind ≠ .routine) :
    (s.feedAll lines).mode.nest = s.mode.nest.readAll lines := by
  induction lines generalizing s carried with
  | nil => rfl
  | cons raw lines ih =>
      obtain ⟨hfirst, hrest⟩ := hclear
      obtain ⟨⟨hplain, hdirective⟩, hlater⟩ := List.forall_mem_cons.1 hcode
      obtain ⟨carried', hcarries⟩ := h.exists_feed raw
      obtain ⟨hnest, hsame⟩ := nest_feed h hdelimiter hfirst hplain hdirective
        fun statement hmem => hopen statement ((ready_isPrefix_feedAll _ lines).subset hmem)
      rw [← hnest] at hrest
      have hall := ih hcarries hsame hrest hlater hopen
      rw [hnest] at hall
      exact hall

/-- Until a routine is complete, a scanner counts the blocks of all code outside of comments, as
long as the comments of each line are clear. -/
theorem counts_code_outside_comments {lines : List Text} (hclear : AllClear {} lines)
    (hcode : ∀ line ∈ lines, Comment.isLineComment line = false ∧
      Delimiter.directive? line = none)
    (hopen : ∀ statement ∈ (({} : Scanner).feedAll lines).ready, statement.kind ≠ .routine) :
    (({} : Scanner).feedAll lines).inRoutine = (Nest.readAll {} lines).inRoutine ∧
      (({} : Scanner).feedAll lines).depth = (Nest.readAll {} lines).depth := by
  have hnest := nest_feedAll carries_initial rfl hclear hcode hopen
  exact ⟨congrArg Nest.inRoutine hnest, congrArg Nest.depth hnest⟩

def commentedRoutine : List Text :=
  ["CREATE /* a */ PROCEDURE p() /* b".toList, "c */ BEGIN".toList,
    "/* d */ SELECT 1; /* e */".toList]

theorem commentedRoutine_counts :
    (({} : Scanner).feedAll commentedRoutine).inRoutine = true ∧
      (({} : Scanner).feedAll commentedRoutine).depth = 1 := by
  have hread : Nest.readAll {} commentedRoutine = ⟨false, true, 1⟩ := by decide +kernel
  have hclear : AllClear {} commentedRoutine := by decide +kernel
  have hcounts := counts_code_outside_comments hclear (by decide +kernel) (by decide +kernel)
  rwa [hread] at hcounts

def blockBetweenComments : List Text :=
  ["CREATE PROCEDURE p()".toList, "/* a".toList, "b */ BEGIN /* c".toList]

/-- The `BEGIN` is code, but the scanner does not count it. -/
theorem blockBetweenComments_lost :
    (∀ line ∈ blockBetweenComments, Comment.isLineComment line = false ∧
      Delimiter.directive? line = none) ∧
    (({} : Scanner).feedAll blockBetweenComments).ready = [] ∧
    (({} : Scanner).feedAll blockBetweenComments).depth = 0 ∧
    (Nest.readAll {} blockBetweenComments).depth = 1 := by
  decide +kernel

end SqlBatch.Scanner
