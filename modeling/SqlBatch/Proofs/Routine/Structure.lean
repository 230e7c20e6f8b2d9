import SqlBatch.Routine.Structure
import SqlBatch.Proofs.Comment
import SqlBatch.Proofs.Routine.Block
import SqlBatch.Proofs.Routine.Spacing
import SqlBatch.Proofs.Text.Layout
import SqlBatch.Proofs.Text.Rows
/-!
# The structure of routines, and what does not count in it

A `Tally` is what is known of the blocks of a routine behind some of its lines; there are no faults
if the tally of all lines is sound and even (`faults_eq_nil_iff`).  Two texts are `Akin` if they have
the same header, the same name and the same tally.  The layout makes no difference to that
(`akin_of_relaid`).
-/

namespace SqlBatch.Routine

open Text

/-! ## Tallies -/

structure Tally where
  /-- A block comment is open. -/
  inComment : Bool := false
  /-- How many blocks are open. -/
  depth : Nat := 0
  /-- No line has closed more blocks than were open. -/
  sound : Bool := true
  deriving DecidableEq

namespace Tally

def count (t : Tally) (code : Text) : Tally where
  inComment := Comment.leavesBlockOpen code
  depth := t.depth + (balance (Comment.stripBlocks code)).opened -
    (balance (Comment.stripBlocks code)).closed
  sound := t.sound && decide ((balance (Comment.stripBlocks code)).closed ≤
    t.depth + (balance (Comment.stripBlocks code)).opened)

def read (t : Tally) (line : Text) : Tally :=
  match codeOf? t.inComment (trim line) with
  | none => { t with inComment := true }
  | some code =>
    if Comment.isLineComment code then { t with inComment := false } else t.count code

theorem count_nil (t : Tally) : t.count [] = { t with inComment := false } := by
  have hbalance : balance (Comment.stripBlocks []) = ⟨0, 0⟩ := balance_wordless wordless_nil
  have hclosed : Comment.leavesBlockOpen [] = false := rfl
  simp [count, hbalance, hclosed]

theorem read_trim (t : Tally) (line : Text) : t.read (trim line) = t.read line := by
  rw [read, read, trim_trim]

theorem read_nil (t : Tally) : t.read [] = t := by
  obtain ⟨inComment, depth, sound⟩ := t
  cases inComment with
  | true => rfl
  | false => exact count_nil _

theorem read_of_lineComment {t : Tally} (hout : t.inComment = false) {line : Text}
    (hcomment : Comment.isLineComment line = true) : t.read line = t := by
  rw [read, hout]
  simp only [codeOf?, Bool.false_eq_true, if_false, Comment.isLineComment_trim, hcomment, if_true]
  rw [← hout]

theorem read_of_code {t : Tally} (hout : t.inComment = false) {line : Text}
    (hplain : Comment.isLineComment line = false) : t.read line = t.count (trim line) := by
  rw [read, hout]
  simp only [codeOf?, Bool.false_eq_true, if_false, Comment.isLineComment_trim, hplain]

end Tally

def tally (text : Text) : Tally := (lines text).foldl Tally.read {}

def openAtEnd (place depth : Nat) : List Diagnostic :=
  if depth = 0 then [] else [missingEnd place depth]

theorem openAtEnd_eq_nil {place depth : Nat} : openAtEnd place depth = [] ↔ depth = 0 := by
  simp [openAtEnd]

/-- What the check finds in the blocks is one fault for each line that closes too many, and one more
at the end if a block is open there. -/
private theorem exists_blockFaults_eq (t : Tally) (number last : Nat) (lines : List Text) :
    ∃ (unmatched : List Nat) (place : Nat),
      blockFaults number t.inComment t.depth last lines =
        unmatched.map unmatchedEnd ++ openAtEnd place (lines.foldl Tally.read t).depth ∧
      (lines.foldl Tally.read t).sound = (t.sound && unmatched.isEmpty) := by
  induction lines generalizing t number last with
  | nil => exact ⟨[], last, rfl, by simp⟩
  | cons line lines ih =>
      rw [List.foldl_cons, blockFaults, Tally.read]
      cases codeOf? t.inComment (trim line) with
      | none => exact ih { t with inComment := true } (number + 1) last
      | some code =>
          dsimp only
          by_cases hcomment : Comment.isLineComment code = true
          · rw [if_pos (by simp [hcomment]), if_pos hcomment]
            exact ih { t with inComment := false } (number + 1) last
          by_cases hempty : code = []
          · rw [if_pos (by simp [hempty]), if_neg hcomment, hempty, Tally.count_nil]
            exact ih { t with inComment := false } (number + 1) last
          rw [if_neg (by simp [hempty, hcomment]), if_neg hcomment]
          obtain ⟨unmatched, place, hfaults, hsound⟩ := ih (t.count code) (number + 1) number
          split
          · next hunmatched =>
            -- counting starts afresh after the line, which is what subtraction comes to
            have hafresh : (t.count code).depth = 0 := Nat.sub_eq_zero_of_le (Nat.le_of_lt hunmatched)
            have hbroken : (t.count code).sound = false := by
              rw [Tally.count, decide_eq_false (Nat.not_le.2 hunmatched), Bool.and_false]
            refine ⟨number :: unmatched, place, ?_, by simp [hsound, hbroken]⟩
            rw [List.map_cons, List.cons_append, ← hfaults, hafresh]
            rfl
          · next hmatched =>
            have hcounted : (t.count code).sound = t.sound := by
              rw [Tally.count, decide_eq_true (Nat.not_lt.1 hmatched), Bool.and_true]
            exact ⟨unmatched, place, hfaults, by rw [hsound, hcounted]⟩

theorem exists_faults_eq (definition : Text) :
    ∃ (unmatched : List Nat) (place : Nat),
      faults definition =
        (if (name? definition).isNone then [noName] else []) ++
          (unmatched.map unmatchedEnd ++ openAtEnd place (tally definition).depth) ∧
      (tally definition).sound = unmatched.isEmpty := by
  obtain ⟨unmatched, place, hblocks, hsound⟩ := exists_blockFaults_eq {} 1 1 (lines definition)
  exact ⟨unmatched, place, congrArg (_ ++ ·) hblocks, hsound⟩

theorem faults_eq_nil_iff (definition : Text) :
    faults definition = [] ↔
      (name? definition).isSome = true ∧ (tally definition).sound = true ∧
        (tally definition).depth = 0 := by
  obtain ⟨unmatched, place, hfaults, hsound⟩ := exists_faults_eq definition
  rw [hfaults, hsound]
  cases name? definition <;> simp [openAtEnd_eq_nil]

/-- If no block is open at the end, no `END` is missing. -/
theorem eq_of_mem_faults {definition : Text} (h : (tally definition).depth = 0)
    {fault : Diagnostic} (hfault : fault ∈ faults definition) :
    fault = noName ∨ ∃ number, fault = unmatchedEnd number := by
  obtain ⟨unmatched, place, hfaults, -⟩ := exists_faults_eq definition
  rw [hfaults, openAtEnd_eq_nil.2 h, List.append_nil, List.mem_append, List.mem_map] at hfault
  rcases hfault with hname | ⟨number, -, rfl⟩
  · split at hname
    · exact .inl (List.mem_singleton.1 hname)
    · contradiction
  · exact .inr ⟨number, rfl⟩

/-! ## The rows of a text -/

theorem foldl_rowOf (t : Tally) (line : Text) : (rowOf line).foldl Tally.read t = t.read line := by
  rw [rowOf, ← Tally.read_trim]
  split
  · next hblank => rw [hblank, Tally.read_nil, List.foldl_nil]
  · rfl

theorem tally_eq_foldl_rows (text : Text) : tally text = (rows text).foldl Tally.read {} := by
  rw [tally, rows, List.foldl_flatMap]
  simp only [foldl_rowOf]

theorem tally_congr {u v : Text} (h : rows u = rows v) : tally u = tally v := by
  rw [tally_eq_foldl_rows, tally_eq_foldl_rows, h]

/-! ## A semicolon at the end -/

section Tail

variable {x : Text} (hmarkless : Comment.Markless x) (hword : Wordless x) {code : Text}

include hmarkless hword

theorem Tally.count_append (hapart : Comment.Apart Comment.blockMarks code x) (t : Tally) :
    t.count (code ++ x) = t.count code := by
  have hbalance : balance (Comment.stripBlocks (code ++ x)) = balance (Comment.stripBlocks code) := by
    rcases Comment.stripFrom_append hmarkless false hapart with htail | hsame
    · rw [Comment.stripBlocks, Comment.stripBlocks, htail, balance_append hword]
    · rw [Comment.stripBlocks, Comment.stripBlocks, hsame]
  rw [count, count, hbalance, Comment.leavesBlockOpen_append hmarkless hapart]

end Tail

theorem Tally.read_append_semicolon (t : Tally) (line : Text) :
    t.read (line ++ Delimiter.initial) = t.read line := by
  obtain ⟨w, hw, htrim⟩ := exists_trim_eq_append_solid Delimiter.solid_initial
    (trimEnd_append_solid Delimiter.solid_initial line).symm
  have hmarkless : Comment.Markless Delimiter.initial := ⟨by decide, by decide⟩
  have hmarks : ∀ code, Comment.Apart Comment.marks code (w ++ Delimiter.initial) := by
    intro code
    have hsemicolon : ∀ c ∈ Delimiter.initial.head?, ∀ pair ∈ Comment.marks, c ≠ pair.2 := by
      rintro c ⟨rfl⟩
      decide
    exact (Comment.apart_of_head hsemicolon code).blank_append (by decide) hw
  have hword : Wordless (w ++ Delimiter.initial) :=
    wordless_append.2 ⟨hw.wordless, by decide⟩
  have hcode : codeOf? t.inComment (trim line ++ (w ++ Delimiter.initial)) =
      (codeOf? t.inComment (trim line)).map (· ++ (w ++ Delimiter.initial)) := by
    unfold codeOf?
    split
    · exact Comment.afterBlock?_append (hmarkless.blank_append hw) (hmarks _).blocks
    · rfl
  rw [read, htrim, hcode, read]
  cases codeOf? t.inComment (trim line) with
  | none => rfl
  | some code =>
      have hcomment : Comment.isLineComment (code ++ (w ++ Delimiter.initial)) =
          Comment.isLineComment code := by
        by_cases hblank : AllBlank code
        · rw [← Comment.isLineComment_trim, ← List.append_assoc,
            trim_blank_append (allBlank_append.2 ⟨hblank, hw⟩), ← Comment.isLineComment_trim code,
            trim_eq_nil.2 hblank]
          rfl
        · exact Comment.isLineComment_append hblank (hmarks code).dashes
      rw [Option.map_some]
      simp only [hcomment,
        Tally.count_append (hmarkless.blank_append hw) hword (hmarks code).blocks]

theorem tally_append_semicolon (text : Text) :
    tally (text ++ Delimiter.initial) = tally text := by
  obtain ⟨front, last, -, hrows, happend⟩ := exists_rows_append text
  rw [tally_eq_foldl_rows, tally_eq_foldl_rows, happend _ (by decide), hrows, List.foldl_append,
    List.foldl_append, foldl_rowOf, foldl_rowOf, Tally.read_append_semicolon]

/-! ## Akin texts -/

/-- Two texts have the same routine header, the same name and the same blocks. -/
structure Akin (u v : Text) : Prop where
  starts : starts u = starts v
  name : name? u = name? v
  tally : tally u = tally v

namespace Akin

variable {u v x : Text}

theorem refl (u : Text) : Akin u u := ⟨rfl, rfl, rfl⟩

theorem symm (h : Akin u v) : Akin v u := ⟨h.starts.symm, h.name.symm, h.tally.symm⟩

theorem trans (h : Akin u v) (hx : Akin v x) : Akin u x :=
  ⟨h.starts.trans hx.starts, h.name.trans hx.name, h.tally.trans hx.tally⟩

theorem faults_iff (h : Akin u v) : faults u = [] ↔ faults v = [] := by
  rw [faults_eq_nil_iff, faults_eq_nil_iff, h.name, h.tally]

end Akin

section Akin

variable {w : Text} (hw : AllBlank w) (text : Text)

include hw

private theorem akin_append_blank : Akin (text ++ w) text where
  starts := starts_append hw.wordless text
  name := name?_append (nameless_of_allBlank hw) text
  tally := tally_congr (rows_append_blank hw text)

private theorem akin_blank_append : Akin (w ++ text) text where
  starts := by
    rw [starts, starts, Keyword.find?_wordless_append begins_header? (by decide) hw.wordless]
  name := name?_append_left (nameless_of_allBlank hw) text
  tally := tally_congr (rows_blank_append hw text)

omit hw

private theorem akin_append_semicolon : Akin (text ++ Delimiter.initial) text where
  starts := starts_append (by decide) text
  name := name?_append (by decide) text
  tally := tally_append_semicolon text

private theorem akin_semicolonLine_append : Akin (Delimiter.initial ++ '\n' :: text) text where
  starts := by
    have hsplit : Delimiter.initial ++ '\n' :: text = [';', '\n'] ++ text := rfl
    rw [hsplit, starts, starts, Keyword.find?_wordless_append begins_header? (by decide) (by decide)]
  name := name?_append_left (x := [';', '\n']) (by decide) text
  tally := by
    have hfirst : (rows Delimiter.initial).foldl Tally.read {} = {} := by
      rw [← tally_eq_foldl_rows, ← List.nil_append Delimiter.initial, tally_append_semicolon]
      rfl
    rw [tally_eq_foldl_rows, tally_eq_foldl_rows, rows_append_lineFeed, List.foldl_append, hfirst]

private theorem akin_lineEnd {w : Text} (hw : AllBlank w) (u v : Text) :
    Akin (u ++ w ++ '\n' :: v) (u ++ '\n' :: v) where
  starts := starts_lineEnd hw u v
  name := name?_lineEnd hw u v
  tally := tally_congr (by
    rw [rows_append_lineFeed, rows_append_blank hw, rows_append_lineFeed])

variable {space : Char → Prop} (hspace : ∀ c, space c → isBlank c = true) {u v : Text}

include hspace

theorem akin_of_laidOut (h : LaidOut space u v) : Akin u v := by
  cases h with
  | before hw => exact akin_blank_append (fun c hc => hspace c (hw c hc)) _
  | behind hw => exact akin_append_blank (fun c hc => hspace c (hw c hc)) _
  | lineEnd hw _ u v => exact akin_lineEnd (fun c hc => hspace c (hw c hc)) u v
  | semicolonLine => exact akin_semicolonLine_append _
  | semicolon => exact akin_append_semicolon _

theorem akin_of_relaid (h : Relaid space u v) : Akin u v :=
  (Equivalence.mk Akin.refl Akin.symm Akin.trans).eqvGen_iff.1
    (h.mono fun _ _ => akin_of_laidOut hspace)

end Akin

end SqlBatch.Routine
