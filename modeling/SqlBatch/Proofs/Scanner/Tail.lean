import SqlBatch.Proofs.Routine.Spacing
import SqlBatch.Proofs.Scanner.Carries
/-!
# Lines with a tail

A tail without comment marks does not change what the rest of a line says, if no mark comes up across
the seam and the tail is quiet behind the code of the line: `hold_tail` and `ending_tail` give the
mode behind a line with a tail, and whether the delimiter in the tail ends a statement, by the line
without it.
-/

namespace SqlBatch.Scanner

open Text

namespace Mode

/-! ## Blocks that are counted -/

theorem track_append (m : Mode) {line x : Text} (hx : Comment.Markless x)
    (hapart : Comment.Apart Comment.blockMarks line x)
    (hquiet : Routine.Quiet (Comment.stripBlocks line) x) : m.track (line ++ x) = m.track line := by
  unfold Comment.stripBlocks at hquiet
  unfold track Comment.stripBlocks
  rcases Comment.stripFrom_append hx false hapart with htail | hsame
  · rw [htail]
    simp only [hquiet.starts, hquiet.balance]
  · rw [hsame]

private theorem stripFrom_blank_append {w : Text} (hw : AllBlank w) (line : Text) :
    Comment.stripFrom false (w ++ line) = w ++ Comment.stripFrom false line := by
  induction w with
  | nil => rfl
  | cons c w ih =>
      obtain ⟨hc, hrest⟩ := allBlank_cons.1 hw
      have hslash : c ≠ '/' := by
        rintro rfl
        exact absurd hc (by decide)
      rw [List.cons_append, List.cons_append, Comment.stripFrom, ih hrest]
      rintro rest rfl
      contradiction

theorem track_trim (m : Mode) (line : Text) : m.track (trim line) = m.track line := by
  obtain ⟨v, w, hv, hw, hline⟩ := exists_eq_append_trim_append line
  have hfront : m.track (v ++ trim line) = m.track (trim line) := by
    have hcode : trim (Comment.stripFrom false (v ++ trim line)) =
        trim (Comment.stripFrom false (trim line)) := by
      rw [stripFrom_blank_append hv, trim_blank_append hv]
    unfold track Comment.stripBlocks
    simp only [← Routine.starts_trim (Comment.stripFrom _ _),
      ← Routine.balance_trim (Comment.stripFrom _ _), hcode]
  conv_rhs => rw [hline]
  rw [track_append m (Comment.markless_of_allBlank hw) (Comment.apart_of_allBlank (by decide) hw _)
    (Routine.quiet_of_wordless hw.wordless _), hfront]

theorem track_of_quiet (m : Mode) {x : Text} (hx : Comment.Markless x)
    (hquiet : Routine.Quiet [] x) : m.track x = m := by
  rw [← List.nil_append x, track_append m hx (Comment.apart_nil x) hquiet, track_nil]

/-! ## The line without its tail -/

def codeAt (inComment : Bool) (core : Text) : Bool :=
  if inComment then
    match Comment.afterBlock? core with
    | none => false
    | some after => !Comment.leavesBlockOpen after
  else !Comment.isLineComment core && !Comment.leavesBlockOpen core

/-- The code of a line that headers and block marks are looked for in. -/
def codeOn (inComment : Bool) (core : Text) : Text :=
  Comment.stripBlocks (if inComment then (Comment.afterBlock? core).getD [] else core)

theorem codeOn_of_afterBlock? {core after : Text} (h : Comment.afterBlock? core = some after) :
    codeOn true core = Comment.stripBlocks after := by
  rw [codeOn, if_pos rfl, h, Option.getD_some]

def behind (m : Mode) (core : Text) : Mode :=
  if m.inBlockComment then
    match Comment.afterBlock? core with
    | none => m
    | some after =>
      if Comment.leavesBlockOpen after then m else { m with inBlockComment := false }.track after
  else if Comment.isLineComment core then m
  else if Comment.leavesBlockOpen core then { m with inBlockComment := true }.track core
  else m.track core

section Tail

variable {core x : Text} (hcore : ¬ AllBlank core) (hx : Comment.Markless x)
  (hapart : Comment.Apart Comment.marks core x) (htrim : trim (core ++ x) = core ++ x)

include hcore hx hapart htrim

theorem reading_tail {inComment : Bool}
    (hdirective : inComment = false → Delimiter.directive? (core ++ x) = none) :
    reading inComment (core ++ x) =
      if inComment then
        match Comment.afterBlock? core with
        | none => .comment
        | some after =>
          if Comment.leavesBlockOpen after then .comment else .commentEnd (trim (after ++ x))
      else if Comment.isLineComment core then .lineComment
      else if Comment.leavesBlockOpen core then .commentStart
      else .code := by
  have hne : core ++ x ≠ [] := fun hnil => hcore (by simp [(List.append_eq_nil_iff.1 hnil).1])
  unfold reading
  simp only [htrim]
  cases inComment with
  | true =>
      simp only [if_true, Comment.afterBlock?_append hx hapart.blocks]
      cases hafter : Comment.afterBlock? core with
      | none => rfl
      | some after =>
          have hbehind := hapart.blocks.of_suffix (Comment.isSuffix_of_afterBlock? hafter)
          simp only [Option.map_some, Comment.leavesBlockOpen_append hx hbehind]
  | false =>
      simp only [Bool.false_eq_true, if_false, List.isEmpty_iff, hne,
        Comment.isLineComment_append hcore hapart.dashes,
        Comment.leavesBlockOpen_append hx hapart.blocks, hdirective rfl]

variable {m : Mode} (hquiet : Routine.Quiet (codeOn m.inBlockComment core) x)
  (hdirective : m.inBlockComment = false → Delimiter.directive? (core ++ x) = none)

include hquiet hdirective

theorem hold_tail : m.hold (core ++ x) = m.behind core := by
  unfold hold behind
  rw [reading_tail hcore hx hapart htrim hdirective]
  cases hin : m.inBlockComment with
  | true =>
      rw [hin] at hquiet
      simp only [if_true]
      cases hafter : Comment.afterBlock? core with
      | none => rfl
      | some after =>
          have hbehind := hapart.blocks.of_suffix (Comment.isSuffix_of_afterBlock? hafter)
          cases hopen : Comment.leavesBlockOpen after with
          | true => simp [hopen]
          | false =>
              rw [codeOn_of_afterBlock? hafter] at hquiet
              simp [hopen, track_trim, track_append _ hx hbehind hquiet]
  | false =>
      rw [hin] at hquiet
      simp only [Bool.false_eq_true, if_false]
      cases Comment.isLineComment core with
      | true => rfl
      | false =>
          cases Comment.leavesBlockOpen core <;>
            simp [track_trim, track_append _ hx hapart.blocks hquiet]

/-- The delimiter in the tail ends a statement where it is code and no block is open. -/
theorem ending_tail {w : Text} (hsolid : Solid m.delimiter) (htail : x = w ++ m.delimiter) :
    m.ending (core ++ x) =
      if codeAt m.inBlockComment core && (m.behind core).atSurface then .closing else .open := by
  have hat : ∀ (n : Mode) (code : Text), code <:+ core → n.delimiter = m.delimiter →
      Routine.Quiet (Comment.stripBlocks code) x →
      n.endingAt (trim (code ++ x)) = if (n.track code).atSurface then .closing else .open := by
    intro n code hcode hn hquiet
    have hsuffix : n.delimiter.isSuffixOf (trim (code ++ x)) = true := by
      rw [hn, htail, ← List.append_assoc, trim_append_solid hsolid, List.isSuffixOf_iff_suffix]
      exact List.suffix_append _ _
    rw [endingAt, hsuffix, track_trim, track_append _ hx (hapart.blocks.of_suffix hcode) hquiet,
      Bool.true_and]
  unfold ending behind codeAt
  rw [reading_tail hcore hx hapart htrim hdirective]
  cases hin : m.inBlockComment with
  | true =>
      rw [hin] at hquiet
      simp only [if_true]
      cases hafter : Comment.afterBlock? core with
      | none => rfl
      | some after =>
          cases hopen : Comment.leavesBlockOpen after with
          | true => simp [hopen]
          | false =>
              rw [codeOn_of_afterBlock? hafter] at hquiet
              have hcode := hat { m with inBlockComment := false } after
                (Comment.isSuffix_of_afterBlock? hafter) rfl hquiet
              simpa [hopen] using hcode
  | false =>
      rw [hin] at hquiet
      simp only [Bool.false_eq_true, if_false]
      cases Comment.isLineComment core with
      | true => rfl
      | false =>
          cases Comment.leavesBlockOpen core with
          | true => rfl
          | false => simpa using hat m core (List.suffix_refl core) rfl hquiet

end Tail

/-! ## A delimiter that moves -/

theorem trim_core_append {core d : Text} (hcore : ¬ AllBlank core) (htrim : trim core = core)
    (hd : Solid d) (w : Text) : trim (core ++ (w ++ d)) = core ++ (w ++ d) := by
  have hstart : trimStart core = core := by rw [← htrim, trimStart_trim]
  rw [← List.append_assoc, trim_append_solid hd, trimStart_append hcore, hstart]

theorem directive?_of_closing {m : Mode} {raw : Text} (h : m.ending raw = .closing)
    (hout : m.inBlockComment = false) : Delimiter.directive? raw = none := by
  cases reads_code_of_closing h hout with
  | code _ _ _ names => exact names

theorem directive?_of_hold {m : Mode} {raw : Text} (hin : m.inBlockComment = false)
    (hout : (m.hold raw).inBlockComment = false) (hink : ¬ AllBlank raw)
    (hplain : Comment.isLineComment raw = false)
    (hreading : ∀ token, reading m.inBlockComment raw ≠ .directive token) :
    Delimiter.directive? raw = none := by
  have hreads := reads_reading m.inBlockComment raw
  unfold hold at hout
  revert hreads hout hreading
  rw [hin]
  generalize reading false raw = r
  intro hout hreading hreads
  cases hreads with
  | code _ _ _ names => exact names
  | directive => exact absurd rfl (hreading _)
  | blank hblank => exact absurd hblank hink
  | lineComment _ hcomment =>
      rw [hplain] at hcomment
      contradiction
  | commentStart =>
      rw [track_inBlockComment] at hout
      contradiction

/-- Code that leaves no comment behind it goes on up to the end of its line. -/
private theorem codeAt_of_behind {m : Mode} {core : Text}
    (hbehind : (m.behind core).inBlockComment = false)
    (hplain : m.inBlockComment = false → Comment.isLineComment core = false) :
    codeAt m.inBlockComment core = true := by
  unfold behind at hbehind
  unfold codeAt
  cases hin : m.inBlockComment with
  | true =>
      rw [hin, if_pos rfl] at hbehind
      cases hafter : Comment.afterBlock? core with
      | none => simp [hafter, hin] at hbehind
      | some after =>
          cases hopen : Comment.leavesBlockOpen after with
          | true => simp [hafter, hopen, hin] at hbehind
          | false => simp [hopen]
  | false =>
      have hcomment := hplain hin
      cases hopen : Comment.leavesBlockOpen core with
      | true => simp [hin, hcomment, hopen] at hbehind
      | false => simp [hcomment]

section Move

variable {m : Mode} (hsolid : Solid m.delimiter) (hmarkless : Comment.Markless m.delimiter)

include hsolid hmarkless

/-- The delimiter moves up to the text before it on the line. -/
theorem closing_of_moved {raw v : Text} (hv : v ++ m.delimiter = trimEnd raw)
    (hink : ¬ AllBlank v) (hapart : Comment.Apart Comment.marks (trim v) m.delimiter)
    (hquiet : ∀ w, AllBlank w →
      Routine.Quiet (codeOn m.inBlockComment (trim v)) (w ++ m.delimiter))
    (hclosing : m.ending raw = .closing)
    (hdirective : m.inBlockComment = false →
      Delimiter.directive? (trimEnd v ++ m.delimiter) = none) :
    m.ending (trimEnd v ++ m.delimiter) = .closing ∧
      m.hold (trimEnd v ++ m.delimiter) = m.hold raw := by
  -- before and behind the move the line is `trim v` with a tail: `w ++ m.delimiter`, then
  -- `m.delimiter`
  obtain ⟨w, hw, hfar⟩ := exists_trim_eq_append_solid hsolid hv
  have hcore : ¬ AllBlank (trim v) := by simpa using hink
  have hnear : trim (trimEnd v ++ m.delimiter) = trim v ++ m.delimiter := by
    rw [trim_append_solid hsolid, trimStart_trimEnd]
  have hkept : ∀ w, trim (trim v ++ (w ++ m.delimiter)) = trim v ++ (w ++ m.delimiter) :=
    trim_core_append hcore (trim_trim v) hsolid
  have hx : Comment.Markless (w ++ m.delimiter) := hmarkless.blank_append hw
  have hnone := hquiet [] allBlank_nil
  rw [List.nil_append] at hnone
  have hseam := hapart.blank_append (by decide) hw
  have hbefore : m.inBlockComment = false →
      Delimiter.directive? (trim v ++ (w ++ m.delimiter)) = none := by
    intro hout
    rw [← hfar, Delimiter.directive?_trim]
    exact directive?_of_closing hclosing hout
  have hbehind : m.inBlockComment = false →
      Delimiter.directive? (trim v ++ m.delimiter) = none := by
    intro hout
    rw [← hnear, Delimiter.directive?_trim]
    exact hdirective hout
  have hsame : m.hold raw = m.behind (trim v) := by
    rw [← hold_trim, hfar, hold_tail hcore hx hseam (hkept w) (hquiet w hw) hbefore]
  have hends := ending_tail hcore hx hseam (hkept w) (hquiet w hw) hbefore hsolid rfl
  rw [← hfar, ending_trim, hclosing] at hends
  constructor
  · rw [← ending_trim, hnear, ending_tail hcore hmarkless hapart (hkept []) hnone hbehind
      hsolid (List.nil_append _).symm]
    exact hends.symm
  · rw [hsame, ← hold_trim, hnear, hold_tail hcore hmarkless hapart (hkept []) hnone hbehind]

/-- A delimiter on a line of its own ends a statement where nothing is open. -/
private theorem hold_of_lone {raw : Text} (hlone : trim raw = m.delimiter)
    (hquiet : Routine.Quiet [] m.delimiter) (hclosing : m.ending raw = .closing) :
    m.inBlockComment = false ∧ m.hold raw = m ∧ m.atSurface = true := by
  have hout : m.inBlockComment = false := by
    rw [Bool.eq_false_iff]
    intro hin
    have hnone : Comment.afterBlock? (trim raw) = none := by
      rw [hlone, ← List.nil_append m.delimiter,
        Comment.afterBlock?_append hmarkless (Comment.apart_nil _)]
      rfl
    have hreading : reading m.inBlockComment raw = .comment := by
      rw [hin, reading_eq_iff]
      refine .comment fun code hcode => ?_
      rw [hnone] at hcode
      contradiction
    rw [ending, hreading] at hclosing
    contradiction
  obtain ⟨code, hcode, hsuffix, hhold, hsurface⟩ := exists_code_of_closing hsolid hclosing
  rw [hlone] at hcode
  obtain rfl : code = m.delimiter := hcode.eq_of_length_le hsuffix.length_le
  have hsame : { m with inBlockComment := false } = m := by rw [← hout]
  rw [hsame, track_of_quiet m hmarkless hquiet] at hhold
  rw [hhold] at hsurface
  exact ⟨hout, hhold, hsurface⟩

/-- The delimiter moves from a line of its own up to the line before it. -/
theorem closing_of_lone {raw z : Text} (hlone : trim raw = m.delimiter)
    (hself : Routine.Quiet [] m.delimiter)
    (hquiet : Routine.Quiet (codeOn m.inBlockComment (trim z)) m.delimiter)
    (hdelimiter : (m.hold z).delimiter = m.delimiter)
    (hclosing : (m.hold z).ending raw = .closing) (hink : ¬ AllBlank z)
    (hapart : Comment.Apart Comment.marks (trim z) m.delimiter)
    (hreading : ∀ token, reading m.inBlockComment z ≠ .directive token)
    (hplain : m.inBlockComment = false → Comment.isLineComment z = false)
    (hdirective : m.inBlockComment = false →
      Delimiter.directive? (trimEnd z ++ m.delimiter) = none) :
    m.ending (trimEnd z ++ m.delimiter) = .closing ∧
      m.hold (trimEnd z ++ m.delimiter) = (m.hold z).hold raw := by
  obtain ⟨hout, hhold, hsurface⟩ : (m.hold z).inBlockComment = false ∧
      (m.hold z).hold raw = m.hold z ∧ (m.hold z).atSurface = true := by
    rw [← hdelimiter] at hsolid hmarkless hlone hself
    exact hold_of_lone hsolid hmarkless hlone hself hclosing
  have hcore : ¬ AllBlank (trim z) := by simpa using hink
  have hkept : trim (trim z ++ []) = trim z ++ [] := by simp
  have hnear : trim (trimEnd z ++ m.delimiter) = trim z ++ m.delimiter := by
    rw [trim_append_solid hsolid, trimStart_trimEnd]
  have hclosed : trim (trim z ++ m.delimiter) = trim z ++ m.delimiter :=
    trim_core_append hcore (trim_trim z) hsolid []
  have hbefore : m.inBlockComment = false → Delimiter.directive? (trim z ++ []) = none := by
    intro hin
    rw [List.append_nil, Delimiter.directive?_trim]
    exact directive?_of_hold hin hout hink (hplain hin) hreading
  have hbehind : m.inBlockComment = false →
      Delimiter.directive? (trim z ++ m.delimiter) = none := by
    intro hout
    rw [← hnear, Delimiter.directive?_trim]
    exact hdirective hout
  have hsame : m.hold z = m.behind (trim z) := by
    have hnil : Comment.Markless [] := Comment.markless_of_allBlank allBlank_nil
    rw [← hold_tail hcore hnil (Comment.apart_of_allBlank (by decide) allBlank_nil _) hkept
      (Routine.quiet_of_wordless wordless_nil _) hbefore, List.append_nil, hold_trim]
  have hcode : codeAt m.inBlockComment (trim z) = true := by
    apply codeAt_of_behind
    · rw [← hsame, hout]
    · intro hin
      rw [Comment.isLineComment_trim, hplain hin]
  constructor
  · rw [← ending_trim, hnear, ending_tail hcore hmarkless hapart hclosed hquiet hbehind hsolid
      (List.nil_append _).symm, hcode, ← hsame, hsurface]
    rfl
  · rw [hhold, hsame, ← hold_trim, hnear, hold_tail hcore hmarkless hapart hclosed hquiet hbehind]

end Move

end Mode

end SqlBatch.Scanner
