import SqlBatch.Proofs.Plan.Sources
import SqlBatch.Proofs.Routine.Structure
/-!
# Blocks that are left open

The scanner and the check of a routine both count blocks.  The check counts more lines, those before
the header of the routine too.  So where the scanner finds a block left open at the end of a script,
the check of the script does (`tally_depth_of_leftOpen`).
-/

namespace SqlBatch.Scanner

open Text Routine

/-- Behind a block comment that the line closes stands no line comment, and no other block comment
that stays open. -/
def EndsComment (raw : Text) : Prop :=
  ∀ code ∈ Comment.afterBlock? (trim raw),
    Comment.isLineComment code = false ∧ Comment.leavesBlockOpen code = false

instance (raw : Text) : Decidable (EndsComment raw) :=
  inferInstanceAs (Decidable (∀ code ∈ Comment.afterBlock? (trim raw), _))

/-- A block is open at the end of a script.  The scanner takes all that stands behind a block comment
for code, comments too; here there are none. -/
structure LeftOpen (script : Text) : Prop where
  block : 0 < (after (lines script) (lines script).length).depth
  comments : ∀ k < (lines script).length, (after (lines script) k).inBlockComment = true →
    EndsComment (lineAt (lines script) (k + 1))

structure Ahead (t : Tally) (m : Mode) : Prop where
  inComment : t.inComment = m.inBlockComment
  depth : m.depth ≤ t.depth

namespace Ahead

variable {t : Tally} {m : Mode}

theorem count (h : Ahead t m) (hdepth : m.inRoutine = false → m.depth = 0) (inComment : Bool)
    {code : Text} (hopen : Comment.leavesBlockOpen code = inComment) :
    Ahead (t.count code) (Mode.track { m with inBlockComment := inComment } code) where
  inComment := by
    rw [Mode.track_inBlockComment]
    exact hopen
  depth := by
    have hbefore := h.depth
    simp only [Tally.count, Mode.track]
    split
    · simp only
      split <;> omega
    · next hout =>
      have hzero : m.depth = 0 := by
        apply hdepth
        simp only [Bool.or_eq_true, not_or, Bool.not_eq_true] at hout
        exact hout.1
      simp only [hzero, Nat.zero_le]

theorem hold (h : Ahead t m) (hdepth : m.inRoutine = false → m.depth = 0) {raw : Text}
    (hdirective : ∀ token, reading m.inBlockComment raw ≠ .directive token)
    (hclean : m.inBlockComment = true → EndsComment raw) : Ahead (t.read raw) (m.hold raw) := by
  have hreads := reads_reading m.inBlockComment raw
  have hcomment := h.inComment
  unfold Mode.hold
  generalize hreading : reading m.inBlockComment raw = r at hreads hdirective
  generalize hin : m.inBlockComment = inComment at hreads hclean hcomment
  cases hreads with
  | comment hstays =>
      have hnone : Comment.afterBlock? (trim raw) = none := by
        rw [Option.eq_none_iff_forall_ne_some]
        intro code hcode
        have hopen := hstays code hcode
        rw [(hclean rfl code hcode).2] at hopen
        contradiction
      have hsame : t.read raw = t := by
        rw [Tally.read, hcomment]
        simp only [codeOf?, if_true, hnone]
        rw [← hcomment]
      rwa [hsame]
  | @commentEnd _ code hcloses hclosed =>
      have hcounted : t.read raw = t.count code := by
        rw [Tally.read, hcomment]
        simp only [codeOf?, if_true, hcloses, (hclean rfl code hcloses).1, Bool.false_eq_true,
          if_false]
      show Ahead _ (Mode.track { m with inBlockComment := false } (trim code))
      rw [hcounted, Mode.track_trim]
      exact h.count hdepth false hclosed
  | blank hblank =>
      rwa [← Tally.read_trim, trim_eq_nil.2 hblank, Tally.read_nil]
  | lineComment _ hline =>
      rwa [Tally.read_of_lineComment hcomment hline]
  | commentStart _ hplain hopen =>
      rw [Tally.read_of_code hcomment hplain]
      exact h.count hdepth true hopen
  | directive => exact absurd rfl (hdirective _)
  | code _ hplain hclosed _ =>
      have hsame : { m with inBlockComment := false } = m := by rw [← hin]
      have hcounted := h.count hdepth false hclosed
      rw [hsame] at hcounted
      rwa [Tally.read_of_code hcomment hplain]

end Ahead

theorem Ahead.feed {t : Tally} {s : Scanner} {carried : List Text} (h : Ahead t s.mode)
    (hcarries : s.Carries carried) {raw : Text}
    (hunfolded : (s.sets? raw).isSome = true → s.inRoutine = false)
    (hclean : s.inBlockComment = true → EndsComment raw) : Ahead (t.read raw) (s.feed raw).mode := by
  cases hending : s.mode.ending raw with
  | «open» =>
      rw [feed_of_open hending, mode_hold]
      exact h.hold hcarries.depth (reading_ne_directive_of_open hunfolded hending) hclean
  | closing =>
      have hreading : ∀ token, reading s.inBlockComment raw ≠ .directive token := by
        intro token hreading
        have hmode : s.mode.inBlockComment = s.inBlockComment := rfl
        rw [Mode.ending, hmode, hreading] at hending
        cases hroutine : s.mode.inRoutine <;> simp [hroutine] at hending
      have hhold := h.hold hcarries.depth hreading hclean
      have hrest := (hcarries.of_closing hending).mode_eq
      rw [hrest]
      exact {
        inComment := hhold.inComment.trans
          (Mode.hold_inBlockComment_of_closing hcarries.delimiter hending)
        depth := Nat.zero_le _ }
  | directive token =>
      have hreading := (Mode.reading_of_ending_directive hending).1
      have hrest := (hcarries.of_directive hending).mode_eq
      have hcomment := h.inComment
      rw [inComment_of_reading_directive hreading] at hcomment
      rw [hrest]
      rw [inComment_of_reading_directive hreading, reading_eq_iff] at hreading
      cases hreading with
      | directive _ hplain hclosed _ =>
          rw [Tally.read_of_code hcomment hplain]
          exact ⟨hclosed, Nat.zero_le _⟩

theorem ahead_after {script : Text} (hunfolded : Unfolded script)
    (hclean : ∀ k < (lines script).length, (after (lines script) k).inBlockComment = true →
      EndsComment (lineAt (lines script) (k + 1))) {k : Nat} (hk : k ≤ (lines script).length) :
    Ahead (((lines script).take k).foldl Tally.read {}) (after (lines script) k).mode := by
  induction k with
  | zero => exact ⟨rfl, Nat.zero_le _⟩
  | succ k ih =>
      obtain ⟨carried, hcarries⟩ := (Reachable.feedAll .fresh _).exists_carries
      rw [take_succ_eq_append_lineAt hk, List.foldl_append, after_succ hk]
      exact (ih (Nat.le_of_lt hk)).feed hcarries (hunfolded k hk) (hclean k hk)

/-- A block that the scanner finds left open at the end, the check of the script finds as well. -/
theorem tally_depth_of_leftOpen {script : Text} (hunfolded : Unfolded script)
    (h : LeftOpen script) : 0 < (tally script).depth := by
  have hahead := ahead_after hunfolded h.comments (Nat.le_refl _)
  rw [List.take_length] at hahead
  exact h.block.trans_le hahead.depth

end SqlBatch.Scanner
