import SqlBatch.Proofs.Scanner.Parallel
import SqlBatch.Proofs.Scanner.Segmentation
/-!
# Opacity of comments

What stands in a comment decides nothing: with other comments in the place of its own, a script is
cut at the same lines into statements of the same kinds, ended by the same delimiters
(`comments_opaque`).
-/

namespace SqlBatch.Scanner

open Text

/-- `other` may stand in the place of `raw`: it is the same line, or both are line comments, or both
are within a block comment that neither closes. -/
def Masked (s : Scanner) (raw other : Text) : Prop :=
  raw = other ∨
    s.inBlockComment = false ∧ Comment.isLineComment raw = true ∧
      Comment.isLineComment other = true ∨
    s.inBlockComment = true ∧ includes Comment.blockClose raw = false ∧
      includes Comment.blockClose other = false

instance (s : Scanner) (raw other : Text) : Decidable (s.Masked raw other) :=
  inferInstanceAs (Decidable (_ ∨ _))

def placement (statement : Statement) : StatementKind × Nat × Option Text :=
  (statement.kind, statement.line, statement.terminator)

/-! ## One line -/

theorem reading_of_lineComment {raw : Text} (h : Comment.isLineComment raw = true) :
    reading false raw = .lineComment :=
  reading_eq_iff.2 (.lineComment (Comment.not_allBlank_of_isLineComment h) h)

theorem reading_of_unclosed {raw : Text} (h : includes Comment.blockClose raw = false) :
    reading true raw = .comment := by
  refine reading_eq_iff.2 (.comment fun code hcode => ?_)
  obtain ⟨before, hbefore⟩ := exists_eq_append_of_afterLast? hcode
  have hclose : includes Comment.blockClose raw = true := by
    rw [includes_iff_isInfix]
    exact List.IsInfix.trans ⟨before, code, hbefore.symm⟩ (trim_isInfix raw)
  rw [h] at hclose
  contradiction

theorem alike_of_reading {m : Mode} {raw other : Text} {r : Reading}
    (hr : r = .comment ∨ r = .lineComment) (hraw : reading m.inBlockComment raw = r)
    (hother : reading m.inBlockComment other = r) : Alike m raw other := by
  rcases hr with rfl | rfl
  all_goals exact {
    reading := hraw.trans hother.symm
    hold := by rw [Mode.hold, Mode.hold, hraw, hother]
    ending := by rw [Mode.ending, Mode.ending, hraw, hother] }

namespace Masked

variable {s : Scanner} {raw other : Text} (h : s.Masked raw other)

include h

theorem alike : Alike s.mode raw other := by
  have hmode : s.mode.inBlockComment = s.inBlockComment := rfl
  rcases h with rfl | ⟨hout, hraw, hother⟩ | ⟨hin, hraw, hother⟩
  · exact .refl _ _
  · apply alike_of_reading (.inr rfl)
    · rw [hmode, hout, reading_of_lineComment hraw]
    · rw [hmode, hout, reading_of_lineComment hother]
  · apply alike_of_reading (.inl rfl)
    · rw [hmode, hin, reading_of_unclosed hraw]
    · rw [hmode, hin, reading_of_unclosed hother]

/-- A line that ends something is no comment. -/
theorem eq_of_ending (hending : s.mode.ending raw ≠ .open) : raw = other := by
  have hmode : s.mode.inBlockComment = s.inBlockComment := rfl
  rcases h with rfl | ⟨hout, hraw, -⟩ | ⟨hin, hraw, -⟩
  · rfl
  · rw [Mode.ending, hmode, hout, reading_of_lineComment hraw] at hending
    contradiction
  · rw [Mode.ending, hmode, hin, reading_of_unclosed hraw] at hending
    contradiction

end Masked

/-! ## Two runs -/

theorem map_unlessEmpty {α : Type} {f : Statement → α} {a b : Statement} (h : f a = f b)
    (hempty : a.text = [] ↔ b.text = []) : (unlessEmpty a).map f = (unlessEmpty b).map f := by
  by_cases hnil : a.text = []
  · rw [unlessEmpty_of_nil hnil, unlessEmpty_of_nil (hempty.1 hnil)]
  · rw [unlessEmpty_of_ne_nil hnil, unlessEmpty_of_ne_nil (mt hempty.2 hnil), List.map_singleton,
      List.map_singleton, h]

theorem Parallel.placement_underWay {s t : Scanner} (h : Parallel 0 s t) (terminated : Bool) :
    placement (s.underWay terminated) = placement (t.underWay terminated) := by
  rw [h.underWay]
  rfl

/-- `s` and `t` tell nothing apart but texts. -/
structure Veiled (s t : Scanner) : Prop where
  parallel : Parallel 0 s t
  routineStart : s.routineStart = t.routineStart
  left : ∃ lines, s.Carries lines
  right : ∃ lines, t.Carries lines
  ready : s.ready.map placement = t.ready.map placement

theorem veiled_initial : Veiled {} {} where
  parallel := ⟨rfl, rfl, rfl, fun hroutine => nomatch hroutine⟩
  routineStart := rfl
  left := ⟨[], carries_initial⟩
  right := ⟨[], carries_initial⟩
  ready := rfl

namespace Veiled

variable {s t : Scanner} (h : Veiled s t) {raw other : Text}

include h

theorem placement_underWay :
    (unlessEmpty (s.underWay false)).map placement =
      (unlessEmpty (t.underWay false)).map placement := by
  obtain ⟨lines, hs⟩ := h.left
  obtain ⟨others, ht⟩ := h.right
  apply map_unlessEmpty (h.parallel.placement_underWay false)
  rw [hs.text_eq_nil_iff, ht.text_eq_nil_iff, ← hs.bufferStart_eq_none, ← ht.bufferStart_eq_none,
    h.parallel.bufferStart_eq_none]

private theorem placement_closing (hclosing : s.mode.ending raw = .closing) :
    (unlessEmpty ((s.hold raw).underWay true)).map placement =
      (unlessEmpty ((t.hold raw).underWay true)).map placement := by
  obtain ⟨lines, hs⟩ := h.left
  obtain ⟨others, ht⟩ := h.right
  have hother : t.mode.ending raw = .closing := by rw [← h.parallel.mode, hclosing]
  apply map_unlessEmpty ((h.parallel.hold (.refl _ _)).placement_underWay true)
  rw [hs.text_of_closing_eq_nil_iff hclosing, ht.text_of_closing_eq_nil_iff hother,
    ← hs.bufferStart_eq_none, ← ht.bufferStart_eq_none, h.parallel.bufferStart_eq_none,
    h.parallel.delimiter]

private theorem placement_queuedOn (hmasked : s.Masked raw other) :
    (s.queuedOn raw).map placement = (t.queuedOn other).map placement := by
  have hother : t.mode.ending other = s.mode.ending raw := by
    rw [← h.parallel.mode, hmasked.alike.ending]
  unfold queuedOn
  rw [hother]
  cases hending : s.mode.ending raw with
  | «open» => rfl
  | closing =>
      obtain rfl := hmasked.eq_of_ending (by simp [hending])
      exact h.placement_closing hending
  | directive token =>
      obtain rfl := hmasked.eq_of_ending (by simp [hending])
      obtain ⟨lines, hs⟩ := h.left
      obtain ⟨others, ht⟩ := h.right
      have hself : directiveOn s raw = directiveOn t raw := by
        rw [directiveOn, directiveOn, h.parallel.lineNumber]
      rw [List.map_append, List.map_append, hs.unlessEmpty_counted, ht.unlessEmpty_counted,
        h.placement_underWay, hself]

theorem feed (hmasked : s.Masked raw other) : Veiled (s.feed raw) (t.feed other) where
  parallel := h.parallel.feed hmasked.alike
  routineStart := by
    have hhold := h.parallel.hold hmasked.alike
    rw [feed_routineStart, feed_routineStart, hold_routineStart, hold_routineStart,
      hhold.inRoutine, h.parallel.inRoutine, h.parallel.lineNumber, h.routineStart]
  left := h.left.elim fun _ hs => hs.exists_feed raw
  right := h.right.elim fun _ ht => ht.exists_feed other
  ready := by
    rw [ready_feed, ready_feed, List.map_append, List.map_append, h.ready,
      h.placement_queuedOn hmasked]

theorem ready_finish : s.finish.ready.map placement = t.finish.ready.map placement := by
  rw [Scanner.ready_finish, Scanner.ready_finish, List.map_append, List.map_append, h.ready,
    h.placement_underWay]

end Veiled

/-! ## Two scripts -/

theorem veiled_after {lines others : List Text} (hlength : lines.length = others.length)
    (hmasked : ∀ k < lines.length,
      (after lines k).Masked (lineAt lines (k + 1)) (lineAt others (k + 1)))
    {k : Nat} (hk : k ≤ lines.length) : Veiled (after lines k) (after others k) := by
  induction k with
  | zero => exact veiled_initial
  | succ k ih =>
      have hbefore := ih (Nat.le_of_lt hk)
      rw [after_succ hk, after_succ (hlength ▸ hk)]
      exact hbefore.feed (hmasked k hk)

/-- Other comments in a script change neither where statements start, what kind they are and what
ends them, nor the state of the scanner behind any line. -/
theorem comments_opaque {script other : Text}
    (hlength : (lines script).length = (lines other).length)
    (hmasked : ∀ k < (lines script).length,
      (after (lines script) k).Masked (lineAt (lines script) (k + 1))
        (lineAt (lines other) (k + 1))) :
    (split script).map placement = (split other).map placement ∧
      ∀ k ≤ (lines script).length,
        (after (lines script) k).mode = (after (lines other) k).mode ∧
          (after (lines script) k).routineStart = (after (lines other) k).routineStart := by
  have hveiled : ∀ k ≤ (lines script).length,
      Veiled (after (lines script) k) (after (lines other) k) :=
    fun k hk => veiled_after hlength hmasked hk
  constructor
  · rw [split_eq_after, split_eq_after, ← hlength]
    exact (hveiled _ (Nat.le_refl _)).ready_finish
  · exact fun k hk => ⟨(hveiled k hk).parallel.mode, (hveiled k hk).routineStart⟩

def plainComments : Text :=
  "-- a
CREATE PROCEDURE p() BEGIN /* b
c
*/ SELECT 1;
# d
END;
SELECT 2;".toList

def loudComments : Text :=
  "#;
CREATE PROCEDURE p() BEGIN /* b
DELIMITER // /* END;
*/ SELECT 1;
-- END;
END;
SELECT 2;".toList

theorem plainComments_opaque :
    (split loudComments).map placement =
        [(.routine, 2, some [';']), (.ordinary, 7, some [';'])] ∧
      (after (lines loudComments) 5).mode = ⟨[';'], false, true, 1⟩ := by
  have hlength : (lines plainComments).length = (lines loudComments).length := by decide +kernel
  obtain ⟨hsplit, hmode⟩ := comments_opaque hlength (by decide +kernel)
  have hfive := (hmode 5 (by decide +kernel)).1
  rw [← hsplit, ← hfive]
  decide +kernel

end SqlBatch.Scanner
