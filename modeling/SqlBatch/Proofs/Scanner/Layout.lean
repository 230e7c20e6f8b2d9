import SqlBatch.Proofs.Scanner.Opacity
import SqlBatch.Proofs.Stream
/-!
# Layout

The layout of a script is what its lines have at their ends: how far they are indented, which blanks
stand behind them, how they are ended.  It decides nothing (`layout_irrelevant`).  In another layout
a script is cut at the same lines into statements that have the same lines, their own layout apart,
and the blanks behind the lines leave no trace at all.

`Relaid` is the relation of two runs on scripts that differ in their layout.  The lines under way
differ in their layout too, and the texts that are made from them keep it within.
-/

namespace SqlBatch.Scanner

open Text

/-- A statement but for its layout: where it starts, how it ends, and its lines without their blank
ends. -/
def unlaid (statement : Statement) : (StatementKind × Nat × Option Text) × List Text :=
  (placement statement, (lines statement.text).map trim)

/-! ## One line -/

theorem alike_of_trim_eq (m : Mode) {raw other : Text} (h : trim raw = trim other) :
    Alike m raw other where
  reading := by rw [← reading_trim, h, reading_trim]
  hold := m.hold_congr h
  ending := m.ending_congr h

private theorem map_trim_withLine {carried others : List Text}
    (hlines : carried.map trim = others.map trim) {raw other : Text} (htrim : trim raw = trim other) :
    (withLine carried raw).map trim = (withLine others other).map trim := by
  have hidle : (carried = [] ∧ AllBlank raw) ↔ (others = [] ∧ AllBlank other) := by
    rw [← List.map_eq_nil_iff (f := trim), hlines, List.map_eq_nil_iff,
      allBlank_iff_of_trim_eq htrim]
  unfold withLine
  by_cases hboth : carried = [] ∧ AllBlank raw
  · rw [if_pos hboth, if_pos (hidle.1 hboth)]
  · rw [if_neg hboth, if_neg (mt hidle.2 hboth), List.map_append, List.map_append, hlines,
      List.map_singleton, List.map_singleton, htrim]

/-! ## Two runs -/

/-- `s` and `t` have taken the same lines in different layouts, of which `carried` and `others` are
under way. -/
structure Relaid (s t : Scanner) (carried others : List Text) : Prop where
  parallel : Parallel 0 s t
  left : s.Carries carried
  right : t.Carries others
  lines : carried.map trim = others.map trim
  feed_left : ∀ line ∈ carried, '\n' ∉ line
  feed_right : ∀ line ∈ others, '\n' ∉ line
  ready : s.ready.map unlaid = t.ready.map unlaid

theorem lineFeed_notMem_withLine {carried : List Text} (h : ∀ line ∈ carried, '\n' ∉ line)
    {raw : Text} (hraw : '\n' ∉ raw) : ∀ line ∈ withLine carried raw, '\n' ∉ line := by
  unfold withLine
  split
  · simp
  · exact List.forall_mem_append.2 ⟨h, List.forall_mem_singleton.2 hraw⟩

theorem Carries.map_trim_lines_of_closing {s : Scanner} {carried : List Text}
    (h : s.Carries carried) (hfeed : ∀ line ∈ carried, '\n' ∉ line) {raw v : Text}
    (hraw : '\n' ∉ raw) (hv : trimEnd raw = v ++ s.delimiter)
    (htext : ((s.hold raw).underWay true).text = trim (block carried ++ v))
    (hne : ((s.hold raw).underWay true).text ≠ []) :
    (Text.lines ((s.hold raw).underWay true).text).map trim =
      (carried.map trim ++ [trim v]).rdropWhile List.isEmpty := by
  obtain ⟨hpassage, hfirst, hends⟩ := h.lines_of_closing hfeed hraw hv htext hne
  rw [hpassage, map_trim_lines_passage hfirst hends, List.map_append, List.map_singleton]

namespace Relaid

variable {s t : Scanner} {carried others : List Text} (h : Relaid s t carried others)
  {raw other : Text}

include h

theorem nil_iff : carried = [] ↔ others = [] := by
  rw [← List.map_eq_nil_iff (f := trim), h.lines, List.map_eq_nil_iff]

theorem unlaid_underWay :
    (unlessEmpty (s.underWay false)).map unlaid = (unlessEmpty (t.underWay false)).map unlaid := by
  have hlines : (Text.lines (s.underWay false).text).map trim =
      (Text.lines (t.underWay false).text).map trim := by
    rw [h.left.text_eq, h.right.text_eq, map_trim_lines_passage h.left.first h.feed_left,
      map_trim_lines_passage h.right.first h.feed_right, h.lines]
  apply map_unlessEmpty
  · rw [unlaid, unlaid, h.parallel.placement_underWay, hlines]
  · rw [h.left.text_eq_nil_iff, h.right.text_eq_nil_iff, h.nil_iff]

private theorem unlaid_closing (htrim : trim raw = trim other) (hraw : '\n' ∉ raw)
    (hother : '\n' ∉ other) (hclosing : s.mode.ending raw = .closing) :
    (unlessEmpty ((s.hold raw).underWay true)).map unlaid =
      (unlessEmpty ((t.hold other).underWay true)).map unlaid := by
  have hends : t.mode.ending other = .closing := by
    rw [← h.parallel.mode, ← Mode.ending_congr htrim, hclosing]
  have hempty : ((s.hold raw).underWay true).text = [] ↔
      ((t.hold other).underWay true).text = [] := by
    rw [h.left.text_of_closing_eq_nil_iff hclosing, h.right.text_of_closing_eq_nil_iff hends,
      h.nil_iff, htrim, h.parallel.delimiter]
  have hplace := (h.parallel.hold (alike_of_trim_eq _ htrim)).placement_underWay true
  by_cases hnil : ((s.hold raw).underWay true).text = []
  · rw [unlessEmpty_of_nil hnil, unlessEmpty_of_nil (hempty.1 hnil)]
  · obtain ⟨u, hu, hleft⟩ := h.left.text_of_closing hclosing
    obtain ⟨v, hv, hright⟩ := h.right.text_of_closing hends
    have hlines : (Text.lines ((s.hold raw).underWay true).text).map trim =
        (Text.lines ((t.hold other).underWay true).text).map trim := by
      rw [h.left.map_trim_lines_of_closing h.feed_left hraw hu hleft hnil,
        h.right.map_trim_lines_of_closing h.feed_right hother hv hright (mt hempty.2 hnil), h.lines]
      rw [← h.parallel.delimiter] at hv
      rw [trim_eq_of_append_solid h.left.delimiter hu hv htrim]
    apply map_unlessEmpty _ hempty
    rw [unlaid, unlaid, hplace, hlines]

private theorem unlaid_queuedOn (htrim : trim raw = trim other) (hraw : '\n' ∉ raw)
    (hother : '\n' ∉ other) : (s.queuedOn raw).map unlaid = (t.queuedOn other).map unlaid := by
  have hends : t.mode.ending other = s.mode.ending raw := by
    rw [← h.parallel.mode, Mode.ending_congr htrim]
  unfold queuedOn
  rw [hends]
  cases hending : s.mode.ending raw with
  | «open» => rfl
  | closing => exact h.unlaid_closing htrim hraw hother hending
  | directive token =>
      have hself : directiveOn s raw = directiveOn t other := by
        rw [directiveOn, directiveOn, h.parallel.lineNumber, htrim]
      rw [List.map_append, List.map_append, h.left.unlessEmpty_counted,
        h.right.unlessEmpty_counted, h.unlaid_underWay, hself]

/-- The lines that are under way behind a line. -/
theorem exists_feed (htrim : trim raw = trim other) (hraw : '\n' ∉ raw) (hother : '\n' ∉ other) :
    ∃ carried' others', Relaid (s.feed raw) (t.feed other) carried' others' := by
  have halike : Alike s.mode raw other := alike_of_trim_eq _ htrim
  have hends : t.mode.ending other = s.mode.ending raw := by
    rw [← h.parallel.mode, halike.ending]
  have hparallel := h.parallel.feed halike
  have hready : (s.feed raw).ready.map unlaid = (t.feed other).ready.map unlaid := by
    rw [ready_feed, ready_feed, List.map_append, List.map_append, h.ready,
      h.unlaid_queuedOn htrim hraw hother]
  -- behind the end of a statement nothing is under way
  have hidle : (s.feed raw).Carries [] → (t.feed other).Carries [] →
      Relaid (s.feed raw) (t.feed other) [] [] := fun hleft hright =>
    ⟨hparallel, hleft, hright, rfl, by simp, by simp, hready⟩
  cases hending : s.mode.ending raw with
  | «open» =>
      have hleft : (s.feed raw).Carries (withLine carried raw) := by
        rw [feed_of_open hending]
        exact h.left.hold raw
      have hright : (t.feed other).Carries (withLine others other) := by
        rw [feed_of_open (hends.trans hending)]
        exact h.right.hold other
      exact ⟨_, _, hparallel, hleft, hright, map_trim_withLine h.lines htrim,
        lineFeed_notMem_withLine h.feed_left hraw, lineFeed_notMem_withLine h.feed_right hother,
        hready⟩
  | closing =>
      exact ⟨[], [], hidle (h.left.of_closing hending) (h.right.of_closing (hends.trans hending))⟩
  | directive token =>
      exact ⟨[], [], hidle (h.left.of_directive hending)
        (h.right.of_directive (hends.trans hending))⟩

theorem ready_finish : s.finish.ready.map unlaid = t.finish.ready.map unlaid := by
  rw [Scanner.ready_finish, Scanner.ready_finish, List.map_append, List.map_append, h.ready,
    h.unlaid_underWay]

theorem exists_feedAll {raws raws' : List Text} (htrim : raws.map trim = raws'.map trim)
    (hraws : ∀ raw ∈ raws, '\n' ∉ raw) (hraws' : ∀ raw ∈ raws', '\n' ∉ raw) :
    ∃ carried' others', Relaid (s.feedAll raws) (t.feedAll raws') carried' others' := by
  induction raws generalizing s t carried others raws' with
  | nil =>
      obtain rfl : raws' = [] := by simpa using htrim.symm
      exact ⟨carried, others, h⟩
  | cons raw raws ih =>
      obtain ⟨raw', rest', rfl⟩ := List.exists_cons_of_ne_nil
        (show raws' ≠ [] by rintro rfl; simp at htrim)
      rw [List.map_cons, List.map_cons, List.cons.injEq] at htrim
      obtain ⟨hhere, hrest⟩ := List.forall_mem_cons.1 hraws
      obtain ⟨hhere', hrest'⟩ := List.forall_mem_cons.1 hraws'
      obtain ⟨carried', others', hfeed⟩ := h.exists_feed htrim.1 hhere hhere'
      exact ih hfeed htrim.2 hrest hrest'

end Relaid

theorem relaid_initial : Relaid {} {} [] [] where
  parallel := ⟨rfl, rfl, rfl, fun hroutine => nomatch hroutine⟩
  left := carries_initial
  right := carries_initial
  lines := rfl
  feed_left := by simp
  feed_right := by simp
  ready := rfl

/-! ## Two scripts -/

theorem feedAll_map_trimEnd (s : Scanner) (raws : List Text) :
    s.feedAll (raws.map trimEnd) = s.feedAll raws := by
  rw [feedAll, feedAll, List.foldl_map]
  simp only [feed_trimEnd]

theorem split_congr_trimEnd {script other : Text}
    (h : (lines script).map trimEnd = (lines other).map trimEnd) : split script = split other := by
  rw [split, split, ← feedAll_map_trimEnd, h, feedAll_map_trimEnd]

/-- Scripts whose lines are the same but for their blank ends have the same statements but for the
blank ends of their lines, and the same statements if their lines also begin the same. -/
theorem layout_irrelevant {script other : Text}
    (h : (lines script).map trim = (lines other).map trim) :
    (split script).map unlaid = (split other).map unlaid ∧
      ((lines script).map trimEnd = (lines other).map trimEnd → split script = split other) := by
  refine ⟨?_, split_congr_trimEnd⟩
  obtain ⟨_, _, hrelaid⟩ := relaid_initial.exists_feedAll h
    (fun _ => lineFeed_notMem_of_mem_lines) (fun _ => lineFeed_notMem_of_mem_lines)
  exact hrelaid.ready_finish

def flushLeft : Text :=
  "CREATE PROCEDURE p() BEGIN
/* a
DELIMITER $$
*/ SELECT 1;

END;
SELECT 2
;".toList

def indented : Text :=
  " CREATE PROCEDURE p() BEGIN\r
  /* a\r
\t DELIMITER $$\r
\t */ SELECT 1;\r
  \r
 END;\r
  SELECT 2\r
 ;\r\n".toList

def indentedLoosely : Text :=
  " CREATE PROCEDURE p() BEGIN \t
  /* a
\t DELIMITER $$\t
\t */ SELECT 1; \r

 END;
  SELECT 2 \r
 ;\t".toList

theorem indented_unlaid :
    (split indented).map unlaid =
        [((.routine, 1, some [';']), ["CREATE PROCEDURE p() BEGIN".toList, "/* a".toList,
            "DELIMITER $$".toList, "*/ SELECT 1;".toList, [], "END".toList]),
          ((.ordinary, 7, some [';']), ["SELECT 2".toList])] ∧
      split indented = split indentedLoosely ∧ split indented ≠ split flushLeft := by
  have hflush : (lines indented).map trim = (lines flushLeft).map trim := by decide +kernel
  have hloose : (lines indented).map trim = (lines indentedLoosely).map trim := by decide +kernel
  rw [(layout_irrelevant hflush).1]
  exact ⟨by decide +kernel, (layout_irrelevant hloose).2 (by decide +kernel), by decide +kernel⟩

end SqlBatch.Scanner
