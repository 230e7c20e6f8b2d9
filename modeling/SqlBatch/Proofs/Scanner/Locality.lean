import SqlBatch.Proofs.Scanner.Parallel
import SqlBatch.Proofs.Scanner.WellFormed
import SqlBatch.Proofs.Scanner.Segmentation
/-!
# Locality

Between two statements a scanner keeps nothing of what it has read but the delimiter and the number
of lines: it goes on as a fresh scanner with that delimiter would, so many lines further down
(`Reachable.statements_local`).
-/

namespace SqlBatch

open Text

def Statement.later (n : Nat) (statement : Statement) : Statement :=
  { statement with line := statement.line + n }

namespace Scanner

theorem unlessEmpty_later (n : Nat) (statement : Statement) :
    unlessEmpty (statement.later n) = (unlessEmpty statement).map (Statement.later n) := by
  unfold unlessEmpty Statement.later
  split <;> rfl

/-- `s` reads what `t` reads, `n` lines further down, and had `front` in its queue before. -/
structure Displaced (n : Nat) (front : List Statement) (s t : Scanner) : Prop where
  parallel : Parallel n s t
  buffer : s.buffer = t.buffer
  ready : s.ready = front ++ t.ready.map (Statement.later n)

namespace Displaced

variable {n : Nat} {front : List Statement} {s t : Scanner} (h : Displaced n front s t)

include h

theorem hold (raw : Text) : Displaced n front (s.hold raw) (t.hold raw) where
  parallel := h.parallel.hold (.refl _ _)
  buffer := by rw [hold_buffer, hold_buffer, h.parallel.inBlockComment, h.buffer]
  ready := by rw [hold_ready, hold_ready, h.ready]

theorem underWay (terminated : Bool) :
    s.underWay terminated = (t.underWay terminated).later n := by
  have htext : (s.underWay terminated).text = (t.underWay terminated).text := by
    simp only [Scanner.underWay, h.buffer, h.parallel.delimiter]
  rw [h.parallel.underWay, htext]
  rfl

theorem queuedOn (raw : Text) :
    s.queuedOn raw = (t.queuedOn raw).map (Statement.later n) := by
  have hcounted : Displaced n front s.counted t.counted :=
    ⟨h.parallel.counted, h.buffer, h.ready⟩
  have hdirective : s.directiveOn raw = (t.directiveOn raw).later n := by
    have hnumber : s.lineNumber + 1 = t.lineNumber + 1 + n := by
      rw [h.parallel.lineNumber]
      omega
    simp only [directiveOn, Statement.later, hnumber]
  unfold Scanner.queuedOn
  rw [h.parallel.mode]
  cases t.mode.ending raw with
  | «open» => rfl
  | closing => rw [(h.hold raw).underWay, unlessEmpty_later]
  | directive token =>
      rw [hcounted.underWay, hdirective, unlessEmpty_later, unlessEmpty_later, List.map_append]

theorem feed (raw : Text) : Displaced n front (s.feed raw) (t.feed raw) where
  parallel := h.parallel.feed (.refl _ _)
  buffer := by
    have hmode := h.parallel.mode
    cases hending : t.mode.ending raw with
    | «open» =>
        rw [feed_of_open hending, feed_of_open (hmode ▸ hending)]
        exact (h.hold raw).buffer
    | closing =>
        rw [feed_of_closing hending, feed_of_closing (hmode ▸ hending), flush_eq, flush_eq]
    | directive token =>
        rw [feed_of_directive hending, feed_of_directive (hmode ▸ hending), queue_eq, queue_eq,
          flush_eq, flush_eq]
  ready := by
    rw [ready_feed, ready_feed, h.ready, h.queuedOn, List.map_append, List.append_assoc]

theorem feedAll (lines : List Text) : Displaced n front (s.feedAll lines) (t.feedAll lines) := by
  induction lines generalizing s t with
  | nil => exact h
  | cons raw rest ih => exact ih (h.feed raw)

theorem ready_finish : s.finish.ready = front ++ t.finish.ready.map (Statement.later n) := by
  rw [Scanner.ready_finish, Scanner.ready_finish, h.underWay, unlessEmpty_later, h.ready,
    List.map_append, List.append_assoc]

end Displaced

/-- Between two statements only the delimiter and the number of lines tell a scanner from a fresh
one, as far as the statements to come go. -/
theorem Carries.displaced {s : Scanner} (h : s.Carries []) :
    Displaced s.lineNumber s.ready s { delimiter := s.delimiter } where
  parallel := {
    mode := h.mode_eq
    lineNumber := (Nat.zero_add _).symm
    bufferStart := by
      rw [h.start]
      rfl
    routineStart := fun hroutine => nomatch hroutine }
  buffer := h.buffer
  ready := (List.append_nil _).symm

/-- Behind a whole statement a scanner cuts further lines as a fresh one under the same delimiter
does.  So a script that starts anew at some line, with the first delimiter in force, is cut into what
its two parts are cut into. -/
theorem Reachable.statements_local {s : Scanner} (h : s.Reachable) (hbuffer : s.buffer = []) :
    (∀ fed : List Text,
      (s.feedAll fed).finish.ready =
        s.ready ++ (({ delimiter := s.delimiter } : Scanner).feedAll fed).finish.ready.map
          (Statement.later s.lineNumber)) ∧
    ∀ script front back : Text, lines script = lines front ++ lines back →
      s = ({} : Scanner).feedAll (lines front) → s.delimiter = Delimiter.initial →
      split script = split front ++ (split back).map (Statement.later (lines front).length) := by
  have hcarries := h.carries_nil hbuffer
  have hlocal : ∀ fed : List Text, (s.feedAll fed).finish.ready =
      s.ready ++ (({ delimiter := s.delimiter } : Scanner).feedAll fed).finish.ready.map
        (Statement.later s.lineNumber) :=
    fun fed => (hcarries.displaced.feedAll fed).ready_finish
  refine ⟨hlocal, fun script front back hlines hfront hdelimiter => ?_⟩
  have hnumber : s.lineNumber = (lines front).length := by
    rw [hfront, feedAll_lineNumber, Nat.zero_add]
  have hdone : split front = s.ready := by
    rw [split, ← hfront, Scanner.ready_finish, hcarries.unlessEmpty_underWay_nil, List.append_nil]
  calc split script
      = (s.feedAll (lines back)).finish.ready := by
        rw [split, hlines, hfront, Scanner.feedAll, Scanner.feedAll, Scanner.feedAll,
          List.foldl_append]
    _ = s.ready ++ (({ delimiter := s.delimiter } : Scanner).feedAll (lines back)).finish.ready.map
          (Statement.later s.lineNumber) := hlocal (lines back)
    _ = split front ++ (split back).map (Statement.later (lines front).length) := by
        rw [hdone, hnumber, hdelimiter]
        rfl

def routineUnderDelimiter : Text :=
  "DELIMITER //\nCREATE PROCEDURE p() BEGIN\nSELECT 1;\nEND//\nDELIMITER ;\n".toList

def routineAndStatement : Text := "\n/* a\n*/ ALTER EVENT e\n;\nSELECT 2".toList

theorem routineUnderDelimiter_local :
    split (routineUnderDelimiter ++ routineAndStatement) =
      [⟨"DELIMITER //".toList, 1, .directive, none⟩,
        ⟨"CREATE PROCEDURE p() BEGIN\nSELECT 1;\nEND".toList, 2, .routine, some ['/', '/']⟩,
        ⟨"DELIMITER ;".toList, 5, .directive, none⟩,
        ⟨"/* a\n*/ ALTER EVENT e".toList, 8, .routine, some [';']⟩,
        ⟨"SELECT 2".toList, 10, .ordinary, none⟩] := by
  have hreachable : (({} : Scanner).feedAll (lines routineUnderDelimiter)).Reachable :=
    .feedAll .fresh _
  have hparts := (hreachable.statements_local (by decide +kernel)).2
    (routineUnderDelimiter ++ routineAndStatement) routineUnderDelimiter routineAndStatement
    (by decide +kernel) rfl (by decide +kernel)
  rw [hparts]
  decide +kernel

end Scanner
end SqlBatch
