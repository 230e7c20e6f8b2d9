import SqlBatch.Proofs.Scanner.Carries
/-!
# Two scanners side by side

Two runs stay side by side as long as their lines do the same to the mode: from then on the
statements that they cut out start, end and are classified alike.  The runs may be some lines apart,
and the text of the statement under way and the queue may differ.
-/

namespace SqlBatch.Scanner

open Text

structure Alike (m : Mode) (raw other : Text) : Prop where
  reading : reading m.inBlockComment raw = reading m.inBlockComment other
  hold : m.hold raw = m.hold other
  ending : m.ending raw = m.ending other

theorem Alike.refl (m : Mode) (raw : Text) : Alike m raw raw := ⟨rfl, rfl, rfl⟩

/-- `s` is where `t` is, `n` lines further down.  The header line of a routine that is over does not
count. -/
structure Parallel (n : Nat) (s t : Scanner) : Prop where
  mode : s.mode = t.mode
  lineNumber : s.lineNumber = t.lineNumber + n
  bufferStart : s.bufferStart = t.bufferStart.map (· + n)
  routineStart : t.inRoutine = true → s.routineStart = t.routineStart + n

def queuedOn (s : Scanner) (raw : Text) : List Statement :=
  match s.mode.ending raw with
  | .open => []
  | .closing => unlessEmpty ((s.hold raw).underWay true)
  | .directive _ => unlessEmpty (s.counted.underWay false) ++ unlessEmpty (s.directiveOn raw)

theorem ready_feed (s : Scanner) (raw : Text) :
    (s.feed raw).ready = s.ready ++ s.queuedOn raw := by
  unfold queuedOn
  cases hending : s.mode.ending raw with
  | «open» => rw [feed_of_open hending, hold_ready, List.append_nil]
  | closing => exact ready_of_closing hending
  | directive token =>
      rw [feed_of_directive hending, queue_eq, flush_eq, ← List.append_assoc]
      rfl

theorem feed_routineStart (s : Scanner) (raw : Text) :
    (s.feed raw).routineStart = (s.hold raw).routineStart := by
  cases hending : s.mode.ending raw with
  | «open» => rw [feed_of_open hending]
  | closing => rw [feed_of_closing hending, flush_eq]
  | directive token =>
      obtain ⟨hreading, -⟩ := Mode.reading_of_ending_directive hending
      have hhold : reading s.inBlockComment raw = .directive token := hreading
      rw [feed_of_directive hending, queue_eq, flush_eq, hold, hhold]
      rfl

namespace Parallel

variable {n : Nat} {s t : Scanner} {raw other : Text} (h : Parallel n s t)

include h

theorem delimiter : s.delimiter = t.delimiter := congrArg Mode.delimiter h.mode

theorem inBlockComment : s.inBlockComment = t.inBlockComment :=
  congrArg Mode.inBlockComment h.mode

theorem inRoutine : s.inRoutine = t.inRoutine := congrArg Mode.inRoutine h.mode

theorem bufferStart_eq_none : s.bufferStart = none ↔ t.bufferStart = none := by
  rw [h.bufferStart, Option.map_eq_none_iff]

theorem counted : Parallel n s.counted t.counted where
  mode := h.mode
  lineNumber := by
    have hnumber := h.lineNumber
    simp only [Scanner.counted]
    omega
  bufferStart := h.bufferStart
  routineStart := h.routineStart

theorem hold (halike : Alike s.mode raw other) : Parallel n (s.hold raw) (t.hold other) := by
  have hmode : (s.hold raw).mode = (t.hold other).mode := by
    rw [mode_hold, mode_hold, halike.hold, h.mode]
  have hreading : reading s.inBlockComment raw = reading t.inBlockComment other := by
    rw [← h.inBlockComment]
    exact halike.reading
  have hnumber := h.lineNumber
  exact {
    mode := hmode
    lineNumber := by
      rw [hold_lineNumber, hold_lineNumber]
      omega
    bufferStart := by
      have hnext : s.lineNumber + 1 = t.lineNumber + 1 + n := by omega
      rw [hold_bufferStart, hold_bufferStart, hreading, h.bufferStart, hnext]
      split
      · rfl
      · cases t.bufferStart <;> rfl
    routineStart := by
      intro hroutine
      have hin : (s.hold raw).inRoutine = true := (congrArg Mode.inRoutine hmode).trans hroutine
      rw [hold_routineStart, hold_routineStart, hin, hroutine, h.inRoutine]
      cases hbefore : t.inRoutine with
      | false =>
          simp only [Bool.not_false, Bool.and_self, if_true]
          omega
      | true => exact h.routineStart hbefore }

theorem flush (terminated : Bool) : Parallel n (s.flush terminated) (t.flush terminated) := by
  have hdepth : s.depth = t.depth := congrArg Mode.depth h.mode
  rw [flush_eq, flush_eq]
  exact {
    mode := by simp only [Scanner.mode, h.delimiter, h.inBlockComment, h.inRoutine, hdepth]
    lineNumber := h.lineNumber
    bufferStart := rfl
    routineStart := fun hroutine => nomatch hroutine }

theorem feed (halike : Alike s.mode raw other) : Parallel n (s.feed raw) (t.feed other) := by
  have hother : t.mode.ending other = s.mode.ending raw := by rw [← h.mode, halike.ending]
  cases hending : s.mode.ending raw with
  | «open» =>
      rw [feed_of_open hending, feed_of_open (hother.trans hending)]
      exact h.hold halike
  | closing =>
      rw [feed_of_closing hending, feed_of_closing (hother.trans hending)]
      exact (h.hold halike).flush true
  | directive token =>
      have hflush := h.counted.flush false
      rw [feed_of_directive hending, feed_of_directive (hother.trans hending), queue_eq, queue_eq]
      exact {
        mode := by
          have hmode := hflush.mode
          simp only [Scanner.mode, Mode.mk.injEq] at hmode ⊢
          exact ⟨trivial, hmode.2⟩
        lineNumber := hflush.lineNumber
        bufferStart := hflush.bufferStart
        routineStart := hflush.routineStart }

/-- Statements that end side by side differ in their texts and are `n` lines apart. -/
theorem underWay (terminated : Bool) :
    s.underWay terminated =
      { text := (s.underWay terminated).text
        line := (t.underWay terminated).line + n
        kind := (t.underWay terminated).kind
        terminator := (t.underWay terminated).terminator } := by
  have hline : (s.underWay terminated).line = (t.underWay terminated).line + n := by
    simp only [Scanner.underWay, h.inRoutine, h.bufferStart, h.lineNumber]
    split
    · next hroutine => exact h.routineStart hroutine
    · cases t.bufferStart <;> rfl
  have hkind : (s.underWay terminated).kind = (t.underWay terminated).kind := by
    simp only [Scanner.underWay, h.inRoutine]
  have hterminator : (s.underWay terminated).terminator = (t.underWay terminated).terminator := by
    simp only [Scanner.underWay, h.delimiter]
  rw [← hline, ← hkind, ← hterminator]

end Parallel

end SqlBatch.Scanner
