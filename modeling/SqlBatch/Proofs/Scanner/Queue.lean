import SqlBatch.Proofs.Scanner.Mode
/-!
# The queue of a scanner

Statements that wait in the queue have no part in what becomes of a line: a scanner with some more
of them in front does the same and keeps them in front.
-/

namespace SqlBatch.Scanner

open Text

def queuedAfter (s : Scanner) (front : List Statement) : Scanner :=
  { s with ready := front ++ s.ready }

variable (s : Scanner) (front : List Statement)

@[simp] theorem queuedAfter_mode : (s.queuedAfter front).mode = s.mode := rfl

@[simp] theorem queuedAfter_ready : (s.queuedAfter front).ready = front ++ s.ready := rfl

theorem track_queuedAfter (line : Text) :
    (s.queuedAfter front).track line = (s.track line).queuedAfter front := by
  rw [track_eq, track_eq]
  simp only [queuedAfter_mode]
  unfold queuedAfter
  split <;> rfl

theorem appendBlank_queuedAfter :
    (s.queuedAfter front).appendBlank = s.appendBlank.queuedAfter front := by
  unfold appendBlank queuedAfter
  split <;> rfl

theorem hold_queuedAfter (raw : Text) :
    (s.queuedAfter front).hold raw = (s.hold raw).queuedAfter front := by
  have hcomment : (s.queuedAfter front).inBlockComment = s.inBlockComment := rfl
  unfold hold
  rw [hcomment]
  cases reading s.inBlockComment raw with
  | commentEnd code =>
      exact track_queuedAfter { s.counted.append raw with inBlockComment := false } front code
  | commentStart =>
      exact track_queuedAfter { s.counted.append raw with inBlockComment := true } front (trim raw)
  | code => exact track_queuedAfter (s.counted.append raw) front (trim raw)
  | blank => exact appendBlank_queuedAfter s.counted front
  | _ => rfl

theorem flush_queuedAfter (terminated : Bool) :
    (s.queuedAfter front).flush terminated = (s.flush terminated).queuedAfter front := by
  rw [flush_eq, flush_eq]
  unfold queuedAfter
  simp only [List.append_assoc]
  rfl

theorem feed_queuedAfter (raw : Text) :
    (s.queuedAfter front).feed raw = (s.feed raw).queuedAfter front := by
  rw [feed_eq_ending, feed_eq_ending, queuedAfter_mode]
  cases s.mode.ending raw with
  | «open» => exact hold_queuedAfter s front raw
  | closing =>
      simp only [hold_queuedAfter, flush_queuedAfter]
  | directive token =>
      have hcounted : (s.queuedAfter front).counted = s.counted.queuedAfter front := rfl
      simp only [hcounted, flush_queuedAfter, queue_eq]
      unfold queuedAfter
      simp only [List.append_assoc]
      rfl

theorem finish_queuedAfter :
    (s.queuedAfter front).finish = s.finish.queuedAfter front := by
  rw [finish, finish, flush_queuedAfter]
  rfl

end SqlBatch.Scanner
