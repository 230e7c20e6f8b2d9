import SqlBatch.Script
import SqlBatch.Proofs.Scanner.Carries
/-!
# Well-formed scanners

What holds of every scanner that some calls lead to, in terms of its fields.  `Carries` says it in
terms of the lines under way, and each call keeps that; here it is read off, together with what
holds of the statements in the queue.  `finish` leaves nothing under way, so that a second one does
nothing.
-/

namespace SqlBatch

open Text

structure Statement.WellFormed (statement : Statement) : Prop where
  text_ne_nil : statement.text ≠ []
  text_trim : trim statement.text = statement.text
  terminator : ∀ d, statement.terminator = some d → Solid d
  directive : statement.kind = .directive →
    statement.terminator = none ∧ ∃ token, Delimiter.directive? statement.text = some token

theorem Statement.WellFormed.not_allBlank {statement : Statement} (h : statement.WellFormed) :
    ¬ AllBlank statement.text := by
  rw [← trim_eq_nil, h.text_trim]
  exact h.text_ne_nil

namespace Scanner

structure WellFormed (s : Scanner) : Prop where
  depth : s.inRoutine = false → s.depth = 0
  bufferStart : s.buffer = [] ↔ s.bufferStart = none
  ink : s.buffer ≠ [] → ∃ c ∈ s.buffer, isBlank c = false
  comment : s.inBlockComment = true → s.buffer ≠ []
  routine : s.inRoutine = true →
    ∃ first, s.bufferStart = some first ∧ 1 ≤ first ∧ first ≤ s.routineStart ∧
      s.routineStart ≤ s.lineNumber
  delimiter : Solid s.delimiter
  queued : ∀ statement ∈ s.ready, statement.WellFormed

/-! ## The statements in the queue -/

theorem mem_unlessEmpty {statement other : Statement} :
    other ∈ unlessEmpty statement ↔ other = statement ∧ statement.text ≠ [] := by
  by_cases htext : statement.text = []
  · simp [unlessEmpty_of_nil htext, htext]
  · simp [unlessEmpty_of_ne_nil htext, htext]

inductive Queues (s : Scanner) (raw : Text) : Statement → Prop where
  | closing (ends : s.mode.ending raw = .closing) (text : ((s.hold raw).underWay true).text ≠ []) :
    Queues s raw ((s.hold raw).underWay true)
  | flushed {token : Text} (ends : s.mode.ending raw = .directive token)
    (text : (s.counted.underWay false).text ≠ []) : Queues s raw (s.counted.underWay false)
  | directive {token : Text} (ends : s.mode.ending raw = .directive token) :
    Queues s raw (s.directiveOn raw)

theorem mem_ready_feed {s : Scanner} {raw : Text} {statement : Statement}
    (h : statement ∈ (s.feed raw).ready) : statement ∈ s.ready ∨ Queues s raw statement := by
  cases hending : s.mode.ending raw with
  | «open» =>
      rw [feed_of_open hending, hold_ready] at h
      exact .inl h
  | closing =>
      rw [ready_of_closing hending, List.mem_append, mem_unlessEmpty] at h
      obtain hold | ⟨rfl, htext⟩ := h
      · exact .inl hold
      · exact .inr (.closing hending htext)
  | directive token =>
      rw [feed_of_directive hending, queue_eq, flush_eq] at h
      simp only [List.mem_append, mem_unlessEmpty] at h
      obtain (hold | ⟨rfl, htext⟩) | ⟨rfl, -⟩ := h
      · exact .inl hold
      · exact .inr (.flushed hending htext)
      · exact .inr (.directive hending)

section WellFormed

variable {s : Scanner} {lines : List Text}

theorem wellFormed_underWay (hsolid : Solid s.delimiter) {terminated : Bool}
    (htext : (s.underWay terminated).text ≠ []) : (s.underWay terminated).WellFormed where
  text_ne_nil := htext
  text_trim := by
    unfold underWay
    cases terminated with
    | true => exact Delimiter.trim_strip _ _
    | false => exact trim_trim _
  terminator := by
    intro d hd
    obtain rfl : s.delimiter = d := by
      cases terminated with
      | true => simpa [underWay] using hd
      | false => simp [underWay] at hd
    exact hsolid
  directive := by
    intro hkind
    cases hroutine : s.inRoutine <;> simp [underWay, hroutine] at hkind

private theorem wellFormed_directiveOn {raw token : Text}
    (hdirective : s.mode.ending raw = .directive token) : (s.directiveOn raw).WellFormed := by
  obtain ⟨hreading, -⟩ := Mode.reading_of_ending_directive hdirective
  exact {
    text_ne_nil := mt trim_eq_nil.1 (not_allBlank_of_reading_directive hreading)
    text_trim := trim_trim raw
    terminator := fun d hd => nomatch hd
    directive := fun _ =>
      ⟨rfl, token, (Delimiter.directive?_trim raw).trans (directive?_of_reading hreading)⟩ }

theorem Carries.wellFormed_of_queues (h : s.Carries lines) {raw : Text} {statement : Statement}
    (hqueues : Queues s raw statement) : statement.WellFormed := by
  cases hqueues with
  | closing _ htext => exact wellFormed_underWay (h.hold raw).delimiter htext
  | flushed _ htext =>
      have hcounted : Solid s.counted.delimiter := h.delimiter
      exact wellFormed_underWay hcounted htext
  | directive hends => exact wellFormed_directiveOn hends

theorem Carries.wellFormed_of_mem_finish (h : s.Carries lines) {statement : Statement}
    (hmem : statement ∈ s.finish.ready) : statement ∈ s.ready ∨ statement.WellFormed := by
  rw [ready_finish, List.mem_append, mem_unlessEmpty] at hmem
  obtain hold | ⟨rfl, htext⟩ := hmem
  · exact .inl hold
  · exact .inr (wellFormed_underWay h.delimiter htext)

end WellFormed

theorem Reachable.feedAll {s : Scanner} (h : s.Reachable) (lines : List Text) :
    (s.feedAll lines).Reachable := by
  induction lines generalizing s with
  | nil => exact h
  | cons raw rest ih => exact ih (.feed raw h)

theorem Reachable.queued {s : Scanner} (h : s.Reachable) :
    ∀ statement ∈ s.ready, statement.WellFormed := by
  induction h with
  | fresh => exact fun _ hmem => absurd hmem List.not_mem_nil
  | feed raw hs ih =>
      obtain ⟨lines, hlines⟩ := hs.exists_carries
      intro statement hmem
      exact (mem_ready_feed hmem).elim (ih statement) hlines.wellFormed_of_queues
  | finish hs ih =>
      obtain ⟨lines, hlines⟩ := hs.exists_carries
      intro statement hmem
      exact (hlines.wellFormed_of_mem_finish hmem).elim (ih statement) id
  | @pop s _ ih =>
      rcases hready : s.ready with _ | ⟨statement, later⟩
      · simpa only [Scanner.pop, hready] using ih
      · rw [hready, List.forall_mem_cons] at ih
        simpa only [Scanner.pop, hready] using ih.2
  | drain _ _ => exact fun _ hmem => absurd hmem List.not_mem_nil

/-! ## The whole scanner -/

theorem Carries.wellFormed_of_queued {s : Scanner} {lines : List Text} (h : s.Carries lines)
    (hready : ∀ statement ∈ s.ready, statement.WellFormed) : s.WellFormed := by
  have hbuffer : s.buffer = [] ↔ lines = [] := by rw [h.buffer, block_eq_nil]
  exact {
    depth := h.depth
    bufferStart := by rw [hbuffer, h.bufferStart_eq_none]
    ink := by
      intro hne
      by_contra hnone
      have hblank : AllBlank (block lines) := by
        intro c hc
        by_contra hink
        exact hnone ⟨c, by rwa [h.buffer], Bool.eq_false_iff.2 hink⟩
      exact hne (hbuffer.2 (h.eq_nil_of_allBlank (allBlank_block.1 hblank)))
    comment := fun hcomment => mt hbuffer.1 (h.comment hcomment)
    routine := by
      intro hin
      obtain ⟨hne, hfirst, hlast⟩ := h.routine hin
      have hlength := h.length_le
      refine ⟨s.lineNumber + 1 - lines.length, ?_, by omega, by omega, hlast⟩
      rw [h.start, if_neg hne]
    delimiter := h.delimiter
    queued := hready }

theorem finish_eq (s : Scanner) :
    s.finish =
      { s with
        buffer := []
        bufferStart := none
        inBlockComment := false
        inRoutine := false
        depth := if s.inRoutine then 0 else s.depth
        ready := s.ready ++ unlessEmpty (s.underWay false) } := by
  rw [finish, flush_eq]

private theorem finish_finish (s : Scanner) : s.finish.finish = s.finish := by
  have hnone : unlessEmpty (s.finish.underWay false) = [] := by
    apply unlessEmpty_of_nil
    rw [finish_eq]
    rfl
  rw [finish_eq s.finish, hnone, finish_eq s]
  simp

/-- Every scanner that can be reached is well formed, and its end leaves nothing under way. -/
theorem Reachable.wellFormed {s : Scanner} (h : s.Reachable) :
    s.WellFormed ∧
      s.finish.buffer = [] ∧ s.finish.inBlockComment = false ∧ s.finish.inRoutine = false ∧
      s.finish.finish = s.finish := by
  obtain ⟨lines, hlines⟩ := h.exists_carries
  have hrest : s.finish.buffer = [] ∧ s.finish.inBlockComment = false ∧
      s.finish.inRoutine = false := by
    rw [finish_eq]
    exact ⟨rfl, rfl, rfl⟩
  exact ⟨hlines.wellFormed_of_queued h.queued, hrest.1, hrest.2.1, hrest.2.2, finish_finish s⟩

def commentInRoutine : Scanner :=
  ({} : Scanner).feedAll
    ["SELECT 1;".toList, "-- p".toList, "CREATE PROCEDURE p() BEGIN".toList, "/* a".toList]

theorem commentInRoutine_wellFormed :
    commentInRoutine.Reachable ∧
      commentInRoutine.inBlockComment = true ∧ commentInRoutine.bufferStart = some 2 ∧
      commentInRoutine.routineStart = 3 ∧ commentInRoutine.depth = 1 ∧
      commentInRoutine.ready = [⟨"SELECT 1".toList, 1, .ordinary, some [';']⟩] ∧
      commentInRoutine.WellFormed ∧
      commentInRoutine.finish.finish.ready = commentInRoutine.finish.ready := by
  have hreachable : commentInRoutine.Reachable := Reachable.fresh.feedAll _
  obtain ⟨hwell, -, -, -, hagain⟩ := hreachable.wellFormed
  exact ⟨hreachable, by decide +kernel, by decide +kernel, by decide +kernel, by decide +kernel,
    by decide +kernel, hwell, by rw [hagain]⟩

end Scanner

theorem wellFormed_of_mem_split {script : Text} {statement : Statement}
    (h : statement ∈ split script) : statement.WellFormed :=
  (Scanner.Reachable.finish (Scanner.Reachable.feedAll .fresh _)).queued statement h

/-! ## Routines that are left open -/

def Statement.isOpenRoutine (statement : Statement) : Bool :=
  statement.kind == .routine && !statement.isTerminated

theorem Statement.kind_of_isOpenRoutine {statement : Statement}
    (h : statement.isOpenRoutine = true) : statement.kind = .routine := by
  simp only [isOpenRoutine, Bool.and_eq_true, beq_iff_eq] at h
  exact h.1

namespace Scanner

/-- What a line queues is no open routine: the delimiter ends routines, and a `DELIMITER` line ends
what is not one. -/
theorem isOpenRoutine_of_queues {s : Scanner} {raw : Text} {statement : Statement}
    (h : Queues s raw statement) : statement.isOpenRoutine = false := by
  cases h with
  | closing => simp [Statement.isOpenRoutine, Statement.isTerminated, underWay]
  | flushed hends =>
      have hroutine : s.inRoutine = false := (Mode.reading_of_ending_directive hends).2
      simp [Statement.isOpenRoutine, underWay, counted, hroutine]
  | directive => rfl

theorem isOpenRoutine_feedAll {s : Scanner} (lines : List Text)
    (hready : ∀ statement ∈ s.ready, statement.isOpenRoutine = false) :
    ∀ statement ∈ (s.feedAll lines).ready, statement.isOpenRoutine = false := by
  induction lines generalizing s with
  | nil => exact hready
  | cons raw rest ih =>
      exact ih fun statement hmem =>
        (mem_ready_feed hmem).elim (hready statement) isOpenRoutine_of_queues

/-- Only the last statement of a script may be a routine that is left open. -/
theorem isOpenRoutine_of_mem_dropLast {script : Text} {statement : Statement}
    (h : statement ∈ (split script).dropLast) : statement.isOpenRoutine = false := by
  have hfed : ∀ statement ∈ (({} : Scanner).feedAll (lines script)).ready,
      statement.isOpenRoutine = false :=
    isOpenRoutine_feedAll _ fun _ hmem => absurd hmem List.not_mem_nil
  rw [split, ready_finish] at h
  by_cases htext : ((({} : Scanner).feedAll (lines script)).underWay false).text = []
  · rw [unlessEmpty_of_nil htext, List.append_nil] at h
    exact hfed statement ((List.dropLast_subset _) h)
  · rw [unlessEmpty_of_ne_nil htext, List.dropLast_concat] at h
    exact hfed statement h

end Scanner
end SqlBatch
