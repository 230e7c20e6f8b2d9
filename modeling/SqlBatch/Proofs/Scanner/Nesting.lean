import SqlBatch.Proofs.Scanner.Segmentation
/-!
# Nested routines

A routine whose lines have neither block comments nor `DELIMITER` lines among them ends on the first
line of code that ends with the delimiter while no block is open.  `Within` is the invariant of the
scanner inside the routine.
-/

namespace SqlBatch.Scanner

open Text

def depthBehind (depth : Nat) (raw : Text) : Nat :=
  if Coded raw then
    depth + (Routine.balance (trim raw)).opened - (Routine.balance (trim raw)).closed
  else depth

/-- Blocks that are open behind the lines of a routine. -/
def openBlocks (lines : List Text) : Nat := lines.foldl depthBehind 0

/-- Line `k` is one that the delimiter may end a routine on. -/
structure ClosesOn (delimiter : Text) (lines : List Text) (k : Nat) : Prop where
  pos : 0 < k
  le_length : k ≤ lines.length
  coded : Coded (lineAt lines k)
  delimited : delimiter <:+ trim (lineAt lines k)
  surface : openBlocks (lines.take k) = 0

theorem openBlocks_append (lines : List Text) (raw : Text) :
    openBlocks (lines ++ [raw]) = depthBehind (openBlocks lines) raw := by
  rw [openBlocks, List.foldl_append]
  rfl

/-! ## One line -/

namespace Mode

variable {m : Mode} {raw : Text}

/-- A line of a routine changes nothing but the blocks that are open. -/
theorem hold_of_plain (hraw : Plain raw) (hout : m.inBlockComment = false)
    (hin : m.inRoutine = true ∨ m.depth = 0 ∧ Coded raw ∧ Routine.starts raw = true) :
    m.hold raw = { m with inRoutine := true, depth := depthBehind m.depth raw } := by
  by_cases hcoded : Coded raw
  · rw [(hold_of_coded hraw hout hcoded).1, track_of_plain hraw.1, depthBehind, if_pos hcoded,
      Routine.balance_trim]
    rcases hin with hin | ⟨hdepth, -, hstarts⟩
    · simp [hin]
    · simp [hstarts, hdepth]
  · obtain hin : m.inRoutine = true := hin.resolve_right fun hstart => hcoded hstart.2.1
    rw [(hold_of_not_coded hraw.1 hout hcoded).1, depthBehind, if_neg hcoded, ← hin]

theorem ending_of_plain (hraw : Plain raw) (hout : m.inBlockComment = false)
    (hin : m.inRoutine = true ∨ m.depth = 0 ∧ Coded raw ∧ Routine.starts raw = true) :
    m.ending raw =
      if Coded raw ∧ m.delimiter <:+ trim raw ∧ depthBehind m.depth raw = 0 then .closing
      else .open := by
  by_cases hcoded : Coded raw
  · obtain ⟨hhold, hending⟩ := hold_of_coded hraw hout hcoded
    rw [hending, endingAt, ← hhold, hold_of_plain hraw hout hin]
    simp [hcoded, atSurface]
  · rw [(hold_of_not_coded hraw.1 hout hcoded).2, if_neg fun hall => hcoded hall.1]

end Mode

/-! ## Within the routine -/

/-- `t` is the scanner `s` behind the lines `fed` of one routine, which is still open. -/
structure Within (s : Scanner) (fed : List Text) (t : Scanner) : Prop where
  carries : t.Carries fed
  mode : t.mode = ⟨s.delimiter, false, !fed.isEmpty, openBlocks fed⟩
  lineNumber : t.lineNumber = s.lineNumber + fed.length
  start : fed ≠ [] → t.routineStart = s.lineNumber + 1
  ready : t.ready = s.ready

def Heads (raw : Text) : Prop :=
  Comment.isLineComment raw = false ∧ Routine.starts raw = true

theorem Heads.coded {raw : Text} (h : Heads raw) : Coded raw := by
  refine ⟨fun hblank => ?_, h.1⟩
  have hnone := Routine.starts_wordless hblank.wordless
  rw [h.2] at hnone
  contradiction

namespace Within

variable {s t : Scanner} {fed : List Text} {raw : Text}

theorem initial (h : s.Carries []) : Within s [] s where
  carries := h
  mode := h.mode_eq
  lineNumber := rfl
  start := fun hne => absurd rfl hne
  ready := rfl

theorem inBlockComment_eq_false (h : Within s fed t) : t.mode.inBlockComment = false := by
  rw [h.mode]

theorem entered (h : Within s fed t) (hhead : fed = [] → Heads raw) :
    t.mode.inRoutine = true ∨ t.mode.depth = 0 ∧ Coded raw ∧ Routine.starts raw = true := by
  rw [h.mode]
  cases fed with
  | nil => exact .inr ⟨rfl, (hhead rfl).coded, (hhead rfl).2⟩
  | cons line fed => exact .inl rfl

theorem hold (h : Within s fed t) (hplain : Plain raw) (hhead : fed = [] → Heads raw) :
    Within s (fed ++ [raw]) (t.hold raw) := by
  have hmode : (t.hold raw).mode = ⟨s.delimiter, false, true, openBlocks (fed ++ [raw])⟩ := by
    rw [mode_hold, Mode.hold_of_plain hplain h.inBlockComment_eq_false (h.entered hhead), h.mode,
      openBlocks_append]
  -- the header is not blank, and behind it blank lines are part of the routine
  have hwith : withLine fed raw = fed ++ [raw] := by
    by_cases hnil : fed = []
    · exact withLine_of_ink fed (hhead hnil).coded.1
    · exact withLine_of_ne_nil hnil raw
  have hin : (t.hold raw).inRoutine = true := congrArg Mode.inRoutine hmode
  exact {
    carries := by
      rw [← hwith]
      exact h.carries.hold raw
    mode := by
      rw [hmode]
      simp
    lineNumber := by
      rw [hold_lineNumber, h.lineNumber, List.length_append, List.length_singleton]
      omega
    start := by
      intro _
      have hbefore : t.inRoutine = !fed.isEmpty := congrArg Mode.inRoutine h.mode
      rw [hold_routineStart, hin, hbefore]
      cases fed with
      | nil =>
          have hnumber := h.lineNumber
          simpa using hnumber
      | cons line fed => simpa using h.start (by simp)
    ready := by rw [hold_ready, h.ready] }

theorem ending (h : Within s fed t) (hplain : Plain raw) (hhead : fed = [] → Heads raw) :
    t.mode.ending raw =
      if Coded raw ∧ s.delimiter <:+ trim raw ∧ openBlocks (fed ++ [raw]) = 0 then .closing
      else .open := by
  rw [Mode.ending_of_plain hplain h.inBlockComment_eq_false (h.entered hhead), h.mode,
    openBlocks_append]

theorem underWay (h : Within s fed t) (hne : fed ≠ []) (terminated : Bool) :
    t.underWay terminated =
      ⟨if terminated then Delimiter.strip s.delimiter (passage fed) else trim (passage fed),
        s.lineNumber + 1, .routine, if terminated then some s.delimiter else none⟩ := by
  have hin : t.inRoutine = true := by
    have hmode : t.inRoutine = !fed.isEmpty := congrArg Mode.inRoutine h.mode
    rw [hmode]
    simpa using hne
  have hdelimiter : t.delimiter = s.delimiter := congrArg Mode.delimiter h.mode
  simp only [Scanner.underWay, hin, hdelimiter, h.carries.buffer, h.start hne, Delimiter.strip,
    trim_block, if_true]

/-- A routine has a header, so there is something before the delimiter. -/
theorem text_ne_nil (h : Within s fed t) (hhead : fed = [] → Heads raw)
    (hclosing : t.mode.ending raw = .closing) :
    ((t.hold raw).underWay true).text ≠ [] := by
  intro hempty
  obtain ⟨hnil, hlone⟩ := h.carries.lone_of_closing hclosing hempty
  have hstarts := (hhead hnil).2
  rw [← Routine.starts_trim, hlone] at hstarts
  exact Routine.not_solid_of_starts hstarts h.carries.delimiter

theorem feed_of_closing (h : Within s fed t) (hplain : Plain raw) (hhead : fed = [] → Heads raw)
    (hclosing : t.mode.ending raw = .closing) :
    (t.feed raw).ready = s.ready ++
        [⟨Delimiter.strip s.delimiter (passage (fed ++ [raw])), s.lineNumber + 1, .routine,
          some s.delimiter⟩] ∧
      (t.feed raw).inRoutine = false ∧ (t.feed raw).depth = 0 ∧ (t.feed raw).buffer = [] := by
  have hhold := h.hold hplain hhead
  have hcarries := h.carries.of_closing hclosing
  have hone := unlessEmpty_of_ne_nil (h.text_ne_nil hhead hclosing)
  refine ⟨?_, hcarries.inRoutine_eq_false, hcarries.depth hcarries.inRoutine_eq_false,
    hcarries.buffer⟩
  rw [ready_of_closing hclosing, hone, hhold.underWay (by simp) true, h.ready]
  rfl

theorem finish_ready (h : Within s fed t) (hne : fed ≠ []) :
    t.finish.ready =
      s.ready ++ [⟨trim (passage fed), s.lineNumber + 1, .routine, none⟩] := by
  have hready := h.carries.unlessEmpty_underWay hne
  rw [ready_finish, hready, h.underWay hne false, h.ready]
  rfl

end Within

/-! ## The whole routine -/

section Run

variable {s : Scanner} {lines : List Text}

theorem heads_lineAt (hhead : ∀ raw ∈ lines.head?, Heads raw) {k : Nat} (hk : k < lines.length)
    (hnil : lines.take k = []) : Heads (lineAt lines (k + 1)) := by
  have hlength := congrArg List.length hnil
  rw [List.length_take, List.length_nil] at hlength
  obtain rfl : k = 0 := by omega
  apply hhead
  rw [lineAt_succ hk, List.head?_eq_getElem?, List.getElem?_eq_getElem hk]
  rfl

theorem closesOn_succ {d : Text} {k : Nat} (hk : k < lines.length) :
    ClosesOn d lines (k + 1) ↔
      Coded (lineAt lines (k + 1)) ∧ d <:+ trim (lineAt lines (k + 1)) ∧
        openBlocks (lines.take k ++ [lineAt lines (k + 1)]) = 0 := by
  rw [← take_succ_eq_append_lineAt hk]
  constructor
  · intro h
    exact ⟨h.coded, h.delimited, h.surface⟩
  · rintro ⟨hcoded, hdelimited, hsurface⟩
    exact ⟨k.succ_pos, hk, hcoded, hdelimited, hsurface⟩

/-- As long as the delimiter ends nothing, the scanner stays within the routine. -/
theorem within_feedAll (h : s.Carries []) (hplain : ∀ raw ∈ lines, Plain raw)
    (hhead : ∀ raw ∈ lines.head?, Heads raw) {k : Nat} (hk : k ≤ lines.length)
    (hnone : ∀ j ≤ k, ¬ ClosesOn s.delimiter lines j) :
    Within s (lines.take k) (s.feedAll (lines.take k)) := by
  induction k with
  | zero => exact .initial h
  | succ k ih =>
      have hwithin := ih (by omega) fun j hj => hnone j (by omega)
      have hmem := lineAt_mem hk
      have hopen := hwithin.ending (hplain _ hmem) (heads_lineAt hhead hk)
      rw [if_neg fun hall => hnone (k + 1) (Nat.le_refl _) ((closesOn_succ hk).2 hall)] at hopen
      rw [take_succ_eq_append_lineAt hk, feedAll_append_line, feed_of_open hopen]
      exact hwithin.hold (hplain _ hmem) (heads_lineAt hhead hk)

/-- The statement that a routine becomes on the first line that the delimiter may end it on. -/
theorem closing_feedAll (h : s.Carries []) (hplain : ∀ raw ∈ lines, Plain raw)
    (hhead : ∀ raw ∈ lines.head?, Heads raw) {k : Nat} (hk : k < lines.length)
    (hcloses : ClosesOn s.delimiter lines (k + 1))
    (hnone : ∀ j ≤ k, ¬ ClosesOn s.delimiter lines j) :
    (s.feedAll (lines.take (k + 1))).ready = s.ready ++
        [⟨Delimiter.strip s.delimiter (passage (lines.take (k + 1))), s.lineNumber + 1, .routine,
          some s.delimiter⟩] ∧
      (s.feedAll (lines.take (k + 1))).inRoutine = false ∧
      (s.feedAll (lines.take (k + 1))).depth = 0 ∧
      (s.feedAll (lines.take (k + 1))).buffer = [] := by
  have hwithin := within_feedAll h hplain hhead (by omega) hnone
  have hmem := lineAt_mem hk
  have hclosing := hwithin.ending (hplain _ hmem) (heads_lineAt hhead hk)
  rw [if_pos ((closesOn_succ hk).1 hcloses)] at hclosing
  rw [take_succ_eq_append_lineAt hk, feedAll_append_line]
  exact hwithin.feed_of_closing (hplain _ hmem) (heads_lineAt hhead hk) hclosing

/-- A routine ends on the first line that the delimiter may end it on, however its blocks nest; if
there is no such line, it is under way until the script ends. -/
theorem routine_closes_at_outermost_end (hs : s.Reachable) (hbuffer : s.buffer = [])
    (hplain : ∀ raw ∈ lines, Plain raw) (hhead : ∃ raw ∈ lines.head?, Heads raw) :
    (∀ k, ClosesOn s.delimiter lines k → (∀ j < k, ¬ ClosesOn s.delimiter lines j) →
      (∀ j < k, (s.feedAll (lines.take j)).ready = s.ready) ∧
      (s.feedAll (lines.take k)).ready = s.ready ++
        [⟨Delimiter.strip s.delimiter (passage (lines.take k)), s.lineNumber + 1, .routine,
          some s.delimiter⟩] ∧
      (s.feedAll (lines.take k)).inRoutine = false ∧
      (s.feedAll (lines.take k)).depth = 0 ∧
      (s.feedAll (lines.take k)).buffer = []) ∧
    ((∀ k, ¬ ClosesOn s.delimiter lines k) →
      (∀ j, (s.feedAll (lines.take j)).ready = s.ready) ∧
      (s.feedAll lines).finish.ready =
        s.ready ++ [⟨trim (passage lines), s.lineNumber + 1, .routine, none⟩]) := by
  have hcarries := hs.carries_nil hbuffer
  have hfirst : ∀ raw ∈ lines.head?, Heads raw := by
    obtain ⟨raw, hraw, hheads⟩ := hhead
    intro other hother
    obtain rfl : raw = other := Option.mem_unique hraw hother
    exact hheads
  constructor
  · intro k hcloses hleast
    have hpos := hcloses.pos
    have hlength := hcloses.le_length
    refine ⟨fun j hj => ?_, ?_⟩
    · exact (within_feedAll hcarries hplain hfirst (by omega) fun i hi => hleast i (by omega)).ready
    · obtain ⟨k, rfl⟩ : ∃ n, k = n + 1 := ⟨k - 1, by omega⟩
      exact closing_feedAll hcarries hplain hfirst hlength hcloses
        fun i hi => hleast i (by omega)
  · intro hnone
    have hrun : ∀ j ≤ lines.length, Within s (lines.take j) (s.feedAll (lines.take j)) :=
      fun j hj => within_feedAll hcarries hplain hfirst hj fun i _ => hnone i
    have hall := hrun lines.length (Nat.le_refl _)
    rw [List.take_length] at hall
    refine ⟨fun j => ?_, ?_⟩
    · by_cases hj : j ≤ lines.length
      · exact (hrun j hj).ready
      · rw [List.take_of_length_le (by omega)]
        exact hall.ready
    · apply hall.finish_ready
      rintro rfl
      obtain ⟨raw, hraw, -⟩ := hhead
      contradiction

end Run

def blockInRoutine : List Text :=
  ["CREATE PROCEDURE p() BEGIN".toList, "BEGIN SELECT 1; END;".toList, "-- END;".toList,
    "END;".toList]

theorem blockInRoutine_closes :
    (({} : Scanner).feedAll (blockInRoutine.take 3)).ready = [] ∧
      (({} : Scanner).feedAll (blockInRoutine.take 4)).ready =
        [⟨Delimiter.strip [';'] (passage blockInRoutine), 1, .routine, some [';']⟩] := by
  have hplain : ∀ raw ∈ blockInRoutine, Plain raw := by
    unfold Plain
    decide +kernel
  have hhead : ∃ raw ∈ blockInRoutine.head?, Heads raw := by
    unfold Heads
    exact ⟨_, rfl, by decide +kernel⟩
  have hcloses : ClosesOn [';'] blockInRoutine 4 :=
    ⟨by decide, by decide, by decide +kernel, by decide +kernel, by decide +kernel⟩
  have hleast : ∀ j < 4, ¬ ClosesOn [';'] blockInRoutine j := by
    intro j hj hbefore
    have hsurface : ∀ i < 4, 0 < i → openBlocks (blockInRoutine.take i) ≠ 0 := by decide +kernel
    exact hsurface j hj hbefore.pos hbefore.surface
  have hrun := (routine_closes_at_outermost_end .fresh rfl hplain hhead).1 4 hcloses hleast
  exact ⟨hrun.1 3 (by decide), hrun.2.1⟩

end SqlBatch.Scanner
