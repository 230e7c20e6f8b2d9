import SqlBatch.Script
import SqlBatch.Proofs.Scanner.Carries
import Mathlib.Data.List.Range
/-!
# Segments of a script

`split` cuts a script into ranges of lines, one for each statement.  `Settled` is the invariant of
the lines that are dealt with, `Cut` that of the scanner behind some lines of a script: the lines
that it carries are those that come after the settled ones.
-/

namespace SqlBatch.Scanner

open Text

/-! ## Lines by number -/

def lineAt (lines : List Text) (i : Nat) : Text := lines[i - 1]?.getD []

def span (lines : List Text) (first last : Nat) : List Text :=
  (List.range' first (last + 1 - first)).map (lineAt lines)

def after (lines : List Text) (k : Nat) : Scanner := ({} : Scanner).feedAll (lines.take k)

theorem lineAt_succ {lines : List Text} {k : Nat} (h : k < lines.length) :
    lineAt lines (k + 1) = lines[k] := by
  rw [lineAt, Nat.add_sub_cancel, List.getElem?_eq_getElem h, Option.getD_some]

theorem lineAt_mem {lines : List Text} {k : Nat} (h : k < lines.length) :
    lineAt lines (k + 1) ∈ lines := by
  rw [lineAt_succ h]
  exact List.getElem_mem h

theorem take_succ_eq_append_lineAt {lines : List Text} {k : Nat} (h : k < lines.length) :
    lines.take (k + 1) = lines.take k ++ [lineAt lines (k + 1)] := by
  rw [List.take_succ_eq_append_getElem h, lineAt_succ h]

theorem feedAll_append_line (s : Scanner) (lines : List Text) (raw : Text) :
    s.feedAll (lines ++ [raw]) = (s.feedAll lines).feed raw := by
  rw [feedAll, List.foldl_append]
  rfl

theorem after_succ {lines : List Text} {k : Nat} (h : k < lines.length) :
    after lines (k + 1) = (after lines k).feed (lineAt lines (k + 1)) := by
  rw [after, take_succ_eq_append_lineAt h, feedAll_append_line, ← after]

theorem after_succ_of_open {lines : List Text} {k : Nat} (h : k < lines.length)
    (hopen : (after lines k).mode.ending (lineAt lines (k + 1)) = .open) :
    after lines (k + 1) = (after lines k).hold (lineAt lines (k + 1)) := by
  rw [after_succ h, feed_of_open hopen]

/-- What holds of the lines behind line `p` up to line `k`, and of the next one. -/
theorem forall_le_succ {P : Nat → Prop} {p k : Nat} (hbefore : ∀ i, p < i → i ≤ k → P i)
    (hlast : P (k + 1)) : ∀ i, p < i → i ≤ k + 1 → P i := by
  intro i hp hk
  rcases Nat.lt_or_eq_of_le hk with hlt | rfl
  · exact hbefore i hp (by omega)
  · exact hlast

theorem span_self (lines : List Text) (i : Nat) : span lines i i = [lineAt lines i] := by
  rw [span, Nat.add_sub_cancel_left]
  rfl

theorem span_eq_nil {lines : List Text} {m k : Nat} : span lines (m + 1) k = [] ↔ k ≤ m := by
  rw [span, List.map_eq_nil_iff, List.range'_eq_nil_iff]
  omega

private theorem length_span (lines : List Text) (m k : Nat) :
    (span lines (m + 1) k).length = k - m := by
  rw [span, List.length_map, List.length_range']
  omega

theorem span_succ (lines : List Text) {m k : Nat} (h : m ≤ k) :
    span lines (m + 1) (k + 1) = span lines (m + 1) k ++ [lineAt lines (k + 1)] := by
  have hcount : k + 1 + 1 - (m + 1) = k + 1 - (m + 1) + 1 := by omega
  have hlast : m + 1 + (k + 1 - (m + 1)) = k + 1 := by omega
  rw [span, hcount, List.range'_1_concat, List.map_append, List.map_singleton, hlast, span]

theorem mem_span {lines : List Text} {a b : Nat} {line : Text} :
    line ∈ span lines a b ↔ ∃ i, (a ≤ i ∧ i ≤ b) ∧ lineAt lines i = line := by
  have hrange : ∀ i, a ≤ i ∧ i < a + (b + 1 - a) ↔ a ≤ i ∧ i ≤ b := fun i => by omega
  simp only [span, List.mem_map, List.mem_range'_1, hrange]

theorem span_append (lines : List Text) {a b c : Nat} (hab : a ≤ b + 1) (hbc : b ≤ c) :
    span lines a b ++ span lines (b + 1) c = span lines a c := by
  have hcount : c + 1 - a = (b + 1 - a) + (c + 1 - (b + 1)) := by omega
  have hstart : a + (b + 1 - a) = b + 1 := by omega
  rw [span, span, span, hcount, ← List.range'_append_1, hstart, List.map_append]

theorem span_all (lines : List Text) : span lines 1 lines.length = lines := by
  apply List.ext_getElem
  · rw [span, List.length_map, List.length_range', Nat.add_sub_cancel]
  · intro i hspan hlines
    simp only [span, List.getElem_map, List.getElem_range', Nat.one_mul]
    rw [Nat.add_comm, lineAt_succ hlines]

@[simp] theorem feed_lineNumber (s : Scanner) (raw : Text) :
    (s.feed raw).lineNumber = s.lineNumber + 1 := by
  cases hending : s.mode.ending raw with
  | «open» => rw [feed_of_open hending, hold_lineNumber]
  | closing =>
      rw [feed_of_closing hending, flush_eq]
      exact hold_lineNumber s raw
  | directive token =>
      rw [feed_of_directive hending, queue_eq, flush_eq]
      rfl

theorem feedAll_lineNumber (s : Scanner) (lines : List Text) :
    (s.feedAll lines).lineNumber = s.lineNumber + lines.length := by
  induction lines generalizing s with
  | nil => rfl
  | cons raw rest ih =>
      have hrest := ih (s.feed raw)
      rw [feed_lineNumber] at hrest
      rw [List.length_cons, Nat.add_comm rest.length, ← Nat.add_assoc, ← hrest]
      rfl

theorem after_lineNumber {lines : List Text} {k : Nat} (h : k ≤ lines.length) :
    (after lines k).lineNumber = k := by
  rw [after, feedAll_lineNumber, List.length_take, Nat.min_eq_left h, Nat.zero_add]

theorem split_eq_after (script : Text) :
    split script = (after (lines script) (lines script).length).finish.ready := by
  rw [after, List.take_length, split]

theorem mem_split_of_mem_after {script : Text} {k : Nat} (hk : k ≤ (lines script).length)
    {statement : Statement} (h : statement ∈ (after (lines script) k).ready) :
    statement ∈ split script := by
  have hlater : ∀ n, k ≤ n → n ≤ (lines script).length →
      (after (lines script) k).ready <+: (after (lines script) n).ready := by
    intro n hkn
    induction n, hkn using Nat.le_induction with
    | base => exact fun _ => List.prefix_refl _
    | succ n _ ih =>
        intro hn
        rw [after_succ hn]
        exact (ih (by omega)).trans (ready_isPrefix_feed _ _)
  rw [split_eq_after, ready_finish]
  exact List.mem_append_left _ ((hlater _ hk (Nat.le_refl _)).subset h)

/-! ## Invariants -/

/-- `I` is an invariant of the scanner and the lines that it carries, and `P` holds of each
statement that is queued under it. -/
structure Invariant (I : Scanner → List Text → Prop) (P : Statement → Prop) : Prop where
  carries : ∀ {s lines}, I s lines → s.Carries lines
  idle : ∀ {s : Scanner}, s.Carries [] → I s []
  hold : ∀ {s lines raw}, I s lines → '\n' ∉ raw → s.mode.ending raw = .open →
    I (s.hold raw) (withLine lines raw)
  closing : ∀ {s lines raw}, I s lines → '\n' ∉ raw → s.mode.ending raw = .closing →
    ((s.hold raw).underWay true).text ≠ [] → P ((s.hold raw).underWay true)
  underWay : ∀ {s lines}, I s lines → lines ≠ [] → P (s.underWay false)
  directive : ∀ (s : Scanner) (raw : Text), P (s.directiveOn raw)

namespace Invariant

variable {I : Scanner → List Text → Prop} {P : Statement → Prop} (h : Invariant I P)

include h

theorem unlessEmpty_underWay {s : Scanner} {carried : List Text} (hinv : I s carried) :
    ∀ statement ∈ unlessEmpty (s.underWay false), P statement := by
  by_cases hnil : carried = []
  · subst hnil
    simp [(h.carries hinv).unlessEmpty_underWay_nil]
  · rw [(h.carries hinv).unlessEmpty_underWay hnil, List.forall_mem_singleton]
    exact h.underWay hinv hnil

theorem exists_feed {s : Scanner} {carried : List Text} (hinv : I s carried) {raw : Text}
    (hraw : '\n' ∉ raw) (hready : ∀ statement ∈ s.ready, P statement) :
    ∃ carried', I (s.feed raw) carried' ∧ ∀ statement ∈ (s.feed raw).ready, P statement := by
  have hcarries := h.carries hinv
  cases hending : s.mode.ending raw with
  | «open» =>
      rw [feed_of_open hending]
      exact ⟨_, h.hold hinv hraw hending, by rwa [hold_ready]⟩
  | closing =>
      refine ⟨[], h.idle (hcarries.of_closing hending), ?_⟩
      rw [ready_of_closing hending]
      refine List.forall_mem_append.2 ⟨hready, ?_⟩
      by_cases hempty : ((s.hold raw).underWay true).text = []
      · simp [unlessEmpty_of_nil hempty]
      · rw [unlessEmpty_of_ne_nil hempty, List.forall_mem_singleton]
        exact h.closing hinv hraw hending hempty
  | directive token =>
      refine ⟨[], h.idle (hcarries.of_directive hending), ?_⟩
      rw [hcarries.ready_of_directive hending]
      have hflushed := List.forall_mem_append.2 ⟨hready, h.unlessEmpty_underWay hinv⟩
      exact List.forall_mem_append.2 ⟨hflushed, List.forall_mem_singleton.2 (h.directive s raw)⟩

theorem exists_after (script : Text) {k : Nat} (hk : k ≤ (lines script).length) :
    ∃ carried, I (after (lines script) k) carried ∧
      ∀ statement ∈ (after (lines script) k).ready, P statement := by
  induction k with
  | zero => exact ⟨[], h.idle carries_initial, by simp [after, feedAll]⟩
  | succ k ih =>
      obtain ⟨carried, hinv, hready⟩ := ih (by omega)
      rw [after_succ hk]
      exact h.exists_feed hinv (lineFeed_notMem_of_mem_lines (lineAt_mem hk)) hready

theorem of_mem_split {script : Text} {statement : Statement} (hmem : statement ∈ split script) :
    P statement := by
  obtain ⟨carried, hinv, hready⟩ := h.exists_after script (Nat.le_refl _)
  rw [split_eq_after, ready_finish] at hmem
  rcases List.mem_append.1 hmem with hearly | hlast
  · exact hready statement hearly
  · exact h.unlessEmpty_underWay hinv statement hlast

end Invariant

/-! ## Segments -/

structure Segment where
  statement : Statement
  first : Nat
  last : Nat

def EntersRoutine (lines : List Text) (i : Nat) : Prop :=
  (after lines (i - 1)).inRoutine = false ∧ (after lines i).routineStart = i

structure Segment.Fits (lines : List Text) (seg : Segment) : Prop where
  first_pos : 0 < seg.first
  first_le : seg.first ≤ seg.last
  last_le : seg.last ≤ lines.length
  directive : seg.statement.kind = .directive →
    seg.first = seg.last ∧ trim (lineAt lines seg.first) = seg.statement.text ∧
      seg.statement.line = seg.first ∧ seg.statement.terminator = none
  unterminated : seg.statement.terminator = none →
    trim (passage (span lines seg.first seg.last)) = seg.statement.text
  terminated : ∀ d, seg.statement.terminator = some d →
    ∃ w, AllBlank w ∧
      trim (passage (span lines seg.first seg.last)) = seg.statement.text ++ w ++ d
  ordinary : seg.statement.kind = .ordinary → seg.statement.line = seg.first
  routine : seg.statement.kind = .routine →
    seg.first ≤ seg.statement.line ∧ seg.statement.line ≤ seg.last ∧
      EntersRoutine lines seg.statement.line

/-- Line `i` is blank, or it is the delimiter in force and nothing else. -/
def Bare (lines : List Text) (i : Nat) : Prop :=
  AllBlank (lineAt lines i) ∨ trim (lineAt lines i) = (after lines (i - 1)).delimiter

def Covered (segments : List Segment) (i : Nat) : Prop :=
  ∃ seg ∈ segments, seg.first ≤ i ∧ i ≤ seg.last

instance (segments : List Segment) : DecidablePred (Covered segments) := fun i =>
  inferInstanceAs (Decidable (∃ seg ∈ segments, seg.first ≤ i ∧ i ≤ seg.last))

theorem covered_append (segments : List Segment) (seg : Segment) (i : Nat) :
    Covered (segments ++ [seg]) i ↔ Covered segments i ∨ (seg.first ≤ i ∧ i ≤ seg.last) := by
  simp only [Covered, List.mem_append, List.mem_singleton, or_and_right, exists_or,
    exists_eq_left]

/-- The first `m` lines are dealt with: what of them belongs to a statement is in `segments`. -/
structure Settled (lines : List Text) (m : Nat) (segments : List Segment) : Prop where
  fits : ∀ seg ∈ segments, seg.Fits lines
  within : ∀ seg ∈ segments, seg.last ≤ m
  ordered : segments.Pairwise fun earlier later => earlier.last < later.first
  bare : ∀ i, 0 < i → i ≤ m → ¬ Covered segments i → Bare lines i
  ink : ((List.range' 1 m).filter (Covered segments)).flatMap (fun i => ink (lineAt lines i)) =
    segments.flatMap fun seg => ink seg.statement.source

/-- The lines of a segment are its statement, with blanks before the delimiter. -/
theorem Segment.Fits.trim_passage {lines : List Text} {seg : Segment} (h : seg.Fits lines) :
    ∃ w, AllBlank w ∧ trim (passage (span lines seg.first seg.last)) =
      seg.statement.text ++ (w ++ seg.statement.terminator.getD []) := by
  cases hterminator : seg.statement.terminator with
  | none => exact ⟨[], allBlank_nil, by simp [h.unterminated hterminator]⟩
  | some d =>
      obtain ⟨w, hw, htext⟩ := h.terminated d hterminator
      exact ⟨w, hw, by rw [htext, List.append_assoc, Option.getD_some]⟩

theorem Segment.Fits.ink_span {lines : List Text} {seg : Segment} (h : seg.Fits lines) :
    (span lines seg.first seg.last).flatMap ink = ink seg.statement.source := by
  have hpassage : (span lines seg.first seg.last).flatMap ink =
      ink (trim (passage (span lines seg.first seg.last))) := by
    rw [← trim_block, ink_trim, ink_block]
  obtain ⟨w, hw, htext⟩ := h.trim_passage
  rw [hpassage, htext, Statement.source, ink_append, ink_append, ink_of_allBlank hw,
    List.nil_append, ink_append]

theorem Segment.Fits.line_mem {lines : List Text} {seg : Segment} (h : seg.Fits lines) :
    seg.first ≤ seg.statement.line ∧ seg.statement.line ≤ seg.last := by
  have hle := h.first_le
  cases hkind : seg.statement.kind with
  | ordinary =>
      have hline := h.ordinary hkind
      omega
  | directive =>
      obtain ⟨-, -, hline, -⟩ := h.directive hkind
      omega
  | routine =>
      obtain ⟨hfirst, hlast, -⟩ := h.routine hkind
      exact ⟨hfirst, hlast⟩

namespace Settled

variable {lines : List Text} {m : Nat} {segments : List Segment}

theorem initial (lines : List Text) : Settled lines 0 [] where
  fits := by simp
  within := by simp
  ordered := .nil
  bare := by omega
  ink := rfl

theorem not_covered (h : Settled lines m segments) {i : Nat} (hi : m < i) :
    ¬ Covered segments i := by
  rintro ⟨seg, hseg, -, hlast⟩
  have hwithin := h.within seg hseg
  omega

theorem skip (h : Settled lines m segments) (hbare : Bare lines (m + 1)) :
    Settled lines (m + 1) segments where
  fits := h.fits
  within := fun seg hseg => Nat.le_succ_of_le (h.within seg hseg)
  ordered := h.ordered
  bare := forall_le_succ h.bare fun _ => hbare
  ink := by
    have hnew : ¬ Covered segments (1 + m) := h.not_covered (by omega)
    rw [List.range'_1_concat, List.filter_append, List.filter_singleton, ← h.ink]
    simp [hnew]

theorem add (h : Settled lines m segments) {seg : Segment} (hseg : seg.Fits lines)
    (hfirst : seg.first = m + 1) : Settled lines seg.last (segments ++ [seg]) where
  fits := List.forall_mem_append.2 ⟨h.fits, List.forall_mem_singleton.2 hseg⟩
  within := by
    have hle := hseg.first_le
    have hbefore : ∀ other ∈ segments, other.last ≤ seg.last := by
      intro other hother
      have hwithin := h.within other hother
      omega
    exact List.forall_mem_append.2 ⟨hbefore, List.forall_mem_singleton.2 (Nat.le_refl _)⟩
  ordered := by
    refine List.pairwise_append.2 ⟨h.ordered, List.pairwise_singleton _ _, ?_⟩
    intro earlier hearlier later hlater
    have hwithin := h.within earlier hearlier
    rw [List.mem_singleton.1 hlater]
    omega
  bare := by
    intro i hpos hle hfree
    by_cases hi : i ≤ m
    · apply h.bare i hpos hi
      rintro ⟨other, hother, hin⟩
      exact hfree ⟨other, List.mem_append_left _ hother, hin⟩
    · exact absurd ⟨seg, by simp, by omega, hle⟩ hfree
  ink := by
    have hle := hseg.first_le
    have hcount : seg.last = m + (seg.last - m) := by omega
    -- the new segment changes nothing up to line `m`, and all lines behind it are its own
    have hold : ∀ i ∈ List.range' 1 m,
        decide (Covered (segments ++ [seg]) i) = decide (Covered segments i) := by
      intro i hi
      have him := (List.mem_range'_1.1 hi).2
      have hfar : ¬ (seg.first ≤ i ∧ i ≤ seg.last) := by omega
      rw [decide_eq_decide, covered_append]
      exact or_iff_left hfar
    have hnew : ∀ i ∈ List.range' (1 + m) (seg.last - m),
        decide (Covered (segments ++ [seg]) i) = true := by
      intro i hi
      have him := List.mem_range'_1.1 hi
      exact decide_eq_true ⟨seg, by simp, by omega, by omega⟩
    have hspan : (List.range' (1 + m) (seg.last - m)).flatMap (fun i => Text.ink (lineAt lines i)) =
        Text.ink seg.statement.source := by
      have hlength : seg.last + 1 - (m + 1) = seg.last - m := by omega
      rw [← hseg.ink_span, hfirst, span, hlength, List.flatMap_map, Nat.add_comm 1 m]
    conv_lhs => rw [hcount]
    rw [← List.range'_append_1, List.filter_append, List.filter_congr hold,
      List.filter_eq_self.2 hnew, List.flatMap_append, h.ink, hspan, List.flatMap_append]
    simp

end Settled

/-! ## The scanner behind some lines -/

/-- Behind `k` lines the scanner has queued the statements of `segments`, and carries the lines
behind the settled ones. -/
structure Cut (lines : List Text) (k m : Nat) (segments : List Segment) : Prop where
  settled : Settled lines m segments
  done_le : m ≤ k
  le_length : k ≤ lines.length
  carries : (after lines k).Carries (span lines (m + 1) k)
  ready : (after lines k).ready = segments.map Segment.statement
  entered : (after lines k).inRoutine = true → EntersRoutine lines (after lines k).routineStart

/-- The line number of the statement under way lies in the lines under way. -/
theorem Carries.place {lines : List Text} {m n : Nat} {t : Scanner}
    (h : t.Carries (span lines (m + 1) n)) (hnumber : t.lineNumber = n) (hlt : m < n)
    (hentered : t.inRoutine = true → EntersRoutine lines t.routineStart) (terminated : Bool) :
    (t.underWay terminated).kind ≠ .directive ∧
      ((t.underWay terminated).kind = .ordinary → (t.underWay terminated).line = m + 1) ∧
      ((t.underWay terminated).kind = .routine →
        m + 1 ≤ (t.underWay terminated).line ∧ (t.underWay terminated).line ≤ n ∧
          EntersRoutine lines (t.underWay terminated).line) := by
  have hne : span lines (m + 1) n ≠ [] := mt span_eq_nil.1 (by omega)
  have hlength : t.lineNumber + 1 - (span lines (m + 1) n).length = m + 1 := by
    rw [hnumber, length_span]
    omega
  cases hin : t.inRoutine with
  | false =>
      have hline := (h.line_of_ordinary terminated hne hin).trans hlength
      have hkind : (t.underWay terminated).kind = .ordinary := by simp [underWay, hin]
      simp [hkind, hline]
  | true =>
      obtain ⟨hline, hfirst, hlast⟩ := h.line_of_routine terminated hin
      have hkind : (t.underWay terminated).kind = .routine := by simp [underWay, hin]
      have henters := hentered hin
      rw [hlength] at hfirst
      rw [hnumber] at hlast
      simp [hkind, hline, hfirst, hlast, henters]

namespace Cut

variable {lines : List Text} {k m : Nat} {segments : List Segment}

theorem initial (lines : List Text) : Cut lines 0 0 [] where
  settled := .initial lines
  done_le := Nat.le_refl 0
  le_length := Nat.zero_le _
  carries := carries_initial
  ready := rfl
  entered := fun h => nomatch h

theorem enters_hold (h : Cut lines k m segments)
    (hsame : (after lines (k + 1)).routineStart =
      ((after lines k).hold (lineAt lines (k + 1))).routineStart)
    (hin : ((after lines k).hold (lineAt lines (k + 1))).inRoutine = true) :
    EntersRoutine lines ((after lines k).hold (lineAt lines (k + 1))).routineStart := by
  have hnumber := after_lineNumber h.le_length
  rw [hold_routineStart, hin] at hsame ⊢
  cases hbefore : (after lines k).inRoutine with
  | true => simpa using h.entered hbefore
  | false =>
      have hstart : (after lines (k + 1)).routineStart = k + 1 := by
        simpa [hbefore, hnumber] using hsame
      simp only [Bool.not_false, Bool.and_true, if_true, hnumber]
      exact ⟨hbefore, hstart⟩

/-- The lines under way make up a segment if nothing but the end of the lines ends them. -/
private theorem fits_unterminated (h : Cut lines k m segments) (hlt : m < k) :
    Segment.Fits lines ⟨(after lines k).underWay false, m + 1, k⟩ := by
  obtain ⟨hdirective, hordinary, hroutine⟩ :=
    h.carries.place (after_lineNumber h.le_length) hlt h.entered false
  exact {
    first_pos := by simp
    first_le := hlt
    last_le := h.le_length
    directive := fun hkind => absurd hkind hdirective
    unterminated := fun _ => h.carries.text_eq.symm
    terminated := fun d hd => by simp [underWay] at hd
    ordinary := hordinary
    routine := hroutine }

/-- The lines under way and the line that ends them make up a segment. -/
private theorem fits_closing (h : Cut lines k m segments) (hlt : k < lines.length)
    (hclosing : (after lines k).mode.ending (lineAt lines (k + 1)) = .closing) :
    Segment.Fits lines
      ⟨((after lines k).hold (lineAt lines (k + 1))).underWay true, m + 1, k + 1⟩ := by
  have hle := h.done_le
  have hnumber : ((after lines k).hold (lineAt lines (k + 1))).lineNumber = k + 1 := by
    rw [hold_lineNumber, after_lineNumber h.le_length]
  have hsame : (after lines (k + 1)).routineStart =
      ((after lines k).hold (lineAt lines (k + 1))).routineStart := by
    rw [after_succ hlt, feed_of_closing hclosing, flush_eq]
  have hcarries : ((after lines k).hold (lineAt lines (k + 1))).Carries
      (span lines (m + 1) (k + 1)) := by
    rw [span_succ lines hle, ← withLine_of_closing hclosing]
    exact h.carries.hold _
  obtain ⟨hdirective, hordinary, hroutine⟩ :=
    hcarries.place hnumber (by omega) (h.enters_hold hsame) true
  have hdelimiter := hold_delimiter_of_closing h.carries.delimiter hclosing
  obtain ⟨v, hv, htext⟩ := h.carries.text_of_closing hclosing
  exact {
    first_pos := by simp
    first_le := by simpa using hle
    last_le := hlt
    directive := fun hkind => absurd hkind hdirective
    unterminated := fun hd => by simp [underWay] at hd
    terminated := by
      intro d hd
      obtain rfl : (after lines k).delimiter = d := by
        rw [← hdelimiter]
        simpa [underWay] using hd
      obtain ⟨w, hw, hstart⟩ :=
        exists_eq_trimEnd_append (trimStart (block (span lines (m + 1) k) ++ v))
      refine ⟨w, hw, ?_⟩
      calc trim (passage (span lines (m + 1) (k + 1)))
          = trimStart (block (span lines (m + 1) k) ++ v) ++ (after lines k).delimiter := by
            rw [span_succ lines hle, trim_passage_of_solid h.carries.delimiter hv.symm]
        _ = trim (block (span lines (m + 1) k) ++ v) ++ w ++ (after lines k).delimiter := by
            rw [trim, ← hstart]
        _ = _ := by rw [htext]
    ordinary := hordinary
    routine := hroutine }

private theorem bare_of_closing (h : Cut lines k m segments)
    (hclosing : (after lines k).mode.ending (lineAt lines (k + 1)) = .closing)
    (hempty : (((after lines k).hold (lineAt lines (k + 1))).underWay true).text = []) :
    m = k ∧ Bare lines (k + 1) := by
  obtain ⟨hnil, hlone⟩ := h.carries.lone_of_closing hclosing hempty
  have hle := span_eq_nil.1 hnil
  have hdone := h.done_le
  exact ⟨by omega, .inr hlone⟩

/-- What an end of the lines under way queues, if it is not the delimiter. -/
theorem exists_flushed (h : Cut lines k m segments) :
    ∃ flushed, Settled lines k flushed ∧
      (after lines k).ready ++ unlessEmpty ((after lines k).underWay false) =
        flushed.map Segment.statement := by
  have hle := h.done_le
  by_cases hlt : m < k
  · have hone := h.carries.unlessEmpty_underWay (mt span_eq_nil.1 (by omega))
    refine ⟨segments ++ [⟨(after lines k).underWay false, m + 1, k⟩],
      h.settled.add (h.fits_unterminated hlt) rfl, ?_⟩
    rw [hone, h.ready, List.map_append, List.map_singleton]
  · obtain rfl : m = k := by omega
    have hcarries := h.carries
    rw [span_eq_nil.2 (Nat.le_refl m)] at hcarries
    exact ⟨segments, h.settled, by rw [hcarries.unlessEmpty_underWay_nil, List.append_nil, h.ready]⟩

private theorem fits_directive (h : Cut lines k m segments) (hlt : k < lines.length) :
    Segment.Fits lines ⟨(after lines k).directiveOn (lineAt lines (k + 1)), k + 1, k + 1⟩ where
  first_pos := by simp
  first_le := Nat.le_refl _
  last_le := hlt
  directive := fun _ => ⟨rfl, rfl, congrArg (· + 1) (after_lineNumber h.le_length), rfl⟩
  unterminated := fun _ => by
    rw [span_self, passage, List.map_singleton, joinWith, trim_trimEnd]
    rfl
  terminated := fun d hd => nomatch hd
  ordinary := fun hkind => nomatch hkind
  routine := fun hkind => nomatch hkind

/-- Nothing is under way behind `k` lines, and all of them are settled. -/
theorem rested (hsettled : Settled lines k segments) (hle : k ≤ lines.length)
    (hcarries : (after lines k).Carries [])
    (hready : (after lines k).ready = segments.map Segment.statement) : Cut lines k k segments where
  settled := hsettled
  done_le := Nat.le_refl k
  le_length := hle
  carries := by
    rw [span_eq_nil.2 (Nat.le_refl k)]
    exact hcarries
  ready := hready
  entered := by
    rw [hcarries.inRoutine_eq_false]
    exact fun hin => nomatch hin

theorem step_open (h : Cut lines k m segments) (hlt : k < lines.length)
    (hending : (after lines k).mode.ending (lineAt lines (k + 1)) = .open) :
    ∃ m', Cut lines (k + 1) m' segments := by
  have hle := h.done_le
  have hafter := after_succ_of_open hlt hending
  have hhold := h.carries.hold (lineAt lines (k + 1))
  have hready : (after lines (k + 1)).ready = segments.map Segment.statement := by
    rw [hafter, hold_ready, h.ready]
  rw [← hafter] at hhold
  by_cases hidle : span lines (m + 1) k = [] ∧ AllBlank (lineAt lines (k + 1))
  · -- a blank line between statements is settled at once
    obtain ⟨hnil, hblank⟩ := hidle
    have hkm := span_eq_nil.1 hnil
    obtain rfl : m = k := by omega
    rw [hnil, withLine_nil_of_blank hblank] at hhold
    exact ⟨m + 1, rested (h.settled.skip (.inl hblank)) hlt hhold hready⟩
  · rw [withLine, if_neg hidle, ← span_succ lines hle] at hhold
    exact ⟨m, {
      settled := h.settled
      done_le := by omega
      le_length := hlt
      carries := hhold
      ready := hready
      entered := by
        have henters := h.enters_hold (by rw [hafter])
        rwa [← hafter] at henters }⟩

theorem step_closing (h : Cut lines k m segments) (hlt : k < lines.length)
    (hending : (after lines k).mode.ending (lineAt lines (k + 1)) = .closing) :
    ∃ segments', Cut lines (k + 1) (k + 1) segments' := by
  have hcarries := h.carries.of_closing hending
  have hready := ready_of_closing hending
  rw [← after_succ hlt] at hcarries hready
  rw [h.ready] at hready
  by_cases hempty : (((after lines k).hold (lineAt lines (k + 1))).underWay true).text = []
  · -- a delimiter that follows nothing is dropped
    obtain ⟨rfl, hbare⟩ := h.bare_of_closing hending hempty
    rw [unlessEmpty_of_nil hempty, List.append_nil] at hready
    exact ⟨segments, rested (h.settled.skip hbare) hlt hcarries hready⟩
  · rw [unlessEmpty_of_ne_nil hempty] at hready
    have hsettled := h.settled.add (h.fits_closing hlt hending) rfl
    exact ⟨_, rested hsettled hlt hcarries (by rw [hready, List.map_append, List.map_singleton])⟩

theorem step_directive (h : Cut lines k m segments) (hlt : k < lines.length) {token : Text}
    (hending : (after lines k).mode.ending (lineAt lines (k + 1)) = .directive token) :
    ∃ segments', Cut lines (k + 1) (k + 1) segments' := by
  have hcarries := h.carries.of_directive hending
  have hready := h.carries.ready_of_directive hending
  obtain ⟨flushed, hsettled, hflushed⟩ := h.exists_flushed
  rw [← after_succ hlt] at hcarries hready
  rw [hflushed] at hready
  have hadded := hsettled.add (h.fits_directive hlt) rfl
  exact ⟨_, rested hadded hlt hcarries (by rw [hready, List.map_append, List.map_singleton])⟩

theorem step (h : Cut lines k m segments) (hlt : k < lines.length) :
    ∃ m' segments', Cut lines (k + 1) m' segments' := by
  cases hending : (after lines k).mode.ending (lineAt lines (k + 1)) with
  | «open» =>
      obtain ⟨m', hstep⟩ := h.step_open hlt hending
      exact ⟨m', segments, hstep⟩
  | closing =>
      obtain ⟨segments', hstep⟩ := h.step_closing hlt hending
      exact ⟨k + 1, segments', hstep⟩
  | directive token =>
      obtain ⟨segments', hstep⟩ := h.step_directive hlt hending
      exact ⟨k + 1, segments', hstep⟩

theorem exists_all (lines : List Text) {k : Nat} (h : k ≤ lines.length) :
    ∃ m segments, Cut lines k m segments := by
  induction k with
  | zero => exact ⟨0, [], .initial lines⟩
  | succ k ih =>
      obtain ⟨m, segments, hcut⟩ := ih (by omega)
      exact hcut.step h

end Cut

/-! ## The whole script -/

theorem exists_settled (script : Text) :
    ∃ segments, Settled (lines script) (lines script).length segments ∧
      segments.map Segment.statement = split script := by
  obtain ⟨m, segments, hcut⟩ := Cut.exists_all (lines script) (Nat.le_refl _)
  obtain ⟨flushed, hsettled, hflushed⟩ := hcut.exists_flushed
  exact ⟨flushed, hsettled, by rw [split_eq_after, ready_finish, hflushed]⟩

/-- `segments` are what a script is cut into: nothing is lost, nothing is in two statements, and
every statement is where its line number says. -/
structure Segmentation (script : Text) (segments : List Segment) : Prop where
  statements : segments.map Segment.statement = split script
  fits : ∀ seg ∈ segments, seg.Fits (lines script)
  ordered : segments.Pairwise fun earlier later => earlier.last < later.first
  bare : ∀ i, 0 < i → i ≤ (lines script).length → ¬ Covered segments i → Bare (lines script) i
  increasing : (split script).Pairwise fun earlier later => earlier.line < later.line
  ink_script : ink script =
    (List.range' 1 (lines script).length).flatMap fun i => ink (lineAt (lines script) i)
  ink_covered :
    ((List.range' 1 (lines script).length).filter (Covered segments)).flatMap
        (fun i => ink (lineAt (lines script) i)) =
      (split script).flatMap fun statement => ink statement.source

theorem Settled.increasing {lines : List Text} {m : Nat} {segments : List Segment}
    (h : Settled lines m segments) :
    (segments.map Segment.statement).Pairwise fun earlier later => earlier.line < later.line := by
  rw [List.pairwise_map]
  refine h.ordered.imp_of_mem ?_
  intro earlier later hearlier hlater hlt
  have hlast := (h.fits earlier hearlier).line_mem.2
  have hfirst := (h.fits later hlater).line_mem.1
  omega

theorem ink_eq_flatMap_lineAt (script : Text) :
    ink script = (List.range' 1 (lines script).length).flatMap
      fun i => ink (lineAt (lines script) i) := by
  have hall := span_all (lines script)
  rw [span, Nat.add_sub_cancel] at hall
  rw [← flatMap_ink_lines]
  conv_lhs => rw [← hall]
  rw [List.flatMap_map]

theorem exists_segmentation (script : Text) : ∃ segments, Segmentation script segments := by
  obtain ⟨segments, hsettled, hstatements⟩ := exists_settled script
  exact ⟨segments, {
    statements := hstatements
    fits := hsettled.fits
    ordered := hsettled.ordered
    bare := hsettled.bare
    increasing := by
      rw [← hstatements]
      exact hsettled.increasing
    ink_script := ink_eq_flatMap_lineAt script
    ink_covered := by
      rw [hsettled.ink, ← hstatements, List.flatMap_map] }⟩

end SqlBatch.Scanner
