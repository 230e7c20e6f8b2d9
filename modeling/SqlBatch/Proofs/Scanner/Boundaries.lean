import SqlBatch.Proofs.Scanner.Segmentation
import Mathlib.Data.List.DropRight
import Mathlib.Data.List.SplitBy
/-!
# Where statements end

For a script without block comments and routines, `split` is what a look at the whole script says:
the lines are cut around every `DELIMITER` line and behind every line of code that ends with the
delimiter in force, and each run of lines between two cuts is at most one statement.  `Ran` relates
the scanner behind some lines to the runs of these lines.
-/

namespace SqlBatch.Scanner

open Text

/-! ## The runs of a script -/

def token? (raw : Text) : Option Text :=
  if Comment.isLineComment raw then none else Delimiter.directive? raw

/-- The delimiter in force before line `i`: the one that the last `DELIMITER` line has set. -/
def delimiterBefore (lines : List Text) (i : Nat) : Text :=
  ((lines.take (i - 1)).reverse.findSome? token?).getD Delimiter.initial

def Directs (lines : List Text) (i : Nat) : Prop := (token? (lineAt lines i)).isSome = true

def EndsRun (lines : List Text) (i : Nat) : Prop :=
  Coded (lineAt lines i) ∧ delimiterBefore lines i <:+ trim (lineAt lines i)

instance (lines : List Text) (i : Nat) : Decidable (Directs lines i) :=
  inferInstanceAs (Decidable (Option.isSome _ = true))

instance (lines : List Text) (i : Nat) : Decidable (EndsRun lines i) :=
  inferInstanceAs (Decidable (_ ∧ _))

def joined (lines : List Text) (i j : Nat) : Bool :=
  !(decide (Directs lines i) || decide (Directs lines j) || decide (EndsRun lines i))

/-- The numbers of the lines, cut into runs. -/
def runs (lines : List Text) : List (List Nat) :=
  (List.range' 1 lines.length).splitBy (joined lines)

/-- The statement that a run is, unless there is no text. -/
def ofRun (lines : List Text) (run : List Nat) : List Statement :=
  let text := trim (passage (run.map (lineAt lines)))
  let start := ((run.dropWhile fun i => AllBlank (lineAt lines i)).head?).getD 0
  match run.getLast? with
  | none => []
  | some last =>
    let delimiter := delimiterBefore lines last
    if Directs lines last then [⟨trim (lineAt lines last), last, .directive, none⟩]
    else if EndsRun lines last then
      unlessEmpty ⟨trimEnd (text.rdrop delimiter.length), start, .ordinary, some delimiter⟩
    else unlessEmpty ⟨text, start, .ordinary, none⟩

/-! ## Lines on their own -/

theorem directive?_of_isLineComment {raw : Text} (h : Comment.isLineComment raw = true) :
    Delimiter.directive? raw = none := by
  have hbegins : Keyword.Begins ['d'] (Keyword.dropSpaced? "delimiter".toList) :=
    Keyword.begins_dropSpaced?
  have hdrop : Keyword.dropSpaced? "delimiter".toList (trim raw) = none := by
    rw [← Option.not_isSome_iff_eq_none]
    intro hsome
    obtain ⟨c, rest, hline, hc⟩ := hbegins _ hsome
    rw [← Comment.isLineComment_trim, Comment.isLineComment, trimStart_trim, hline] at h
    have hmark : c = '-' ∨ c = '#' := by
      rw [Bool.or_eq_true, List.isPrefixOf_iff_prefix, List.isPrefixOf_iff_prefix,
        List.cons_prefix_cons, List.cons_prefix_cons] at h
      exact h.imp (fun hdash => hdash.1.symm) fun hhash => hhash.1.symm
    rcases hmark with rfl | rfl <;> exact absurd hc (by decide)
  rw [Delimiter.directive?, hdrop]

theorem token?_eq (raw : Text) : token? raw = Delimiter.directive? raw := by
  unfold token?
  split
  · next hcomment => rw [directive?_of_isLineComment hcomment]
  · rfl

theorem not_allBlank_of_directive? {raw token : Text}
    (h : Delimiter.directive? raw = some token) : ¬ AllBlank raw := by
  intro hblank
  rw [← Delimiter.directive?_trim, trim_eq_nil.2 hblank] at h
  contradiction

/-- No block comment is on the line, and a routine starts on it only in a line comment or a
`DELIMITER` line. -/
def Level (raw : Text) : Prop :=
  includes Comment.blockOpen raw = false ∧
    (Routine.starts raw = true → Comment.isLineComment raw = true ∨ (token? raw).isSome = true)

theorem Level.plain {raw : Text} (h : Level raw) (htoken : token? raw = none) : Plain raw :=
  ⟨h.1, (token?_eq raw).symm.trans htoken⟩

theorem Level.starts_eq_false {raw : Text} (h : Level raw) (htoken : token? raw = none)
    (hcoded : Coded raw) : Routine.starts raw = false := by
  rw [Bool.eq_false_iff]
  intro hstarts
  rcases h.2 hstarts with hcomment | hsome
  · rw [hcoded.2] at hcomment
    contradiction
  · rw [htoken] at hsome
    contradiction

namespace Mode

variable {m : Mode} {raw : Text}

private theorem ending_of_token (hopen : includes Comment.blockOpen raw = false)
    (hcomment : m.inBlockComment = false) (hout : m.inRoutine = false) {token : Text}
    (htoken : token? raw = some token) : m.ending raw = .directive token := by
  have hreading := reading_of_plain hopen
  have hplain : Comment.isLineComment raw = false := by
    rw [Bool.eq_false_iff]
    intro hline
    rw [token?, if_pos hline] at htoken
    contradiction
  rw [token?_eq] at htoken
  rw [if_neg (not_allBlank_of_directive? htoken), hplain, if_neg Bool.false_ne_true, htoken]
    at hreading
  rw [ending, hcomment, hreading, hout]
  rfl

/-- Outside a routine a line changes nothing, unless it starts one or sets the delimiter. -/
theorem hold_of_level (hlevel : Level raw) (htoken : token? raw = none)
    (hcomment : m.inBlockComment = false) (hout : m.inRoutine = false) : m.hold raw = m := by
  have hplain := hlevel.plain htoken
  by_cases hcoded : Coded raw
  · rw [(hold_of_coded hplain hcomment hcoded).1, track_of_plain hplain.1, hout,
      hlevel.starts_eq_false htoken hcoded]
    rfl
  · exact (hold_of_not_coded hplain.1 hcomment hcoded).1

private theorem ending_of_level (hlevel : Level raw) (htoken : token? raw = none)
    (hcomment : m.inBlockComment = false) (hout : m.inRoutine = false) :
    m.ending raw = if Coded raw ∧ m.delimiter <:+ trim raw then .closing else .open := by
  have hplain := hlevel.plain htoken
  by_cases hcoded : Coded raw
  · obtain ⟨hhold, hending⟩ := hold_of_coded hplain hcomment hcoded
    rw [hending, endingAt, ← hhold, hold_of_level hlevel htoken hcomment hout]
    simp [hcoded, atSurface, hout]
  · rw [(hold_of_not_coded hplain.1 hcomment hcoded).2, if_neg fun hboth => hcoded hboth.1]

end Mode

/-! ## Runs of neighbouring lines -/

/-- Lines `p + 1` to `k` are one run, if there is a cut behind line `p`. -/
theorem splitBy_run {lines : List Text} {p k : Nat} (hlt : p < k)
    (hcut : 0 < p → Directs lines p ∨ EndsRun lines p)
    (hdirects : ∀ i, p < i → i ≤ k → ¬ Directs lines i)
    (hends : ∀ i, p < i → i < k → ¬ EndsRun lines i) :
    (List.range' 1 k).splitBy (joined lines) =
      (List.range' 1 p).splitBy (joined lines) ++ [List.range' (p + 1) (k - p)] := by
  have hrange : List.range' 1 k = List.range' 1 p ++ List.range' (p + 1) (k - p) := by
    have hcount : k = p + (k - p) := by omega
    conv_lhs => rw [hcount]
    rw [← List.range'_append_1, Nat.add_comm 1 p]
  have hchain : (List.range' (p + 1) (k - p)).IsChain fun i j => joined lines i j = true := by
    rw [List.isChain_iff_getElem]
    intro i hi
    rw [List.length_range'] at hi
    simp only [List.getElem_range', Nat.one_mul]
    have hfirst := hdirects (p + 1 + i) (by omega) (by omega)
    have hsecond := hdirects (p + 1 + (i + 1)) (by omega) (by omega)
    have hgoes := hends (p + 1 + i) (by omega) (by omega)
    simp [joined, hfirst, hsecond, hgoes]
  have hne : List.range' (p + 1) (k - p) ≠ [] := by
    rw [Ne, List.range'_eq_nil_iff]
    omega
  rw [hrange, List.splitBy_append, List.splitBy_of_isChain hne hchain]
  intro x hx y hy
  rw [List.getLast?_range'] at hx
  split at hx
  · contradiction
  · next hp =>
    obtain rfl : 1 + p - 1 = x := by simpa using hx
    rw [Nat.add_sub_cancel_left]
    rcases hcut (by omega) with hdirect | hend
    · simp [joined, hdirect]
    · simp [joined, hend]

def inked (lines : List Text) (p k : Nat) : List Text :=
  (span lines (p + 1) k).dropWhile fun line => AllBlank line

theorem inked_succ (lines : List Text) {p k : Nat} (h : p ≤ k) :
    inked lines p (k + 1) = withLine (inked lines p k) (lineAt lines (k + 1)) := by
  rw [inked, span_succ lines h, List.dropWhile_append, withLine, ← inked]
  by_cases hnil : inked lines p k = []
  · rw [hnil]
    by_cases hblank : AllBlank (lineAt lines (k + 1)) <;> simp [hblank]
  · simp [hnil]

theorem trim_passage_span (lines : List Text) (p k : Nat) :
    trim (passage (span lines (p + 1) k)) = trim (passage (inked lines p k)) := by
  have hspan : span lines (p + 1) k =
      (span lines (p + 1) k).takeWhile (fun line => AllBlank line) ++ inked lines p k :=
    List.takeWhile_append_dropWhile.symm
  rw [← trim_block, hspan, block_append, trim_block_append, trim_block]
  intro line hline
  have hblank := List.mem_takeWhile_imp hline
  exact of_decide_eq_true hblank

/-- A run starts on its first line that is not blank. -/
theorem start_of_run {lines : List Text} {p k : Nat} (h : inked lines p k ≠ []) :
    (((List.range' (p + 1) (k - p)).dropWhile fun i => AllBlank (lineAt lines i)).head?).getD 0 =
      k + 1 - (inked lines p k).length := by
  have hmap : inked lines p k =
      ((List.range' (p + 1) (k - p)).dropWhile fun i => AllBlank (lineAt lines i)).map
        (lineAt lines) := by
    rw [inked, span, Nat.add_sub_add_right, List.dropWhile_map]
    rfl
  have hlength := congrArg List.length hmap
  rw [List.length_map] at hlength
  have hsuffix := List.dropWhile_suffix (l := List.range' (p + 1) (k - p))
    fun i => decide (AllBlank (lineAt lines i))
  have hle := hsuffix.length_le
  rw [List.length_range', ← hlength] at hle
  have hpos : 0 < (inked lines p k).length := List.length_pos_of_ne_nil h
  rw [List.suffix_iff_eq_drop.1 hsuffix, ← hlength, List.length_range', List.drop_range',
    List.head?_range', if_neg (by omega), Option.getD_some]
  omega

theorem map_lineAt_range' (lines : List Text) (p k : Nat) :
    (List.range' (p + 1) (k - p)).map (lineAt lines) = span lines (p + 1) k := by
  rw [span, Nat.add_sub_add_right]

theorem getLast?_run {p k : Nat} (h : p < k) :
    (List.range' (p + 1) (k - p)).getLast? = some k := by
  rw [List.getLast?_range', if_neg (by omega), Option.some_inj]
  omega

section Statement

variable {lines : List Text} {p k : Nat} {s : Scanner}

private theorem ofRun_of_open (hlt : p < k) (hcarries : s.Carries (inked lines p k))
    (hout : s.inRoutine = false) (hnumber : s.lineNumber = k) (hdirects : ¬ Directs lines k)
    (hends : ¬ EndsRun lines k) :
    ofRun lines (List.range' (p + 1) (k - p)) = unlessEmpty (s.underWay false) := by
  simp only [ofRun, getLast?_run hlt, if_neg hdirects, if_neg hends, map_lineAt_range',
    trim_passage_span]
  by_cases hnil : inked lines p k = []
  · have htext := hcarries.text_eq
    rw [hnil] at htext ⊢
    rw [unlessEmpty, unlessEmpty, htext]
    rfl
  · have hline := hcarries.line_of_ordinary false hnil hout
    rw [hnumber] at hline
    rw [start_of_run hnil, ← hline, ← hcarries.text_eq]
    simp [underWay, hout]

/-- What the delimiter ends on line `k + 1`. -/
private theorem ofRun_of_closing (hle : p ≤ k) (hcarries : s.Carries (inked lines p k))
    (hnumber : s.lineNumber = k) (hdelimiter : s.delimiter = delimiterBefore lines (k + 1))
    (hclosing : s.mode.ending (lineAt lines (k + 1)) = .closing)
    (hout : (s.hold (lineAt lines (k + 1))).inRoutine = false)
    (hdirects : ¬ Directs lines (k + 1)) (hends : EndsRun lines (k + 1)) :
    ofRun lines (List.range' (p + 1) (k + 1 - p)) =
      unlessEmpty ((s.hold (lineAt lines (k + 1))).underWay true) := by
  have hwith := inked_succ lines hle
  rw [withLine_of_closing hclosing] at hwith
  have hhold := hcarries.hold (lineAt lines (k + 1))
  rw [withLine_of_closing hclosing, ← hwith] at hhold
  have hne : inked lines p (k + 1) ≠ [] := by simp [hwith]
  have hline := hhold.line_of_ordinary true hne hout
  rw [hold_lineNumber, hnumber] at hline
  have hsame := hold_delimiter_of_closing hcarries.delimiter hclosing
  obtain ⟨v, hv, htext⟩ := hcarries.text_of_closing hclosing
  have hbody : trimEnd ((trim (passage (inked lines p (k + 1)))).rdrop s.delimiter.length) =
      ((s.hold (lineAt lines (k + 1))).underWay true).text := by
    rw [htext, hwith, trim_passage_of_solid hcarries.delimiter hv.symm, List.rdrop,
      List.length_append, Nat.add_sub_cancel, List.take_left, trim]
  simp only [ofRun, getLast?_run (Nat.lt_succ_of_le hle), if_neg hdirects, if_pos hends,
    map_lineAt_range', trim_passage_span, ← hdelimiter, hbody, start_of_run hne, ← hline]
  simp [underWay, hout, hsame]

end Statement

/-! ## The scanner behind some lines -/

/-- Behind `k` lines the scanner has queued the statements of the runs up to line `p`; the run
under way are the lines after that. -/
structure Ran (lines : List Text) (k p : Nat) : Prop where
  cut_le : p ≤ k
  le_length : k ≤ lines.length
  carries : (after lines k).Carries (inked lines p k)
  mode : (after lines k).mode = ⟨delimiterBefore lines (k + 1), false, false, 0⟩
  ready : (after lines k).ready =
    ((List.range' 1 p).splitBy (joined lines)).flatMap (ofRun lines)
  cut : 0 < p → Directs lines p ∨ EndsRun lines p
  directs : ∀ i, p < i → i ≤ k → ¬ Directs lines i
  ends : ∀ i, p < i → i ≤ k → ¬ EndsRun lines i

theorem inked_self (lines : List Text) (k : Nat) : inked lines k k = [] := by
  rw [inked, span_eq_nil.2 (Nat.le_refl k)]
  rfl

theorem delimiterBefore_succ {lines : List Text} {k : Nat} (h : k < lines.length) :
    delimiterBefore lines (k + 2) =
      (token? (lineAt lines (k + 1))).getD (delimiterBefore lines (k + 1)) := by
  unfold delimiterBefore
  rw [Nat.add_sub_cancel, show k + 2 - 1 = k + 1 from rfl, take_succ_eq_append_lineAt h,
    List.reverse_append, List.reverse_singleton, List.singleton_append, List.findSome?_cons]
  cases token? (lineAt lines (k + 1)) <;> rfl

namespace Ran

variable {lines : List Text} {k p : Nat}

theorem initial (lines : List Text) : Ran lines 0 0 where
  cut_le := Nat.le_refl 0
  le_length := Nat.zero_le _
  carries := by
    rw [inked_self]
    exact carries_initial
  mode := rfl
  ready := rfl
  cut := fun h => absurd h (Nat.lt_irrefl 0)
  directs := by omega
  ends := by omega

theorem delimiter_eq (h : Ran lines k p) :
    (after lines k).delimiter = delimiterBefore lines (k + 1) := congrArg Mode.delimiter h.mode

theorem rested (hle : k ≤ lines.length) (hcarries : (after lines k).Carries [])
    (hdelimiter : (after lines k).delimiter = delimiterBefore lines (k + 1))
    (hready : (after lines k).ready =
      ((List.range' 1 k).splitBy (joined lines)).flatMap (ofRun lines))
    (hcut : Directs lines k ∨ EndsRun lines k) : Ran lines k k where
  cut_le := Nat.le_refl k
  le_length := hle
  carries := by
    rw [inked_self]
    exact hcarries
  mode := by rw [hcarries.mode_eq, hdelimiter]
  ready := hready
  cut := fun _ => hcut
  directs := by omega
  ends := by omega

/-- What the run under way queues where the delimiter does not end it. -/
theorem flushed (h : Ran lines k p) :
    (after lines k).ready ++ unlessEmpty ((after lines k).underWay false) =
      ((List.range' 1 k).splitBy (joined lines)).flatMap (ofRun lines) := by
  have hle := h.cut_le
  by_cases hlt : p < k
  · -- the lines behind the last cut are one run, for no line of them is a cut
    have hends : ∀ i, p < i → i < k → ¬ EndsRun lines i := fun i hp hk => h.ends i hp hk.le
    have hout : (after lines k).inRoutine = false := congrArg Mode.inRoutine h.mode
    rw [splitBy_run hlt h.cut h.directs hends, List.flatMap_append, List.flatMap_singleton, h.ready,
      ofRun_of_open hlt h.carries hout (after_lineNumber h.le_length)
        (h.directs k hlt (Nat.le_refl k)) (h.ends k hlt (Nat.le_refl k))]
  · obtain rfl : p = k := by omega
    have hcarries := h.carries
    rw [inked_self] at hcarries
    rw [hcarries.unlessEmpty_underWay_nil, List.append_nil, h.ready]

theorem step_directive (h : Ran lines k p) (hlt : k < lines.length)
    (hopen : includes Comment.blockOpen (lineAt lines (k + 1)) = false) {token : Text}
    (htoken : token? (lineAt lines (k + 1)) = some token) : Ran lines (k + 1) (k + 1) := by
  have hending : (after lines k).mode.ending (lineAt lines (k + 1)) = .directive token := by
    apply Mode.ending_of_token hopen _ _ htoken <;> rw [h.mode]
  have hcarries := h.carries.of_directive hending
  have hready := h.carries.ready_of_directive hending
  have hdirects : Directs lines (k + 1) := Option.isSome_of_eq_some htoken
  have hdelimiter : ((after lines k).feed (lineAt lines (k + 1))).delimiter = token := by
    rw [feed_of_directive hending]
  have hself : ofRun lines [k + 1] =
      [(after lines k).directiveOn (lineAt lines (k + 1))] := by
    simp only [ofRun, List.getLast?_singleton, if_pos hdirects, directiveOn,
      after_lineNumber h.le_length]
  have hruns : (List.range' 1 (k + 1)).splitBy (joined lines) =
      (List.range' 1 k).splitBy (joined lines) ++ [[k + 1]] := by
    rw [List.range'_1_concat, Nat.add_comm 1 k, List.splitBy_append]
    · rfl
    · intro x _ y hy
      obtain rfl : k + 1 = y := by simpa using hy
      simp [joined, hdirects]
  rw [← after_succ hlt] at hcarries hready hdelimiter
  refine rested hlt hcarries ?_ ?_ (.inl hdirects)
  · rw [hdelimiter, delimiterBefore_succ hlt, htoken, Option.getD_some]
  · rw [hready, h.flushed, hruns, List.flatMap_append, List.flatMap_singleton, hself]

section Step

variable (h : Ran lines k p) (hlt : k < lines.length) (hlevel : Level (lineAt lines (k + 1)))
  (htoken : token? (lineAt lines (k + 1)) = none)

include h hlevel htoken

theorem mode_hold_eq : ((after lines k).hold (lineAt lines (k + 1))).mode =
    ⟨delimiterBefore lines (k + 1), false, false, 0⟩ := by
  rw [mode_hold, h.mode, Mode.hold_of_level hlevel htoken rfl rfl]

theorem ending_eq : (after lines k).mode.ending (lineAt lines (k + 1)) =
    if EndsRun lines (k + 1) then .closing else .open := by
  rw [h.mode, Mode.ending_of_level hlevel htoken rfl rfl]
  rfl

include hlt

theorem step_closing (hends : EndsRun lines (k + 1)) : Ran lines (k + 1) (k + 1) := by
  have hle := h.cut_le
  have hdirects : ¬ Directs lines (k + 1) := by simp [Directs, htoken]
  have hending := h.ending_eq hlevel htoken
  rw [if_pos hends] at hending
  have hcarries := h.carries.of_closing hending
  have hdelimiter := h.carries.delimiter_of_closing hending
  have hready := ready_of_closing hending
  rw [← after_succ hlt] at hcarries hdelimiter hready
  have hstatement := ofRun_of_closing hle h.carries (after_lineNumber h.le_length) h.delimiter_eq
    hending (congrArg Mode.inRoutine (h.mode_hold_eq hlevel htoken)) hdirects hends
  have hdirect : ∀ i, p < i → i ≤ k + 1 → ¬ Directs lines i := forall_le_succ h.directs hdirects
  have hgoes : ∀ i, p < i → i < k + 1 → ¬ EndsRun lines i :=
    fun i hp hk => h.ends i hp (by omega)
  refine rested hlt hcarries ?_ ?_ (.inr hends)
  · rw [hdelimiter, h.delimiter_eq, delimiterBefore_succ hlt, htoken, Option.getD_none]
  · rw [hready, splitBy_run (by omega) h.cut hdirect hgoes, List.flatMap_append,
      List.flatMap_singleton, hstatement, h.ready]

theorem step_open (hends : ¬ EndsRun lines (k + 1)) : Ran lines (k + 1) p := by
  have hle := h.cut_le
  have hdirects : ¬ Directs lines (k + 1) := by simp [Directs, htoken]
  have hending := h.ending_eq hlevel htoken
  rw [if_neg hends] at hending
  have hafter := after_succ_of_open hlt hending
  exact {
    cut_le := by omega
    le_length := hlt
    carries := by
      rw [hafter, inked_succ lines hle]
      exact h.carries.hold _
    mode := by
      rw [hafter, h.mode_hold_eq hlevel htoken, delimiterBefore_succ hlt, htoken, Option.getD_none]
    ready := by rw [hafter, hold_ready, h.ready]
    cut := h.cut
    directs := forall_le_succ h.directs hdirects
    ends := forall_le_succ h.ends hends }

end Step

theorem exists_all (hlevel : ∀ raw ∈ lines, Level raw) (hk : k ≤ lines.length) :
    ∃ p, Ran lines k p := by
  induction k with
  | zero => exact ⟨0, .initial lines⟩
  | succ k ih =>
      obtain ⟨p, hran⟩ := ih (by omega)
      have hline := hlevel _ (lineAt_mem hk)
      cases htoken : token? (lineAt lines (k + 1)) with
      | some token => exact ⟨k + 1, hran.step_directive hk hline.1 htoken⟩
      | none =>
          by_cases hends : EndsRun lines (k + 1)
          · exact ⟨k + 1, hran.step_closing hk hline htoken hends⟩
          · exact ⟨p, hran.step_open hk hline htoken hends⟩

end Ran

/-- Statements end on the lines that a look at the whole script says, and on no other. -/
theorem split_eq_runs {script : Text} (hopen : includes Comment.blockOpen script = false)
    (hstarts : ∀ raw ∈ lines script, Routine.starts raw = true →
      Comment.isLineComment raw = true ∨ (token? raw).isSome = true) :
    split script = (runs (lines script)).flatMap (ofRun (lines script)) := by
  have hlevel : ∀ raw ∈ lines script, Level raw := fun raw hraw =>
    ⟨Comment.includes_blockOpen_of_isInfix (isInfix_of_mem_lines hraw) hopen, hstarts raw hraw⟩
  obtain ⟨p, hran⟩ := Ran.exists_all hlevel (Nat.le_refl _)
  rw [split_eq_after, ready_finish, runs, ← hran.flushed]

def delimiterChange : Text := "SELECT 1;\nDELIMITER //\nSELECT 2;\n-- //\nSELECT 3; //\n//\n".toList

theorem delimiterChange_runs :
    split delimiterChange =
      [⟨"SELECT 1".toList, 1, .ordinary, some [';']⟩,
        ⟨"DELIMITER //".toList, 2, .directive, none⟩,
        ⟨"SELECT 2;\n-- //\nSELECT 3;".toList, 3, .ordinary, some ['/', '/']⟩] := by
  rw [split_eq_runs (by decide +kernel) (by decide +kernel)]
  decide +kernel

end SqlBatch.Scanner
