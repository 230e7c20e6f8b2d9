import SqlBatch.Proofs.Scanner.Tail
import SqlBatch.Proofs.Text.Tidy
/-!
# Lines that end nothing

`Stays` holds of the lines that a scanner takes into one statement.  Only what they are without
their blank ends counts (`stays_congr`), and the scanner carries all of them behind the last one
(`feedAll_of_stays`).
-/

namespace SqlBatch.Scanner

open Text

namespace Mode

def idle (delimiter : Text) : Mode := ⟨delimiter, false, false, 0⟩

def holdAll (m : Mode) (lines : List Text) : Mode := lines.foldl hold m

/-- None of the lines ends a statement or sets a delimiter. -/
def Stays (m : Mode) : List Text → Prop
  | [] => True
  | raw :: rest =>
    m.ending raw = .open ∧ (∀ token, reading m.inBlockComment raw ≠ .directive token) ∧
      (m.hold raw).Stays rest

@[simp] theorem stays_nil (m : Mode) : m.Stays [] := trivial

theorem holdAll_append (m : Mode) (front back : List Text) :
    m.holdAll (front ++ back) = (m.holdAll front).holdAll back := List.foldl_append

theorem stays_append {m : Mode} {front back : List Text} :
    m.Stays (front ++ back) ↔ m.Stays front ∧ (m.holdAll front).Stays back := by
  induction front generalizing m with
  | nil => simp [holdAll]
  | cons raw front ih => simp [Stays, ih, holdAll, and_assoc]

theorem stays_singleton {m : Mode} {raw : Text} :
    m.Stays [raw] ↔
      m.ending raw = .open ∧ ∀ token, reading m.inBlockComment raw ≠ .directive token := by
  simp [Stays]

theorem holdAll_congr {lines others : List Text} (h : lines.map trim = others.map trim) (m : Mode) :
    m.holdAll lines = m.holdAll others := by
  have htrim : ∀ (m : Mode) (lines : List Text), m.holdAll (lines.map trim) = m.holdAll lines := by
    intro m lines
    simp only [holdAll, List.foldl_map, hold_trim]
  rw [← htrim, h, htrim]

theorem stays_congr {lines others : List Text} (h : lines.map trim = others.map trim) {m : Mode} :
    m.Stays lines ↔ m.Stays others := by
  have htrim : ∀ (lines : List Text) (m : Mode), m.Stays (lines.map trim) ↔ m.Stays lines := by
    intro lines
    induction lines with
    | nil => simp
    | cons raw lines ih => simp [Stays, ih]
  rw [← htrim, h, htrim]

theorem holdAll_of_blank {blanks : List Text} (h : ∀ line ∈ blanks, AllBlank line) (m : Mode) :
    m.holdAll blanks = m := by
  induction blanks with
  | nil => rfl
  | cons line blanks ih =>
      rw [holdAll, List.foldl_cons, hold_of_blank m (h line (by simp))]
      exact ih fun other hother => h other (by simp [hother])

theorem hold_delimiter_of_stays {m : Mode} {raw : Text}
    (h : ∀ token, reading m.inBlockComment raw ≠ .directive token) :
    (m.hold raw).delimiter = m.delimiter := by
  obtain ⟨inComment, delimiter, code, hhold, rfl | hreading⟩ := hold_eq_track m raw
  · rw [hhold, track_delimiter]
  · exact absurd hreading (h delimiter)

theorem holdAll_delimiter {m : Mode} {lines : List Text} (h : m.Stays lines) :
    (m.holdAll lines).delimiter = m.delimiter := by
  induction lines generalizing m with
  | nil => rfl
  | cons raw lines ih =>
      obtain ⟨-, hreading, hrest⟩ := h
      exact (ih hrest).trans (hold_delimiter_of_stays hreading)

end Mode

/-! ## Feeding lines that end nothing -/

theorem hold_delimiter_of_reading {s : Scanner} {raw : Text}
    (h : ∀ token, reading s.inBlockComment raw ≠ .directive token) :
    (s.hold raw).delimiter = s.delimiter := by
  show (s.hold raw).mode.delimiter = s.mode.delimiter
  rw [mode_hold]
  exact Mode.hold_delimiter_of_stays h

theorem foldl_withLine {lines : List Text} (h : lines ≠ []) (fed : List Text) :
    fed.foldl withLine lines = lines ++ fed := by
  induction fed generalizing lines with
  | nil => simp
  | cons raw fed ih =>
      rw [List.foldl_cons, withLine_of_ne_nil h, ih (by simp), List.append_assoc]
      rfl

theorem foldl_withLine_nil {fed : List Text} (h : ∀ line ∈ fed.head?, ¬ AllBlank line) :
    fed.foldl withLine [] = fed := by
  cases fed with
  | nil => rfl
  | cons raw fed =>
      rw [List.foldl_cons, withLine_of_ink [] (h raw (by simp)), foldl_withLine (by simp)]
      rfl

theorem Carries.feedAll_of_stays {s : Scanner} {lines : List Text} (h : s.Carries lines)
    {fed : List Text} (hstays : s.mode.Stays fed) :
    (s.feedAll fed).Carries (fed.foldl withLine lines) ∧
      (s.feedAll fed).mode = s.mode.holdAll fed ∧ (s.feedAll fed).ready = s.ready := by
  induction fed generalizing s lines with
  | nil => exact ⟨h, rfl, rfl⟩
  | cons raw fed ih =>
      obtain ⟨hopen, -, hrest⟩ := hstays
      rw [← mode_hold] at hrest
      obtain ⟨hcarries, hmode, hready⟩ := ih (h.hold raw) hrest
      have hfeed : s.feedAll (raw :: fed) = (s.hold raw).feedAll fed := by
        rw [feedAll, List.foldl_cons, feed_of_open hopen, ← feedAll]
      rw [hfeed]
      refine ⟨hcarries, ?_, hready.trans (hold_ready s raw)⟩
      rw [hmode, mode_hold]
      rfl

end SqlBatch.Scanner
