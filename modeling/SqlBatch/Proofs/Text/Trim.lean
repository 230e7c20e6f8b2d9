import SqlBatch.Delimiter
import Mathlib.Data.List.DropRight
/-!
# Blank ends

What `trimStart`, `trimEnd` and `trim` do to two texts side by side.  Blanks at an end go, and a
part that is not all blank shields what stands on its other side.
-/

namespace SqlBatch.Text

def AllBlank (text : Text) : Prop := ∀ c ∈ text, isBlank c = true

def Solid (text : Text) : Prop := text ≠ [] ∧ ∀ c ∈ text, isBlank c = false

instance (text : Text) : Decidable (AllBlank text) :=
  List.decidableBAll (fun c => isBlank c = true) text

instance (text : Text) : Decidable (Solid text) :=
  letI := List.decidableBAll (fun c => isBlank c = false) text
  instDecidableAnd

@[simp] theorem allBlank_nil : AllBlank [] := fun _ h => nomatch h

@[simp] theorem allBlank_cons {c : Char} {text : Text} :
    AllBlank (c :: text) ↔ isBlank c = true ∧ AllBlank text := List.forall_mem_cons

@[simp] theorem allBlank_append {u v : Text} :
    AllBlank (u ++ v) ↔ AllBlank u ∧ AllBlank v := List.forall_mem_append

theorem AllBlank.notMem {text : Text} (h : AllBlank text) {c : Char} (hc : isBlank c = false) :
    c ∉ text := by
  intro hmem
  rw [h c hmem] at hc
  contradiction

theorem Solid.not_allBlank {d : Text} (hd : Solid d) : ¬ AllBlank d := by
  obtain ⟨hne, hsolid⟩ := hd
  obtain ⟨c, rest, rfl⟩ := List.exists_cons_of_ne_nil hne
  intro hblank
  simp [hsolid c (by simp)] at hblank

/-! ## Each end alone -/

@[simp] theorem trimStart_nil : trimStart [] = [] := rfl

@[simp] theorem trimEnd_nil : trimEnd [] = [] := rfl

@[simp] theorem trimStart_eq_nil {text : Text} : trimStart text = [] ↔ AllBlank text :=
  List.dropWhile_eq_nil_iff

@[simp] theorem trimEnd_eq_nil {text : Text} : trimEnd text = [] ↔ AllBlank text := by
  simp [trimEnd, AllBlank]

theorem trimStart_blank_append {w : Text} (hw : AllBlank w) (text : Text) :
    trimStart (w ++ text) = trimStart text :=
  List.dropWhile_append_of_pos hw

theorem trimStart_append {u : Text} (hu : ¬ AllBlank u) (v : Text) :
    trimStart (u ++ v) = trimStart u ++ v := by
  have hne : trimStart u ≠ [] := mt trimStart_eq_nil.1 hu
  unfold trimStart at hne ⊢
  rw [List.dropWhile_append, if_neg (by simpa using hne)]

theorem trimEnd_append_blank {w : Text} (hw : AllBlank w) (text : Text) :
    trimEnd (text ++ w) = trimEnd text := by
  unfold trimEnd
  rw [List.reverse_append, List.dropWhile_append_of_pos (by simpa [AllBlank] using hw)]

theorem trimEnd_append {v : Text} (hv : ¬ AllBlank v) (u : Text) :
    trimEnd (u ++ v) = u ++ trimEnd v := by
  have hne : v.reverse.dropWhile isBlank ≠ [] := by
    intro hnil
    exact hv (by simpa [AllBlank] using hnil)
  unfold trimEnd
  rw [List.reverse_append, List.dropWhile_append, if_neg (by simpa using hne),
    List.reverse_append, List.reverse_reverse]

theorem exists_eq_append_trimStart (text : Text) :
    ∃ w, AllBlank w ∧ text = w ++ trimStart text :=
  ⟨text.takeWhile isBlank, fun _ hc => (List.mem_takeWhile_imp hc),
    List.takeWhile_append_dropWhile.symm⟩

theorem exists_eq_trimEnd_append (text : Text) :
    ∃ w, AllBlank w ∧ text = trimEnd text ++ w := by
  refine ⟨(text.reverse.takeWhile isBlank).reverse, ?_, ?_⟩
  · intro c hc
    exact List.mem_takeWhile_imp (List.mem_reverse.1 hc)
  · rw [trimEnd, ← List.reverse_append, List.takeWhile_append_dropWhile, List.reverse_reverse]

@[simp] theorem allBlank_trimEnd {text : Text} : AllBlank (trimEnd text) ↔ AllBlank text := by
  obtain ⟨w, hw, htext⟩ := exists_eq_trimEnd_append text
  constructor
  · intro h
    rw [htext]
    exact allBlank_append.2 ⟨h, hw⟩
  · intro h
    rw [htext] at h
    exact (allBlank_append.1 h).1

@[simp] theorem allBlank_trimStart {text : Text} : AllBlank (trimStart text) ↔ AllBlank text := by
  obtain ⟨w, hw, htext⟩ := exists_eq_append_trimStart text
  constructor
  · intro h
    rw [htext]
    exact allBlank_append.2 ⟨hw, h⟩
  · intro h
    rw [htext] at h
    exact (allBlank_append.1 h).2

theorem getLast?_trimStart {text : Text} (h : ¬ AllBlank text) :
    (trimStart text).getLast? = text.getLast? := by
  obtain ⟨w, -, htext⟩ := exists_eq_append_trimStart text
  conv_rhs => rw [htext, List.getLast?_append_of_ne_nil w (mt trimStart_eq_nil.1 h)]

@[simp] theorem trimStart_trimStart (text : Text) : trimStart (trimStart text) = trimStart text :=
  List.dropWhile_idempotent _ _

@[simp] theorem trimEnd_trimEnd (text : Text) : trimEnd (trimEnd text) = trimEnd text := by
  simp [trimEnd, List.dropWhile_idempotent]

/-! ## Both ends -/

theorem trimStart_trimEnd (text : Text) : trimStart (trimEnd text) = trim text := by
  obtain ⟨w, hw, htext⟩ := exists_eq_append_trimStart text
  by_cases hblank : AllBlank (trimStart text)
  · have hstart : trimStart text = [] := by simpa using hblank
    have hend : trimEnd text = [] := by simpa using hblank
    rw [trim, hstart, hend]
    rfl
  · have hcore : ¬ AllBlank (trimEnd (trimStart text)) := by simpa using hblank
    calc trimStart (trimEnd text)
        = trimStart (trimEnd (w ++ trimStart text)) := by rw [← htext]
      _ = trimStart (w ++ trimEnd (trimStart text)) := by rw [trimEnd_append hblank]
      _ = trimStart (trimEnd (trimStart text)) := trimStart_blank_append hw _
      _ = trim text := ?_
    obtain ⟨v, -, hv⟩ := exists_eq_trimEnd_append (trimStart text)
    have hagain : trimStart (trimEnd (trimStart text) ++ v) = trimEnd (trimStart text) ++ v := by
      rw [← hv, trimStart_trimStart]
    rw [trimStart_append hcore] at hagain
    exact List.append_cancel_right hagain

@[simp] theorem trim_nil : trim [] = [] := rfl

@[simp] theorem trim_eq_nil {text : Text} : trim text = [] ↔ AllBlank text := by
  simp [trim]

@[simp] theorem allBlank_trim {text : Text} : AllBlank (trim text) ↔ AllBlank text := by
  simp [trim]

@[simp] theorem trim_trimStart (text : Text) : trim (trimStart text) = trim text := by
  simp [trim]

@[simp] theorem trim_trimEnd (text : Text) : trim (trimEnd text) = trim text := by
  rw [← trimStart_trimEnd, trimEnd_trimEnd, trimStart_trimEnd]

@[simp] theorem trimEnd_trim (text : Text) : trimEnd (trim text) = trim text := by
  simp [trim]

@[simp] theorem trimStart_trim (text : Text) : trimStart (trim text) = trim text := by
  rw [← trimStart_trimEnd, trimStart_trimStart]

@[simp] theorem trim_trim (text : Text) : trim (trim text) = trim text := by
  rw [trim, trimStart_trim, trimEnd_trim]

theorem trim_append_blank {w : Text} (hw : AllBlank w) (text : Text) :
    trim (text ++ w) = trim text := by
  rw [← trimStart_trimEnd, trimEnd_append_blank hw, trimStart_trimEnd]

theorem trim_blank_append {w : Text} (hw : AllBlank w) (text : Text) :
    trim (w ++ text) = trim text := by
  rw [trim, trimStart_blank_append hw, ← trim]

theorem exists_eq_append_trim_append (text : Text) :
    ∃ v w, AllBlank v ∧ AllBlank w ∧ text = v ++ trim text ++ w := by
  obtain ⟨v, hv, hstart⟩ := exists_eq_append_trimStart text
  obtain ⟨w, hw, hend⟩ := exists_eq_trimEnd_append (trimStart text)
  refine ⟨v, w, hv, hw, ?_⟩
  rw [List.append_assoc, trim, ← hend, ← hstart]

theorem getLast?_trim_append {v : Text} (hv : ¬ AllBlank v) (u : Text) :
    (trim (u ++ v)).getLast? = (trim v).getLast? := by
  have hend : ¬ AllBlank (trimEnd v) := by rwa [allBlank_trimEnd]
  have hne : trimEnd v ≠ [] := mt trimEnd_eq_nil.1 hv
  rw [← trimStart_trimEnd, ← trimStart_trimEnd, trimEnd_append hv, getLast?_trimStart hend,
    getLast?_trimStart fun h => hend (allBlank_append.1 h).2, List.getLast?_append_of_ne_nil u hne]

theorem trim_isInfix (text : Text) : trim text <:+: text := by
  obtain ⟨v, w, -, -, htext⟩ := exists_eq_append_trim_append text
  exact ⟨v, w, htext.symm⟩

/-! ## Ends without blanks -/

theorem trimStart_eq_self {d : Text} (hd : ∀ c ∈ d.head?, isBlank c = false) :
    trimStart d = d := by
  cases d with
  | nil => rfl
  | cons c rest => exact List.dropWhile_cons_of_neg (by simp [hd c rfl])

theorem trimStart_append_of_head? {d : Text} (hd : ∀ c ∈ d.head?, isBlank c = false)
    (text : Text) : trimStart (text ++ d) = trimStart text ++ d := by
  by_cases hblank : AllBlank text
  · have hstart : trimStart text = [] := trimStart_eq_nil.2 hblank
    rw [trimStart_blank_append hblank, trimStart_eq_self hd, hstart, List.nil_append]
  · exact trimStart_append hblank d

theorem Solid.isBlank_head? {d : Text} (hd : Solid d) : ∀ c ∈ d.head?, isBlank c = false :=
  fun c hc => hd.2 c (List.mem_of_mem_head? hc)

theorem Solid.trimStart_eq {d : Text} (hd : Solid d) : trimStart d = d :=
  trimStart_eq_self hd.isBlank_head?

theorem Solid.trimEnd_eq {d : Text} (hd : Solid d) : trimEnd d = d := by
  have hreverse : Solid d.reverse := ⟨by simpa using hd.1, by simpa using hd.2⟩
  have h := hreverse.trimStart_eq
  unfold trimStart at h
  rw [trimEnd, h, List.reverse_reverse]

theorem Solid.trim_eq {d : Text} (hd : Solid d) : trim d = d := by
  rw [trim, hd.trimStart_eq, hd.trimEnd_eq]

theorem trimEnd_append_solid {d : Text} (hd : Solid d) (text : Text) :
    trimEnd (text ++ d) = text ++ d := by
  rw [trimEnd_append hd.not_allBlank, hd.trimEnd_eq]

theorem trimStart_append_solid {d : Text} (hd : Solid d) (text : Text) :
    trimStart (text ++ d) = trimStart text ++ d :=
  trimStart_append_of_head? hd.isBlank_head? text

theorem trim_append_solid {d : Text} (hd : Solid d) (text : Text) :
    trim (text ++ d) = trimStart text ++ d := by
  rw [← trimStart_trimEnd, trimEnd_append_solid hd, trimStart_append_solid hd]

/-- Blanks may stand before the solid end of a text. -/
theorem exists_trim_eq_append_solid {v d text : Text} (hd : Solid d) (hv : v ++ d = trimEnd text) :
    ∃ w, AllBlank w ∧ trim text = trim v ++ (w ++ d) := by
  obtain ⟨w, hw, hstart⟩ := exists_eq_trimEnd_append (trimStart v)
  refine ⟨w, hw, ?_⟩
  rw [← trim_trimEnd, ← hv, trim_append_solid hd, hstart, List.append_assoc, ← trim]

/-- Texts that differ in blank ends only also do so before a solid end that they have in common. -/
theorem trim_eq_of_append_solid {d u v text other : Text} (hd : Solid d)
    (htext : trimEnd text = u ++ d) (hother : trimEnd other = v ++ d) (h : trim text = trim other) :
    trim u = trim v := by
  have hsame : trimStart u ++ d = trimStart v ++ d := by
    rw [← trimStart_append_solid hd, ← trimStart_append_solid hd, ← htext, ← hother,
      trimStart_trimEnd, trimStart_trimEnd, h]
  rw [trim, List.append_cancel_right hsame, ← trim]

theorem allBlank_iff_of_trim_eq {text other : Text} (h : trim text = trim other) :
    AllBlank text ↔ AllBlank other := by
  rw [← trim_eq_nil, h, trim_eq_nil]

end SqlBatch.Text

namespace SqlBatch.Delimiter

open Text

theorem solid_of_directive? {line token : Text} (h : directive? line = some token) :
    Solid token := by
  unfold directive? at h
  split at h
  · split at h
    · simp at h
    · next rest _ hrest =>
      simp only [Bool.or_eq_true, not_or, List.isEmpty_iff, List.any_eq_true, not_exists,
        not_and, Bool.not_eq_true] at hrest
      obtain rfl : rest = token := by simpa using h
      exact ⟨hrest.1, hrest.2⟩
  · simp at h

theorem solid_initial : Solid initial := by decide

@[simp] theorem directive?_trim (line : Text) : directive? (trim line) = directive? line := by
  simp [directive?]

theorem strip_congr {u v : Text} (h : trim u = trim v) (d : Text) : strip d u = strip d v := by
  rw [strip, strip, h]

@[simp] theorem trim_strip (d text : Text) : trim (strip d text) = strip d text := by
  unfold strip
  cases hbody : d.isSuffixOf? (trim text) with
  | none => exact trim_trim text
  | some body =>
      have htext : body ++ d = trim text := List.isSuffixOf?_eq_some_iff_append_eq.1 hbody
      by_cases hblank : AllBlank body
      · have hnil : trimEnd body = [] := trimEnd_eq_nil.2 hblank
        simp only [hnil, trim_nil]
      · have hstart : trimStart body = body := by
          have hwhole := trimStart_trim text
          rw [← htext, trimStart_append hblank] at hwhole
          exact List.append_cancel_right hwhole
        show trim (trimEnd body) = trimEnd body
        rw [trim_trimEnd, trim, hstart]

/-- What is left of a text that ends with the delimiter is what stands before the delimiter. -/
theorem strip_append {d w : Text} (hd : Solid d) (hw : AllBlank w) (text : Text) :
    strip d (text ++ d ++ w) = trim text := by
  have htrim : trim (text ++ d ++ w) = trimStart text ++ d := by
    rw [trim_append_blank hw, trim_append_solid hd]
  have hsuffix : d.isSuffixOf? (trimStart text ++ d) = some (trimStart text) :=
    List.isSuffixOf?_eq_some_iff_append_eq.2 rfl
  rw [strip, htrim, hsuffix, trim]

end SqlBatch.Delimiter
