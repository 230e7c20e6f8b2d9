import SqlBatch.Routine.Header
import SqlBatch.Proofs.Keyword
/-!
# Routine headers before a wordless tail

A header ends in a word, so neither blanks around a text nor a wordless tail behind it make or
unmake one.
-/

namespace SqlBatch.Routine

open Text Keyword

/-! ## The parts of a header -/

def sort? (text : Text) : Option Text :=
  (dropAny? sorts text).bind fun rest => if endsWord rest then some rest else none

def fromAggregate? (text : Text) : Option Text :=
  sort? ((dropSpaced? "aggregate".toList text).getD text)

def fromDefiner? (text : Text) : Option Text :=
  fromAggregate? ((dropDefiner? text).getD text)

def fromReplace? (text : Text) : Option Text :=
  fromDefiner? ((dropOrReplace? text).getD text)

theorem header?_eq (text : Text) :
    header? text =
      ((dropAny? ["create".toList, "alter".toList] text).bind dropBlanks?).bind fromReplace? := by
  rw [Option.bind_assoc]
  rfl

def equals? (text : Text) : Option Text := ['='].isPrefixOf? text

def skipBlanks? (text : Text) : Option Text := some (trimStart text)

def skipSolid? (text : Text) : Option Text := some (text.dropWhile (!isBlank ·))

def account? (text : Text) : Option Text :=
  (((skipBlanks? text).bind equals?).bind skipBlanks?).bind fun rest =>
    (skipSolid? rest).bind dropBlanks?

theorem dropDefiner?_eq (text : Text) :
    dropDefiner? text = (drop? "definer".toList text).bind account? := by
  rw [dropDefiner?]
  cases drop? "definer".toList text with
  | none => rfl
  | some rest =>
      simp only [account?, skipBlanks?, equals?, skipSolid?, Option.bind_eq_bind,
        Option.bind_some]
      cases ['='].isPrefixOf? (trimStart rest) with
      | none => rfl
      | some after => rfl

theorem begins_sort? : Begins ['p', 'f', 't', 'e'] sort? :=
  (begins_dropAny? (by decide)).bind _

theorem begins_fromAggregate? : Begins ['a', 'p', 'f', 't', 'e'] fromAggregate? :=
  begins_dropSpaced?.getD begins_sort?

theorem begins_dropDefiner? : Begins ['d'] dropDefiner? := by
  intro text hsome
  rw [dropDefiner?_eq] at hsome
  exact begins_drop?.bind account? text hsome

theorem begins_fromDefiner? : Begins ['d', 'a', 'p', 'f', 't', 'e'] fromDefiner? :=
  begins_dropDefiner?.getD begins_fromAggregate?

theorem begins_dropOrReplace? : Begins ['o'] dropOrReplace? :=
  begins_dropSpaced?.bind (dropSpaced? "replace".toList)

theorem begins_fromReplace? : Begins ['o', 'd', 'a', 'p', 'f', 't', 'e'] fromReplace? :=
  begins_dropOrReplace?.getD begins_fromDefiner?

theorem begins_header? : Begins ['c', 'a'] header? := by
  intro text hsome
  rw [header?_eq, Option.bind_assoc] at hsome
  exact (begins_dropAny? (by decide)).bind _ text hsome

theorem keepsWordless_skipBlanks? : KeepsWordless skipBlanks? := by
  apply keepsWordless_of_isSuffix
  rintro text _ ⟨rfl⟩
  exact List.dropWhile_suffix _

theorem keepsWordless_equals? : KeepsWordless equals? := by
  apply keepsWordless_of_isSuffix
  intro text rest hrest
  exact ⟨['='], List.isPrefixOf?_eq_some_iff_append_eq.1 hrest⟩

theorem keepsWordless_skipSolid? : KeepsWordless skipSolid? := by
  apply keepsWordless_of_isSuffix
  rintro text _ ⟨rfl⟩
  exact List.dropWhile_suffix _

private theorem keepsWordless_account? : KeepsWordless account? :=
  ((keepsWordless_skipBlanks?.bind keepsWordless_equals?).bind keepsWordless_skipBlanks?).bind
    (keepsWordless_skipSolid?.bind keepsWordless_dropBlanks?)

/-! ## Over a tail -/

theorem sort?_append {x : Text} (hx : endsWord x = true) : Extends (· ++ x) x sort? := by
  intro text
  rw [sort?, sort?, dropAny?_append (by decide) hx]
  cases dropAny? sorts text with
  | none => rfl
  | some rest =>
      simp only [Option.map_some, Option.bind_some, endsWord_append hx]
      split <;> rfl

section Tail

variable {x : Text} (hx : Wordless x)

include hx

private theorem fades_equals? : Fades x equals? := by
  intro text
  cases text with
  | nil =>
      refine .inr ⟨by simp [equals?, List.isPrefixOf?], ?_⟩
      intro rest hrest
      exact hx.of_suffix ⟨['='], List.isPrefixOf?_eq_some_iff_append_eq.1 hrest⟩
  | cons c text => by_cases hc : '=' = c <;> simp [equals?, List.isPrefixOf?, hc]

private theorem fades_skipSolid? : Fades x skipSolid? := by
  intro text
  by_cases hsolid : ∀ c ∈ text, (!isBlank c) = true
  · refine .inr ⟨?_, ?_⟩
    · rintro _ ⟨rfl⟩
      rw [List.dropWhile_eq_nil_iff.2 hsolid]
      exact wordless_nil
    · rintro _ ⟨rfl⟩
      rw [List.dropWhile_append_of_pos hsolid]
      exact hx.of_suffix (List.dropWhile_suffix _)
  · have hne : text.dropWhile (!isBlank ·) ≠ [] := mt List.dropWhile_eq_nil_iff.1 hsolid
    refine .inl (congrArg some ?_)
    rw [List.dropWhile_append, if_neg (by simpa using hne)]

theorem fades_account? : Fades x account? := by
  have hsign : Fades x fun text => (skipBlanks? text).bind equals? :=
    (fades_trimStart hx).bind (fades_equals? hx) keepsWordless_equals?
  have hstart : Fades x fun text => ((skipBlanks? text).bind equals?).bind skipBlanks? :=
    hsign.bind (fades_trimStart hx) keepsWordless_skipBlanks?
  have hend : Fades x fun text => (skipSolid? text).bind dropBlanks? :=
    (fades_skipSolid? hx).bind (fades_dropBlanks? hx) keepsWordless_dropBlanks?
  exact hstart.bind hend (keepsWordless_skipSolid?.bind keepsWordless_dropBlanks?)

theorem fades_dropDefiner? : Fades x dropDefiner? := by
  have hsteps : Fades x fun text => (drop? "definer".toList text).bind account? :=
    (drop?_append (by decide) hx.endsWord).fades.bind (fades_account? hx) keepsWordless_account?
  intro text
  simpa only [dropDefiner?_eq] using hsteps text

theorem fades_dropOrReplace? : Fades x dropOrReplace? :=
  (fades_dropSpaced? (by decide) hx).bind (fades_dropSpaced? (by decide) hx)
    keepsWordless_dropSpaced?

theorem fromReplace?_append : Extends (· ++ x) x fromReplace? := by
  have haggregate : Extends (· ++ x) x fromAggregate? :=
    (fades_dropSpaced? (by decide) hx).extends_getD begins_dropSpaced? (sort?_append hx.endsWord)
      begins_sort? (by decide) (by decide)
  have hdefiner : Extends (· ++ x) x fromDefiner? :=
    (fades_dropDefiner? hx).extends_getD begins_dropDefiner? haggregate begins_fromAggregate?
      (by decide) (by decide)
  exact (fades_dropOrReplace? hx).extends_getD begins_dropOrReplace? hdefiner
    begins_fromDefiner? (by decide) (by decide)

theorem header?_append : Extends (· ++ x) x header? := by
  have hfront : Fades x fun text =>
      (dropAny? ["create".toList, "alter".toList] text).bind dropBlanks? :=
    (dropAny?_append (by decide) hx.endsWord).fades.bind (fades_dropBlanks? hx)
      keepsWordless_dropBlanks?
  have hwhole := hfront.extends_bind (fromReplace?_append hx) begins_fromReplace? (by decide)
  intro text
  simpa only [header?_eq] using hwhole text

theorem starts_append (text : Text) : starts (text ++ x) = starts text := by
  rw [starts, starts, find?_append hx (header?_append hx) begins_header? (by decide),
    Option.isSome_map]

end Tail

theorem starts_wordless {w : Text} (hw : Wordless w) : starts w = false := by
  rw [starts, find?_wordless begins_header? (by decide) hw]
  rfl

@[simp] theorem starts_trim (text : Text) : starts (trim text) = starts text := by
  obtain ⟨v, w, hv, hw, htext⟩ := exists_eq_append_trim_append text
  conv_rhs => rw [htext]
  rw [starts_append hw.wordless, starts, starts,
    find?_wordless_append begins_header? (by decide) hv.wordless]

/-- A header is more than one word: there is a blank in it. -/
theorem header?_eq_none {text : Text} (h : ∀ c ∈ text, isBlank c = false) :
    header? text = none := by
  rw [← Option.not_isSome_iff_eq_none]
  intro hheader
  rw [header?_eq] at hheader
  obtain ⟨rest, hrest, -⟩ := Option.bind_eq_some_iff.1 (Option.eq_some_of_isSome hheader)
  obtain ⟨behind, hbehind, hblanks⟩ := Option.bind_eq_some_iff.1 hrest
  cases behind with
  | nil => contradiction
  | cons c behind =>
      have hc := h c ((isSuffix_of_dropAny? hbehind).subset (by simp))
      simp [dropBlanks?, hc] at hblanks

theorem find?_header?_eq_none {text : Text} (h : ∀ c ∈ text, isBlank c = false) (inWord : Bool) :
    find? header? inWord text = none := by
  rw [← Option.not_isSome_iff_eq_none]
  intro hfound
  obtain ⟨place, hplace, hheader⟩ := exists_isSuffix_of_find? hfound
  rw [header?_eq_none fun c hc => h c (hplace.subset hc)] at hheader
  contradiction

theorem not_solid_of_starts {text : Text} (h : starts text = true) : ¬ Solid text := by
  intro hsolid
  rw [starts, find?_header?_eq_none hsolid.2] at h
  contradiction

end SqlBatch.Routine
