import SqlBatch.Proofs.Routine.Header
import SqlBatch.Proofs.Text.Lines
/-!
# Routine headers on the lines of a text

A header on one line of a text is a header of the text (`starts_of_mem_lines`), and a solid tail
that starts no word neither makes nor unmakes one (`starts_append_solid`).
-/

namespace SqlBatch.Keyword

open Text

/-! ## Before a solid tail -/

section Extends

variable {α : Type} {x : Text} {grow : α → α} {step : Text → Option Text}
  {pattern : Text → Option α}

theorem Extends.bind (hs : Extends (· ++ x) x step) (hp : Extends grow x pattern) :
    Extends grow x fun text => (step text).bind pattern := Respects.bind hs hp

theorem Extends.getD (hs : Extends (· ++ x) x step) (hp : Extends grow x pattern) :
    Extends grow x fun text => pattern ((step text).getD text) := Respects.getD hs hp

end Extends

theorem dropBlanks?_append_of_head? {d : Text} (hd : ∀ c ∈ d.head?, isBlank c = false) :
    Extends (· ++ d) d dropBlanks? := by
  intro text
  cases text with
  | nil =>
      cases d with
      | nil => rfl
      | cons c rest => simp [dropBlanks?, hd c rfl]
  | cons c text =>
      rw [List.cons_append, dropBlanks?, dropBlanks?, trimStart_append_of_head? hd]
      split <;> rfl

theorem dropBlanks?_append_solid {d : Text} (hd : Solid d) : Extends (· ++ d) d dropBlanks? :=
  dropBlanks?_append_of_head? hd.isBlank_head?

private theorem dropSpaced?_append_solid {d : Text} (hd : Solid d) (hword : endsWord d = true)
    {keyword : Text} (hkeyword : Lowercase keyword) : Extends (· ++ d) d (dropSpaced? keyword) :=
  (drop?_append hkeyword hword).bind (dropBlanks?_append_solid hd)

/-! ## Before a tail that starts no word -/

/-- Whatever the step leaves of a text, it leaves with the tail `x` as well. -/
def Lasts (x : Text) (step : Text → Option Text) : Prop :=
  ∀ text rest, step text = some rest → step (text ++ x) = some (rest ++ x)

def Grows (x : Text) (step : Text → Option Text) : Prop :=
  ∀ text rest, step text = some rest → rest ≠ [] → step (text ++ x) = some (rest ++ x)

section Grows

variable {x letters : Text} {first second pattern : Text → Option Text}

theorem Extends.lasts (h : Extends (· ++ x) x first) : Lasts x first := by
  intro text rest hrest
  rw [h text, hrest]
  rfl

theorem Lasts.grows (h : Lasts x first) : Grows x first :=
  fun text rest hrest _ => h text rest hrest

theorem Grows.bind (hf : Grows x first) (hs : Grows x second)
    (hnil : ∀ rest ∈ second [], rest = []) : Grows x fun text => (first text).bind second := by
  intro text rest hrest hne
  obtain ⟨between, hbetween, hsecond⟩ := Option.bind_eq_some_iff.1 hrest
  have hbetween_ne : between ≠ [] := by
    rintro rfl
    exact hne (hnil rest hsecond)
  show (first (text ++ x)).bind second = some (rest ++ x)
  rw [hf text between hbetween hbetween_ne, Option.bind_some, hs between rest hsecond hne]

/-- Behind a step that grows, a pattern that needs a keyword lasts. -/
theorem Grows.lasts_bind (hf : Grows x first) (hp : Lasts x pattern) (hb : Begins letters pattern) :
    Lasts x fun text => (first text).bind pattern := by
  intro text rest hrest
  obtain ⟨between, hbetween, hpattern⟩ := Option.bind_eq_some_iff.1 hrest
  have hbetween_ne : between ≠ [] := by
    rintro rfl
    rw [hb.eq_none_nil] at hpattern
    contradiction
  show (first (text ++ x)).bind pattern = some (rest ++ x)
  rw [hf text between hbetween hbetween_ne, Option.bind_some, hp between rest hpattern]

/-- A clause that may be left out is not found in the tail: what follows it is found before. -/
theorem Grows.lasts_getD {k : Char} {clause : Text → Option Text} (hf : Grows x clause)
    (hc : Begins [k] clause) (hp : Lasts x pattern) (hb : Begins letters pattern)
    (hother : k ∉ letters) : Lasts x fun text => pattern ((clause text).getD text) := by
  intro text rest hrest
  show pattern ((clause (text ++ x)).getD (text ++ x)) = some (rest ++ x)
  cases hclause : clause text with
  | some behind =>
      simp only [hclause, Option.getD_some] at hrest
      have hbehind : behind ≠ [] := by
        rintro rfl
        rw [hb.eq_none_nil] at hrest
        contradiction
      rw [hf text behind hclause hbehind, Option.getD_some, hp behind rest hrest]
  | none =>
      simp only [hclause, Option.getD_none] at hrest
      have hnone : clause (text ++ x) = none := by
        rw [← Option.not_isSome_iff_eq_none]
        intro hsome
        rw [hc.eq_none_of_other hb hother hsome] at hrest
        contradiction
      rw [hnone, Option.getD_none, hp text rest hrest]

theorem grows_trimStart : Grows x fun text => some (trimStart text) := by
  rintro text _ ⟨rfl⟩ hne
  exact congrArg some (trimStart_append (mt trimStart_eq_nil.2 hne) x)

theorem grows_dropBlanks? : Grows x dropBlanks? := by
  intro text rest hrest hne
  cases text with
  | nil => contradiction
  | cons c text =>
      by_cases hc : isBlank c = true
      · rw [dropBlanks?, if_pos hc] at hrest
        rw [List.cons_append, dropBlanks?, if_pos hc]
        exact grows_trimStart text rest hrest hne
      · rw [dropBlanks?, if_neg hc] at hrest
        contradiction

theorem grows_dropSpaced? (hx : endsWord x = true) {keyword : Text} (hkeyword : Lowercase keyword) :
    Grows x (dropSpaced? keyword) :=
  (drop?_append hkeyword hx).lasts.grows.bind grows_dropBlanks? (by simp [dropBlanks?])

theorem find?_isSome_append (hp : Lasts x pattern) {text : Text} {inWord : Bool}
    (h : (find? pattern inWord text).isSome = true) :
    (find? pattern inWord (text ++ x)).isSome = true := by
  induction text generalizing inWord with
  | nil => contradiction
  | cons c text ih =>
      rw [find?] at h
      rw [List.cons_append, find?]
      cases inWord with
      | true => exact ih h
      | false =>
          rw [if_neg Bool.false_ne_true] at h ⊢
          cases hhere : pattern (c :: text) with
          | some rest =>
              have hlasts := hp (c :: text) rest hhere
              rw [List.cons_append] at hlasts
              rw [hlasts]
              rfl
          | none =>
              rw [hhere] at h
              split
              · rfl
              · exact ih h

end Grows

theorem find?_isSome_append_left {α : Type} {pattern : Text → Option α} {u text : Text}
    (hu : ∀ c ∈ u.getLast?, isWord c = false) (h : (find? pattern false text).isSome = true)
    {inWord : Bool} (hin : u = [] → inWord = false) :
    (find? pattern inWord (u ++ text)).isSome = true := by
  induction u generalizing inWord with
  | nil => rwa [hin rfl]
  | cons c u ih =>
      have hrest : (find? pattern (isWord c) (u ++ text)).isSome = true := by
        apply ih
        · intro d hd
          apply hu
          rw [List.getLast?_cons, Option.mem_def.1 hd]
          rfl
        · rintro rfl
          exact hu c rfl
      rw [List.cons_append, find?]
      split
      · exact hrest
      · split
        · rfl
        · exact hrest

end SqlBatch.Keyword

namespace SqlBatch.Routine

open Text Keyword

/-! ## A solid tail -/

section Solid

variable {d : Text} (hd : Solid d) (hword : endsWord d = true)

include hd

omit hd in
/-- An account ends with a blank. -/
private theorem account?_eq_none {text : Text} (h : ∀ c ∈ text, isBlank c = false) :
    account? text = none := by
  rw [Option.eq_none_iff_forall_ne_some]
  intro rest hrest
  obtain ⟨between, hbetween, hend⟩ := Option.bind_eq_some_iff.1 hrest
  obtain ⟨sign, hsign, ⟨rfl⟩⟩ := Option.bind_eq_some_iff.1 hbetween
  obtain ⟨start, ⟨rfl⟩, hequals⟩ := Option.bind_eq_some_iff.1 hsign
  have hsuffix : trimStart sign <:+ text :=
    (List.dropWhile_suffix _).trans
      (List.IsSuffix.trans ⟨['='], List.isPrefixOf?_eq_some_iff_append_eq.1 hequals⟩
        (List.dropWhile_suffix _))
  have hall : ∀ c ∈ trimStart sign, (!isBlank c) = true := by
    intro c hc
    rw [h c (hsuffix.subset hc)]
    rfl
  simp only [skipSolid?, List.dropWhile_eq_nil_iff.2 hall] at hend
  contradiction

private theorem account?_append_solid : Extends (· ++ d) d account? := by
  have hskip : Extends (· ++ d) d skipBlanks? :=
    fun text => congrArg some (trimStart_append_solid hd text)
  -- an account that runs into the tail runs up to its end
  have hsolid : Extends (· ++ d) d fun text => (skipSolid? text).bind dropBlanks? := by
    intro text
    by_cases hall : ∀ c ∈ text, (!isBlank c) = true
    · have hlong : ∀ c ∈ text ++ d, (!isBlank c) = true :=
        List.forall_mem_append.2 ⟨hall, fun c hc => by rw [hd.2 c hc]; rfl⟩
      simp only [skipSolid?, List.dropWhile_eq_nil_iff.2 hall, List.dropWhile_eq_nil_iff.2 hlong]
      rfl
    · have hne : text.dropWhile (!isBlank ·) ≠ [] := mt List.dropWhile_eq_nil_iff.1 hall
      have hdrop : skipSolid? (text ++ d) = (skipSolid? text).map (· ++ d) := by
        rw [skipSolid?, List.dropWhile_append, if_neg (by simpa using hne)]
        rfl
      simp only [hdrop]
      exact dropBlanks?_append_solid hd _
  have hbehind := hskip.bind hsolid
  intro text
  by_cases hblank : AllBlank text
  · have hstart : account? (text ++ d) = account? d := by
      simp only [account?, skipBlanks?, trimStart_blank_append hblank]
    have hnone : account? text = none := by
      simp only [account?, skipBlanks?, trimStart_eq_nil.2 hblank]
      rfl
    rw [hstart, account?_eq_none hd.2, hnone]
    rfl
  · obtain ⟨c, rest, hcons⟩ := List.exists_cons_of_ne_nil (mt trimStart_eq_nil.1 hblank)
    have hsign : equals? (c :: rest ++ d) = (equals? (c :: rest)).map (· ++ d) := by
      by_cases hc : '=' = c <;> simp [equals?, List.isPrefixOf?, hc]
    have hsteps : ∀ text, account? text =
        (equals? (trimStart text)).bind fun rest =>
          (skipBlanks? rest).bind fun rest => (skipSolid? rest).bind dropBlanks? :=
      fun text => Option.bind_assoc _ _ _
    rw [hsteps, hsteps, trimStart_append hblank, hcons, hsign]
    cases equals? (c :: rest) with
    | none => rfl
    | some after => exact hbehind after

include hword

theorem header?_append_solid : Extends (· ++ d) d header? := by
  have hdrop : ∀ keyword, Lowercase keyword → Extends (· ++ d) d (dropSpaced? keyword) :=
    fun keyword => dropSpaced?_append_solid hd hword
  have hdefiner : Extends (· ++ d) d dropDefiner? := by
    have hkeyword : Extends (· ++ d) d (drop? "definer".toList) := drop?_append (by decide) hword
    have hsteps := hkeyword.bind (account?_append_solid hd)
    intro text
    simpa only [dropDefiner?_eq] using hsteps text
  have hreplace : Extends (· ++ d) d fromReplace? :=
    ((hdrop _ (by decide)).bind (hdrop _ (by decide))).getD
      (hdefiner.getD ((hdrop _ (by decide)).getD (sort?_append hword)))
  have hverb : Extends (· ++ d) d (dropAny? ["create".toList, "alter".toList]) :=
    dropAny?_append (by decide) hword
  have hwhole := (hverb.bind (dropBlanks?_append_solid hd)).bind hreplace
  intro text
  simpa only [header?_eq] using hwhole text

theorem starts_append_solid (text : Text) : starts (text ++ d) = starts text := by
  rw [starts, starts, find?_append_of_none (find?_header?_eq_none hd.2)
    (header?_append_solid hd hword), Option.isSome_map]

end Solid

/-! ## A tail that starts no word -/

section Tail

variable {x : Text} (hx : endsWord x = true)

include hx

theorem lasts_header? : Lasts x header? := by
  have hsign : Grows x equals? := by
    intro text rest hrest _
    have htext := List.isPrefixOf?_eq_some_iff_append_eq.1 hrest
    exact List.isPrefixOf?_eq_some_iff_append_eq.2 (by rw [← htext, List.append_assoc])
  have hsolid : Grows x skipSolid? := by
    rintro text _ ⟨rfl⟩ hne
    rw [skipSolid?, List.dropWhile_append, if_neg (by simpa using hne)]
  have haccount : Grows x account? :=
    (((grows_trimStart.bind hsign (by simp [equals?, List.isPrefixOf?])).bind grows_trimStart
      (by simp)).bind (hsolid.bind grows_dropBlanks? (by simp [dropBlanks?]))
      (by simp [skipSolid?, dropBlanks?]))
  have hdefiner : Grows x dropDefiner? := by
    have hkeyword : Extends (· ++ x) x (drop? "definer".toList) := drop?_append (by decide) hx
    have hsteps := hkeyword.lasts.grows.bind haccount
      (by simp [account?, skipBlanks?, equals?, List.isPrefixOf?])
    intro text
    simpa only [dropDefiner?_eq] using hsteps text
  have hreplace : Grows x dropOrReplace? :=
    (grows_dropSpaced? hx (by decide)).bind (grows_dropSpaced? hx (by decide))
      (by simp [dropSpaced?, drop?])
  have haggregate : Lasts x fromAggregate? :=
    (grows_dropSpaced? hx (by decide)).lasts_getD begins_dropSpaced? (sort?_append hx).lasts
      begins_sort? (by decide)
  have hfrom : Lasts x fromReplace? :=
    hreplace.lasts_getD begins_dropOrReplace?
      (hdefiner.lasts_getD begins_dropDefiner? haggregate begins_fromAggregate? (by decide))
      begins_fromDefiner? (by decide)
  have hverb : Extends (· ++ x) x (dropAny? ["create".toList, "alter".toList]) :=
    dropAny?_append (by decide) hx
  have hfront := hverb.lasts.grows.bind grows_dropBlanks? (by simp [dropBlanks?])
  have hwhole := hfront.lasts_bind hfrom begins_fromReplace?
  intro text
  simpa only [header?_eq] using hwhole text

theorem starts_append_of_endsWord {text : Text} (h : starts text = true) :
    starts (text ++ x) = true :=
  find?_isSome_append (lasts_header? hx) h

end Tail

theorem starts_append_left {u text : Text} (hu : ∀ c ∈ u.getLast?, isWord c = false)
    (h : starts text = true) : starts (u ++ text) = true :=
  find?_isSome_append_left hu h fun _ => rfl

theorem starts_of_mem_lines {text line : Text} (hline : line ∈ lines text)
    (h : starts line = true) : starts text = true := by
  have hfeed : isWord '\n' = false := by decide
  induction text using mark_induction '\n' with
  | last items hitems =>
      by_cases hne : items = []
      · simp [hne] at hline
      · rw [lines_of_notMem hitems hne, List.mem_singleton] at hline
        rwa [← hline]
  | more items rest hitems ih =>
      rw [lines_append_lineFeed hitems, List.mem_cons] at hline
      rcases hline with hfirst | hlater
      · obtain ⟨w, hw, hitem⟩ := exists_eq_append_of_dropReturn items
        rw [← hfirst] at hitem
        have hend : endsWord (w ++ '\n' :: rest) = true := by
          cases w with
          | nil => simp [endsWord, hfeed]
          | cons c w => simp [endsWord, isWord_eq_false_of_isBlank (hw c (by simp))]
        rw [hitem, List.append_assoc]
        exact starts_append_of_endsWord hend h
      · have hfront : ∀ c ∈ (items ++ ['\n']).getLast?, isWord c = false := by
          simpa using hfeed
        have hlong := starts_append_left hfront (ih hlater)
        rwa [List.append_assoc, List.singleton_append] at hlong

end SqlBatch.Routine
