import SqlBatch.Keyword
import SqlBatch.Proofs.Text.Word
/-!
# Keywords before a wordless tail

Patterns of keywords read a text from its start.  Behind the text may stand a tail without word
characters, such as blanks and a delimiter of signs.  A pattern `Extends` over the tail if it gives
what it gives without the tail, the tail behind what is left.  A step that skips blanks or signs
need not: it may run into the tail, and then no keyword is left to be found (`Fades`).
-/

namespace SqlBatch.Keyword

open Text

def Lowercase (letters : Text) : Prop := ∀ k ∈ letters, k.isLower = true

instance (letters : Text) : Decidable (Lowercase letters) :=
  List.decidableBAll (fun k : Char => k.isLower = true) letters

private theorem toNat_of_isLower {c : Char} (h : c.isLower = true) :
    97 ≤ c.toNat ∧ c.toNat ≤ 122 := by
  have hbounds : 'a'.val ≤ c.val ∧ c.val ≤ 'z'.val := by
    simpa using (show (decide (c.val ≥ 'a'.val) && decide (c.val ≤ 'z'.val)) = true from h)
  exact hbounds

private theorem lt_of_isLower_toLower {c : Char} (h : c.toLower.isLower = true) :
    c.toNat < 0x80 := by
  by_contra hbig
  have hupper : ¬ (c.val ≥ 'A'.val ∧ c.val ≤ 'Z'.val) := by
    rintro ⟨-, hle⟩
    have hz : c.toNat ≤ 90 := hle
    omega
  have hsame : c.toLower = c := dif_neg hupper
  rw [hsame] at h
  have hle := (toNat_of_isLower h).2
  omega

theorem isWord_of_fold {c k : Char} (hk : k.isLower = true) (h : fold c = k) :
    isWord c = true := by
  unfold fold at h
  split at h
  · next hlong =>
    rw [hlong]
    decide +kernel
  · split at h
    · next hkelvin =>
      rw [hkelvin]
      decide +kernel
    · have hlower : c.toLower.isLower = true := by rw [h, hk]
      have hcodes : ∀ n < 0x80, (Char.ofNat n).toLower.isLower = true →
          isWord (Char.ofNat n) = true := by decide +kernel
      have hascii := lt_of_isLower_toLower hlower
      rw [← Char.ofNat_toNat c] at hlower ⊢
      exact hcodes c.toNat hascii hlower

/-! ## Patterns over changed texts -/

/-- Of a text changed by `act` the pattern gives what it gives of the text itself, changed by
`grow`. -/
def Respects {α : Type} (act : Text → Text) (grow : α → α) (pattern : Text → Option α) : Prop :=
  ∀ text, pattern (act text) = (pattern text).map grow

section Respects

variable {α : Type} {act : Text → Text} {grow : α → α} {step : Text → Option Text}
  {pattern : Text → Option α}

theorem Respects.bind (hs : Respects act act step) (hp : Respects act grow pattern) :
    Respects act grow fun text => (step text).bind pattern := by
  intro text
  simp only [hs text]
  cases step text with
  | none => rfl
  | some rest => exact hp rest

theorem Respects.getD (hs : Respects act act step) (hp : Respects act grow pattern) :
    Respects act grow fun text => pattern ((step text).getD text) := by
  intro text
  simp only [hs text]
  cases step text with
  | none => exact hp text
  | some rest => exact hp rest

theorem respects_dropAny? {keywords : List Text}
    (h : ∀ keyword ∈ keywords, Respects act act (drop? keyword)) :
    Respects act act (dropAny? keywords) := by
  intro text
  unfold dropAny?
  induction keywords with
  | nil => rfl
  | cons keyword keywords ih =>
      obtain ⟨hfirst, hrest⟩ := List.forall_mem_cons.1 h
      rw [List.findSome?_cons, List.findSome?_cons, hfirst text, ih hrest]
      cases drop? keyword text with
      | none => rfl
      | some after => rfl

end Respects

/-! ## Patterns over a tail -/

/-- With the tail `x` behind the text, the pattern gives what it gives without, grown by `grow`. -/
def Extends {α : Type} (grow : α → α) (x : Text) (pattern : Text → Option α) : Prop :=
  ∀ text, pattern (text ++ x) = (pattern text).map grow

/-- Wherever the step does not extend over the tail `x`, what it leaves is wordless. -/
def Fades (x : Text) (step : Text → Option Text) : Prop :=
  ∀ text, step (text ++ x) = (step text).map (· ++ x) ∨
    (∀ rest ∈ step text, Wordless rest) ∧ ∀ rest ∈ step (text ++ x), Wordless rest

def KeepsWordless (step : Text → Option Text) : Prop :=
  ∀ text, Wordless text → ∀ rest ∈ step text, Wordless rest

/-- Wherever the pattern has an answer, the text starts with one of the letters. -/
def Begins {α : Type} (letters : Text) (pattern : Text → Option α) : Prop :=
  ∀ text, (pattern text).isSome = true → ∃ c rest, text = c :: rest ∧ fold c ∈ letters

theorem Extends.fades {x : Text} {step : Text → Option Text} (h : Extends (· ++ x) x step) :
    Fades x step := fun text => .inl (h text)

theorem Begins.eq_none_of_notWord {α : Type} {letters : Text} {pattern : Text → Option α}
    (h : Begins letters pattern) (hletters : Lowercase letters) {c : Char}
    {rest : Text} (hc : isWord c = false) : pattern (c :: rest) = none := by
  rw [← Option.not_isSome_iff_eq_none]
  intro hsome
  obtain ⟨d, after, hcons, hd⟩ := h _ hsome
  obtain ⟨rfl, -⟩ : c = d ∧ rest = after := by simpa using hcons
  rw [isWord_of_fold (hletters _ hd) rfl] at hc
  contradiction

theorem Begins.eq_none_nil {α : Type} {letters : Text} {pattern : Text → Option α}
    (h : Begins letters pattern) : pattern [] = none := by
  rw [← Option.not_isSome_iff_eq_none]
  intro hsome
  obtain ⟨c, rest, hcons, -⟩ := h [] hsome
  contradiction

theorem Begins.eq_none_of_endsWord {α : Type} {letters : Text} {pattern : Text → Option α}
    (h : Begins letters pattern) (hletters : Lowercase letters) {text : Text}
    (htext : endsWord text = true) : pattern text = none := by
  cases text with
  | nil => exact h.eq_none_nil
  | cons c rest => exact h.eq_none_of_notWord hletters (by simpa [endsWord] using htext)

theorem Begins.eq_none {α : Type} {letters : Text} {pattern : Text → Option α}
    (h : Begins letters pattern) (hletters : Lowercase letters) {text : Text}
    (htext : Wordless text) : pattern text = none :=
  h.eq_none_of_endsWord hletters htext.endsWord

theorem Begins.mono {α : Type} {letters more : Text} {pattern : Text → Option α}
    (h : Begins letters pattern) (hsub : letters ⊆ more) : Begins more pattern := by
  intro text hsome
  obtain ⟨c, rest, htext, hc⟩ := h text hsome
  exact ⟨c, rest, htext, hsub hc⟩

theorem Begins.bind {α : Type} {letters : Text} {step : Text → Option Text}
    (h : Begins letters step) (pattern : Text → Option α) :
    Begins letters fun text => (step text).bind pattern := by
  intro text hsome
  refine h text ?_
  cases hstep : step text with
  | none => simp [hstep] at hsome
  | some rest => rfl

theorem keepsWordless_of_isSuffix {step : Text → Option Text}
    (h : ∀ text, ∀ rest ∈ step text, rest <:+ text) : KeepsWordless step :=
  fun text htext rest hrest => htext.of_suffix (h text rest hrest)

theorem KeepsWordless.bind {first second : Text → Option Text} (hf : KeepsWordless first)
    (hs : KeepsWordless second) : KeepsWordless fun text => (first text).bind second := by
  intro text htext rest hrest
  obtain ⟨between, hbetween, hsecond⟩ := Option.bind_eq_some_iff.1 hrest
  exact hs between (hf text htext between hbetween) rest hsecond

theorem Fades.bind {x : Text} {first second : Text → Option Text} (hf : Fades x first)
    (hs : Fades x second) (hk : KeepsWordless second) :
    Fades x fun text => (first text).bind second := by
  intro text
  rcases hf text with htext | ⟨hleft, hright⟩
  · simp only [htext]
    cases first text with
    | none => exact .inl rfl
    | some rest => exact hs rest
  · have hdead : ∀ o : Option Text, (∀ rest ∈ o, Wordless rest) →
        ∀ rest ∈ o.bind second, Wordless rest := by
      intro o ho rest hrest
      obtain ⟨between, hbetween, hsecond⟩ := Option.bind_eq_some_iff.1 hrest
      exact hk between (ho between hbetween) rest hsecond
    exact .inr ⟨hdead _ hleft, hdead _ hright⟩

/-- Once a pattern that needs a keyword stands behind a step that fades, the whole extends. -/
theorem Fades.extends_bind {α : Type} {x letters : Text} {grow : α → α}
    {step : Text → Option Text} {pattern : Text → Option α} (hf : Fades x step)
    (hp : Extends grow x pattern) (hb : Begins letters pattern)
    (hletters : Lowercase letters) :
    Extends grow x fun text => (step text).bind pattern := by
  have hdead : ∀ o : Option Text, (∀ rest ∈ o, Wordless rest) → o.bind pattern = none := by
    intro o ho
    cases o with
    | none => rfl
    | some rest => exact hb.eq_none hletters (ho rest rfl)
  intro text
  rcases hf text with htext | ⟨hleft, hright⟩
  · simp only [htext]
    cases step text with
    | none => rfl
    | some rest => exact hp rest
  · simp only [hdead _ hleft, hdead _ hright, Option.map_none]

/-- Where a clause is found, nothing is that starts with other letters. -/
theorem Begins.eq_none_of_other {α : Type} {letters : Text} {k : Char}
    {clause : Text → Option Text} {pattern : Text → Option α} (hc : Begins [k] clause)
    (hp : Begins letters pattern) (hother : k ∉ letters) {text x : Text}
    (h : (clause (text ++ x)).isSome = true) : pattern text = none := by
  rw [← Option.not_isSome_iff_eq_none]
  intro hpattern
  obtain ⟨c, rest, rfl, hletter⟩ := hp text hpattern
  obtain ⟨d, after, hcons, hd⟩ := hc _ h
  obtain ⟨rfl, -⟩ : c = d ∧ rest ++ x = after := by simpa using hcons
  exact hother (List.mem_singleton.1 hd ▸ hletter)

/-- A clause that may be left out: behind the tail it is found or not as before, because what
follows the clause starts with other letters than the clause. -/
theorem Fades.extends_getD {α : Type} {x letters : Text} {k : Char} {grow : α → α}
    {clause : Text → Option Text} {pattern : Text → Option α} (hf : Fades x clause)
    (hc : Begins [k] clause) (hp : Extends grow x pattern) (hb : Begins letters pattern)
    (hletters : Lowercase letters) (hother : k ∉ letters) :
    Extends grow x fun text => pattern ((clause text).getD text) := by
  intro text
  show pattern ((clause (text ++ x)).getD (text ++ x)) =
    (pattern ((clause text).getD text)).map grow
  rcases hf text with htext | ⟨hleft, hright⟩
  · rw [htext]
    cases clause text with
    | none => exact hp text
    | some rest => exact hp rest
  · cases hwithout : clause text with
    | none =>
        cases hwith : clause (text ++ x) with
        | none => exact hp text
        | some after =>
            have hpattern := hc.eq_none_of_other hb hother (Option.isSome_of_eq_some hwith)
            have hafter := hb.eq_none hletters (hright after hwith)
            simp [hafter, hpattern]
    | some rest =>
        have hrest := hb.eq_none hletters (hleft rest hwithout)
        have hpattern : pattern text = none :=
          hc.eq_none_of_other (x := []) hb hother (by simp [hwithout])
        have htail : pattern (text ++ x) = none := by rw [hp text, hpattern, Option.map_none]
        cases hwith : clause (text ++ x) with
        | none => simp [hrest, htail]
        | some after =>
            have hafter := hb.eq_none hletters (hright after hwith)
            simp [hrest, hafter]

theorem Begins.getD {α : Type} {letters : Text} {k : Char} {clause : Text → Option Text}
    {pattern : Text → Option α} (hc : Begins [k] clause) (hp : Begins letters pattern) :
    Begins (k :: letters) fun text => pattern ((clause text).getD text) := by
  intro text hsome
  cases hclause : clause text with
  | none =>
      simp only [hclause, Option.getD_none] at hsome
      exact hp.mono (List.subset_cons_self k letters) text hsome
  | some rest =>
      have hone : [k] ⊆ k :: letters := by simp
      exact hc.mono hone text (Option.isSome_of_eq_some hclause)

/-! ## What a step leaves -/

theorem isSuffix_of_drop? {keyword text after : Text} (h : drop? keyword text = some after) :
    after <:+ text := by
  induction keyword generalizing text with
  | nil =>
      obtain rfl : text = after := by simpa [drop?] using h
      exact List.suffix_refl text
  | cons k keyword ih =>
      cases text with
      | nil => simp [drop?] at h
      | cons c text =>
          rw [drop?] at h
          split at h
          · exact (ih h).trans (List.suffix_cons c text)
          · contradiction

theorem isSuffix_of_dropAny? {keywords : List Text} {text after : Text}
    (h : dropAny? keywords text = some after) : after <:+ text := by
  obtain ⟨keyword, -, hdrop⟩ := List.exists_of_findSome?_eq_some h
  exact isSuffix_of_drop? hdrop

theorem isSuffix_of_dropBlanks? {text after : Text} (h : dropBlanks? text = some after) :
    after <:+ text := by
  cases text with
  | nil => contradiction
  | cons c text =>
      rw [dropBlanks?] at h
      split at h
      · obtain rfl : trimStart text = after := by simpa using h
        exact (List.dropWhile_suffix _).trans (List.suffix_cons c text)
      · contradiction

theorem keepsWordless_drop? {keyword : Text} : KeepsWordless (drop? keyword) :=
  keepsWordless_of_isSuffix fun _ _ => isSuffix_of_drop?

theorem keepsWordless_dropBlanks? : KeepsWordless dropBlanks? :=
  keepsWordless_of_isSuffix fun _ _ => isSuffix_of_dropBlanks?

theorem keepsWordless_dropSpaced? {keyword : Text} : KeepsWordless (dropSpaced? keyword) :=
  keepsWordless_drop?.bind keepsWordless_dropBlanks?

/-! ## Steps of patterns -/

section Steps

variable {x : Text}

theorem begins_drop? {k : Char} {keyword : Text} : Begins [k] (drop? (k :: keyword)) := by
  intro text hsome
  cases text with
  | nil => simp [drop?] at hsome
  | cons c rest =>
      refine ⟨c, rest, rfl, ?_⟩
      by_contra hne
      rw [drop?, if_neg (by simpa using hne)] at hsome
      simp at hsome

theorem drop?_append {keyword : Text} (hkeyword : Lowercase keyword)
    (hx : endsWord x = true) : Extends (· ++ x) x (drop? keyword) := by
  induction keyword with
  | nil => exact fun text => rfl
  | cons k keyword ih =>
      intro text
      cases text with
      | nil =>
          have hk : Lowercase [k] := by
            intro c hc
            rw [List.mem_singleton] at hc
            rw [hc]
            exact hkeyword k (by simp)
          rw [List.nil_append, begins_drop?.eq_none_of_endsWord hk hx]
          rfl
      | cons c text =>
          rw [List.cons_append, drop?, drop?]
          split
          · exact ih (fun k hk => hkeyword k (by simp [hk])) text
          · rfl

/-- A keyword that stands at the start of a text does so whatever follows. -/
theorem drop?_append_of_some {keyword text after : Text} (h : drop? keyword text = some after)
    (x : Text) : drop? keyword (text ++ x) = some (after ++ x) := by
  induction keyword generalizing text with
  | nil => exact congrArg (some <| · ++ x) (Option.some.inj h)
  | cons k keyword ih =>
      cases text with
      | nil => contradiction
      | cons c text =>
          rw [drop?, Option.ite_none_right_eq_some] at h
          rw [List.cons_append, drop?, if_pos h.1, ih h.2]

theorem begins_dropAny? {keywords : List Text} {letters : Text}
    (h : ∀ keyword ∈ keywords, keyword.head? ∈ letters.map some) :
    Begins letters (dropAny? keywords) := by
  intro text hsome
  obtain ⟨after, hafter⟩ := Option.isSome_iff_exists.1 hsome
  obtain ⟨keyword, hmem, hdrop⟩ := List.exists_of_findSome?_eq_some hafter
  obtain ⟨k, hk, hhead⟩ := List.mem_map.1 (h keyword hmem)
  obtain ⟨rest, rfl⟩ := List.head?_eq_some_iff.1 hhead.symm
  have hone : [k] ⊆ letters := by simpa using hk
  exact begins_drop?.mono hone text (Option.isSome_of_eq_some hdrop)

theorem dropAny?_append {keywords : List Text}
    (hkeywords : ∀ keyword ∈ keywords, Lowercase keyword) (hx : endsWord x = true) :
    Extends (· ++ x) x (dropAny? keywords) :=
  respects_dropAny? fun keyword hmem => drop?_append (hkeywords keyword hmem) hx

theorem fades_trimStart (hx : Wordless x) : Fades x fun text => some (trimStart text) := by
  intro text
  by_cases hblank : AllBlank text
  · refine .inr ⟨?_, ?_⟩
    · rintro _ ⟨rfl⟩
      rw [trimStart_eq_nil.2 hblank]
      exact wordless_nil
    · rintro _ ⟨rfl⟩
      rw [trimStart_blank_append hblank]
      exact hx.trimStart
  · exact .inl (congrArg some (trimStart_append hblank x))

theorem fades_dropBlanks? (hx : Wordless x) : Fades x dropBlanks? := by
  intro text
  cases text with
  | nil => exact .inr ⟨by simp [dropBlanks?], keepsWordless_dropBlanks? x hx⟩
  | cons c text =>
      rw [List.cons_append, dropBlanks?, dropBlanks?]
      split
      · exact fades_trimStart hx text
      · exact .inl rfl

theorem fades_dropSpaced? {keyword : Text} (hkeyword : Lowercase keyword)
    (hx : Wordless x) : Fades x (dropSpaced? keyword) :=
  (drop?_append hkeyword hx.endsWord).fades.bind (fades_dropBlanks? hx) keepsWordless_dropBlanks?

theorem begins_dropSpaced? {k : Char} {keyword : Text} :
    Begins [k] (dropSpaced? (k :: keyword)) := begins_drop?.bind dropBlanks?

/-! ## Places of patterns -/

theorem find?_wordless {α : Type} {letters : Text} {pattern : Text → Option α}
    (hb : Begins letters pattern) (hletters : Lowercase letters) {w : Text}
    (hw : Wordless w) (inWord : Bool) : find? pattern inWord w = none := by
  induction w generalizing inWord with
  | nil => rfl
  | cons c w ih =>
      have htail := ih (wordless_cons.1 hw).2
      rw [find?, hb.eq_none hletters hw, htail, ite_self]

theorem find?_wordless_append {α : Type} {letters : Text} {pattern : Text → Option α}
    (hb : Begins letters pattern) (hletters : Lowercase letters) {w : Text}
    (hw : Wordless w) (text : Text) :
    find? pattern false (w ++ text) = find? pattern false text := by
  induction w with
  | nil => rfl
  | cons c w ih =>
      obtain ⟨hc, hrest⟩ := wordless_cons.1 hw
      have hnone : pattern (c :: (w ++ text)) = none := hb.eq_none_of_notWord hletters hc
      rw [List.cons_append, find?, hnone, hc, if_neg Bool.false_ne_true]
      exact ih hrest

/-- A tail in which a pattern that extends over it has no place adds none. -/
theorem find?_append_of_none {α : Type} {grow : α → α} {pattern : Text → Option α}
    (hx : ∀ inWord, find? pattern inWord x = none) (hp : Extends grow x pattern) (inWord : Bool)
    (text : Text) : find? pattern inWord (text ++ x) = (find? pattern inWord text).map grow := by
  induction text generalizing inWord with
  | nil => simp [hx, find?]
  | cons c text ih =>
      have hhere := hp (c :: text)
      rw [List.cons_append] at hhere
      rw [List.cons_append, find?, find?, hhere, ih]
      cases pattern (c :: text) with
      | none => simp only [Option.map_none]; split <;> rfl
      | some answer => simp only [Option.map_some]; split <;> rfl

theorem find?_append {α : Type} {letters : Text} {grow : α → α} {pattern : Text → Option α}
    (hx : Wordless x) (hp : Extends grow x pattern) (hb : Begins letters pattern)
    (hletters : Lowercase letters) (inWord : Bool) (text : Text) :
    find? pattern inWord (text ++ x) = (find? pattern inWord text).map grow :=
  find?_append_of_none (find?_wordless hb hletters hx) hp inWord text

end Steps

/-! ## Where an answer comes from -/

theorem exists_isSuffix_of_find? {α : Type} {pattern : Text → Option α} {inWord : Bool}
    {text : Text} (h : (find? pattern inWord text).isSome = true) :
    ∃ place, place <:+ text ∧ (pattern place).isSome = true := by
  induction text generalizing inWord with
  | nil => contradiction
  | cons c text ih =>
      have hlater : (find? pattern (isWord c) text).isSome = true →
          ∃ place, place <:+ c :: text ∧ (pattern place).isSome = true := by
        intro hfound
        obtain ⟨place, hplace, hanswer⟩ := ih hfound
        exact ⟨place, hplace.trans (List.suffix_cons c text), hanswer⟩
      rw [find?] at h
      split at h
      · exact hlater h
      · split at h
        · next answer hanswer => exact ⟨c :: text, List.suffix_refl _, by rw [hanswer]; rfl⟩
        · exact hlater h

end SqlBatch.Keyword
