import SqlBatch.Diagnostic.Location
import SqlBatch.Proofs.Text.Word
import Mathlib.Data.List.Basic
/-!
# The location behind a message

`ofParserMessage` undoes what a parser puts behind its messages, whatever the message itself ends
in.  A location holds a single capital `L`, so of all the ends of a text at most one is a location,
and the cut before it is the only one.

- `cutLocation?_eq_some_iff`: the cut stands before the location, and is made if there is one;
- `ofParserMessage_undoes_location`: numbers up to sixty-four bits come back with the message.
-/

namespace SqlBatch.Text

/-! ## Numerals -/

private theorem isDecimal_eq_false_of_isBlank {c : Char} (h : isBlank c = true) :
    isDecimal c = false := by
  have hcodes : ∀ n ∈ blankCodes, isDecimal (Char.ofNat n) = false := by decide +kernel
  rw [← Char.ofNat_toNat c]
  exact hcodes c.toNat (isBlank_iff_mem_blankCodes.1 h)

private theorem isDecimal_of_isDigit {c : Char} (h : c.isDigit = true) : isDecimal c = true := by
  have hcode : c.toNat ≤ 57 := (Char.isDigit_iff_toNat.1 h).2
  rw [isDecimal, if_pos (by omega), h]

/-- At least one decimal digit, of whatever script, and nothing else. -/
structure Digits (digits : Text) : Prop where
  ne_nil : digits ≠ []
  isDecimal : ∀ c ∈ digits, isDecimal c = true

/-- At least one ASCII digit and nothing else, with the value `n`; leading zeros are allowed. -/
structure Writes (digits : Text) (n : Nat) : Prop where
  ne_nil : digits ≠ []
  isDigit : ∀ c ∈ digits, c.isDigit = true
  value : numeralValue digits = n

theorem Writes.digits {digits : Text} {n : Nat} (h : Writes digits n) : Digits digits :=
  ⟨h.ne_nil, fun c hc => isDecimal_of_isDigit (h.isDigit c hc)⟩

theorem writes_decimal (n : Nat) : Writes (decimal n) n where
  ne_nil := Nat.toDigits_ne_nil
  isDigit := fun _ hc => Nat.isDigit_of_mem_toDigits (by omega) (by omega) hc
  value := by
    calc numeralValue (decimal n) = Nat.ofDigitChars 10 (Nat.toDigits 10 n) 0 :=
          Nat.ofDigitChars_eq_foldl.symm
      _ = n := Nat.ofDigitChars_ten_toDigits

theorem Writes.readWord? {digits : Text} {n : Nat} (h : Writes digits n) (hn : n ≤ maxWord) :
    readWord? digits = some n := by
  have hall : digits.all Char.isDigit = true := List.all_eq_true.2 h.isDigit
  simp [Text.readWord?, h.ne_nil, hall, h.value, hn]

end SqlBatch.Text

namespace SqlBatch.Diagnostic

open Text

variable {text line column : Text}

/-! ## One location -/

theorem leadingDigits?_eq_some_iff {digits rest : Text} :
    leadingDigits? text = some (digits, rest) ↔
      Digits digits ∧ (∀ c ∈ rest.head?, isDecimal c = false) ∧ text = digits ++ rest := by
  constructor
  · intro h
    unfold leadingDigits? at h
    split at h
    next => contradiction
    next hne =>
      obtain ⟨rfl, rfl⟩ : text.takeWhile isDecimal = digits ∧ text.dropWhile isDecimal = rest := by
        simpa using h
      refine ⟨⟨hne, fun c hc => List.mem_takeWhile_imp hc⟩, fun c hc => ?_,
        List.takeWhile_append_dropWhile.symm⟩
      have hhead := List.head?_dropWhile_not isDecimal text
      rw [Option.mem_def.1 hc] at hhead
      simpa using hhead
  · rintro ⟨hdigits, hrest, rfl⟩
    have hstop : rest.takeWhile isDecimal = [] ∧ rest.dropWhile isDecimal = rest := by
      cases rest with
      | nil => simp
      | cons c rest => simp [hrest c rfl]
    have htake : (digits ++ rest).takeWhile isDecimal = digits := by
      rw [List.takeWhile_append_of_pos hdigits.isDecimal, hstop.1, List.append_nil]
    have hdrop : (digits ++ rest).dropWhile isDecimal = rest := by
      rw [List.dropWhile_append_of_pos hdigits.isDecimal, hstop.2]
    unfold leadingDigits?
    rw [htake, hdrop]
    cases digits with
    | nil => exact absurd rfl hdigits.ne_nil
    | cons c digits => rfl

/-- A location in these digits, with nothing but blanks behind it. -/
def Locates (text line column : Text) : Prop :=
  Digits line ∧ Digits column ∧ ∃ w, AllBlank w ∧
    text = "at Line: ".toList ++ line ++ ", Column: ".toList ++ column ++ w

theorem location?_eq_some_iff :
    location? text = some (line, column) ↔ Locates text line column := by
  constructor
  · intro h
    simp only [location?, Option.bind_eq_bind, Option.bind_eq_some_iff,
      List.isPrefixOf?_eq_some_iff_append_eq, Prod.exists, leadingDigits?_eq_some_iff,
      Option.ite_none_right_eq_some, Option.some.injEq, Prod.mk.injEq, List.all_eq_true] at h
    obtain ⟨_, rfl, _, _, ⟨hline, -, rfl⟩, _, rfl, _, w, ⟨hcolumn, -, rfl⟩, hw, rfl, rfl⟩ := h
    exact ⟨hline, hcolumn, w, hw, by simp only [List.append_assoc]⟩
  · rintro ⟨hline, hcolumn, w, hw, rfl⟩
    have hblank : ∀ c ∈ w.head?, isDecimal c = false := fun c hc =>
      isDecimal_eq_false_of_isBlank (hw c (List.mem_of_mem_head? hc))
    have hfirst : leadingDigits? (line ++ (", Column: ".toList ++ (column ++ w))) =
        some (line, ", Column: ".toList ++ (column ++ w)) :=
      leadingDigits?_eq_some_iff.2 ⟨hline, fun c hc => by cases hc; decide, rfl⟩
    have hsecond : leadingDigits? (column ++ w) = some (column, w) :=
      leadingDigits?_eq_some_iff.2 ⟨hcolumn, hblank, rfl⟩
    have hstep (mark rest : Text) : mark.isPrefixOf? (mark ++ rest) = some rest :=
      List.isPrefixOf?_eq_some_iff_append_eq.2 rfl
    have hall : w.all isBlank = true := List.all_eq_true.2 hw
    simp only [location?, List.append_assoc, hstep, hfirst, hsecond, hall, Option.bind_eq_bind,
      Option.bind_some, if_true]

/-! ## The end of a text that is a location -/

theorem Locates.exists_eq_cons (h : Locates text line column) :
    ∃ rest, text = "at ".toList ++ 'L' :: rest ∧ 'L' ∉ rest := by
  obtain ⟨hline, hcolumn, w, hw, rfl⟩ := h
  have hL {digits : Text} (hdigits : Digits digits) : 'L' ∉ digits := fun hmem =>
    absurd (hdigits.isDecimal 'L' hmem) (by decide)
  refine ⟨"ine: ".toList ++ line ++ ", Column: ".toList ++ column ++ w, rfl, ?_⟩
  simp only [List.mem_append, not_or]
  exact ⟨⟨⟨⟨by decide, hL hline⟩, by decide⟩, hL hcolumn⟩, hw.notMem (by decide)⟩

/-- Of a text's ends at most one is a location: they share the only capital `L`. -/
theorem Locates.eq_nil_of_append {front line' column' : Text}
    (hwhole : Locates (front ++ text) line column) (hend : Locates text line' column') :
    front = [] := by
  obtain ⟨rest, hwhole, hrest⟩ := hwhole.exists_eq_cons
  obtain ⟨rest', rfl, -⟩ := hend.exists_eq_cons
  rw [← List.append_assoc] at hwhole
  have hat : "at ".toList = front ++ "at ".toList :=
    ((List.append_cons_inj_of_notMem (by decide) hrest).1 hwhole.symm).1
  exact List.append_left_eq_self.1 hat.symm

/-- The cut stands before the location, and there is no cut without one. -/
theorem cutLocation?_eq_some_iff {front : Text} :
    cutLocation? text = some (front, line, column) ↔
      ∃ rest, text = front ++ rest ∧ Locates rest line column := by
  induction text generalizing front with
  | nil =>
    constructor
    · intro h
      simp [cutLocation?] at h
    · rintro ⟨rest, heq, hrest⟩
      obtain ⟨_, rfl, -⟩ := hrest.exists_eq_cons
      simp at heq
  | cons c text ih =>
    constructor
    · intro h
      rw [cutLocation?] at h
      split at h
      next found hfound =>
        obtain ⟨rfl, rfl⟩ : [] = front ∧ found = (line, column) := by simpa using h
        exact ⟨c :: text, rfl, location?_eq_some_iff.1 hfound⟩
      next =>
        obtain ⟨⟨front', found⟩, hcut, heq⟩ := Option.map_eq_some_iff.1 h
        obtain ⟨rfl, rfl⟩ : c :: front' = front ∧ found = (line, column) := by simpa using heq
        obtain ⟨rest, rfl, hrest⟩ := ih.1 hcut
        exact ⟨rest, rfl, hrest⟩
    · rintro ⟨rest, heq, hrest⟩
      rw [cutLocation?]
      cases front with
      | nil =>
        obtain rfl : c :: text = rest := heq
        rw [location?_eq_some_iff.2 hrest]
      | cons a front =>
        obtain ⟨rfl, rfl⟩ : c = a ∧ text = front ++ rest := by simpa using heq
        -- The whole text is no location, for then two of its ends would be one.
        have hnone : location? (c :: (front ++ rest)) = none := by
          rw [Option.eq_none_iff_forall_not_mem]
          intro found hfound
          have hwhole : Locates ((c :: front) ++ rest) found.1 found.2 :=
            location?_eq_some_iff.1 hfound
          exact absurd (hwhole.eq_nil_of_append hrest) (List.cons_ne_nil c front)
        rw [hnone, ih.2 ⟨rest, rfl, hrest⟩]
        rfl

/-! ## Messages -/

/-- Any location at the end is cut off.  Its digits count if they are ASCII and their value fits in
sixty-four bits. -/
private theorem ofParserMessage_append (h : Locates text line column) (front : Text) :
    ofParserMessage (front ++ text) =
      ⟨locationNumber line, locationNumber column - 1, trim front⟩ := by
  rw [ofParserMessage, cutLocation?_eq_some_iff.2 ⟨text, rfl, h⟩]

private theorem ofParserMessage_of_not_locates {message : Text}
    (h : ∀ front rest line column, message = front ++ rest → ¬ Locates rest line column) :
    ofParserMessage message = ⟨1, 0, trim message⟩ := by
  have hnone : cutLocation? message = none := by
    rw [Option.eq_none_iff_forall_not_mem]
    rintro ⟨front, line, column⟩ hcut
    obtain ⟨rest, heq, hrest⟩ := cutLocation?_eq_some_iff.1 hcut
    exact h front rest line column heq hrest
  rw [ofParserMessage, hnone]

/-- A location behind a message comes back as numbers, the column counted from zero, with the
message trimmed; a message that ends in no location is about the start of the statement. -/
theorem ofParserMessage_undoes_location :
    (∀ (message line column w : Text) (l c : Nat), Writes line l → Writes column c →
      l ≤ maxWord → c ≤ maxWord → AllBlank w →
      ofParserMessage
          (message ++ " at Line: ".toList ++ line ++ ", Column: ".toList ++ column ++ w) =
        ⟨l, c - 1, trim message⟩) ∧
    ∀ message : Text,
      (∀ front line column w, Digits line → Digits column → AllBlank w →
        message ≠ front ++ "at Line: ".toList ++ line ++ ", Column: ".toList ++ column ++ w) →
      ofParserMessage message = ⟨1, 0, trim message⟩ := by
  constructor
  · intro message line column w l c hline hcolumn hl hc hw
    have hlocates : Locates
        ("at Line: ".toList ++ line ++ ", Column: ".toList ++ column ++ w) line column :=
      ⟨hline.digits, hcolumn.digits, w, hw, rfl⟩
    have hspace : trim (message ++ [' ']) = trim message :=
      trim_append_blank (by decide) message
    calc
      _ = ofParserMessage ((message ++ [' ']) ++
          ("at Line: ".toList ++ line ++ ", Column: ".toList ++ column ++ w)) := by
        congr 1
        simp only [List.append_assoc]
        rfl
      _ = ⟨l, c - 1, trim message⟩ := by
        rw [ofParserMessage_append hlocates, locationNumber, locationNumber,
          hline.readWord? hl, hcolumn.readWord? hc, hspace]
        rfl
  · intro message hnone
    apply ofParserMessage_of_not_locates
    rintro front rest line column rfl ⟨hline, hcolumn, w, hw, rfl⟩
    exact hnone front line column w hline hcolumn hw (by simp only [List.append_assoc])

/-- A message that itself ends in a location, with the largest line, a column of zero and blanks
behind; and a message without a capital `L`. -/
theorem ofParserMessage_undoes_location_imitated :
    ofParserMessage ("Expected: ) at Line: 1, Column: 2\n".toList ++ " at Line: ".toList ++
        decimal maxWord ++ ", Column: ".toList ++ decimal 0 ++ "\n ".toList) =
      ⟨maxWord, 0, "Expected: ) at Line: 1, Column: 2".toList⟩ ∧
    ofParserMessage " unexpected end, Column: 3 ".toList =
      ⟨1, 0, "unexpected end, Column: 3".toList⟩ := by
  constructor
  · exact ofParserMessage_undoes_location.1 _ _ _ _ maxWord 0 (writes_decimal _) (writes_decimal _)
      (by decide) (by decide) (by decide)
  · apply ofParserMessage_undoes_location.2
    intro front line column w _ _ _ heq
    have hmem : 'L' ∈ " unexpected end, Column: 3 ".toList := by
      rw [heq]
      simp
    exact absurd hmem (by decide)

end SqlBatch.Diagnostic
