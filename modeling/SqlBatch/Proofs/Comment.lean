import SqlBatch.Comment
import SqlBatch.Proofs.Text.Trim
/-!
# Comment marks

Where the marks of comments stand in a text, and what a tail without such marks changes: a comment
neither starts nor ends in the tail or across its seam.
-/

namespace SqlBatch.Text

/-! ## Occurrences -/

theorem includes_iff_isInfix {part text : Text} : includes part text = true ↔ part <:+: text := by
  induction text with
  | nil => simp [includes]
  | cons c text ih => simp [includes, ih, List.infix_cons_iff]

theorem exists_eq_append_of_afterLast? {mark text after : Text}
    (h : afterLast? mark text = some after) : ∃ before, text = before ++ mark ++ after := by
  induction text with
  | nil =>
      refine ⟨[], ?_⟩
      rw [afterLast?, List.isPrefixOf?_eq_some_iff_append_eq] at h
      simp [h]
  | cons c text ih =>
      rw [afterLast?] at h
      split at h
      · next later hlater =>
        obtain rfl : later = after := by simpa using h
        obtain ⟨before, hbefore⟩ := ih hlater
        exact ⟨c :: before, by simp [hbefore]⟩
      · rw [List.isPrefixOf?_eq_some_iff_append_eq] at h
        exact ⟨[], by simp [h]⟩

theorem afterLast?_eq_none {mark text : Text} (h : ¬ mark <:+: text) :
    afterLast? mark text = none := by
  rw [Option.eq_none_iff_forall_ne_some]
  intro after hafter
  obtain ⟨before, rfl⟩ := exists_eq_append_of_afterLast? hafter
  exact h ⟨before, after, rfl⟩

/-- Behind a seam without a mark across it, a mark of two characters is found where it was. -/
theorem afterLast?_append {a b : Char} {text x : Text} (hx : includes [a, b] x = false)
    (hseam : text.getLast? = some a → x.head? ≠ some b) :
    afterLast? [a, b] (text ++ x) = (afterLast? [a, b] text).map (· ++ x) := by
  induction text with
  | nil =>
      have hnone : ¬ [a, b] <:+: x := by
        rw [← includes_iff_isInfix, hx]
        exact Bool.false_ne_true
      simp [afterLast?_eq_none hnone, afterLast?, List.isPrefixOf?]
  | cons c text ih =>
      -- the mark may only straddle the seam when the text is down to one character
      cases text with
      | nil =>
          have hrest := ih (by simp)
          rw [List.nil_append] at hrest
          rw [List.cons_append, List.nil_append, afterLast?, afterLast?, hrest]
          cases x with
          | nil => simp [afterLast?, List.isPrefixOf?]
          | cons d x =>
              by_cases hc : a = c
              · have hd : ¬ b = d := fun h => hseam (by simp [hc]) (by simp [h])
                simp [afterLast?, List.isPrefixOf?, hd]
              · simp [afterLast?, List.isPrefixOf?, hc]
      | cons d text =>
          rw [List.getLast?_cons_cons] at hseam
          rw [List.cons_append, afterLast?, afterLast?, ih hseam]
          cases afterLast? [a, b] (d :: text) with
          | some later => rfl
          | none =>
              by_cases hc : a = c <;> by_cases hd : b = d <;> simp [List.isPrefixOf?, hc, hd]

/-- A mark of two characters is in one of two parts, or across their seam. -/
theorem includes_append_iff {a b : Char} {u v : Text} :
    includes [a, b] (u ++ v) = true ↔
      includes [a, b] u = true ∨ includes [a, b] v = true ∨
        u.getLast? = some a ∧ v.head? = some b := by
  induction u with
  | nil => simp [includes]
  | cons c u ih =>
      rw [List.cons_append, includes, includes, Bool.or_eq_true, Bool.or_eq_true, ih]
      cases u with
      | cons d u =>
          rw [List.getLast?_cons_cons]
          simp [List.isPrefixOf, or_assoc]
      | nil =>
          cases v with
          | nil => simp [includes, List.isPrefixOf]
          | cons d v =>
              simp only [includes, List.isPrefixOf, List.nil_append, List.getLast?_singleton,
                List.head?_cons, Option.some.injEq, @eq_comm _ c, @eq_comm _ d]
              by_cases hc : a = c <;> by_cases hd : b = d <;> simp [hc, hd]

theorem includes_append {a b : Char} {text x : Text} (hx : includes [a, b] x = false)
    (hseam : text.getLast? = some a → x.head? ≠ some b) :
    includes [a, b] (text ++ x) = includes [a, b] text := by
  rw [Bool.eq_iff_iff, includes_append_iff, hx]
  refine or_iff_left ?_
  rintro (hnone | ⟨hlast, hhead⟩)
  · contradiction
  · exact hseam hlast hhead

theorem includes_of_allBlank {a b : Char} (ha : isBlank a = false) {w : Text} (hw : AllBlank w) :
    includes [a, b] w = false := by
  rw [Bool.eq_false_iff, ne_eq, includes_iff_isInfix]
  exact fun h => hw.notMem ha (h.subset (by simp))

section Blank

variable {a b : Char} (ha : isBlank a = false) {w : Text} (hw : AllBlank w)

include ha hw

theorem includes_blank_append (text : Text) :
    includes [a, b] (w ++ text) = includes [a, b] text := by
  rw [Bool.eq_iff_iff, includes_append_iff, includes_of_allBlank ha hw]
  have hlast : w.getLast? ≠ some a := fun h => hw.notMem ha (List.mem_of_getLast? h)
  simp [hlast]

theorem includes_append_blank (hb : isBlank b = false) (text : Text) :
    includes [a, b] (text ++ w) = includes [a, b] text :=
  includes_append (includes_of_allBlank ha hw)
    fun _ h => hw.notMem hb (List.mem_of_mem_head? h)

end Blank

end SqlBatch.Text

namespace SqlBatch.Comment

open Text

/-! ## Lines without comment marks -/

theorem leavesBlockOpen_eq_false {line : Text} (h : includes blockOpen line = false) :
    leavesBlockOpen line = false := by
  have hnone : ¬ blockOpen <:+: line := by
    rw [← includes_iff_isInfix, h]
    exact Bool.false_ne_true
  rw [leavesBlockOpen, afterLast?_eq_none hnone]

theorem includes_blockOpen_of_isInfix {part text : Text} (hpart : part <:+: text)
    (h : includes blockOpen text = false) : includes blockOpen part = false := by
  rw [Bool.eq_false_iff] at h ⊢
  intro hopen
  exact h (includes_iff_isInfix.2 ((includes_iff_isInfix.1 hopen).trans hpart))

@[simp] theorem includes_blockOpen_trim (text : Text) :
    includes blockOpen (trim text) = includes blockOpen text := by
  obtain ⟨v, w, hv, hw, htext⟩ := exists_eq_append_trim_append text
  conv_rhs => rw [htext, blockOpen, includes_append_blank (by decide) hw (by decide),
    includes_blank_append (by decide) hv]
  rfl

theorem stripFrom_false_of_notMem {text : Text} (h : '/' ∉ text) :
    stripFrom false text = text := by
  induction text with
  | nil => rfl
  | cons c text ih =>
      obtain ⟨hc, htext⟩ : '/' ≠ c ∧ '/' ∉ text := by simpa using h
      rw [stripFrom, ih htext]
      rintro rest rfl -
      exact hc rfl

theorem stripFrom_true_of_unmarked {text : Text} (h : includes blockClose text = false) :
    stripFrom true text = [] := by
  induction text with
  | nil => rfl
  | cons c text ih =>
      simp only [includes, Bool.or_eq_false_iff] at h
      have htail := ih h.2
      rw [stripFrom, htail]
      rintro rest rfl rfl
      simp [blockClose, List.isPrefixOf] at h

theorem stripBlocks_eq_self {line : Text} (h : includes blockOpen line = false) :
    stripBlocks line = line := by
  unfold stripBlocks
  induction line with
  | nil => rfl
  | cons c line ih =>
      simp only [includes, Bool.or_eq_false_iff] at h
      have htail := ih h.2
      rw [stripFrom, htail]
      rintro rest rfl rfl
      simp [blockOpen, List.isPrefixOf] at h

/-! ## Line comments -/

/-- Blanks at the end of a text hide no solid start of it. -/
theorem isPrefix_trimEnd {p : Text} (hp : Solid p) (text : Text) :
    p <+: trimEnd text ↔ p <+: text := by
  obtain ⟨w, hw, htext⟩ := exists_eq_trimEnd_append text
  have hend : trimEnd text <+: text := ⟨w, htext.symm⟩
  constructor
  · intro h
    exact h.trans hend
  · intro h
    rcases Nat.le_total p.length (trimEnd text).length with hle | hle
    · exact List.prefix_of_prefix_length_le h hend hle
    · obtain ⟨v, hv⟩ := List.prefix_of_prefix_length_le hend h hle
      have hvw : v <+: w := by
        rw [← List.prefix_append_right_inj (trimEnd text), hv, ← htext]
        exact h
      have hnil : v = [] := by
        by_contra hne
        obtain ⟨c, hc⟩ := List.exists_mem_of_ne_nil v hne
        have hsolid : isBlank c = false := hp.2 c (by simp [← hv, hc])
        simp [hw c (hvw.subset hc)] at hsolid
      rw [hnil, List.append_nil] at hv
      exact ⟨[], by rw [List.append_nil, hv]⟩

@[simp] theorem isLineComment_trim (line : Text) :
    isLineComment (trim line) = isLineComment line := by
  have hdash : Solid ['-', '-'] := by decide
  have hhash : Solid ['#'] := by decide
  rw [isLineComment, isLineComment, trimStart_trim, Bool.eq_iff_iff]
  simp only [Bool.or_eq_true, List.isPrefixOf_iff_prefix, trim, isPrefix_trimEnd hdash,
    isPrefix_trimEnd hhash]

theorem not_allBlank_of_isLineComment {line : Text} (h : isLineComment line = true) :
    ¬ AllBlank line := by
  intro hblank
  rw [← isLineComment_trim, trim_eq_nil.2 hblank] at h
  contradiction

theorem isLineComment_of_isPrefix {u v : Text} (h : u <+: v) (hu : isLineComment u = true) :
    isLineComment v = true := by
  obtain ⟨w, rfl⟩ := h
  have hink : ¬ AllBlank u := by
    intro hblank
    rw [isLineComment, trimStart_eq_nil.2 hblank] at hu
    contradiction
  rw [isLineComment, trimStart_append hink]
  rw [isLineComment] at hu
  simp only [Bool.or_eq_true, List.isPrefixOf_iff_prefix] at hu ⊢
  exact hu.imp (·.trans (List.prefix_append _ _)) (·.trans (List.prefix_append _ _))

/-- No line comment comes up behind something that is on the line. -/
theorem isLineComment_append {line x : Text} (hline : ¬ AllBlank line)
    (hseam : line.getLast? = some '-' → x.head? ≠ some '-') :
    isLineComment (line ++ x) = isLineComment line := by
  obtain ⟨c, rest, hstart⟩ := List.exists_cons_of_ne_nil (mt trimStart_eq_nil.1 hline)
  have hlast := getLast?_trimStart hline
  rw [isLineComment, isLineComment, trimStart_append hline]
  rw [hstart] at hlast ⊢
  cases rest with
  | cons d rest => simp [List.isPrefixOf]
  | nil =>
      cases x with
      | nil => simp
      | cons d x =>
          by_cases hc : '-' = c
          · have hd : ('-' == d) = false := by
              rw [beq_eq_false_iff_ne]
              rintro rfl
              exact hseam (by rw [← hlast, ← hc]; rfl) rfl
            simp [List.isPrefixOf, hd]
          · simp [List.isPrefixOf, hc]

/-! ## Tails without marks -/

structure Markless (x : Text) : Prop where
  opens : includes blockOpen x = false
  closes : includes blockClose x = false

/-- None of the pairs of characters stands across the seam of two texts. -/
def Apart (pairs : List (Char × Char)) (line x : Text) : Prop :=
  ∀ pair ∈ pairs, line.getLast? = some pair.1 → x.head? ≠ some pair.2

instance (pairs : List (Char × Char)) (line x : Text) : Decidable (Apart pairs line x) :=
  inferInstanceAs (Decidable (∀ pair ∈ pairs, _))

def blockMarks : List (Char × Char) := [('/', '*'), ('*', '/')]

def marks : List (Char × Char) := ('-', '-') :: blockMarks

theorem Markless.blank_append {w x : Text} (h : Markless x) (hw : AllBlank w) :
    Markless (w ++ x) where
  opens := (includes_blank_append (by decide) hw x).trans h.opens
  closes := (includes_blank_append (by decide) hw x).trans h.closes

theorem markless_of_allBlank {w : Text} (hw : AllBlank w) : Markless w where
  opens := includes_of_allBlank (by decide) hw
  closes := includes_of_allBlank (by decide) hw

theorem Apart.blocks {line x : Text} (h : Apart marks line x) : Apart blockMarks line x :=
  fun pair hpair => h pair (List.mem_cons_of_mem _ hpair)

theorem Apart.opens {line x : Text} (h : Apart blockMarks line x) :
    line.getLast? = some '/' → x.head? ≠ some '*' := h ('/', '*') (by decide)

theorem Apart.closes {line x : Text} (h : Apart blockMarks line x) :
    line.getLast? = some '*' → x.head? ≠ some '/' := h ('*', '/') (by decide)

theorem Apart.dashes {line x : Text} (h : Apart marks line x) :
    line.getLast? = some '-' → x.head? ≠ some '-' := h ('-', '-') (by decide)

section Apart

variable {pairs : List (Char × Char)}

theorem apart_nil (x : Text) : Apart pairs [] x := fun _ _ => nofun

theorem apart_of_head {x : Text} (h : ∀ c ∈ x.head?, ∀ pair ∈ pairs, c ≠ pair.2) (line : Text) :
    Apart pairs line x := fun pair hpair _ hhead => h _ hhead pair hpair rfl

theorem Apart.congr {u v x : Text} (h : Apart pairs u x) (hlast : v.getLast? = u.getLast?) :
    Apart pairs v x := by
  intro pair hpair
  rw [hlast]
  exact h pair hpair

theorem Apart.of_suffix {u line x : Text} (h : Apart pairs line x) (hu : u <:+ line) :
    Apart pairs u x := by
  by_cases hnil : u = []
  · rw [hnil]
    exact apart_nil x
  · obtain ⟨front, rfl⟩ := hu
    exact h.congr (List.getLast?_append_of_ne_nil front hnil).symm

variable (hsolid : ∀ pair ∈ pairs, isBlank pair.2 = false) {w : Text} (hw : AllBlank w)

include hsolid hw

theorem apart_of_allBlank (line : Text) : Apart pairs line w := by
  refine apart_of_head (fun c hc pair hpair heq => ?_) line
  have hblank := hw c (List.mem_of_mem_head? hc)
  rw [heq, hsolid pair hpair] at hblank
  contradiction

theorem Apart.blank_append {line x : Text} (h : Apart pairs line x) :
    Apart pairs line (w ++ x) := by
  cases w with
  | nil => exact h
  | cons c w => exact apart_of_allBlank hsolid (List.forall_mem_singleton.2 (hw c (by simp))) line

end Apart

section Tail

variable {x : Text} (hx : Markless x) {line : Text} (hapart : Apart blockMarks line x)

include hx hapart

theorem leavesBlockOpen_append : leavesBlockOpen (line ++ x) = leavesBlockOpen line := by
  unfold leavesBlockOpen blockOpen blockClose
  rw [afterLast?_append hx.opens hapart.opens]
  cases hafter : afterLast? ['/', '*'] line with
  | none => rfl
  | some after =>
      obtain ⟨before, hline⟩ := exists_eq_append_of_afterLast? hafter
      have hseam := (hapart.of_suffix ⟨before ++ ['/', '*'], hline.symm⟩).closes
      simp [includes_append hx.closes hseam]

omit hx hapart in
theorem isSuffix_of_afterBlock? {after : Text} (h : afterBlock? line = some after) :
    after <:+ line := by
  obtain ⟨before, hline⟩ := exists_eq_append_of_afterLast? h
  exact ⟨before ++ blockClose, hline.symm⟩

theorem afterBlock?_append : afterBlock? (line ++ x) = (afterBlock? line).map (· ++ x) :=
  afterLast?_append hx.closes hapart.closes

omit hapart in
/-- Of the tail all is code, or none is: it lies within a comment that stays open. -/
theorem stripFrom_append (inside : Bool) (hapart : Apart blockMarks line x) :
    stripFrom inside (line ++ x) = stripFrom inside line ++ x ∨
      stripFrom inside (line ++ x) = stripFrom inside line := by
  fun_induction stripFrom inside line with
  | case1 inside =>
      cases inside with
      | false => exact .inl (stripBlocks_eq_self hx.opens)
      | true => exact .inr (stripFrom_true_of_unmarked hx.closes)
  | case2 rest ih =>
      have hrest := ih (hapart.of_suffix ⟨['/', '*'], rfl⟩)
      simpa [stripFrom] using hrest
  | case3 c rest hmark ih =>
      have hseam : stripFrom false (c :: (rest ++ x)) = c :: stripFrom false (rest ++ x) := by
        rw [stripFrom]
        rintro after rfl hafter
        cases rest with
        | nil => exact hapart.opens rfl (by simp_all)
        | cons d rest => exact hmark rest rfl (by simp_all)
      have hrest := ih (hapart.of_suffix ⟨[c], rfl⟩)
      simpa [hseam] using hrest
  | case4 rest ih =>
      have hrest := ih (hapart.of_suffix ⟨['*', '/'], rfl⟩)
      simpa [stripFrom] using hrest
  | case5 c rest hmark ih =>
      have hseam : stripFrom true (c :: (rest ++ x)) = stripFrom true (rest ++ x) := by
        rw [stripFrom]
        rintro after rfl hafter
        cases rest with
        | nil => exact hapart.closes rfl (by simp_all)
        | cons d rest => exact hmark rest rfl (by simp_all)
      have hrest := ih (hapart.of_suffix ⟨[c], rfl⟩)
      simpa [hseam] using hrest

end Tail

end SqlBatch.Comment
