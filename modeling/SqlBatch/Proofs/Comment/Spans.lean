import SqlBatch.Proofs.Comment
/-!
# Block comments from left to right

The scanner looks for the last mark of a comment on a line.  Read from left to right, a line may
tell another story: where two marks share a character, and where code stands behind a comment that
the line closes and before another one on it.  On all other lines the two agree.
-/

namespace SqlBatch.Comment

open Text

/-- Whether a block comment is open behind a text; `inside` says whether one is before it. -/
def endsInside : Bool → Text → Bool
  | inside, [] => inside
  | false, '/' :: '*' :: rest => endsInside true rest
  | false, _ :: rest => endsInside false rest
  | true, '*' :: '/' :: rest => endsInside false rest
  | true, _ :: rest => endsInside true rest

/-- Whether a mark stands behind the first `*/` of a text. -/
def goesOn : Text → Bool
  | [] => false
  | '*' :: '/' :: rest => includes blockOpen rest || includes blockClose rest
  | _ :: rest => goesOn rest

def Untangled (text : Text) : Prop :=
  includes ['/', '*', '/'] text = false ∧ includes ['*', '/', '*'] text = false

instance (text : Text) : Decidable (Untangled text) :=
  inferInstanceAs (Decidable (_ ∧ _))

theorem Untangled.tail {c : Char} {text : Text} (h : Untangled (c :: text)) : Untangled text := by
  simp only [Untangled, includes, Bool.or_eq_false_iff] at h
  exact ⟨h.1.2, h.2.2⟩

/-! ## One character at a time -/

theorem afterLast?_cons_of_not_isPrefix {mark : Text} {c : Char} {text : Text}
    (h : ¬ mark <+: c :: text) : afterLast? mark (c :: text) = afterLast? mark text := by
  have hnone : mark.isPrefixOf? (c :: text) = none := by
    rw [Option.eq_none_iff_forall_ne_some]
    intro after hafter
    exact h ⟨after, List.isPrefixOf?_eq_some_iff_append_eq.1 hafter⟩
  rw [afterLast?, hnone]
  cases afterLast? mark text <;> rfl

theorem includes_cons_of_not_isPrefix {mark : Text} {c : Char} {text : Text}
    (h : ¬ mark <+: c :: text) : includes mark (c :: text) = includes mark text := by
  rw [includes, Bool.eq_false_iff.2 (mt List.isPrefixOf_iff_prefix.1 h), Bool.false_or]

theorem leavesBlockOpen_cons_of_not_isPrefix {c : Char} {text : Text}
    (h : ¬ blockOpen <+: c :: text) : leavesBlockOpen (c :: text) = leavesBlockOpen text := by
  rw [leavesBlockOpen, leavesBlockOpen, afterLast?_cons_of_not_isPrefix h]

theorem includes_eq_isSome_afterLast? (mark text : Text) :
    includes mark text = (afterLast? mark text).isSome := by
  induction text with
  | nil => cases mark <;> rfl
  | cons c text ih =>
      rw [includes, afterLast?, ih]
      cases afterLast? mark text with
      | some after => exact Bool.or_true _
      | none => rw [Option.isSome_none, Bool.or_false, List.isSome_isPrefixOf?_eq_isPrefixOf]

theorem leavesBlockOpen_of_open (text : Text) :
    leavesBlockOpen ('/' :: '*' :: text) =
      if includes blockOpen text then leavesBlockOpen text else !includes blockClose text := by
  have hstar : ¬ blockOpen <+: '*' :: text := by simp [blockOpen]
  rw [includes_eq_isSome_afterLast?, leavesBlockOpen, leavesBlockOpen, afterLast?,
    afterLast?_cons_of_not_isPrefix hstar]
  cases afterLast? blockOpen text <;> rfl

/-- Where no two marks share a character, the last `/*` of a line tells what reading the line from
left to right does. -/
theorem endsInside_eq {inside : Bool} {text : Text} (h : Untangled text) :
    endsInside inside text =
      if inside && !includes blockOpen text then !includes blockClose text
      else leavesBlockOpen text := by
  fun_induction endsInside inside text with
  | case1 inside => cases inside <;> rfl
  | case2 rest ih =>
      rw [ih h.tail.tail, leavesBlockOpen_of_open]
      cases includes blockOpen rest <;> rfl
  | case3 c rest hmark ih =>
      have hopen : ¬ blockOpen <+: c :: rest := by
        rintro ⟨after, hafter⟩
        obtain ⟨rfl, rfl⟩ : '/' = c ∧ '*' :: after = rest := by simpa [blockOpen] using hafter
        exact hmark after rfl rfl
      rw [ih h.tail, leavesBlockOpen_cons_of_not_isPrefix hopen]
      rfl
  | case4 rest ih =>
      have hstar : ¬ blockOpen <+: '*' :: '/' :: rest := by simp [blockOpen]
      have hslash : ¬ blockOpen <+: '/' :: rest := by
        rintro ⟨after, hafter⟩
        obtain rfl : '*' :: after = rest := by simpa [blockOpen] using hafter
        simp [Untangled, includes] at h
      rw [ih h.tail.tail, includes_cons_of_not_isPrefix hstar, includes_cons_of_not_isPrefix hslash,
        leavesBlockOpen_cons_of_not_isPrefix hstar, leavesBlockOpen_cons_of_not_isPrefix hslash]
      cases hopen : includes blockOpen rest with
      | true => rfl
      | false => simp [leavesBlockOpen_eq_false hopen, includes, blockClose]
  | case5 c rest hmark ih =>
      have hclose : ¬ blockClose <+: c :: rest := by
        rintro ⟨after, hafter⟩
        obtain ⟨rfl, rfl⟩ : '*' = c ∧ '/' :: after = rest := by simpa [blockClose] using hafter
        exact hmark after rfl rfl
      rw [ih h.tail, includes_cons_of_not_isPrefix hclose]
      by_cases hopen : blockOpen <+: c :: rest
      · -- a comment goes on over a second `/*`
        obtain ⟨after, hafter⟩ := hopen
        obtain ⟨rfl, rfl⟩ : '/' = c ∧ '*' :: after = rest := by simpa [blockOpen] using hafter
        have hstar : ¬ blockOpen <+: '*' :: after := by simp [blockOpen]
        have hslash : ¬ blockClose <+: '*' :: after := by
          rintro ⟨behind, hbehind⟩
          obtain rfl : '/' :: behind = after := by simpa [blockClose] using hbehind
          simp [Untangled, includes] at h
        have hhere : includes blockOpen ('/' :: '*' :: after) = true := by
          simp [includes, blockOpen]
        rw [hhere, leavesBlockOpen_of_open, includes_cons_of_not_isPrefix hstar,
          includes_cons_of_not_isPrefix hslash, leavesBlockOpen_cons_of_not_isPrefix hstar]
        cases includes blockOpen after <;> rfl
      · rw [includes_cons_of_not_isPrefix hopen, leavesBlockOpen_cons_of_not_isPrefix hopen]

/-! ## A line that starts within a comment -/

theorem endsInside_eq_false {text : Text} (h : includes blockOpen text = false) :
    endsInside false text = false := by
  induction text with
  | nil => rfl
  | cons c text ih =>
      rw [includes, Bool.or_eq_false_iff] at h
      rw [endsInside, ih h.2]
      rintro after rfl rfl
      simp [blockOpen, List.isPrefixOf] at h

/-- Where no mark stands behind the first `*/`, all that stands behind the last one is code. -/
theorem code_of_not_goesOn {text : Text} (h : goesOn text = false) :
    (afterBlock? text = none ∧ stripFrom true text = [] ∧ endsInside true text = true) ∨
      ∃ after, afterBlock? text = some after ∧ includes blockOpen after = false ∧
        stripFrom true text = after ∧ endsInside true text = false := by
  fun_induction goesOn text with
  | case1 => exact .inl ⟨rfl, rfl, rfl⟩
  | case2 rest =>
      rw [Bool.or_eq_false_iff] at h
      obtain ⟨hopen, hclose⟩ := h
      have hslash : ¬ blockClose <+: '/' :: rest := by simp [blockClose]
      have hnone : afterLast? blockClose ('/' :: rest) = none := by
        rw [← Option.not_isSome_iff_eq_none, ← includes_eq_isSome_afterLast?,
          includes_cons_of_not_isPrefix hslash, hclose]
        exact Bool.false_ne_true
      refine .inr ⟨rest, ?_, hopen, ?_, ?_⟩
      · rw [afterBlock?, afterLast?, hnone]
        rfl
      · exact stripBlocks_eq_self hopen
      · exact endsInside_eq_false hopen
  | case3 c rest hmark ih =>
      have hclose : ¬ blockClose <+: c :: rest := by
        rintro ⟨after, hafter⟩
        obtain ⟨rfl, rfl⟩ : '*' = c ∧ '/' :: after = rest := by simpa [blockClose] using hafter
        exact hmark after rfl rfl
      have hstrip : stripFrom true (c :: rest) = stripFrom true rest := by
        rw [stripFrom]
        rintro after rfl rfl
        exact hmark after rfl rfl
      have hends : endsInside true (c :: rest) = endsInside true rest := by
        rw [endsInside]
        rintro after rfl rfl
        exact hmark after rfl rfl
      rw [afterBlock?, afterLast?_cons_of_not_isPrefix hclose, hstrip, hends]
      exact ih h

/-! ## A line with a tail -/

theorem includes_append_of_pairs {a b c : Char} {line x : Text}
    (hline : includes [a, b, c] line = false) (hx : includes [a, b] x = false)
    (hleft : line.getLast? = some a → x.head? ≠ some b)
    (hright : line.getLast? = some b → x.head? ≠ some c) :
    includes [a, b, c] (line ++ x) = false := by
  rw [Bool.eq_false_iff, ne_eq, includes_iff_isInfix] at hline hx ⊢
  have hpair : ¬ [a, b, c] <:+: x := fun h => hx ((List.prefix_append [a, b] [c]).isInfix.trans h)
  rw [List.infix_append_iff]
  rintro (h | h | ⟨u, v, huv, ⟨front, hu⟩, ⟨behind, hv⟩⟩)
  · exact hline h
  · exact hpair h
  · -- the seam is before, between or behind the three characters
    match u with
    | [] => exact hpair ⟨[], behind, by rw [huv]; exact hv⟩
    | [_] =>
        obtain ⟨rfl, rfl⟩ : a = _ ∧ [b, c] = v := by simpa using huv
        exact hleft (by simp [← hu]) (by simp [← hv])
    | [_, _] =>
        obtain ⟨rfl, rfl, rfl⟩ : a = _ ∧ b = _ ∧ [c] = v := by simpa using huv
        exact hright (by simp [← hu]) (by simp [← hv])
    | _ :: _ :: _ :: rest =>
        obtain ⟨rfl, rfl, rfl, hnil⟩ : a = _ ∧ b = _ ∧ c = _ ∧ [] = rest ++ v := by simpa using huv
        obtain ⟨rfl, -⟩ := List.append_eq_nil_iff.1 hnil.symm
        exact hline ⟨front, [], by rw [List.append_nil]; exact hu⟩

private theorem goesOn_of_unclosed {text : Text} (h : includes blockClose text = false) :
    goesOn text = false := by
  fun_induction goesOn text with
  | case1 => rfl
  | case2 rest => simp [includes, blockClose] at h
  | case3 c rest hmark ih =>
      rw [includes, Bool.or_eq_false_iff] at h
      exact ih h.2

section Tail

variable {line x : Text} (hx : Markless x) (hapart : Apart blockMarks line x)

include hx hapart

theorem Untangled.append (h : Untangled line) : Untangled (line ++ x) :=
  ⟨includes_append_of_pairs h.1 hx.opens hapart.opens hapart.closes,
    includes_append_of_pairs h.2 hx.closes hapart.closes hapart.opens⟩

theorem goesOn_append : goesOn (line ++ x) = goesOn line := by
  fun_induction goesOn line with
  | case1 => exact goesOn_of_unclosed hx.closes
  | case2 rest =>
      have hrest := hapart.of_suffix ⟨['*', '/'], rfl⟩
      rw [List.cons_append, List.cons_append, goesOn, blockOpen, blockClose,
        includes_append hx.opens hrest.opens, includes_append hx.closes hrest.closes]
  | case3 c rest hmark ih =>
      have hrest := ih (hapart.of_suffix ⟨[c], rfl⟩)
      rw [List.cons_append, goesOn, hrest]
      rintro after rfl hafter
      cases rest with
      | nil => exact hapart.closes rfl (by simp_all)
      | cons d rest => exact hmark rest rfl (by simp_all)

end Tail

/-! ## Blanks around a line -/

theorem afterLast?_blank_append {a : Char} (ha : isBlank a = false) (mark : Text) {v : Text}
    (hv : AllBlank v) (text : Text) :
    afterLast? (a :: mark) (v ++ text) = afterLast? (a :: mark) text := by
  induction v with
  | nil => rfl
  | cons c v ih =>
      obtain ⟨hc, hrest⟩ := allBlank_cons.1 hv
      have hmark : ¬ a :: mark <+: c :: (v ++ text) := by
        rintro ⟨after, hafter⟩
        obtain ⟨rfl, -⟩ := List.cons.inj hafter
        rw [hc] at ha
        contradiction
      rw [List.cons_append, afterLast?_cons_of_not_isPrefix hmark]
      exact ih hrest

/-- Blanks at the end of a line are code if they stand behind a comment on it. -/
theorem exists_afterBlock?_trim (line : Text) :
    ∃ w, AllBlank w ∧ afterBlock? line = (afterBlock? (trim line)).map (· ++ w) := by
  obtain ⟨v, w, hv, hw, hline⟩ := exists_eq_append_trim_append line
  refine ⟨w, hw, ?_⟩
  have hapart := apart_of_allBlank (by decide : ∀ pair ∈ blockMarks, isBlank pair.2 = false) hw
  conv_lhs => rw [hline, afterBlock?_append (markless_of_allBlank hw) (hapart _)]
  rw [afterBlock?, blockClose, afterLast?_blank_append (by decide) _ hv]
  rfl

theorem leavesBlockOpen_trim (line : Text) :
    leavesBlockOpen (trim line) = leavesBlockOpen line := by
  obtain ⟨v, w, hv, hw, hline⟩ := exists_eq_append_trim_append line
  have hapart := apart_of_allBlank (by decide : ∀ pair ∈ blockMarks, isBlank pair.2 = false) hw
  conv_rhs => rw [hline, leavesBlockOpen_append (markless_of_allBlank hw) (hapart _),
    leavesBlockOpen, blockOpen, afterLast?_blank_append (by decide) _ hv]
  rfl

end SqlBatch.Comment
