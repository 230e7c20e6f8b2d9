import SqlBatch.Text.Json
import Mathlib.Data.List.Basic
/-!
# What a JSON text says

A value laid out in JSON can be read in one way only, whatever its strings hold and whatever text
follows (`unmistakable_layout`), so at one depth no two values have one text (`layout_injective`).
The first character shows what sort of value it is.  A string then ends at the first quote that is
no part of an escape, since no escape is the start of another one; a numeral ends before the first
character that is no digit; and behind an item of an array or object a comma or a new line says
whether there is one more.
-/

namespace SqlBatch.Json

open Text

/-- No digit stands at the start of the text, so a numeral before it has ended. -/
def EndsNumeral (text : Text) : Prop := ∀ c ∈ text.head?, c.isDigit = false

/-- What is written for `a` is written for nothing else, and shows where it ends. -/
def Unmistakable {α : Type} (write : α → Text) (a : α) : Prop :=
  ∀ ⦃b : α⦄ ⦃u v : Text⦄, EndsNumeral u → EndsNumeral v → write a ++ u = write b ++ v →
    a = b ∧ u = v

@[simp] theorem endsNumeral_nil : EndsNumeral [] := fun _ h => nomatch h

@[simp] theorem endsNumeral_cons {c : Char} {text : Text} :
    EndsNumeral (c :: text) ↔ c.isDigit = false := by
  simp [EndsNumeral]

/-! ## Strings -/

def escaped : Text := '\x22' :: '\\' :: (List.range 0x20).map Char.ofNat

def lead (c : Char) : Char := if c ∈ escaped then '\\' else c

private theorem lead_ne_quote (c : Char) : lead c ≠ '\x22' := by
  unfold lead
  split
  · decide
  · next hplain =>
    rintro rfl
    exact hplain (by decide)

private theorem escape_of_notMem {c : Char} (h : c ∉ escaped) : escape c = [c] := by
  have hcontrol : ¬ c.toNat < 0x20 := by
    intro hsmall
    refine h (List.mem_cons_of_mem _ (List.mem_cons_of_mem _ (List.mem_map.2 ?_)))
    exact ⟨c.toNat, List.mem_range.2 hsmall, Char.ofNat_toNat c⟩
  unfold escape
  split
  case h_8 => rw [if_neg hcontrol]
  all_goals exact absurd (by decide) h

theorem exists_escape_eq_cons (c : Char) : ∃ rest, escape c = lead c :: rest := by
  unfold lead
  split
  · next hmem =>
    have hhead : (escaped.all fun c => (escape c).head? == some '\\') = true := by decide +kernel
    exact List.head?_eq_some_iff.1 (beq_iff_eq.1 (List.all_eq_true.1 hhead c hmem))
  · next hplain => exact ⟨[], escape_of_notMem hplain⟩

/-- No escape is the start of another one. -/
theorem eq_of_isPrefix_escape {a b : Char} (h : escape a <+: escape b) : a = b := by
  have hlead : lead a = lead b := by
    obtain ⟨rest, ha⟩ := exists_escape_eq_cons a
    obtain ⟨rest', hb⟩ := exists_escape_eq_cons b
    rw [ha, hb] at h
    exact (List.cons_prefix_cons.1 h).1
  unfold lead at hlead
  by_cases ha : a ∈ escaped <;> by_cases hb : b ∈ escaped
  · have hpairs : (escaped.all fun a => escaped.all fun b =>
        !(escape a).isPrefixOf (escape b) || a == b) = true := by decide +kernel
    have hpair := List.all_eq_true.1 (List.all_eq_true.1 hpairs a ha) b hb
    rw [List.isPrefixOf_iff_prefix.2 h] at hpair
    exact beq_iff_eq.1 hpair
  · rw [if_pos ha, if_neg hb] at hlead
    exact absurd (hlead ▸ by decide) hb
  · rw [if_neg ha, if_pos hb] at hlead
    exact absurd (hlead ▸ by decide) ha
  · rwa [if_neg ha, if_neg hb] at hlead

theorem escape_append_inj {a b : Char} {u v : Text} (h : escape a ++ u = escape b ++ v) :
    a = b ∧ u = v := by
  have hab : a = b := by
    have hb : escape b <+: escape a ++ u := ⟨v, h.symm⟩
    rcases List.prefix_or_prefix_of_prefix (List.prefix_append _ u) hb with hfront | hfront
    · exact eq_of_isPrefix_escape hfront
    · exact (eq_of_isPrefix_escape hfront).symm
  subst hab
  exact ⟨rfl, List.append_cancel_left h⟩

theorem quote_append_inj {a b u v : Text} (h : quote a ++ u = quote b ++ v) : a = b ∧ u = v := by
  -- the closing quote is told from every escape by its first character
  have hclose (c : Char) (rest u : Text) : '\x22' :: u ≠ escape c ++ rest := by
    obtain ⟨_, hc⟩ := exists_escape_eq_cons c
    rw [hc, List.cons_append]
    exact fun heq => lead_ne_quote c (List.cons.inj heq).1.symm
  simp only [quote, List.cons_append, List.append_assoc, List.nil_append, List.cons.injEq,
    true_and] at h
  induction a generalizing b with
  | nil =>
      cases b with
      | nil => simpa using h
      | cons d b =>
          rw [List.flatMap_cons, List.append_assoc] at h
          exact absurd h (hclose d _ u)
  | cons c a ih =>
      cases b with
      | nil =>
          rw [List.flatMap_cons, List.append_assoc] at h
          exact absurd h.symm (hclose c _ v)
      | cons d b =>
          rw [List.flatMap_cons, List.flatMap_cons, List.append_assoc, List.append_assoc] at h
          obtain ⟨rfl, hrest⟩ := escape_append_inj h
          obtain ⟨rfl, rfl⟩ := ih hrest
          exact ⟨rfl, rfl⟩

/-! ## Numbers -/

theorem decimal_injective : Function.Injective decimal := by
  intro m n h
  rw [← Nat.ofDigitChars_ten_toDigits (n := m), ← Nat.ofDigitChars_ten_toDigits (n := n)]
  exact congrArg (Nat.ofDigitChars 10 · 0) h

theorem isDigit_of_mem_decimal {n : Nat} {c : Char} (h : c ∈ decimal n) : c.isDigit = true :=
  Nat.isDigit_of_mem_toDigits (by omega) (by omega) h

theorem takeWhile_decimal_append {u : Text} (hu : EndsNumeral u) (n : Nat) :
    (decimal n ++ u).takeWhile Char.isDigit = decimal n := by
  have hstop : u.takeWhile Char.isDigit = [] := by
    cases u with
    | nil => rfl
    | cons c u => simp [endsNumeral_cons.1 hu]
  rw [List.takeWhile_append_of_pos fun _ => isDigit_of_mem_decimal, hstop, List.append_nil]

theorem unmistakable_decimal (n : Nat) : Unmistakable decimal n := by
  intro m u v hu hv h
  have hdigits : decimal n = decimal m := by
    rw [← takeWhile_decimal_append hu, h, takeWhile_decimal_append hv]
  obtain rfl := decimal_injective hdigits
  exact ⟨rfl, List.append_cancel_left h⟩

/-! ## Lists -/

section Enclose

variable {α : Type} {first last : Char} {depth : Nat}

/-- What stands behind an item of a list: the lines of the items to come, and the end. -/
def closing (last : Char) (depth : Nat) (lines : List Text) : Text :=
  lines.foldr (fun line rest => ',' :: (line ++ rest)) (newline depth ++ [last])

theorem closing_cons (line : Text) (lines : List Text) :
    closing last depth (line :: lines) = ',' :: (line ++ closing last depth lines) := rfl

theorem endsNumeral_closing (lines : List Text) (u : Text) :
    EndsNumeral (closing last depth lines ++ u) := by
  cases lines <;> exact endsNumeral_cons.2 (by decide)

private theorem joinWith_append_close (line : Text) (lines : List Text) :
    joinWith [','] (line :: lines) ++ newline depth ++ [last] =
      line ++ closing last depth lines := by
  induction lines generalizing line with
  | nil => simp [joinWith, closing]
  | cons next lines ih =>
      calc joinWith [','] (line :: next :: lines) ++ newline depth ++ [last]
          = line ++ ',' :: (joinWith [','] (next :: lines) ++ newline depth ++ [last]) := by
            simp [joinWith]
        _ = line ++ closing last depth (next :: lines) := by rw [ih, closing_cons]

theorem closing_append_inj {write : α → Text} {items others : List α} {u v : Text}
    (h : ∀ item ∈ items, Unmistakable write item)
    (heq : closing last depth (items.map write) ++ u = closing last depth (others.map write) ++ v) :
    items = others ∧ u = v := by
  induction items generalizing others with
  | nil =>
      cases others with
      | nil => exact ⟨rfl, List.append_cancel_left heq⟩
      | cons other others => simp [closing, newline] at heq
  | cons item items ih =>
      obtain ⟨hitem, hitems⟩ := List.forall_mem_cons.1 h
      cases others with
      | nil => simp [closing, newline] at heq
      | cons other others =>
          simp only [List.map_cons, closing_cons, List.cons_append, List.append_assoc,
            List.cons.injEq, true_and] at heq
          obtain ⟨rfl, hrest⟩ := hitem (endsNumeral_closing _ _) (endsNumeral_closing _ _) heq
          obtain ⟨rfl, rfl⟩ := ih hitems hrest
          exact ⟨rfl, rfl⟩

variable {layout : α → Layout}

def lineOf (layout : α → Layout) (depth : Nat) (item : α) : Text :=
  newline (depth + 1) ++ layout item (depth + 1)

theorem enclose_cons (item : α) (items : List α) :
    enclose first last ((item :: items).map layout) depth =
      first :: (lineOf layout depth item ++
        closing last depth (items.map (lineOf layout depth))) := by
  simp only [enclose, List.map_cons, List.isEmpty_cons, Bool.false_eq_true, if_false,
    List.cons_append, joinWith_append_close, List.map_map]
  rfl

theorem unmistakable_enclose {items : List α} (hlast : last ≠ '\n')
    (h : ∀ item ∈ items, Unmistakable (layout · (depth + 1)) item) :
    Unmistakable (fun items => enclose first last (items.map layout) depth) items := by
  intro others u v _ _ heq
  dsimp only at heq
  have hlines : ∀ item ∈ items, Unmistakable (lineOf layout depth) item := by
    intro item hitem other u v hu hv hline
    simp only [lineOf, List.append_assoc, List.append_cancel_left_eq] at hline
    exact h item hitem hu hv hline
  have hempty (item : α) (items : List α) (u v : Text) :
      enclose first last ([].map layout) depth ++ u ≠
        enclose first last ((item :: items).map layout) depth ++ v := by
    rw [enclose_cons]
    simp [enclose, lineOf, newline, hlast]
  cases items with
  | nil =>
      cases others with
      | nil => exact ⟨rfl, List.append_cancel_left heq⟩
      | cons other others => exact absurd heq (hempty other others u v)
  | cons item items =>
      cases others with
      | nil => exact absurd heq.symm (hempty item items v u)
      | cons other others =>
          have hclosing :
              closing last depth ((item :: items).map (lineOf layout depth)) ++ u =
                closing last depth ((other :: others).map (lineOf layout depth)) ++ v := by
            rw [enclose_cons, enclose_cons, List.cons_append, List.cons_append] at heq
            rw [List.map_cons, List.map_cons, closing_cons, closing_cons, List.cons_append,
              List.cons_append, (List.cons.inj heq).2]
          exact closing_append_inj hlines hclosing

end Enclose

/-! ## Values -/

inductive Value where
  | string (text : Text)
  | number (n : Nat)
  | boolean (b : Bool)
  | array (items : List Value)
  | object (fields : List (Text × Value))

namespace Value

theorem sizeOf_lt_of_mem_array {item : Value} {items : List Value} (h : item ∈ items) :
    sizeOf item < sizeOf (array items) := by
  have hlt := List.sizeOf_lt_of_mem h
  simp only [array.sizeOf_spec]
  omega

theorem sizeOf_lt_of_mem_object {field : Text × Value} {fields : List (Text × Value)}
    (h : field ∈ fields) : sizeOf field.2 < sizeOf (object fields) := by
  have hlt := List.sizeOf_lt_of_mem h
  obtain ⟨key, value⟩ := field
  simp only [Prod.mk.sizeOf_spec] at hlt
  simp only [object.sizeOf_spec]
  omega

def layout : Value → Layout
  | .string text => Json.string text
  | .number n => Json.number n
  | .boolean b => Json.boolean b
  | .array items => Json.array (items.map layout)
  | .object fields => Json.object (fields.map fun field => (field.1, field.2.layout))
decreasing_by
  · exact sizeOf_lt_of_mem_array ‹_›
  · exact sizeOf_lt_of_mem_object ‹_›

def fieldLayout (field : Text × Value) : Layout :=
  fun depth => quote field.1 ++ [':', ' '] ++ field.2.layout depth

private theorem layout_object (fields : List (Text × Value)) :
    (object fields).layout = enclose '{' '}' (fields.map fieldLayout) := by
  rw [layout, Json.object, List.map_map]
  rfl

theorem unmistakable_fieldLayout {field : Text × Value} {depth : Nat}
    (h : Unmistakable (Value.layout · depth) field.2) :
    Unmistakable (fieldLayout · depth) field := by
  intro other u v hu hv heq
  simp only [fieldLayout, List.append_assoc] at heq
  obtain ⟨hkey, hrest⟩ := quote_append_inj heq
  obtain ⟨hvalue, rfl⟩ := h hu hv (List.append_cancel_left hrest)
  exact ⟨Prod.ext hkey hvalue, rfl⟩

/-- Which constructor a first character belongs to. -/
def ctorIdxOf (c : Char) : Nat :=
  if c = '\x22' then 0 else if c.isDigit then 1 else if c = '[' then 3 else if c = '{' then 4 else 2

theorem exists_layout_eq_cons (value : Value) (depth : Nat) :
    ∃ c rest, value.layout depth = c :: rest ∧ ctorIdxOf c = value.ctorIdx := by
  have henclose (first last : Char) (items : List Layout) :
      ∃ rest, enclose first last items depth = first :: rest := by
    unfold enclose
    split <;> exact ⟨_, rfl⟩
  cases value with
  | string text =>
      rw [layout]
      exact ⟨_, _, rfl, rfl⟩
  | number n =>
      obtain ⟨c, rest, hn⟩ := List.exists_cons_of_ne_nil (Nat.toDigits_ne_nil (n := n) (b := 10))
      have hc : c.isDigit = true := isDigit_of_mem_decimal (n := n) (by simp [decimal, hn])
      have hquote : c ≠ '\x22' := by
        rintro rfl
        contradiction
      rw [layout]
      exact ⟨c, rest, hn, by rw [ctorIdxOf, if_neg hquote, if_pos hc]; rfl⟩
  | boolean b =>
      rw [layout]
      cases b <;> exact ⟨_, _, rfl, rfl⟩
  | array items =>
      obtain ⟨rest, hrest⟩ := henclose '[' ']' (items.map layout)
      rw [layout]
      exact ⟨_, rest, hrest, rfl⟩
  | object fields =>
      rw [layout]
      obtain ⟨rest, hrest⟩ := henclose '{' '}' _
      exact ⟨_, rest, hrest, rfl⟩

private theorem ctorIdx_eq_of_layout_append {v w : Value} {depth : Nat} {t u : Text}
    (h : v.layout depth ++ t = w.layout depth ++ u) : v.ctorIdx = w.ctorIdx := by
  obtain ⟨c, _, hv, hc⟩ := v.exists_layout_eq_cons depth
  obtain ⟨d, _, hw, hd⟩ := w.exists_layout_eq_cons depth
  rw [hv, hw, List.cons_append, List.cons_append] at h
  rw [← hc, ← hd, (List.cons.inj h).1]

theorem unmistakable_layout (value : Value) (depth : Nat) :
    Unmistakable (Value.layout · depth) value := by
  intro other u v hu hv heq
  have hsort := ctorIdx_eq_of_layout_append heq
  match value, other with
  | .string text, .string text' =>
      simp only [layout] at heq
      obtain ⟨rfl, rfl⟩ := quote_append_inj heq
      exact ⟨rfl, rfl⟩
  | .number n, .number n' =>
      simp only [layout] at heq
      obtain ⟨rfl, rfl⟩ := unmistakable_decimal n hu hv heq
      exact ⟨rfl, rfl⟩
  | .boolean b, .boolean b' =>
      simp only [layout, Json.boolean] at heq
      cases b <;> cases b' <;> simp_all
  | .array items, .array items' =>
      have hitems : ∀ item ∈ items, Unmistakable (Value.layout · (depth + 1)) item :=
        fun item hitem => unmistakable_layout item (depth + 1)
      simp only [layout] at heq
      obtain ⟨rfl, rfl⟩ := unmistakable_enclose (by decide) hitems hu hv heq
      exact ⟨rfl, rfl⟩
  | .object fields, .object fields' =>
      have hfields : ∀ field ∈ fields, Unmistakable (fieldLayout · (depth + 1)) field :=
        fun field hfield => unmistakable_fieldLayout (unmistakable_layout field.2 (depth + 1))
      simp only [layout_object] at heq
      obtain ⟨rfl, rfl⟩ := unmistakable_enclose (by decide) hfields hu hv heq
      exact ⟨rfl, rfl⟩
termination_by value
decreasing_by
  · exact sizeOf_lt_of_mem_array hitem
  · exact sizeOf_lt_of_mem_object hfield

theorem layout_injective (depth : Nat) : Function.Injective (Value.layout · depth) := by
  intro v w h
  exact (unmistakable_layout v depth endsNumeral_nil endsNumeral_nil (congrArg (· ++ []) h)).1

end Value

end SqlBatch.Json
