import SqlBatch.Proofs.Text.Lines
/-!
# Rows

The rows of a text are its lines without blank ends, blank lines left out.  Blanks around a text, and
blanks at the ends of its lines, do not change its rows.
-/

namespace SqlBatch.Text

/-- A line without its blank ends; nothing of a blank line. -/
def rowOf (line : Text) : List Text := if trim line = [] then [] else [trim line]

def rows (text : Text) : List Text := (lines text).flatMap rowOf

theorem rowOf_of_allBlank {line : Text} (h : AllBlank line) : rowOf line = [] :=
  if_pos (trim_eq_nil.2 h)

theorem rowOf_congr {u v : Text} (h : trim u = trim v) : rowOf u = rowOf v := by
  rw [rowOf, rowOf, h]

@[simp] theorem rowOf_nil : rowOf [] = [] := rowOf_of_allBlank allBlank_nil

@[simp] theorem rowOf_trimEnd (line : Text) : rowOf (trimEnd line) = rowOf line :=
  rowOf_congr (trim_trimEnd line)

@[simp] theorem rows_nil : rows [] = [] := rfl

theorem rows_of_notMem {line : Text} (h : '\n' ∉ line) : rows line = rowOf line := by
  by_cases hne : line = []
  · simp [hne]
  · rw [rows, lines_of_notMem h hne, List.flatMap_singleton]

theorem rows_cons_line {line : Text} (h : '\n' ∉ line) (rest : Text) :
    rows (line ++ '\n' :: rest) = rowOf line ++ rows rest := by
  obtain ⟨w, hw, hreturn⟩ := exists_eq_append_of_dropReturn line
  rw [rows, lines_append_lineFeed h, List.flatMap_cons]
  generalize (['\r'].isSuffixOf? line).getD line = kept at hreturn ⊢
  rw [rowOf_congr (show trim kept = trim line by rw [hreturn, trim_append_blank hw]), rows]

/-- A line feed parts the rows of a text. -/
theorem rows_append_lineFeed (u v : Text) : rows (u ++ '\n' :: v) = rows u ++ rows v := by
  induction u using mark_induction '\n' with
  | last items hitems => rw [rows_cons_line hitems, rows_of_notMem hitems]
  | more items rest hitems ih =>
      rw [List.append_assoc, List.cons_append, rows_cons_line hitems, ih, rows_cons_line hitems,
        List.append_assoc]

theorem rows_of_allBlank {w : Text} (hw : AllBlank w) : rows w = [] := by
  induction w using mark_induction '\n' with
  | last items hitems => rw [rows_of_notMem hitems, rowOf_of_allBlank hw]
  | more items rest hitems ih =>
      obtain ⟨hfirst, hrest⟩ := allBlank_append.1 hw
      rw [rows_cons_line hitems, rowOf_of_allBlank hfirst, ih (allBlank_cons.1 hrest).2,
        List.append_nil]

/-- What stands behind a text on its last line changes the last row. -/
theorem exists_rows_append (text : Text) :
    ∃ front last, '\n' ∉ last ∧ rows text = front ++ rowOf last ∧
      ∀ x, '\n' ∉ x → rows (text ++ x) = front ++ rowOf (last ++ x) := by
  induction text using mark_induction '\n' with
  | last items hitems =>
      refine ⟨[], items, hitems, by rw [rows_of_notMem hitems, List.nil_append], fun x hx => ?_⟩
      have hboth : '\n' ∉ items ++ x := by simp [hitems, hx]
      rw [rows_of_notMem hboth, List.nil_append]
  | more items rest hitems ih =>
      obtain ⟨front, last, hlast, hrest, happend⟩ := ih
      refine ⟨rowOf items ++ front, last, hlast, ?_, fun x hx => ?_⟩
      · rw [rows_cons_line hitems, hrest, List.append_assoc]
      · rw [List.append_assoc, List.cons_append, rows_cons_line hitems, happend x hx,
          List.append_assoc]

theorem rows_append_blank {w : Text} (hw : AllBlank w) (text : Text) :
    rows (text ++ w) = rows text := by
  have hline : ∀ x, '\n' ∉ x → AllBlank x → rows (text ++ x) = rows text := by
    intro x hx hblank
    obtain ⟨front, last, -, hrows, happend⟩ := exists_rows_append text
    rw [happend x hx, hrows, rowOf_congr (trim_append_blank hblank last)]
  induction w using mark_induction '\n' with
  | last items hitems => exact hline items hitems hw
  | more items rest hitems _ =>
      obtain ⟨hfirst, hrest⟩ := allBlank_append.1 hw
      rw [← List.append_assoc, rows_append_lineFeed, hline items hitems hfirst,
        rows_of_allBlank (allBlank_cons.1 hrest).2, List.append_nil]

theorem rows_blank_append {w : Text} (hw : AllBlank w) (text : Text) :
    rows (w ++ text) = rows text := by
  induction w using mark_induction '\n' with
  | last blanks hblanks =>
      have hrow : ∀ line, rowOf (blanks ++ line) = rowOf line :=
        fun line => rowOf_congr (trim_blank_append hw line)
      induction text using mark_induction '\n' with
      | last items hitems =>
          have hboth : '\n' ∉ blanks ++ items := by simp [hblanks, hitems]
          rw [rows_of_notMem hboth, rows_of_notMem hitems, hrow]
      | more items rest hitems _ =>
          have hboth : '\n' ∉ blanks ++ items := by simp [hblanks, hitems]
          rw [← List.append_assoc, rows_cons_line hboth, rows_cons_line hitems, hrow]
  | more blanks rest hblanks ih =>
      obtain ⟨hfirst, hrest⟩ := allBlank_append.1 hw
      rw [List.append_assoc, List.cons_append, rows_cons_line hblanks, rowOf_of_allBlank hfirst,
        List.nil_append, ih (allBlank_cons.1 hrest).2]

theorem rows_block {parts : List Text} (h : ∀ part ∈ parts, '\n' ∉ part) :
    rows (block parts) = parts.flatMap rowOf := by
  induction parts with
  | nil => rfl
  | cons part parts ih =>
      obtain ⟨hpart, hparts⟩ := List.forall_mem_cons.1 h
      have hend : '\n' ∉ trimEnd part := by
        obtain ⟨w, -, hw⟩ := exists_eq_trimEnd_append part
        rw [hw, List.mem_append, not_or] at hpart
        exact hpart.1
      have hblock : block (part :: parts) = trimEnd part ++ '\n' :: block parts := by
        simp [block]
      rw [hblock, rows_cons_line hend, rowOf_trimEnd, ih hparts, List.flatMap_cons]

end SqlBatch.Text
