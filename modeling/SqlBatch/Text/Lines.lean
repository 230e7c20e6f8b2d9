import SqlBatch.Text.Basic
/-!
# Lines

A line feed ends a line.  `chunks` keeps the line feeds, so that the chunks of a list in order make
up the list; `lines` removes each, with one carriage return before it.
-/

namespace SqlBatch.Text

/-- The list cut after every item that `ends` a chunk; the last chunk may be without one. -/
def chunks {α : Type} (ends : α → Bool) (items : List α) : List (List α) :=
  items.foldr
    (fun item later =>
      if ends item then [item] :: later
      else match later with
        | [] => [[item]]
        | chunk :: others => (item :: chunk) :: others)
    []

/-- A line without its line feed, and without one carriage return before that line feed. -/
def dropLineEnd (chunk : Text) : Text :=
  match ['\n'].isSuffixOf? chunk with
  | none => chunk
  | some line => (['\r'].isSuffixOf? line).getD line

/-- The lines of a text.  A final line feed ends the last line and starts no other. -/
def lines (text : Text) : List Text :=
  (chunks (· == '\n') text).map dropLineEnd

theorem flatten_chunks {α : Type} (ends : α → Bool) (items : List α) :
    (chunks ends items).flatten = items := by
  induction items with
  | nil => rfl
  | cons item rest ih =>
    simp only [chunks, List.foldr_cons] at ih ⊢
    split
    · simp [ih]
    · split
      · next h => rw [h] at ih; simp at ih; simp [← ih]
      · next h => rw [h] at ih; simp at ih; simp [← ih]

end SqlBatch.Text
