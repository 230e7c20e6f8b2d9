import SqlBatch.Text.Blank
import SqlBatch.Text.Word
/-!
# Keywords

A keyword matches whatever the case of its letters, under the simple case folding of Unicode.
Keywords are words: `find?` looks for a pattern only where no word is under way, and a pattern that
ends in a keyword asks `Text.endsWord` of what follows.
-/

namespace SqlBatch.Keyword

/-- The small ASCII letter that a character folds to, if any.  Outside ASCII the long s and the
Kelvin sign are the only two that do. -/
def fold (c : Char) : Char :=
  if c = '\u017f' then 's' else if c = '\u212a' then 'k' else c.toLower

/-- What follows the keyword, given in small letters, at the start of a text. -/
def drop? : Text → Text → Option Text
  | [], text => some text
  | _ :: _, [] => none
  | k :: keyword, c :: text => if fold c = k then drop? keyword text else none

def dropAny? (keywords : List Text) (text : Text) : Option Text :=
  keywords.findSome? (drop? · text)

/-- What follows the keyword and at least one blank. -/
def dropSpaced? (keyword text : Text) : Option Text :=
  (drop? keyword text).bind Text.dropBlanks?

/-- The answer of a pattern at the first place of a text where it has one and no word is under
way; `inWord` says whether one is at the start. -/
def find? {α : Type} (pattern : Text → Option α) (inWord : Bool) : Text → Option α
  | [] => none
  | c :: rest =>
    if inWord then find? pattern (Text.isWord c) rest
    else match pattern (c :: rest) with
      | some answer => some answer
      | none => find? pattern (Text.isWord c) rest

theorem length_of_drop? {keyword text after : Text} (h : drop? keyword text = some after) :
    after.length + keyword.length = text.length := by
  induction keyword generalizing text with
  | nil =>
    simp only [drop?, Option.some.injEq] at h
    simp [h]
  | cons k keyword ih =>
    cases text with
    | nil => simp [drop?] at h
    | cons c text =>
      simp only [drop?] at h
      split at h
      · have hlength := ih h
        simp only [List.length_cons]
        omega
      · simp at h

theorem length_of_dropAny? {keywords : List Text} {text after : Text}
    (h : dropAny? keywords text = some after) : after.length ≤ text.length := by
  obtain ⟨keyword, _, hdrop⟩ := List.exists_of_findSome?_eq_some h
  have hlength := length_of_drop? hdrop
  omega

end SqlBatch.Keyword
