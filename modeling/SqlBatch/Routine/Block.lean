import SqlBatch.Keyword
/-!
# Block marks

The body of a routine nests blocks.  `BEGIN` and `CASE` open one; `END` and `END CASE` close one.
`END IF`, `END LOOP`, `END WHILE`, `END REPEAT` and `END FOR` close what no mark opened, so they
count for nothing.  `marks` reads a line from left to right and takes the word after an `END` with
it, so that the `CASE` of `END CASE` opens nothing.
-/

namespace SqlBatch.Routine

inductive Mark where
  | opener
  | closer
  | neutral
  deriving DecidableEq, Repr

/-- Words that belong to an `END` before them. -/
def endWords : List Text :=
  ["if".toList, "loop".toList, "while".toList, "repeat".toList, "for".toList, "case".toList]

/-- The word that belongs to an `END`, as written, with what follows it. -/
def endWord? (text : Text) : Option (Text × Text) := do
  let text ← Text.dropBlanks? text
  let after ← Keyword.dropAny? endWords text
  if Text.endsWord after then some (text.take (text.length - after.length), after) else none

/-- The mark of the keyword at the start of a text, with what follows the keyword.  Of the words
after `END` only a `CASE` in ASCII letters makes it a closer. -/
def mark? (text : Text) : Option (Mark × Text) :=
  match Keyword.dropAny? ["begin".toList, "case".toList] text with
  | some after => if Text.endsWord after then some (.opener, after) else none
  | none =>
    match Keyword.drop? "end".toList text with
    | none => none
    | some after =>
      match endWord? after with
      | some (word, rest) =>
        some (if word.map Char.toLower = "case".toList then .closer else .neutral, rest)
      | none => if Text.endsWord after then some (.closer, after) else none

theorem length_of_dropAny?_begin_case {text after : Text}
    (h : Keyword.dropAny? ["begin".toList, "case".toList] text = some after) :
    after.length < text.length := by
  obtain ⟨keyword, hmem, hdrop⟩ := List.exists_of_findSome?_eq_some h
  have hlength := Keyword.length_of_drop? hdrop
  have hpos : 0 < keyword.length := by
    simp only [List.mem_cons, List.not_mem_nil, or_false] at hmem
    rcases hmem with rfl | rfl <;> decide
  omega

theorem length_of_endWord? {text word after : Text} (h : endWord? text = some (word, after)) :
    after.length ≤ text.length := by
  simp only [endWord?, Option.bind_eq_bind, Option.bind_eq_some_iff] at h
  obtain ⟨start, hblanks, rest, hdrop, hend⟩ := h
  have hstart := Text.length_of_dropBlanks? hblanks
  have hrest := Keyword.length_of_dropAny? hdrop
  split at hend
  · simp only [Option.some.injEq, Prod.mk.injEq] at hend
    rw [← hend.2]
    omega
  · simp at hend

/-- A mark takes at least one character. -/
theorem length_of_mark? {text after : Text} {mark : Mark} (h : mark? text = some (mark, after)) :
    after.length < text.length := by
  unfold mark? at h
  split at h
  · next rest hopen =>
    have hlength := length_of_dropAny?_begin_case hopen
    split at h
    · simp only [Option.some.injEq, Prod.mk.injEq] at h
      rw [← h.2]
      exact hlength
    · simp at h
  · split at h
    · simp at h
    · next rest hend =>
      have hlength := Keyword.length_of_drop? hend
      have hthree : "end".toList.length = 3 := by decide
      split at h
      · next word tail hword =>
        have htail := length_of_endWord? hword
        simp only [Option.some.injEq, Prod.mk.injEq] at h
        rw [← h.2]
        omega
      · split at h
        · simp only [Option.some.injEq, Prod.mk.injEq] at h
          rw [← h.2]
          omega
        · simp at h

/-- The marks of a text in order; `inWord` says whether a word is under way at its start. -/
def marksFrom (inWord : Bool) (text : Text) : List Mark :=
  match text with
  | [] => []
  | c :: rest =>
    if inWord then marksFrom (Text.isWord c) rest
    else match _h : mark? (c :: rest) with
      | some (mark, after) => mark :: marksFrom true after
      | none => marksFrom (Text.isWord c) rest
termination_by text.length
decreasing_by
  · simp
  · exact length_of_mark? ‹_›
  · simp

def marks (line : Text) : List Mark := marksFrom false line

structure Balance where
  opened : Nat
  closed : Nat
  deriving DecidableEq, Repr

def balance (line : Text) : Balance :=
  ⟨(marks line).count .opener, (marks line).count .closer⟩

def endKeyword? (text : Text) : Option Unit :=
  match Keyword.drop? "end".toList text with
  | some after => if Text.endsWord after then some () else none
  | none => none

def mentionsEnd (text : Text) : Bool := (Keyword.find? endKeyword? false text).isSome

end SqlBatch.Routine
