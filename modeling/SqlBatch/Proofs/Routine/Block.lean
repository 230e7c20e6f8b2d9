import SqlBatch.Routine.Block
import SqlBatch.Proofs.Keyword
/-!
# Block marks before a tail

The marks of a line are words.  A tail in which no word goes on and no `END` finds the word that it
takes adds its own marks to those of the line (`marksFrom_append_of_mark?`).  A wordless tail has
none, so it changes nothing in how many blocks the line opens and closes, nor do blanks around it.
-/

namespace SqlBatch.Routine

open Text Keyword

def leadingEndWord? (text : Text) : Option (Text × Text) :=
  (dropAny? endWords text).bind fun after =>
    if endsWord after then some (text.take (text.length - after.length), after) else none

theorem begins_leadingEndWord? : Begins ['i', 'l', 'w', 'r', 'f', 'c'] leadingEndWord? := by
  have hwords : Begins ['i', 'l', 'w', 'r', 'f', 'c'] (dropAny? endWords) :=
    begins_dropAny? (by decide)
  intro text hsome
  apply hwords
  cases hdrop : dropAny? endWords text with
  | none => simp [leadingEndWord?, hdrop] at hsome
  | some after => rfl

theorem begins_mark? : Begins ['b', 'c', 'e'] mark? := by
  have hopener : Begins ['b', 'c', 'e'] (dropAny? ["begin".toList, "case".toList]) :=
    begins_dropAny? (by decide)
  have hone : Begins ['e'] (drop? "end".toList) := begins_drop?
  have hcloser : Begins ['b', 'c', 'e'] (drop? "end".toList) := hone.mono (by simp)
  intro text hsome
  cases hopen : dropAny? ["begin".toList, "case".toList] text with
  | some after => exact hopener text (Option.isSome_of_eq_some hopen)
  | none =>
      cases hend : drop? "end".toList text with
      | some after => exact hcloser text (Option.isSome_of_eq_some hend)
      | none =>
          unfold mark? at hsome
          rw [hopen, hend] at hsome
          contradiction

/-! ## Over a tail -/

section Tail

variable {x : Text}

theorem leadingEndWord?_append (hx : endsWord x = true) :
    Extends (fun found => (found.1, found.2 ++ x)) x leadingEndWord? := by
  intro text
  rw [leadingEndWord?, leadingEndWord?, dropAny?_append (by decide) hx]
  cases hdrop : dropAny? endWords text with
  | none => rfl
  | some after =>
      have hlength := length_of_dropAny? hdrop
      have htake : (text ++ x).take ((text ++ x).length - (after ++ x).length) =
          text.take (text.length - after.length) := by
        rw [List.length_append, List.length_append, Nat.add_sub_add_right,
          List.take_append_of_le_length (Nat.sub_le _ _)]
      simp only [Option.map_some, Option.bind_some, endsWord_append hx, htake]
      split <;> rfl

/-- A mark is found as before if the word after an `END` is. -/
theorem mark?_append_of_endWord? (hx : endsWord x = true)
    (hend : Extends (fun found => (found.1, found.2 ++ x)) x endWord?) :
    Extends (fun found => (found.1, found.2 ++ x)) x mark? := by
  intro text
  rw [mark?, mark?, dropAny?_append (by decide) hx]
  cases dropAny? ["begin".toList, "case".toList] text with
  | some after =>
      simp only [Option.map_some, endsWord_append hx]
      split <;> rfl
  | none =>
      have hletters : Lowercase "end".toList := by decide
      simp only [Option.map_none, drop?_append hletters hx text]
      cases drop? "end".toList text with
      | none => rfl
      | some after =>
          simp only [Option.map_some, hend after]
          cases endWord? after with
          | some found => rfl
          | none =>
              simp only [Option.map_none, endsWord_append hx]
              split <;> rfl

/-- The word after an `END` is found as before: the tail has no word to offer. -/
theorem endWord?_append (hx : Wordless x) :
    Extends (fun found => (found.1, found.2 ++ x)) x endWord? :=
  (fades_dropBlanks? hx).extends_bind (leadingEndWord?_append hx.endsWord) begins_leadingEndWord?
    (by decide)

end Tail

theorem marksFrom_cons_of_none {c : Char} {text : Text} (h : mark? (c :: text) = none)
    (inWord : Bool) : marksFrom inWord (c :: text) = marksFrom (isWord c) text := by
  rw [marksFrom]
  split
  · rfl
  · split
    · next found => simp [h] at found
    · rfl

theorem marksFrom_cons_of_some {c : Char} {text after : Text} {mark : Mark}
    (h : mark? (c :: text) = some (mark, after)) :
    marksFrom false (c :: text) = mark :: marksFrom true after := by
  rw [marksFrom, if_neg Bool.false_ne_true]
  split
  · next found =>
    obtain ⟨rfl, rfl⟩ := by simpa [h] using found
    rfl
  · next found => simp [h] at found

theorem marksFrom_wordless {w : Text} (hw : Wordless w) (inWord : Bool) :
    marksFrom inWord w = [] := by
  induction w generalizing inWord with
  | nil => simp [marksFrom]
  | cons c w ih =>
      rw [marksFrom_cons_of_none (begins_mark?.eq_none (by decide) hw)]
      exact ih (wordless_cons.1 hw).2 _

theorem marksFrom_wordless_append {w : Text} (hw : Wordless w) (text : Text) :
    marksFrom false (w ++ text) = marksFrom false text := by
  induction w with
  | nil => rfl
  | cons c w ih =>
      obtain ⟨hc, hrest⟩ := wordless_cons.1 hw
      have hnone : mark? (c :: (w ++ text)) = none := begins_mark?.eq_none_of_notWord (by decide) hc
      rw [List.cons_append, marksFrom_cons_of_none hnone, hc]
      exact ih hrest

theorem marksFrom_of_endsWord {x : Text} (hx : endsWord x = true) (inWord : Bool) :
    marksFrom inWord x = marks x := by
  cases x with
  | nil => rw [marks, marksFrom, marksFrom]
  | cons c x =>
      have hnone : mark? (c :: x) = none := begins_mark?.eq_none_of_endsWord (by decide) hx
      rw [marks, marksFrom_cons_of_none hnone, marksFrom_cons_of_none hnone]

/-- The marks of a tail stand behind those of the text, if those are found as before. -/
theorem marksFrom_append_of_mark? {x : Text} (hx : endsWord x = true)
    (hmarks : Extends (fun found => (found.1, found.2 ++ x)) x mark?) (inWord : Bool)
    (text : Text) : marksFrom inWord (text ++ x) = marksFrom inWord text ++ marks x := by
  fun_induction marksFrom inWord text with
  | case1 inWord => exact marksFrom_of_endsWord hx inWord
  | case2 c rest ih => simpa [marksFrom] using ih
  | case3 inWord c rest hword mark after hmark ih =>
      obtain rfl : inWord = false := by simpa using hword
      have htail := hmarks (c :: rest)
      rw [hmark, List.cons_append] at htail
      rw [List.cons_append, marksFrom_cons_of_some htail, ih, List.cons_append]
  | case4 inWord c rest hword hmark ih =>
      have htail := hmarks (c :: rest)
      rw [hmark, List.cons_append] at htail
      rw [List.cons_append, marksFrom_cons_of_none htail, ih]

theorem marksFrom_append {x : Text} (hx : Wordless x) (inWord : Bool) (text : Text) :
    marksFrom inWord (text ++ x) = marksFrom inWord text := by
  have hmarks := mark?_append_of_endWord? hx.endsWord (endWord?_append hx)
  rw [marksFrom_append_of_mark? hx.endsWord hmarks, marks, marksFrom_wordless hx, List.append_nil]

theorem balance_wordless {w : Text} (hw : Wordless w) : balance w = ⟨0, 0⟩ := by
  rw [balance, marks, marksFrom_wordless hw]
  rfl

theorem balance_append {x : Text} (hx : Wordless x) (text : Text) :
    balance (text ++ x) = balance text := by
  rw [balance, balance, marks, marks, marksFrom_append hx]

@[simp] theorem balance_trim (text : Text) : balance (trim text) = balance text := by
  obtain ⟨v, w, hv, hw, htext⟩ := exists_eq_append_trim_append text
  have hfront := marksFrom_wordless_append hv.wordless (trim text)
  conv_rhs => rw [htext]
  rw [balance_append hw.wordless, balance, balance, marks, marks, hfront]

end SqlBatch.Routine
