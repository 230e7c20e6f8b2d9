import SqlBatch.Text.Lines
import SqlBatch.Proofs.Text.Trim
/-!
# Lines and the texts that they make up

A line holds no line feed, and the lines of a script hold all of its ink, in order.  Lines that end
neither in a carriage return nor in nothing come back from the text that joins them.
-/

namespace SqlBatch.Text

/-! ## Chunks -/

theorem chunks_of_notMem {α : Type} [BEq α] [LawfulBEq α] {mark : α} {items : List α}
    (h : mark ∉ items) (hne : items ≠ []) : chunks (· == mark) items = [items] := by
  induction items with
  | nil => contradiction
  | cons item rest ih =>
      obtain ⟨hitem, hrest⟩ : mark ≠ item ∧ mark ∉ rest := by simpa using h
      have hends : (item == mark) = false := by simpa using Ne.symm hitem
      by_cases hnil : rest = []
      · simp [chunks, hnil, hends]
      · have htail := ih hrest hnil
        simp only [chunks] at htail
        simp [chunks, htail, hends]

theorem chunks_append_mark {α : Type} [BEq α] [LawfulBEq α] {mark : α} {items : List α}
    (h : mark ∉ items) (rest : List α) :
    chunks (· == mark) (items ++ mark :: rest) =
      (items ++ [mark]) :: chunks (· == mark) rest := by
  induction items with
  | nil => simp [chunks]
  | cons item items ih =>
      obtain ⟨hitem, hitems⟩ : mark ≠ item ∧ mark ∉ items := by simpa using h
      have hends : (item == mark) = false := by simpa using Ne.symm hitem
      have htail := ih hitems
      simp only [chunks] at htail
      simp [chunks, htail, hends]

/-- A list has no mark in it, or it goes on behind its first one. -/
theorem mark_induction {α : Type} [DecidableEq α] {motive : List α → Prop} (mark : α)
    (last : ∀ items, mark ∉ items → motive items)
    (more : ∀ items rest, mark ∉ items → motive rest → motive (items ++ mark :: rest))
    (items : List α) : motive items := by
  induction hlength : items.length using Nat.strongRecOn generalizing items with
  | _ n ih =>
      by_cases h : mark ∈ items
      · obtain ⟨before, after, rfl, hbefore⟩ := List.eq_append_cons_of_mem h
        refine more before after hbefore (ih after.length ?_ after rfl)
        simp only [List.length_append, List.length_cons] at hlength
        omega
      · exact last items h

/-! ## Lines -/

@[simp] theorem lines_nil : lines [] = [] := rfl

private theorem dropLineEnd_of_notMem {line : Text} (h : '\n' ∉ line) :
    dropLineEnd line = line := by
  have hnone : ['\n'].isSuffixOf? line = none := by
    rw [Option.eq_none_iff_forall_ne_some]
    intro init hinit
    rw [List.isSuffixOf?_eq_some_iff_append_eq] at hinit
    simp [← hinit] at h
  rw [dropLineEnd, hnone]

theorem lines_of_notMem {line : Text} (h : '\n' ∉ line) (hne : line ≠ []) :
    lines line = [line] := by
  rw [lines, chunks_of_notMem h hne, List.map_singleton, dropLineEnd_of_notMem h]

private theorem dropLineEnd_append (line : Text) :
    dropLineEnd (line ++ ['\n']) = (['\r'].isSuffixOf? line).getD line := by
  have hsome : ['\n'].isSuffixOf? (line ++ ['\n']) = some line :=
    List.isSuffixOf?_eq_some_iff_append_eq.2 rfl
  rw [dropLineEnd, hsome]

theorem lines_append_lineFeed {line : Text} (h : '\n' ∉ line) (rest : Text) :
    lines (line ++ '\n' :: rest) = (['\r'].isSuffixOf? line).getD line :: lines rest := by
  rw [lines, chunks_append_mark h, List.map_cons, dropLineEnd_append, ← lines]

theorem exists_eq_append_of_dropReturn (line : Text) :
    ∃ w, AllBlank w ∧ line = (['\r'].isSuffixOf? line).getD line ++ w := by
  cases h : ['\r'].isSuffixOf? line with
  | none => exact ⟨[], allBlank_nil, by simp⟩
  | some init =>
      refine ⟨['\r'], by decide, ?_⟩
      exact (List.isSuffixOf?_eq_some_iff_append_eq.1 h).symm

theorem lineFeed_notMem_of_mem_lines {text line : Text} (h : line ∈ lines text) :
    '\n' ∉ line := by
  induction text using mark_induction '\n' with
  | last items hitems =>
      by_cases hne : items = []
      · simp [hne] at h
      · rw [lines_of_notMem hitems hne, List.mem_singleton] at h
        rwa [h]
  | more items rest hitems ih =>
      rw [lines_append_lineFeed hitems, List.mem_cons] at h
      rcases h with h | h
      · obtain ⟨w, -, hsplit⟩ := exists_eq_append_of_dropReturn items
        rw [h]
        intro hmem
        exact hitems (hsplit ▸ List.mem_append_left w hmem)
      · exact ih h

theorem isInfix_of_mem_lines {text line : Text} (h : line ∈ lines text) : line <:+: text := by
  induction text using mark_induction '\n' with
  | last items hitems =>
      by_cases hne : items = []
      · simp [hne] at h
      · rw [lines_of_notMem hitems hne, List.mem_singleton] at h
        exact h ▸ List.infix_rfl
  | more items rest hitems ih =>
      rw [lines_append_lineFeed hitems, List.mem_cons] at h
      rcases h with rfl | h
      · obtain ⟨w, -, hsplit⟩ := exists_eq_append_of_dropReturn items
        have hfront : (['\r'].isSuffixOf? items).getD items <+: items := ⟨w, hsplit.symm⟩
        exact (hfront.trans (List.prefix_append items _)).isInfix
      · exact (ih h).trans ((List.suffix_cons '\n' rest).trans (List.suffix_append _ _)).isInfix

/-! ## Ink -/

def ink (text : Text) : Text := text.filter (!isBlank ·)

@[simp] theorem ink_append (u v : Text) : ink (u ++ v) = ink u ++ ink v := List.filter_append ..

@[simp] theorem ink_nil : ink [] = [] := rfl

theorem ink_eq_nil {w : Text} : ink w = [] ↔ AllBlank w := by
  simp [ink, AllBlank]

theorem ink_of_allBlank {w : Text} (hw : AllBlank w) : ink w = [] := ink_eq_nil.2 hw

@[simp] theorem ink_trimEnd (text : Text) : ink (trimEnd text) = ink text := by
  obtain ⟨w, hw, htext⟩ := exists_eq_trimEnd_append text
  conv_rhs => rw [htext]
  rw [ink_append, ink_of_allBlank hw, List.append_nil]

@[simp] theorem ink_trim (text : Text) : ink (trim text) = ink text := by
  obtain ⟨v, w, hv, hw, htext⟩ := exists_eq_append_trim_append text
  conv_rhs => rw [htext]
  simp [ink_of_allBlank hv, ink_of_allBlank hw]

private theorem isBlank_getLast_trim {text front : Text} {c : Char} (h : trim text = front ++ [c]) :
    isBlank c = false := by
  rw [Bool.eq_false_iff]
  intro hc
  obtain ⟨w, -, hw⟩ := exists_eq_trimEnd_append front
  have hshort : front ++ [c] = trimEnd front := by
    rw [← trimEnd_append_blank (List.forall_mem_singleton.2 hc) front, ← h, trimEnd_trim]
  have hlength := congrArg List.length hw
  rw [← hshort] at hlength
  simp at hlength

theorem getLast?_ink (text : Text) : (ink text).getLast? = (trim text).getLast? := by
  rw [← ink_trim]
  rcases List.eq_nil_or_concat' (trim text) with hnil | ⟨front, c, hfront⟩
  · rw [hnil]
    rfl
  · have hc : ink [c] = [c] := List.filter_eq_self.2 (by simp [isBlank_getLast_trim hfront])
    rw [hfront, ink_append, hc, List.getLast?_concat, List.getLast?_concat]

theorem flatMap_ink_lines (text : Text) : (lines text).flatMap ink = ink text := by
  induction text using mark_induction '\n' with
  | last items hitems =>
      by_cases hne : items = []
      · simp [hne]
      · simp [lines_of_notMem hitems hne]
  | more items rest hitems ih =>
      have hfeed : AllBlank ['\n'] := by decide
      have hfeed' : ink ('\n' :: rest) = ink rest := by
        rw [← List.singleton_append, ink_append, ink_of_allBlank hfeed, List.nil_append]
      obtain ⟨w, hw, hsplit⟩ := exists_eq_append_of_dropReturn items
      have hitem : ink ((['\r'].isSuffixOf? items).getD items) = ink items := by
        conv_rhs => rw [hsplit, ink_append, ink_of_allBlank hw, List.append_nil]
      rw [lines_append_lineFeed hitems, List.flatMap_cons, ih, hitem, ink_append, hfeed']

/-! ## Joined lines -/

theorem joinWith_cons (gap part : Text) {parts : List Text} (h : parts ≠ []) :
    joinWith gap (part :: parts) = part ++ gap ++ joinWith gap parts := by
  obtain ⟨next, rest, rfl⟩ := List.exists_cons_of_ne_nil h
  rfl

theorem joinWith_append (gap : Text) {front back : List Text} (hf : front ≠ []) (hb : back ≠ []) :
    joinWith gap (front ++ back) = joinWith gap front ++ gap ++ joinWith gap back := by
  induction front with
  | nil => contradiction
  | cons part front ih =>
      by_cases hnil : front = []
      · simp [hnil, joinWith_cons gap part hb, joinWith]
      · rw [List.cons_append, joinWith_cons gap part (by simp [hnil]), ih hnil,
          joinWith_cons gap part hnil]
        simp

theorem joinWith_map_joinWith (gap : Text) {groups : List (List Text)} (h : [] ∉ groups) :
    joinWith gap (groups.map (joinWith gap)) = joinWith gap groups.flatten := by
  induction groups with
  | nil => rfl
  | cons group groups ih =>
      obtain ⟨hgroup, hgroups⟩ : [] ≠ group ∧ [] ∉ groups := by simpa using h
      by_cases hnil : groups = []
      · simp [hnil, joinWith]
      · have hflat : groups.flatten ≠ [] := by
          obtain ⟨next, rest, rfl⟩ := List.exists_cons_of_ne_nil hnil
          have hnext : next ≠ [] := fun hempty => hgroups (by simp [hempty])
          simp [hnext]
        rw [List.map_cons, joinWith_cons gap _ (by simpa using hnil), ih hgroups,
          List.flatten_cons, joinWith_append gap (Ne.symm hgroup) hflat]

/-- Lines come back from the text that joins them, unless the text hides a line end: one within a
line, a carriage return before a line feed, or the end of an empty last line. -/
theorem lines_joinWith {parts : List Text} (hfeed : ∀ part ∈ parts, '\n' ∉ part)
    (hreturn : ∀ part ∈ parts, part.getLast? ≠ some '\r')
    (hlast : ∀ part ∈ parts.getLast?, part ≠ []) :
    lines (joinWith ['\n'] parts) = parts := by
  induction parts with
  | nil => rfl
  | cons part parts ih =>
      by_cases hnil : parts = []
      · subst hnil
        exact lines_of_notMem (hfeed part (by simp)) (hlast part (by simp))
      · have hkept : ['\r'].isSuffixOf? part = none := by
          rw [Option.eq_none_iff_forall_ne_some]
          intro init hinit
          rw [List.isSuffixOf?_eq_some_iff_append_eq] at hinit
          exact hreturn part (by simp) (by simp [← hinit])
        have hrest := ih (fun p hp => hfeed p (by simp [hp])) (fun p hp => hreturn p (by simp [hp]))
          (fun p hp => hlast p (by rwa [List.getLast?_cons_of_ne_nil hnil]))
        rw [joinWith_cons _ part hnil, List.append_assoc, List.singleton_append,
          lines_append_lineFeed (hfeed part (by simp)), hkept, hrest, Option.getD_none]

/-- The text of some lines: each line without its blank end, line feeds between. -/
def passage (lines : List Text) : Text := joinWith ['\n'] (lines.map trimEnd)

/-- The text of some lines with a line feed behind each. -/
def block (lines : List Text) : Text := lines.flatMap fun line => trimEnd line ++ ['\n']

@[simp] theorem block_nil : block [] = [] := rfl

@[simp] theorem block_append (front back : List Text) :
    block (front ++ back) = block front ++ block back := List.flatMap_append

@[simp] theorem block_eq_nil {lines : List Text} : block lines = [] ↔ lines = [] := by
  cases lines with
  | nil => simp
  | cons line lines => simp [block]

theorem block_eq_passage {lines : List Text} (h : lines ≠ []) :
    block lines = passage lines ++ ['\n'] := by
  induction lines with
  | nil => contradiction
  | cons line lines ih =>
      by_cases hnil : lines = []
      · simp [hnil, block, passage, joinWith]
      · have htail := ih hnil
        unfold block passage at htail ⊢
        rw [List.flatMap_cons, htail, List.map_cons, joinWith_cons _ _ (by simpa using hnil)]
        simp

@[simp] theorem trim_block (lines : List Text) : trim (block lines) = trim (passage lines) := by
  by_cases hnil : lines = []
  · rw [hnil]
    rfl
  · rw [block_eq_passage hnil, trim_append_blank (by decide)]

theorem ink_block (lines : List Text) : ink (block lines) = lines.flatMap ink := by
  have hfeed : ink ['\n'] = [] := by decide
  induction lines with
  | nil => rfl
  | cons line lines ih =>
      unfold block at ih ⊢
      rw [List.flatMap_cons, ink_append, ih, ink_append, hfeed, List.append_nil, ink_trimEnd,
        List.flatMap_cons]

theorem allBlank_block {lines : List Text} :
    AllBlank (block lines) ↔ ∀ line ∈ lines, AllBlank line := by
  have hfeed : isBlank '\n' = true := by decide
  induction lines with
  | nil => simp
  | cons line lines ih =>
      unfold block at ih ⊢
      simp [ih, hfeed]

theorem trim_block_append {blanks : List Text} (h : ∀ line ∈ blanks, AllBlank line)
    (text : Text) : trim (block blanks ++ text) = trim text :=
  trim_blank_append (allBlank_block.2 h) text

theorem trim_passage_of_solid {d v raw : Text} (hd : Solid d) (hraw : v ++ d = trimEnd raw)
    (lines : List Text) : trim (passage (lines ++ [raw])) = trimStart (block lines ++ v) ++ d := by
  calc trim (passage (lines ++ [raw]))
      = trim (block lines ++ v ++ d ++ ['\n']) := by
        rw [← trim_block, block_append]
        simp [block, ← hraw]
    _ = trimStart (block lines ++ v) ++ d := by
        rw [trim_append_blank (by decide), trim_append_solid hd]

end SqlBatch.Text
