import SqlBatch.Proofs.Routine.Lines
import SqlBatch.Proofs.Routine.Words
/-!
# Blocks counted by words

How many blocks a line opens and closes can be told from its words and their neighbours, without
reading it from left to right (`balance_counts_words`).  What an `END` takes with it is never a
`BEGIN` or an `END`, so each word says for itself whether it closes a block
(`count_closer_append_word`).  It may be a `CASE`, so the count of openers behind an `END` is one
too high if that `CASE` is next (`count_opener_append_word`); over a whole line, what is taken off
at the `END`s are the `CASE`s that stand behind one (`count_opener_eq_countP`).
-/

namespace SqlBatch.Routine

open Text Keyword

/-! ## Words and their neighbours -/

/-- A word of a line, with the words next to it as far as nothing but blanks stands between. -/
structure Word where
  before : Option Text
  letters : Text
  after : Option Text

/-- The first word of the runs on one side, the near ones first, if only blanks stand before it. -/
def nearest : List Text → Option Text
  | gap :: word :: _ => if AllBlank gap then some word else none
  | _ => none

/-- The words among the runs to the right; those to the left stand with the near ones first. -/
def wordsAmong (left : List Text) : List Text → List Word
  | [] => []
  | run :: right =>
    if run.all isWord then ⟨nearest left, run, nearest right⟩ :: wordsAmong (run :: left) right
    else wordsAmong (run :: left) right

def words (line : Text) : List Word := wordsAmong [] (runs line)

/-- Words before which an `END` closes nothing. -/
def controlWords : List String := ["if", "loop", "while", "repeat", "for"]

def isControl (word : Text) : Bool := controlWords.any (spells · word)

namespace Word

def closes (word : Word) : Bool := spells "end" word.letters && !word.after.any isControl

def begins (word : Word) : Bool := spells "begin" word.letters

/-- A `CASE` that is not the one of an `END CASE`. -/
def opensCase (word : Word) : Bool := spells "case" word.letters && !word.before.any (spells "end")

/-- The `CASE` of an `END CASE`. -/
def endsCase (word : Word) : Bool := spells "case" word.letters && word.before.any (spells "end")

end Word

section Words

variable {left : List Text} {text run rest gap next after : Text}

theorem wordsAmong_append_word (h : LeadingRun true run rest) :
    wordsAmong left (runs (run ++ rest)) =
      ⟨nearest left, run, nearest (runs rest)⟩ :: wordsAmong (run :: left) (runs rest) := by
  rw [h.runs_append, wordsAmong, if_pos (List.all_eq_true.2 h.uniform)]

theorem wordsAmong_append_gap (h : LeadingRun false run rest) :
    wordsAmong left (runs (run ++ rest)) = wordsAmong (run :: left) (runs rest) := by
  obtain ⟨c, run, rfl⟩ := List.exists_cons_of_ne_nil h.ne_nil
  rw [h.runs_append, wordsAmong, if_neg]
  simp [h.uniform c List.mem_cons_self]

theorem nearest_append_word (hgap : LeadingRun false gap (next ++ after))
    (hnext : LeadingRun true next after) :
    nearest (runs (gap ++ (next ++ after))) = if AllBlank gap then some next else none := by
  rw [hgap.runs_append, hnext.runs_append, nearest]

theorem nearest_of_wordless (h : Wordless text) : nearest (runs text) = none := by
  by_cases hnil : text = []
  · rw [hnil]
    rfl
  · have hruns := (h.leadingRun hnil).runs_append
    rw [List.append_nil] at hruns
    rw [hruns]
    rfl

theorem wordsAmong_of_wordless (h : Wordless text) : wordsAmong left (runs text) = [] := by
  by_cases hnil : text = []
  · rw [hnil]
    rfl
  · rw [← List.append_nil text, wordsAmong_append_gap (h.leadingRun hnil)]
    rfl

end Words

/-! ## Keywords without a long s -/

theorem spells_unique {keyword other : String} {word : Text} (h : spells keyword word = true)
    (hother : spells other word = true) : keyword = other :=
  String.toList_injective ((beq_iff_eq.1 h).symm.trans (beq_iff_eq.1 hother))

private theorem isControl_eq_false_of_case {word : Text} (h : spells "case" word = true) :
    isControl word = false := by
  rw [← Bool.not_eq_true, isControl, List.any_eq_true]
  rintro ⟨keyword, hmem, hspells⟩
  rw [spells_unique hspells h] at hmem
  exact absurd hmem (by decide)

/-- A `BEGIN` or `CASE` is a `BEGIN`, a `CASE` that opens a block or the `CASE` of an `END CASE`. -/
theorem Word.sum_openers (word : Word) :
    (spells "begin" word.letters || spells "case" word.letters).toNat =
      word.begins.toNat + word.opensCase.toNat + word.endsCase.toNat := by
  by_cases hbegin : spells "begin" word.letters = true
  · have hcase : spells "case" word.letters = false := by
      rw [← Bool.not_eq_true]
      exact fun hcase => absurd (spells_unique hbegin hcase) (by decide)
    simp [begins, opensCase, endsCase, hbegin, hcase]
  · cases hend : word.before.any (spells "end") <;>
      simp [begins, opensCase, endsCase, hbegin, hend]

theorem map_fold_eq_case_iff {word : Text} (hword : '\u017f' ∉ word) :
    word.map fold = "case".toList ↔ spells "case" word = true :=
  map_fold_eq_iff (by decide) fun _ => hword

theorem map_fold_mem_opener_iff {word : Text} (hword : '\u017f' ∉ word) :
    word.map fold ∈ ["begin".toList, "case".toList] ↔
      spells "begin" word = true ∨ spells "case" word = true := by
  have hbegin : Lowercase "begin".toList ∧ 'k' ∉ "begin".toList := by decide
  rw [List.mem_cons, List.mem_singleton, map_fold_eq_iff hbegin fun _ => hword,
    map_fold_eq_case_iff hword]

theorem map_fold_mem_endWords_iff {word : Text} (hword : '\u017f' ∉ word) :
    word.map fold ∈ endWords ↔ spells "case" word = true ∨ isControl word = true := by
  have hsplit : endWords = controlWords.map String.toList ++ ["case".toList] := rfl
  have hkeywords : ∀ keyword ∈ controlWords,
      Lowercase keyword.toList ∧ 'k' ∉ keyword.toList := by decide
  rw [hsplit, List.mem_append, List.mem_singleton, map_fold_eq_case_iff hword, or_comm,
    isControl, List.any_eq_true, List.mem_map]
  refine or_congr_right (exists_congr fun keyword => and_congr_right fun hmem => ?_)
  rw [← map_fold_eq_iff (hkeywords keyword hmem) fun _ => hword, eq_comm]

/-- The word that an `END` takes with it is the next one, if that is a `CASE` or a control word. -/
private theorem endWord?_cases {rest : Text} (hends : endsWord rest = true)
    (hplain : '\u017f' ∉ rest) :
    (endWord? rest = none ∧ (nearest (runs rest)).any (spells "case") = false ∧
      (nearest (runs rest)).any isControl = false) ∨
    ∃ gap next after, LeadingRun false gap (next ++ after) ∧ LeadingRun true next after ∧
      rest = gap ++ (next ++ after) ∧ nearest (runs rest) = some next ∧
      endWord? rest = some (next, after) ∧ (spells "case" next = true ∨ isControl next = true) := by
  rcases wordless_or_exists_word hends with hwordless | ⟨gap, next, after, hgap, hnext, rfl⟩
  · rw [nearest_of_wordless hwordless]
    exact .inl ⟨endWord?_append hwordless [], rfl, rfl⟩
  have hletters : '\u017f' ∉ next := fun hmem =>
    hplain (List.mem_append_right gap (List.mem_append_left after hmem))
  have hmem := map_fold_mem_endWords_iff hletters
  have hword := endWord?_append_word hgap hnext
  have hnearest := nearest_append_word hgap hnext
  by_cases hblank : AllBlank gap
  · rw [if_pos hblank] at hnearest
    by_cases htaken : next.map fold ∈ endWords
    · rw [if_pos ⟨hblank, htaken⟩] at hword
      exact .inr ⟨gap, next, after, hgap, hnext, rfl, hnearest, hword, hmem.1 htaken⟩
    · rw [if_neg fun h => htaken h.2] at hword
      rw [hmem, not_or, Bool.not_eq_true, Bool.not_eq_true] at htaken
      exact .inl ⟨hword, by rwa [hnearest]⟩
  · rw [if_neg fun h => hblank h.1] at hword
    rw [hnearest, if_neg hblank]
    exact .inl ⟨hword, rfl, rfl⟩

/-! ## One more word -/

section Step

variable {word rest : Text} (h : LeadingRun true word rest)

include h

theorem marks_append_opener (hopener : word.map fold ∈ ["begin".toList, "case".toList]) :
    marks (word ++ rest) = .opener :: marks rest :=
  marks_append_of_mark?_eq_some h (mark?_opener h hopener) h.endsWord

theorem marks_append_other (hopener : word.map fold ∉ ["begin".toList, "case".toList])
    (hend : word.map fold ≠ "end".toList) : marks (word ++ rest) = marks rest :=
  marks_append_of_mark?_eq_none h (mark?_eq_none_of_word h hopener hend)

/-- An `END` takes a `CASE` or a control word behind it with it, or it is a mark of its own. -/
theorem marks_append_end (hend : word.map fold = "end".toList) (hplain : '\u017f' ∉ rest) :
    ((nearest (runs rest)).any (spells "case") = true ∧
      (nearest (runs rest)).any isControl = false ∧
      ∃ ms, marks (word ++ rest) = .closer :: ms ∧ marks rest = .opener :: ms) ∨
    ((nearest (runs rest)).any (spells "case") = false ∧
      (nearest (runs rest)).any isControl = true ∧
      marks (word ++ rest) = .neutral :: marks rest) ∨
    ((nearest (runs rest)).any (spells "case") = false ∧
      (nearest (runs rest)).any isControl = false ∧
      marks (word ++ rest) = .closer :: marks rest) := by
  have hmark := mark?_end h hend
  rcases endWord?_cases h.endsWord hplain with ⟨hword, hcase, hcontrol⟩ |
    ⟨gap, next, after, hgap, hnext, rfl, hnearest, hword, htaken⟩
  · rw [hword] at hmark
    exact .inr (.inr ⟨hcase, hcontrol, marks_append_of_mark?_eq_some h hmark h.endsWord⟩)
  rw [hword] at hmark
  have hletters : '\u017f' ∉ next := fun hmem =>
    hplain (List.mem_append_right gap (List.mem_append_left after hmem))
  rw [hnearest, Option.any_some, Option.any_some, marks_append_gap hgap,
    marks_append_of_mark?_eq_some h hmark hnext.endsWord]
  by_cases hcase : spells "case" next = true
  · rw [if_pos (beq_iff_eq.1 hcase)]
    have hopener := (map_fold_mem_opener_iff hletters).2 (.inr hcase)
    exact .inl ⟨hcase, isControl_eq_false_of_case hcase, marks after, rfl,
      marks_append_opener hnext hopener⟩
  · have hother : ∀ other ∈ endWords, other ≠ "case".toList →
        other ∉ ["begin".toList, "case".toList] ∧ other ≠ "end".toList := by decide
    have hmem := (map_fold_mem_endWords_iff hletters).2 htaken
    have hne := mt (map_fold_eq_case_iff hletters).1 hcase
    obtain ⟨hopener, hend⟩ := hother _ hmem hne
    rw [marks_append_other hnext hopener hend, if_neg (mt beq_iff_eq.2 hcase)]
    exact .inr (.inl ⟨Bool.eq_false_iff.2 hcase, htaken.resolve_left hcase, rfl⟩)

theorem count_closer_append_word (hplain : '\u017f' ∉ word ++ rest) (before : Option Text) :
    (marks (word ++ rest)).count .closer =
      (marks rest).count .closer + (Word.closes ⟨before, word, nearest (runs rest)⟩).toNat := by
  rw [List.mem_append, not_or] at hplain
  have hfold : word.map fold = "end".toList ↔ spells "end" word = true := map_fold_eq_end_iff
  by_cases hend : word.map fold = "end".toList
  · have hspelled := hfold.1 hend
    rcases marks_append_end h hend hplain.2 with ⟨-, hcontrol, ms, hmarks, hrest⟩ |
      ⟨-, hcontrol, hmarks⟩ | ⟨-, hcontrol, hmarks⟩
    · simp [hmarks, hrest, Word.closes, hspelled, hcontrol]
    · simp [hmarks, Word.closes, hspelled, hcontrol]
    · simp [hmarks, Word.closes, hspelled, hcontrol]
  · have hspelled := Bool.eq_false_iff.2 (mt hfold.2 hend)
    by_cases hopener : word.map fold ∈ ["begin".toList, "case".toList]
    · simp [marks_append_opener h hopener, Word.closes, hspelled]
    · simp [marks_append_other h hopener hend, Word.closes, hspelled]

/-- The `CASE` behind an `END` opens nothing, though it does where the rest stands alone. -/
theorem count_opener_append_word (hplain : '\u017f' ∉ word ++ rest) :
    (marks (word ++ rest)).count .opener +
        (spells "end" word && (nearest (runs rest)).any (spells "case")).toNat =
      (marks rest).count .opener + (spells "begin" word || spells "case" word).toNat := by
  rw [List.mem_append, not_or] at hplain
  have hfold : word.map fold = "end".toList ↔ spells "end" word = true := map_fold_eq_end_iff
  have hopening := map_fold_mem_opener_iff hplain.1
  rw [← Bool.or_eq_true] at hopening
  by_cases hend : word.map fold = "end".toList
  · have hspelled := hfold.1 hend
    have hopener : (spells "begin" word || spells "case" word) = false := by
      rw [← Bool.not_eq_true, ← hopening, hend]
      decide
    rcases marks_append_end h hend hplain.2 with ⟨hcase, -, ms, hmarks, hrest⟩ |
      ⟨hcase, -, hmarks⟩ | ⟨hcase, -, hmarks⟩
    · simp [hmarks, hrest, hspelled, hcase, hopener]
    · simp [hmarks, hspelled, hcase, hopener]
    · simp [hmarks, hspelled, hcase, hopener]
  · have hspelled := Bool.eq_false_iff.2 (mt hfold.2 hend)
    by_cases hopener : word.map fold ∈ ["begin".toList, "case".toList]
    · simp [marks_append_opener h hopener, hspelled, hopening.1 hopener]
    · have hnone := Bool.eq_false_iff.2 (mt hopening.2 hopener)
      simp [marks_append_other h hopener hend, hspelled, hnone]

end Step

/-! ## All words -/

section Line

variable {text run rest : Text}

theorem countP_cons_toNat (p : Word → Bool) (word : Word) (words : List Word) :
    (word :: words).countP p = words.countP p + (p word).toNat := by
  rw [List.countP_cons]
  cases p word <;> rfl

theorem count_closer_eq_countP (hplain : '\u017f' ∉ text) (left : List Text) :
    (marks text).count .closer = (wordsAmong left (runs text)).countP Word.closes := by
  induction text using induction_on_runs generalizing left with
  | nil => simp [marks, marksFrom, wordsAmong]
  | append word run rest h ih =>
      have hrest : '\u017f' ∉ rest := fun hmem => hplain (List.mem_append_right run hmem)
      cases word with
      | false =>
          rw [wordsAmong_append_gap h, ← ih hrest, marks_append_gap h]
      | true =>
          rw [wordsAmong_append_word h, countP_cons_toNat, ← ih hrest,
            count_closer_append_word h hplain]

private theorem endsCase_head_behind_word (h : LeadingRun true run rest) (left : List Text) :
    (wordsAmong (run :: left) (runs rest)).head?.any Word.endsCase =
      (spells "end" run && (nearest (runs rest)).any (spells "case")) := by
  rcases wordless_or_exists_word h.endsWord with hwordless | ⟨gap, next, after, hgap, hnext, rfl⟩
  · simp [wordsAmong_of_wordless hwordless, nearest_of_wordless hwordless]
  · rw [wordsAmong_append_gap hgap, wordsAmong_append_word hnext, nearest_append_word hgap hnext]
    by_cases hblank : AllBlank gap
    · simp [Word.endsCase, nearest, hblank, Bool.and_comm]
    · simp [Word.endsCase, nearest, hblank]

private theorem endsCase_head_words (line : Text) :
    (words line).head?.any Word.endsCase = false := by
  have hfirst (letters : Text) (after : Option Text) :
      Word.endsCase ⟨none, letters, after⟩ = false := Bool.and_false _
  by_cases hnil : line = []
  · rw [hnil]
    rfl
  obtain ⟨word, run, rest, h, rfl⟩ := exists_leadingRun hnil
  cases word with
  | true =>
      rw [words, wordsAmong_append_word h]
      exact hfirst _ _
  | false =>
      rcases wordless_or_exists_word h.endsWord_append with hwordless |
        ⟨gap, next, after, hgap, hnext, heq⟩
      · rw [words, wordsAmong_of_wordless hwordless]
        rfl
      · rw [heq, words, wordsAmong_append_gap hgap, wordsAmong_append_word hnext]
        exact hfirst _ _

theorem count_opener_eq_countP (hplain : '\u017f' ∉ text) (left : List Text) :
    (marks text).count .opener =
      (wordsAmong left (runs text)).countP Word.begins +
        (wordsAmong left (runs text)).countP Word.opensCase +
          ((wordsAmong left (runs text)).head?.any Word.endsCase).toNat := by
  induction text using induction_on_runs generalizing left with
  | nil => simp [marks, marksFrom, wordsAmong]
  | append word run rest h ih =>
      have hrest : '\u017f' ∉ rest := fun hmem => hplain (List.mem_append_right run hmem)
      cases word with
      | false =>
          rw [wordsAmong_append_gap h, ← ih hrest, marks_append_gap h]
      | true =>
          have hstep := count_opener_append_word h hplain
          have hrest := ih hrest (run :: left)
          have hword := Word.sum_openers ⟨nearest left, run, nearest (runs rest)⟩
          dsimp only at hword
          rw [endsCase_head_behind_word h] at hrest
          rw [wordsAmong_append_word h, countP_cons_toNat, countP_cons_toNat, List.head?_cons,
            Option.any_some]
          omega

end Line

/-! ## Across a sign -/

private theorem marks_append_sign {c : Char} (hword : isWord c = false) (hblank : isBlank c = false)
    (a b : Text) : marks (a ++ c :: b) = marks a ++ marks b := by
  have hends : endsWord (c :: b) = true := by simp [endsWord, hword]
  have hblanks : Extends (· ++ c :: b) (c :: b) dropBlanks? :=
    dropBlanks?_append_of_head? (by simp [hblank])
  have hend : Extends (fun found => (found.1, found.2 ++ c :: b)) (c :: b) endWord? :=
    hblanks.bind (leadingEndWord?_append hends)
  have hnone : mark? (c :: b) = none := begins_mark?.eq_none_of_endsWord (by decide) hends
  rw [marks, marksFrom_append_of_mark? hends (mark?_append_of_endWord? hends hend), marks,
    marksFrom_cons_of_none hnone, hword]
  rfl

/-- The counts of a line are counts of its words, and they add up across a character that is
neither blank nor part of a word. -/
theorem balance_counts_words :
    (∀ line : Text, '\u017f' ∉ line →
      (balance line).closed = (words line).countP Word.closes ∧
      (balance line).opened =
        (words line).countP Word.begins + (words line).countP Word.opensCase) ∧
    ∀ (a b : Text) (c : Char), isWord c = false → isBlank c = false →
      balance (a ++ c :: b) =
        ⟨(balance a).opened + (balance b).opened, (balance a).closed + (balance b).closed⟩ := by
  refine ⟨fun line hplain => ⟨count_closer_eq_countP hplain [], ?_⟩, fun a b c hword hblank => ?_⟩
  · have hopened := count_opener_eq_countP hplain []
    rwa [← words, endsCase_head_words] at hopened
  · simp only [balance, marks_append_sign hword hblank, List.count_append]

def manyEnds : Text := "BEGIN END\tiF END CASE CASE END IFFY END END Loop".toList

theorem manyEnds_counted :
    balance manyEnds = ⟨2, 3⟩ ∧ balance (manyEnds ++ ';' :: manyEnds) = ⟨4, 6⟩ := by
  obtain ⟨hclosed, hopened⟩ := balance_counts_words.1 manyEnds (by decide)
  have hwords : (words manyEnds).countP Word.closes = 3 ∧ (words manyEnds).countP Word.begins = 1 ∧
      (words manyEnds).countP Word.opensCase = 1 := by decide +kernel
  have hline : balance manyEnds = ⟨2, 3⟩ := by
    rw [Balance.mk.injEq, hclosed, hopened, hwords.1, hwords.2.1, hwords.2.2]
    exact ⟨rfl, rfl⟩
  refine ⟨hline, ?_⟩
  rw [balance_counts_words.2 manyEnds manyEnds ';' (by decide) (by decide), hline]
  rfl

end SqlBatch.Routine
