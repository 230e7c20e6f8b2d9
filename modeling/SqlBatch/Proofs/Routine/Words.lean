import SqlBatch.Proofs.Routine.Block
import SqlBatch.Proofs.Text.Runs
/-!
# Block marks word by word

What one word of a line is to the blocks of a routine, given the text behind it.  A keyword has to
be the whole word, so a `BEGIN` or a `CASE` is an opener (`mark?_opener`), an `END` is a mark that
may take the next word with it (`mark?_end`, `endWord?_append_word`), and any other word is no mark
(`mark?_eq_none_of_word`).
-/

namespace SqlBatch.Keyword

open Text

/-! ## The letters of a keyword -/

/-- The word is the keyword, given in small letters, whatever the case of its ASCII letters. -/
def spells (keyword : String) (word : Text) : Bool := word.map Char.toLower == keyword.toList

theorem fold_eq_iff {c k : Char} (hlong : k = 's' → c ≠ '\u017f') (hk : k.isLower = true)
    (hkelvin : k ≠ 'k') : fold c = k ↔ c.toLower = k := by
  have hlower : ∀ c : Char, c = '\u017f' ∨ c = '\u212a' → c.toLower.isLower = false := by
    rintro c (rfl | rfl) <;> decide
  have hother : c = '\u017f' ∨ c = '\u212a' → c.toLower ≠ k := by
    rintro hc rfl
    rw [hlower c hc] at hk
    exact Bool.false_ne_true hk
  unfold fold
  split
  · next hc => exact iff_of_false (fun hs => hlong hs.symm hc) (hother (.inl hc))
  · split
    · next hc => exact iff_of_false (Ne.symm hkelvin) (hother (.inr hc))
    · rfl

/-- Of a word without a long s the letters fold as those of ASCII do, but for the Kelvin sign. -/
theorem map_fold_eq_iff {keyword : String}
    (hkeyword : Lowercase keyword.toList ∧ 'k' ∉ keyword.toList) {word : Text}
    (hword : 's' ∈ keyword.toList → '\u017f' ∉ word) :
    word.map fold = keyword.toList ↔ spells keyword word = true := by
  rw [spells, beq_iff_eq]
  obtain ⟨hlower, hkelvin⟩ := hkeyword
  generalize keyword.toList = letters at *
  induction word generalizing letters with
  | nil => rfl
  | cons c word ih =>
      cases letters with
      | nil => simp
      | cons k letters =>
          obtain ⟨hk, hlower⟩ := List.forall_mem_cons.1 hlower
          rw [List.mem_cons, not_or] at hkelvin
          have hlong : k = 's' → c ≠ '\u017f' := by
            rintro rfl rfl
            exact hword List.mem_cons_self List.mem_cons_self
          have hrest : 's' ∈ letters → '\u017f' ∉ word := fun hs hmem =>
            hword (List.mem_cons_of_mem _ hs) (List.mem_cons_of_mem _ hmem)
          rw [List.map_cons, List.map_cons, List.cons_eq_cons, List.cons_eq_cons,
            fold_eq_iff hlong hk (Ne.symm hkelvin.1), ih letters hrest hlower hkelvin.2]

theorem map_fold_eq_end_iff {word : Text} :
    word.map fold = "end".toList ↔ spells "end" word = true :=
  map_fold_eq_iff (by decide) fun hs => absurd hs (by decide)

/-! ## Keywords at the start of a word -/

section LeadingRun

variable {word rest : Text}

/-- A keyword that ends with its word is the whole word. -/
theorem filter_drop?_append {keyword : Text} (hkeyword : Lowercase keyword)
    (hword : ∀ c ∈ word, isWord c = true) (hrest : endsWord rest = true) :
    (drop? keyword (word ++ rest)).filter endsWord =
      if word.map fold = keyword then some rest else none := by
  induction keyword generalizing word with
  | nil =>
      cases word with
      | nil => simp [drop?, hrest]
      | cons c word => simp [drop?, endsWord, hword c (by simp)]
  | cons k keyword ih =>
      obtain ⟨hk, hkeyword⟩ := List.forall_mem_cons.1 hkeyword
      cases word with
      | nil =>
          have hone : Lowercase [k] := fun c hc => List.mem_singleton.1 hc ▸ hk
          simp [begins_drop?.eq_none_of_endsWord hone hrest]
      | cons c word =>
          have htail := ih hkeyword fun c hc => hword c (List.mem_cons_of_mem _ hc)
          by_cases hc : fold c = k
          · simp [drop?, hc, htail]
          · simp [drop?, hc]

/-- Of keywords that start with different letters, the one found at a word is the only one that the
word can be. -/
theorem filter_dropAny?_append {keywords : List Text}
    (hkeywords : ∀ keyword ∈ keywords, Lowercase keyword)
    (hletters : (none :: keywords.map List.head?).Nodup) (hword : ∀ c ∈ word, isWord c = true)
    (hrest : endsWord rest = true) :
    (dropAny? keywords (word ++ rest)).filter endsWord =
      if word.map fold ∈ keywords then some rest else none := by
  induction keywords with
  | nil => rfl
  | cons keyword keywords ih =>
      obtain ⟨hkeyword, hkeywords⟩ := List.forall_mem_cons.1 hkeywords
      rw [List.map_cons, List.nodup_cons, List.nodup_cons, List.mem_cons, not_or] at hletters
      obtain ⟨⟨hfirst, hnone⟩, hother, hletters⟩ := hletters
      have hhere := filter_drop?_append hkeyword hword hrest
      have hlater := ih hkeywords (List.nodup_cons.2 ⟨hnone, hletters⟩)
      rw [dropAny?, List.findSome?_cons, ← dropAny?]
      cases hdrop : drop? keyword (word ++ rest) with
      | none =>
          have hne : word.map fold ≠ keyword := fun heq => by simp [hdrop, heq] at hhere
          rw [hlater]
          simp [hne]
      | some after =>
          have hnotMem : word.map fold ∉ keywords := by
            intro hmem
            obtain ⟨k, keyword, rfl⟩ : ∃ k rest, keyword = k :: rest :=
              List.exists_cons_of_ne_nil fun hnil => hfirst (by simp [hnil])
            obtain ⟨c, text, htext, hc⟩ := begins_drop? _ (Option.isSome_of_eq_some hdrop)
            refine hother (List.mem_map.2 ⟨_, hmem, ?_⟩)
            cases word with
            | nil => exact absurd (List.mem_map.2 ⟨_, hmem, rfl⟩) hnone
            | cons d word =>
                obtain ⟨rfl, -⟩ := List.cons.inj htext
                simpa using hc
          rw [hdrop] at hhere
          simpa [hnotMem] using hhere

end LeadingRun

end SqlBatch.Keyword

namespace SqlBatch.Routine

open Text Keyword

/-! ## Marks word by word -/

section Marks

variable {word rest : Text}

/-- Where the word goes on, no other word belongs to an `END`. -/
private theorem endWord?_eq_none_of_inWord {text : Text} (h : endsWord text = false) :
    endWord? text = none := by
  cases text with
  | nil => contradiction
  | cons c text =>
      have hc : isBlank c = false := isBlank_eq_false_of_isWord (by simpa [endsWord] using h)
      simp [endWord?, dropBlanks?, hc]

private theorem marksFrom_true_append (hword : ∀ c ∈ word, isWord c = true) (rest : Text) :
    marksFrom true (word ++ rest) = marksFrom true rest := by
  induction word with
  | nil => rfl
  | cons c word ih =>
      obtain ⟨hc, hword⟩ := List.forall_mem_cons.1 hword
      rw [List.cons_append, marksFrom, if_pos rfl, hc, ih hword]

theorem marks_append_gap (h : LeadingRun false word rest) : marks (word ++ rest) = marks rest :=
  marksFrom_wordless_append h.wordless rest

variable (h : LeadingRun true word rest)

include h

theorem marks_append_of_mark?_eq_none (hmark : mark? (word ++ rest) = none) :
    marks (word ++ rest) = marks rest := by
  obtain ⟨c, word, rfl⟩ := List.exists_cons_of_ne_nil h.ne_nil
  obtain ⟨hc, hword⟩ := List.forall_mem_cons.1 h.uniform
  rw [List.cons_append] at hmark ⊢
  rw [marks, marksFrom_cons_of_none hmark, hc, marksFrom_true_append hword,
    marksFrom_of_endsWord h.endsWord]

theorem marks_append_of_mark?_eq_some {mark : Mark} {after : Text}
    (hmark : mark? (word ++ rest) = some (mark, after)) (hafter : endsWord after = true) :
    marks (word ++ rest) = mark :: marks after := by
  obtain ⟨c, word, rfl⟩ := List.exists_cons_of_ne_nil h.ne_nil
  rw [List.cons_append] at hmark ⊢
  rw [marks, marksFrom_cons_of_some hmark, marksFrom_of_endsWord hafter]

theorem filter_dropAny?_opener :
    (dropAny? ["begin".toList, "case".toList] (word ++ rest)).filter endsWord =
      if word.map fold ∈ ["begin".toList, "case".toList] then some rest else none :=
  filter_dropAny?_append (by decide) (by decide) h.uniform h.endsWord

theorem filter_drop?_end :
    (drop? "end".toList (word ++ rest)).filter endsWord =
      if word.map fold = "end".toList then some rest else none :=
  filter_drop?_append (by decide) h.uniform h.endsWord

theorem mark?_opener (hopener : word.map fold ∈ ["begin".toList, "case".toList]) :
    mark? (word ++ rest) = some (.opener, rest) := by
  have hdrop := filter_dropAny?_opener h
  rw [if_pos hopener, Option.filter_eq_some_iff] at hdrop
  rw [mark?, hdrop.1]
  exact if_pos h.endsWord

theorem mark?_end (hend : word.map fold = "end".toList) :
    mark? (word ++ rest) =
      match endWord? rest with
      | some (next, after) =>
        some (if next.map Char.toLower = "case".toList then .closer else .neutral, after)
      | none => some (.closer, rest) := by
  have hnone : dropAny? ["begin".toList, "case".toList] (word ++ rest) = none := by
    have hbegins : Begins ['b', 'c'] (dropAny? ["begin".toList, "case".toList]) :=
      begins_dropAny? (by decide)
    rw [← Option.not_isSome_iff_eq_none]
    intro hsome
    obtain ⟨c, text, htext, hc⟩ := hbegins _ hsome
    obtain ⟨d, word, rfl⟩ := List.exists_cons_of_ne_nil h.ne_nil
    obtain ⟨rfl, -⟩ := List.cons.inj htext
    rw [(List.cons.inj hend).1] at hc
    exact absurd hc (by decide)
  have hdrop := filter_drop?_end h
  rw [if_pos hend, Option.filter_eq_some_iff] at hdrop
  rw [mark?, hnone, hdrop.1]
  cases hword : endWord? rest with
  | some found => simp only [hword]
  | none => simp only [hword, h.endsWord, if_true]

theorem mark?_eq_none_of_word (hopener : word.map fold ∉ ["begin".toList, "case".toList])
    (hend : word.map fold ≠ "end".toList) : mark? (word ++ rest) = none := by
  have hopen := filter_dropAny?_opener h
  rw [if_neg hopener, Option.filter_eq_none_iff] at hopen
  have hclose := filter_drop?_end h
  rw [if_neg hend, Option.filter_eq_none_iff] at hclose
  rw [mark?]
  cases hdrop : dropAny? ["begin".toList, "case".toList] (word ++ rest) with
  | some after => exact if_neg (hopen after hdrop)
  | none =>
      cases hdrop : drop? "end".toList (word ++ rest) with
      | none => rfl
      | some after =>
          have hinWord := hclose after hdrop
          dsimp only
          rw [endWord?_eq_none_of_inWord (Bool.eq_false_iff.2 hinWord)]
          exact if_neg hinWord

end Marks

/-! ## The word behind an `END` -/

section EndWord

variable {gap next after : Text}

private theorem leadingEndWord?_append_word (hnext : LeadingRun true next after) :
    leadingEndWord? (next ++ after) =
      if next.map fold ∈ endWords then some (next, after) else none := by
  have hletters : ∀ keyword ∈ endWords, Lowercase keyword := by decide
  have hdrop := filter_dropAny?_append hletters (by decide) hnext.uniform hnext.endsWord
  split
  · next hmem =>
    rw [if_pos hmem, Option.filter_eq_some_iff] at hdrop
    rw [leadingEndWord?, hdrop.1, Option.bind_some, if_pos hnext.endsWord]
    simp
  · next hnotMem =>
    rw [if_neg hnotMem, Option.filter_eq_none_iff] at hdrop
    rw [leadingEndWord?, Option.bind_eq_none_iff]
    exact fun rest hrest => if_neg (hdrop rest hrest)

theorem endWord?_append_word (hgap : LeadingRun false gap (next ++ after))
    (hnext : LeadingRun true next after) :
    endWord? (gap ++ (next ++ after)) =
      if AllBlank gap ∧ next.map fold ∈ endWords then some (next, after) else none := by
  have hbind (text : Text) : endWord? text = (dropBlanks? text).bind leadingEndWord? := rfl
  have hfirst : ∀ d ∈ (next ++ after).head?, isBlank d = false := fun d hd =>
    isBlank_eq_false_of_isWord (hgap.ends d hd)
  obtain ⟨c, gap, rfl⟩ := List.exists_cons_of_ne_nil hgap.ne_nil
  rw [hbind, List.cons_append, dropBlanks?, trimStart_append_of_head? hfirst]
  simp only [allBlank_cons]
  by_cases hc : isBlank c = true
  · rw [if_pos hc, Option.bind_some]
    by_cases hblank : AllBlank gap
    · rw [trimStart_eq_nil.2 hblank, List.nil_append, leadingEndWord?_append_word hnext]
      simp [hc, hblank]
    · -- the blanks end within the gap, so no word follows them
      have hends : endsWord (trimStart gap ++ (next ++ after)) = true := by
        obtain ⟨d, rest, hrest⟩ := List.exists_cons_of_ne_nil (mt trimStart_eq_nil.1 hblank)
        have hwordless := (wordless_cons.1 hgap.wordless).2.trimStart
        rw [hrest] at hwordless ⊢
        simp [endsWord, (wordless_cons.1 hwordless).1]
      rw [begins_leadingEndWord?.eq_none_of_endsWord (by decide) hends, if_neg (by tauto)]
  · rw [if_neg hc, Option.bind_none, if_neg (by tauto)]

end EndWord

/-! ## The keyword `END` -/

section MentionsEnd

variable {word rest : Text}

theorem endKeyword?_eq (text : Text) :
    endKeyword? text = ((drop? "end".toList text).filter endsWord).map fun _ => () := by
  unfold endKeyword?
  cases drop? "end".toList text with
  | none => rfl
  | some after => cases hends : endsWord after <;> simp [Option.filter, hends]

private theorem find?_true_append {α : Type} (pattern : Text → Option α)
    (hword : ∀ c ∈ word, isWord c = true) (rest : Text) :
    find? pattern true (word ++ rest) = find? pattern true rest := by
  induction word with
  | nil => rfl
  | cons c word ih =>
      obtain ⟨hc, hword⟩ := List.forall_mem_cons.1 hword
      rw [List.cons_append, find?, if_pos rfl, hc, ih hword]

/-- Behind a word that has ended no other one is under way. -/
private theorem mentionsEnd_eq_of_endsWord (hends : endsWord rest = true) :
    (find? endKeyword? true rest).isSome = mentionsEnd rest := by
  cases rest with
  | nil => rfl
  | cons c rest =>
      have hc : isWord c = false := by simpa [endsWord] using hends
      have hnone : endKeyword? (c :: rest) = none := by
        have hbegins : Begins ['e'] (drop? "end".toList) := begins_drop?
        rw [endKeyword?_eq, hbegins.eq_none_of_notWord (by decide) hc]
        rfl
      rw [mentionsEnd, find?, find?, if_pos rfl, hnone]
      rfl

theorem mentionsEnd_append_gap (h : LeadingRun false word rest) :
    mentionsEnd (word ++ rest) = mentionsEnd rest := by
  have hbegins : Begins ['e'] endKeyword? := by
    intro text hsome
    rw [endKeyword?_eq, Option.isSome_map] at hsome
    obtain ⟨after, hafter⟩ := Option.isSome_iff_exists.1 hsome
    exact begins_drop? text (Option.isSome_of_eq_some (Option.filter_eq_some_iff.1 hafter).1)
  rw [mentionsEnd, find?_wordless_append hbegins (by decide) h.wordless, ← mentionsEnd]

theorem mentionsEnd_append_word (h : LeadingRun true word rest) :
    mentionsEnd (word ++ rest) = (spells "end" word || mentionsEnd rest) := by
  have hhere : (endKeyword? (word ++ rest)).isSome = spells "end" word := by
    rw [endKeyword?_eq, Option.isSome_map, filter_drop?_end h, Bool.eq_iff_iff,
      ← map_fold_eq_end_iff]
    split
    · next hend => exact iff_of_true rfl hend
    · next hend => exact iff_of_false Bool.false_ne_true hend
  obtain ⟨c, word, rfl⟩ := List.exists_cons_of_ne_nil h.ne_nil
  obtain ⟨hc, hword⟩ := List.forall_mem_cons.1 h.uniform
  rw [List.cons_append] at hhere
  rw [mentionsEnd, List.cons_append, find?, if_neg Bool.false_ne_true, ← hhere]
  cases endKeyword? (c :: (word ++ rest)) with
  | some _ => rfl
  | none =>
      rw [hc, find?_true_append _ hword, mentionsEnd_eq_of_endsWord h.endsWord]
      rfl

end MentionsEnd

/-- One of the words of the text is an `END`, whatever the case of its letters. -/
theorem mentionsEnd_iff (text : Text) :
    mentionsEnd text = true ↔ ∃ word ∈ runs text, spells "end" word = true := by
  induction text using induction_on_runs with
  | nil => exact iff_of_false (by decide) (by simp)
  | append word run rest hrun ih =>
      rw [hrun.runs_append, List.exists_mem_cons_iff]
      cases word with
      | true => rw [mentionsEnd_append_word hrun, Bool.or_eq_true, ih]
      | false =>
          have hgap : spells "end" run = false := by
            obtain ⟨c, run, rfl⟩ := List.exists_cons_of_ne_nil hrun.ne_nil
            rw [Bool.eq_false_iff]
            intro hspells
            have hfold := (List.cons.inj (map_fold_eq_end_iff.2 hspells)).1
            have hword := isWord_of_fold (by decide) hfold
            rw [hrun.uniform c List.mem_cons_self] at hword
            contradiction
          rw [mentionsEnd_append_gap hrun, ih, hgap]
          simp

end SqlBatch.Routine
