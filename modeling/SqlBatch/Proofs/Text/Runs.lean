import SqlBatch.Proofs.Text.Word
import Mathlib.Data.List.SplitBy
/-!
# Runs of word characters

A text is cut into maximal runs, of word characters and of other characters in turn.  The run that
a text starts with can be taken off (`LeadingRun.runs_append`), so what holds of the empty text,
and of a run with a text behind it if it holds of that text, holds of every text
(`induction_on_runs`).
-/

namespace SqlBatch.Text

/-- The maximal runs of word characters and of other characters, in order. -/
def runs (text : Text) : List Text := text.splitBy fun c d => isWord c == isWord d

/-- The run stands before the rest and is maximal there; `word` says of which characters it is. -/
structure LeadingRun (word : Bool) (run rest : Text) : Prop where
  ne_nil : run ≠ []
  uniform : ∀ c ∈ run, isWord c = word
  ends : ∀ c ∈ rest.head?, isWord c = !word

@[simp] theorem runs_nil : runs [] = [] := rfl

namespace LeadingRun

variable {word : Bool} {run rest : Text}

theorem runs_append (h : LeadingRun word run rest) : runs (run ++ rest) = run :: runs rest := by
  have hrun : runs run = [run] := by
    refine List.splitBy_of_isChain h.ne_nil (List.Pairwise.isChain ?_)
    refine List.pairwise_of_forall_mem_list fun c hc d hd => ?_
    rw [h.uniform c hc, h.uniform d hd, beq_self_eq_true]
  have hsplit : runs (run ++ rest) = runs run ++ runs rest := by
    refine List.splitBy_append fun c hc d hd => ?_
    rw [h.uniform c (List.mem_of_mem_getLast? hc), h.ends d hd]
    cases word <;> rfl
  rw [hsplit, hrun, List.singleton_append]

theorem endsWord (h : LeadingRun true run rest) : endsWord rest = true := by
  cases rest with
  | nil => rfl
  | cons c rest => simp [Text.endsWord, h.ends c rfl]

theorem endsWord_append (h : LeadingRun false run rest) : Text.endsWord (run ++ rest) = true := by
  obtain ⟨c, run, rfl⟩ := List.exists_cons_of_ne_nil h.ne_nil
  simp [Text.endsWord, h.uniform c List.mem_cons_self]

theorem wordless (h : LeadingRun false run rest) : Wordless run := h.uniform

end LeadingRun

theorem exists_leadingRun {text : Text} (h : text ≠ []) :
    ∃ word run rest, LeadingRun word run rest ∧ text = run ++ rest := by
  obtain ⟨c, text, rfl⟩ := List.exists_cons_of_ne_nil h
  refine ⟨isWord c, (c :: text).takeWhile (isWord · == isWord c),
    (c :: text).dropWhile (isWord · == isWord c), ⟨?_, ?_, ?_⟩,
    List.takeWhile_append_dropWhile.symm⟩
  · simp
  · intro d hd
    simpa using List.mem_takeWhile_imp hd
  · intro d hd
    have hstop := List.head?_dropWhile_not (isWord · == isWord c) (c :: text)
    rw [Option.mem_def.1 hd] at hstop
    simpa [Bool.eq_not] using hstop

theorem Wordless.leadingRun {text : Text} (h : Wordless text) (hne : text ≠ []) :
    LeadingRun false text [] := ⟨hne, h, fun _ hc => nomatch hc⟩

/-- Behind a word stands another one, with a gap between, or none at all. -/
theorem wordless_or_exists_word {text : Text} (h : endsWord text = true) :
    Wordless text ∨ ∃ gap next after, LeadingRun false gap (next ++ after) ∧
      LeadingRun true next after ∧ text = gap ++ (next ++ after) := by
  by_cases hnil : text = []
  · exact .inl (hnil ▸ wordless_nil)
  obtain ⟨word, gap, rest, hgap, rfl⟩ := exists_leadingRun hnil
  obtain ⟨c, gap, rfl⟩ := List.exists_cons_of_ne_nil hgap.ne_nil
  obtain rfl : word = false := by
    rw [← hgap.uniform c List.mem_cons_self]
    simpa [endsWord] using h
  by_cases hrest : rest = []
  · rw [hrest, List.append_nil]
    exact .inl hgap.wordless
  obtain ⟨word, next, after, hnext, rfl⟩ := exists_leadingRun hrest
  obtain ⟨d, next, rfl⟩ := List.exists_cons_of_ne_nil hnext.ne_nil
  obtain rfl : word = true := by
    rw [← hnext.uniform d List.mem_cons_self]
    exact hgap.ends d rfl
  exact .inr ⟨_, _, _, hgap, hnext, rfl⟩

theorem induction_on_runs {P : Text → Prop} (nil : P [])
    (append : ∀ word run rest, LeadingRun word run rest → P rest → P (run ++ rest))
    (text : Text) : P text := by
  induction hlength : text.length using Nat.strong_induction_on generalizing text with
  | _ n ih =>
    by_cases hnil : text = []
    · rwa [hnil]
    · obtain ⟨word, run, rest, hrun, rfl⟩ := exists_leadingRun hnil
      have hpos := List.length_pos_iff.2 hrun.ne_nil
      refine append word run rest hrun (ih rest.length ?_ rest rfl)
      rw [List.length_append] at hlength
      omega

end SqlBatch.Text
