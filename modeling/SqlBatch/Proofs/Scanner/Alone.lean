import SqlBatch.Proofs.Scanner.Scope
import SqlBatch.Proofs.Routine.Structure
/-!
# Scripts of one statement

A script that is cut into one statement, not a directive, is the lines of that statement with
nothing but blank lines and semicolons around them (`exists_alone`).  So the script without its
delimiter is the text of the statement in another layout (`Alone.relaid`).
-/

namespace SqlBatch.Scanner

open Text Routine

/-- The first delimiter stays in force where no directive is among the statements. -/
theorem delimiter_after {script : Text} (hunfolded : Unfolded script)
    (hplain : ∀ statement ∈ split script, statement.kind ≠ .directive) {k : Nat}
    (hk : k ≤ (lines script).length) : (after (lines script) k).delimiter = Delimiter.initial := by
  have hkept : ∀ statements : List Statement,
      (∀ statement ∈ statements, statement.kind ≠ .directive) →
        statements.foldl Statement.behind Delimiter.initial = Delimiter.initial := by
    intro statements h
    induction statements with
    | nil => rfl
    | cons statement rest ih =>
        obtain ⟨hfirst, hrest⟩ := List.forall_mem_cons.1 h
        rw [List.foldl_cons, Statement.behind, if_neg hfirst]
        exact ih hrest
  rw [← (inForce_after hunfolded hk).delimiter]
  exact hkept _ fun statement hmem => hplain statement (mem_split_of_mem_after hk hmem)

/-- The lines of a script are those of `statement`, with slight ones before and behind them. -/
structure Alone (script : Text) (statement : Statement) (front body back : List Text) : Prop where
  lines_eq : lines script = front ++ body ++ back
  front : ∀ line ∈ front, Slight line
  back : ∀ line ∈ back, Slight line
  text : ∃ w, AllBlank w ∧
    trim (block body) = statement.text ++ (w ++ statement.terminator.getD [])
  terminator : ∀ d ∈ statement.terminator, d = Delimiter.initial

theorem exists_alone {script : Text} {statement : Statement} (hsplit : split script = [statement])
    (hunfolded : Unfolded script) (hkind : statement.kind ≠ .directive) :
    ∃ front body back, Alone script statement front body back := by
  have hplain : ∀ other ∈ split script, other.kind ≠ .directive := by
    rw [hsplit]
    exact List.forall_mem_singleton.2 hkind
  obtain ⟨segments, hsettled, hstatements⟩ := exists_settled script
  rw [hsplit, List.map_eq_singleton_iff] at hstatements
  obtain ⟨seg, rfl, rfl⟩ := hstatements
  have hfits := hsettled.fits seg (by simp)
  have hfirst_pos := hfits.first_pos
  have hfirst_le := hfits.first_le
  have hlast_le := hfits.last_le
  have hslight : ∀ i, 0 < i → i ≤ (lines script).length → (i < seg.first ∨ seg.last < i) →
      Slight (lineAt (lines script) i) := by
    intro i hpos hle hout
    have hbare := hsettled.bare i hpos hle fun hcovered => by
      obtain ⟨other, hother, hfirst, hlast⟩ := hcovered
      obtain rfl := List.mem_singleton.1 hother
      omega
    rwa [Bare, delimiter_after hunfolded hplain (by omega : i - 1 ≤ (lines script).length)] at hbare
  have hterminator : ∀ d ∈ seg.statement.terminator, d = Delimiter.initial := by
    have hended := split_endedInForce hunfolded
    rw [hsplit] at hended
    exact hended.1
  refine ⟨span (lines script) 1 (seg.first - 1), span (lines script) seg.first seg.last,
    span (lines script) (seg.last + 1) (lines script).length, ?_, ?_, ?_, ?_, hterminator⟩
  · have hbefore := span_append (lines script) (by omega : 1 ≤ seg.first - 1 + 1)
      (by omega : seg.first - 1 ≤ seg.last)
    rw [Nat.sub_add_cancel hfirst_pos] at hbefore
    rw [hbefore, span_append (lines script) (by omega) hlast_le, span_all]
  · intro line hmem
    obtain ⟨i, ⟨hpos, hlt⟩, rfl⟩ := mem_span.1 hmem
    exact hslight i hpos (by omega) (.inl (by omega))
  · intro line hmem
    obtain ⟨i, ⟨hlt, hle⟩, rfl⟩ := mem_span.1 hmem
    exact hslight i (by omega) hle (.inr (by omega))
  · rw [trim_block]
    exact hfits.trim_passage

namespace Alone

variable {script : Text} {statement : Statement} {front body back : List Text}
  (h : Alone script statement front body back)

include h

/-- The script and its one statement differ in layout only. -/
theorem relaid {space : Char → Prop} (hspaced : Spaced space ('\n' :: script)) :
    Relaid space (Delimiter.strip Delimiter.initial script) statement.text := by
  have hfeed : space '\n' := hspaced '\n' List.mem_cons_self (by decide)
  have hscript : Spaced space script := hspaced.mono (List.subset_cons_self _ _)
  have hline : ∀ line ∈ front ++ body ++ back, Spaced space line := by
    rw [← h.lines_eq]
    exact fun line hmem => hscript.mono (isInfix_of_mem_lines hmem).subset
  simp only [List.forall_mem_append] at hline
  obtain ⟨⟨hfront, hbody⟩, hback⟩ := hline
  have hlines : Relaid space script (block body) := by
    refine .trans _ _ _ (.symm _ _ (relaid_block_lines hspaced)) ?_
    rw [h.lines_eq, block_append, block_append]
    exact .trans _ _ _ (relaid_append_block h.back hback hfeed _)
      (relaid_block_append h.front hfront hfeed _)
  have htext : Relaid space (block body) statement.text := by
    have hblock : Spaced space (block body) := spaced_block hbody hfeed
    obtain ⟨w, hw, htrim⟩ := h.text
    have hsub : w ⊆ block body := fun c hc => (trim_isInfix (block body)).subset (by
      rw [htrim]
      simp [hc])
    have hbehind : Relaid space (statement.text ++ w) statement.text :=
      .rel _ _ (.behind ((hblock.mono hsub).of_allBlank hw) _)
    refine .trans _ _ _ (.symm _ _ (relaid_trim hblock)) ?_
    rw [htrim]
    cases hterminator : statement.terminator with
    | none => rwa [Option.getD_none, List.append_nil]
    | some d =>
        rw [Option.getD_some, h.terminator d hterminator, ← List.append_assoc]
        exact .trans _ _ _ (.rel _ _ (.semicolon _)) hbehind
  exact .trans _ _ _ (relaid_strip hscript) (.trans _ _ _ hlines htext)

/-- What a script holds of a routine, its one statement holds. -/
theorem akin : Akin script statement.text := by
  have hspaced : Spaced (fun c => isBlank c = true) ('\n' :: script) := fun _ _ hblank => hblank
  have hstrip := relaid_strip (hspaced.mono (List.subset_cons_self _ _))
  exact akin_of_relaid (fun _ => id) (.trans _ _ _ (.symm _ _ hstrip) (h.relaid hspaced))

theorem ink_eq : ∃ before behind, (∀ c ∈ behind, c = ';') ∧
    ink script = before ++ ink statement.source ++ behind := by
  obtain ⟨w, hw, htext⟩ := h.text
  refine ⟨front.flatMap ink, back.flatMap ink, ?_, ?_⟩
  · intro c hc
    obtain ⟨line, hline, hmem⟩ := List.mem_flatMap.1 hc
    rcases h.back line hline with hblank | hlone
    · simp [ink_of_allBlank hblank] at hmem
    · rw [← ink_trim, hlone] at hmem
      exact List.mem_singleton.1 hmem
  · have hbody : body.flatMap ink = ink statement.source := by
      rw [← ink_block, ← ink_trim, htext, ink_append, ink_append, ink_of_allBlank hw,
        List.nil_append, Statement.source, ink_append]
    rw [← flatMap_ink_lines, h.lines_eq, List.flatMap_append, List.flatMap_append, hbody]

theorem not_allBlank (hink : ¬ AllBlank statement.text) : ¬ AllBlank script := by
  intro hblank
  obtain ⟨before, behind, -, hscript⟩ := h.ink_eq
  rw [ink_of_allBlank hblank, Statement.source, ink_append] at hscript
  simp only [List.nil_eq, List.append_eq_nil_iff] at hscript
  exact hink (ink_eq_nil.1 hscript.1.2.1)

/-- Where the delimiter ends the statement, a semicolon ends the script. -/
theorem ends (hterminated : statement.isTerminated = true) :
    Delimiter.initial <:+ trim script := by
  obtain ⟨d, hd⟩ := Option.isSome_iff_exists.1 hterminated
  obtain rfl := h.terminator d hd
  obtain ⟨before, behind, hbehind, hink⟩ := h.ink_eq
  have hsource : ink statement.source = ink statement.text ++ Delimiter.initial := by
    rw [Statement.source, hd, Option.getD_some, ink_append]
    rfl
  have hlast : (ink script).getLast? = some ';' := by
    rw [hink, hsource, ← List.append_assoc]
    by_cases hnil : behind = []
    · rw [hnil, List.append_nil, Delimiter.initial, List.getLast?_concat]
    · rw [List.getLast?_append_of_ne_nil _ hnil, List.getLast?_eq_some_getLast hnil,
        hbehind _ (List.getLast_mem hnil)]
  rw [getLast?_ink] at hlast
  obtain ⟨text, htext⟩ := List.getLast?_eq_some_iff.1 hlast
  exact ⟨text, htext.symm⟩

end Alone

end SqlBatch.Scanner
