import SqlBatch.Proofs.Text.Lines
import Mathlib.Logic.Relation
/-!
# Layout

`Relaid` are two texts of SQL that differ in their layout only: in white space around them and at the
ends of their lines, in semicolons on lines of their own before them, and in semicolons behind them.
So a text is relaid by its delimiter being stripped, by being put together from its lines, and by
slight lines before and behind it.
-/

namespace SqlBatch.Text

/-- The first text has a piece of layout more.  `space` says what white space is. -/
inductive LaidOut (space : Char → Prop) : Text → Text → Prop where
  | before {w : Text} (hw : ∀ c ∈ w, space c) (text : Text) : LaidOut space (w ++ text) text
  | behind {w : Text} (hw : ∀ c ∈ w, space c) (text : Text) : LaidOut space (text ++ w) text
  | lineEnd {w : Text} (hw : ∀ c ∈ w, space c) (hline : '\n' ∉ w) (u v : Text) :
    LaidOut space (u ++ w ++ '\n' :: v) (u ++ '\n' :: v)
  | semicolonLine (text : Text) : LaidOut space (Delimiter.initial ++ '\n' :: text) text
  | semicolon (text : Text) : LaidOut space (text ++ Delimiter.initial) text

abbrev Relaid (space : Char → Prop) : Text → Text → Prop := Relation.EqvGen (LaidOut space)

theorem LaidOut.mono {space other : Char → Prop} (hother : ∀ c, space c → other c) {u v : Text}
    (h : LaidOut space u v) : LaidOut other u v := by
  cases h with
  | before hw => exact .before (fun c hc => hother c (hw c hc)) _
  | behind hw => exact .behind (fun c hc => hother c (hw c hc)) _
  | lineEnd hw hline => exact .lineEnd (fun c hc => hother c (hw c hc)) hline _ _
  | semicolonLine => exact .semicolonLine _
  | semicolon => exact .semicolon _

theorem Relaid.eq {α : Type} {space : Char → Prop} {f : Text → α} {u v : Text}
    (h : Relaid space u v) (hf : ∀ u v, LaidOut space u v → f u = f v) : f u = f v :=
  (eq_equivalence.comap f).eqvGen_iff.1 (h.mono hf)

def Spaced (space : Char → Prop) (text : Text) : Prop := ∀ c ∈ text, isBlank c = true → space c

namespace Spaced

variable {space : Char → Prop} {text : Text}

theorem mono (h : Spaced space text) {part : Text} (hpart : part ⊆ text) : Spaced space part :=
  fun c hc => h c (hpart hc)

theorem of_allBlank (h : Spaced space text) (hblank : AllBlank text) : ∀ c ∈ text, space c :=
  fun c hc => h c hc (hblank c hc)

end Spaced

theorem spaced_block {space : Char → Prop} {parts : List Text}
    (h : ∀ part ∈ parts, Spaced space part) (hfeed : space '\n') : Spaced space (block parts) := by
  intro c hc hblank
  obtain ⟨part, hpart, hmem⟩ := List.mem_flatMap.1 hc
  rw [List.mem_append, List.mem_singleton] at hmem
  rcases hmem with hmem | rfl
  · obtain ⟨w, -, hw⟩ := exists_eq_trimEnd_append part
    exact h part hpart c (by rw [hw]; exact List.mem_append_left _ hmem) hblank
  · exact hfeed

section Relaid

variable {space : Char → Prop} {text : Text}

/-! ## The ends of a text -/

theorem relaid_trimEnd (h : Spaced space text) : Relaid space (trimEnd text) text := by
  obtain ⟨w, hw, htext⟩ := exists_eq_trimEnd_append text
  have hspace : Spaced space w := h.mono (by rw [htext]; exact List.subset_append_right ..)
  conv => arg 3; rw [htext]
  exact .symm _ _ (.rel _ _ (.behind (hspace.of_allBlank hw) _))

theorem relaid_trimStart (h : Spaced space text) : Relaid space (trimStart text) text := by
  obtain ⟨w, hw, htext⟩ := exists_eq_append_trimStart text
  have hspace : Spaced space w := h.mono (by rw [htext]; exact List.subset_append_left ..)
  conv => arg 3; rw [htext]
  exact .symm _ _ (.rel _ _ (.before (hspace.of_allBlank hw) _))

theorem relaid_trim (h : Spaced space text) : Relaid space (trim text) text :=
  .trans _ _ _ (relaid_trimEnd (h.mono (List.dropWhile_subset _))) (relaid_trimStart h)

theorem relaid_strip (h : Spaced space text) :
    Relaid space (Delimiter.strip Delimiter.initial text) text := by
  refine .trans _ _ _ ?_ (relaid_trim h)
  unfold Delimiter.strip
  cases hbody : Delimiter.initial.isSuffixOf? (trim text) with
  | none => exact .refl _
  | some body =>
      have hend := List.isSuffixOf?_eq_some_iff_append_eq.1 hbody
      have hspaced : Spaced space body := h.mono fun c hc =>
        (trim_isInfix text).subset (by rw [← hend]; exact List.mem_append_left _ hc)
      rw [← hend]
      exact .trans _ _ _ (relaid_trimEnd hspaced) (.symm _ _ (.rel _ _ (.semicolon body)))

/-! ## Lines -/

private theorem trimEnd_dropReturn (line : Text) :
    trimEnd ((['\r'].isSuffixOf? line).getD line) = trimEnd line := by
  obtain ⟨w, hw, hreturn⟩ := exists_eq_append_of_dropReturn line
  conv_rhs => rw [hreturn]
  rw [trimEnd_append_blank hw]

private theorem block_lines_append {line : Text} (h : '\n' ∉ line) (rest : Text) :
    block (lines (line ++ '\n' :: rest)) = trimEnd line ++ '\n' :: block (lines rest) := by
  rw [lines_append_lineFeed h, block, List.flatMap_cons, trimEnd_dropReturn, List.append_assoc]
  rfl

/-- The lines are relaid one by one, behind those before them. -/
theorem relaid_append_block_lines (h : Spaced space text) (hfeed : space '\n') (front : Text) :
    Relaid space (front ++ block (lines text)) (front ++ text) := by
  induction text using mark_induction '\n' generalizing front with
  | last items hitems =>
      by_cases hnil : items = []
      · rw [hnil]
        exact .refl _
      obtain ⟨w, hw, hend⟩ := exists_eq_trimEnd_append items
      have hspace : Spaced space w := h.mono (by rw [hend]; exact List.subset_append_right ..)
      have hblock : front ++ block (lines items) = front ++ trimEnd items ++ ['\n'] := by
        rw [lines_of_notMem hitems hnil, List.append_assoc]
        exact congrArg (front ++ ·) (List.append_nil _)
      have hitems : front ++ items = front ++ trimEnd items ++ w := by
        rw [List.append_assoc, ← hend]
      rw [hblock, hitems]
      exact .trans _ _ _ (.rel _ _ (.behind (by simpa using hfeed) _))
        (.symm _ _ (.rel _ _ (.behind (hspace.of_allBlank hw) _)))
  | more items rest hitems ih =>
      obtain ⟨w, hw, hend⟩ := exists_eq_trimEnd_append items
      have hsub : w ⊆ items := by rw [hend]; exact List.subset_append_right ..
      have hspace : Spaced space w := h.mono fun c hc => List.mem_append_left _ (hsub hc)
      have hrest : Spaced space rest := h.mono fun c hc => by simp [hc]
      have hblock : front ++ block (lines (items ++ '\n' :: rest)) =
          front ++ trimEnd items ++ ['\n'] ++ block (lines rest) := by
        rw [block_lines_append hitems]
        simp
      have htext : front ++ (items ++ '\n' :: rest) =
          front ++ trimEnd items ++ w ++ '\n' :: rest := by
        conv_lhs => rw [hend]
        simp
      rw [hblock, htext]
      refine .trans _ _ _ (ih hrest _) ?_
      rw [List.append_assoc _ ['\n'] rest, List.singleton_append]
      exact .symm _ _ (.rel _ _
        (.lineEnd (hspace.of_allBlank hw) (fun hmem => hitems (hsub hmem)) _ _))

theorem relaid_block_lines (h : Spaced space ('\n' :: text)) :
    Relaid space (block (lines text)) text :=
  relaid_append_block_lines (h.mono (List.subset_cons_self _ _)) (h '\n' (by simp) (by decide)) []

/-! ## Slight lines -/

/-- A line with nothing on it, or with nothing but a semicolon. -/
def Slight (line : Text) : Prop := AllBlank line ∨ trim line = Delimiter.initial

theorem Slight.trimEnd_eq {line : Text} (h : Slight line) :
    trimEnd line = [] ∨ ∃ w, AllBlank w ∧ w ⊆ line ∧ trimEnd line = w ++ Delimiter.initial := by
  rcases h with hblank | hlone
  · exact .inl (trimEnd_eq_nil.2 hblank)
  · obtain ⟨w, hw, hstart⟩ := exists_eq_append_trimStart (trimEnd line)
    obtain ⟨v, -, hend⟩ := exists_eq_trimEnd_append line
    refine .inr ⟨w, hw, ?_, by rw [← hlone, ← trimStart_trimEnd]; exact hstart⟩
    rw [hend, hstart, List.append_assoc]
    exact List.subset_append_left ..

variable {slight : List Text} (hslight : ∀ line ∈ slight, Slight line)
  (hspaced : ∀ line ∈ slight, Spaced space line) (hfeed : space '\n')

include hslight hspaced hfeed

theorem relaid_block_append (text : Text) : Relaid space (block slight ++ text) text := by
  induction slight with
  | nil => exact .refl text
  | cons line slight ih =>
      obtain ⟨hline, hrest⟩ := List.forall_mem_cons.1 hslight
      obtain ⟨hspace, hspaces⟩ := List.forall_mem_cons.1 hspaced
      have hblock : block (line :: slight) ++ text =
          trimEnd line ++ '\n' :: (block slight ++ text) := by
        simp [block]
      rw [hblock]
      refine .trans _ _ _ ?_ (ih hrest hspaces)
      rcases hline.trimEnd_eq with hnil | ⟨w, hw, hsub, hlone⟩
      · rw [hnil]
        exact .rel _ _ (.before (w := ['\n']) (by simpa using hfeed) _)
      · rw [hlone, List.append_assoc]
        exact .trans _ _ _ (.rel _ _ (.before ((hspace.mono hsub).of_allBlank hw) _))
          (.rel _ _ (.semicolonLine _))

theorem relaid_append_block (text : Text) : Relaid space (text ++ block slight) text := by
  induction slight generalizing text with
  | nil =>
      rw [block_nil, List.append_nil]
      exact .refl text
  | cons line slight ih =>
      obtain ⟨hline, hrest⟩ := List.forall_mem_cons.1 hslight
      obtain ⟨hspace, hspaces⟩ := List.forall_mem_cons.1 hspaced
      have hblock : text ++ block (line :: slight) =
          text ++ trimEnd line ++ ['\n'] ++ block slight := by
        simp [block]
      rw [hblock]
      refine .trans _ _ _ (ih hrest hspaces _) ?_
      refine .trans _ _ _ (.rel _ _ (.behind (by simpa using hfeed) _)) ?_
      rcases hline.trimEnd_eq with hnil | ⟨w, hw, hsub, hlone⟩
      · rw [hnil, List.append_nil]
        exact .refl text
      · rw [hlone, ← List.append_assoc]
        exact .trans _ _ _ (.rel _ _ (.semicolon _))
          (.rel _ _ (.behind ((hspace.mono hsub).of_allBlank hw) _))

end Relaid

end SqlBatch.Text
