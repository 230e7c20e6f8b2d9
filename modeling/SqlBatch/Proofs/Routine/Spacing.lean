import SqlBatch.Proofs.Routine.Block
import SqlBatch.Proofs.Routine.Header
import SqlBatch.Proofs.Text.Lines
/-!
# Blanks between words

Routine headers, the names behind them and block marks are found in a text whatever blanks stand
between its words: `squeeze` puts one space in the place of each run of blanks, and the patterns give
of the squeezed text what they give of the text itself.  So it does not count how the lines of a text
end (`starts_lineEnd`, `name?_lineEnd`), nor how wide the gap before a tail is (`Quiet.of_space`).
-/

namespace SqlBatch.Text

/-- A text with one space in the place of each run of blanks; `blank` says whether such a run is
under way before it. -/
def squeezeFrom : Bool → Text → Text
  | _, [] => []
  | blank, c :: rest =>
    if isBlank c then (if blank then [] else [' ']) ++ squeezeFrom true rest
    else c :: squeezeFrom false rest

def squeeze (text : Text) : Text := squeezeFrom false text

@[simp] theorem squeeze_nil : squeeze [] = [] := rfl

theorem squeeze_cons_blank {c : Char} (h : isBlank c = true) (text : Text) :
    squeeze (c :: text) = ' ' :: squeezeFrom true text := by
  rw [squeeze, squeezeFrom, if_pos h]
  rfl

theorem squeeze_cons_ink {c : Char} (h : isBlank c = false) (text : Text) :
    squeeze (c :: text) = c :: squeeze text := by
  rw [squeeze, squeezeFrom, h]
  rfl

theorem squeezeFrom_true (text : Text) : squeezeFrom true text = squeeze (trimStart text) := by
  induction text with
  | nil => rfl
  | cons c text ih =>
      rw [squeezeFrom, trimStart, List.dropWhile_cons, ← trimStart]
      split
      · rw [if_pos rfl, ih, List.nil_append]
      · next hc => rw [squeeze_cons_ink (Bool.eq_false_iff.2 hc), squeeze]

theorem trimStart_squeezeFrom_true (text : Text) :
    trimStart (squeezeFrom true text) = squeezeFrom true text := by
  induction text with
  | nil => rfl
  | cons c text ih =>
      rw [squeezeFrom]
      split
      · rwa [if_pos rfl, List.nil_append]
      · next hc => exact List.dropWhile_cons_of_neg hc

theorem trimStart_squeeze (text : Text) : trimStart (squeeze text) = squeeze (trimStart text) := by
  cases text with
  | nil => rfl
  | cons c text =>
      by_cases hc : isBlank c = true
      · have hspace : trimStart (' ' :: squeezeFrom true text) =
            trimStart (squeezeFrom true text) := rfl
        have htrim : trimStart (c :: text) = trimStart text := List.dropWhile_cons_of_pos hc
        rw [squeeze_cons_blank hc, hspace, trimStart_squeezeFrom_true, squeezeFrom_true, htrim]
      · have hink : isBlank c = false := Bool.eq_false_iff.2 hc
        have htrim : ∀ rest, trimStart (c :: rest) = c :: rest :=
          fun rest => List.dropWhile_cons_of_neg hc
        rw [squeeze_cons_ink hink, htrim, htrim, squeeze_cons_ink hink]

/-! ## Texts that differ in blanks -/

theorem squeezeFrom_append (blank : Bool) (u v : Text) :
    squeezeFrom blank (u ++ v) =
      squeezeFrom blank u ++ squeezeFrom ((u.getLast?.map isBlank).getD blank) v := by
  induction u generalizing blank with
  | nil => rfl
  | cons c u ih =>
      have hlast : ((c :: u).getLast?.map isBlank).getD blank =
          (u.getLast?.map isBlank).getD (isBlank c) := by
        rw [List.getLast?_cons]
        cases u.getLast? <;> rfl
      rw [hlast, List.cons_append, squeezeFrom, squeezeFrom]
      cases isBlank c <;> simp [ih]

theorem squeezeFrom_blanks (blank : Bool) {w : Text} (hw : AllBlank w) (hne : w ≠ []) :
    squeezeFrom blank w = if blank then [] else [' '] := by
  have htrue : ∀ {v : Text}, AllBlank v → squeezeFrom true v = [] := by
    intro v hv
    rw [squeezeFrom_true, trimStart_eq_nil.2 hv, squeeze_nil]
  obtain ⟨c, rest, rfl⟩ := List.exists_cons_of_ne_nil hne
  obtain ⟨hc, hrest⟩ := allBlank_cons.1 hw
  rw [squeezeFrom, if_pos hc, htrue hrest, List.append_nil]

/-- How long a run of blanks is does not count. -/
theorem squeezeFrom_congr_blanks (blank : Bool) (u : Text) {v w : Text} (hv : AllBlank v)
    (hw : AllBlank w) (hv_ne : v ≠ []) (hw_ne : w ≠ []) {x y : Text}
    (h : squeezeFrom true x = squeezeFrom true y) :
    squeezeFrom blank (u ++ v ++ x) = squeezeFrom blank (u ++ w ++ y) := by
  have hlast : ∀ {z : Text}, AllBlank z → z ≠ [] → ∀ b, (z.getLast?.map isBlank).getD b = true := by
    intro z hz hne b
    rw [List.getLast?_eq_some_getLast hne, Option.map_some, Option.getD_some]
    exact hz _ (List.getLast_mem hne)
  rw [List.append_assoc, List.append_assoc, squeezeFrom_append blank u, squeezeFrom_append blank u,
    squeezeFrom_append _ v, squeezeFrom_append _ w, squeezeFrom_blanks _ hv hv_ne,
    squeezeFrom_blanks _ hw hw_ne, hlast hv hv_ne, hlast hw hw_ne, h]

/-- One space is as good as any other gap. -/
theorem squeeze_gap {w : Text} (hw : AllBlank w) (hne : w ≠ []) (u v : Text) :
    squeeze (u ++ w ++ v) = squeeze (u ++ [' '] ++ v) :=
  squeezeFrom_congr_blanks false u hw (by decide) hne (by simp) rfl

theorem squeeze_lineEnd {w : Text} (hw : AllBlank w) (u v : Text) :
    squeeze (u ++ w ++ '\n' :: v) = squeeze (u ++ '\n' :: v) := by
  have hfeed : AllBlank ['\n'] := by decide
  have hsame := squeezeFrom_congr_blanks false u (allBlank_append.2 ⟨hw, hfeed⟩) hfeed (by simp)
    (by simp) (rfl : squeezeFrom true v = squeezeFrom true v)
  simpa [squeeze] using hsame

end SqlBatch.Text

namespace SqlBatch.Keyword

open Text

/-! ## Patterns over squeezed texts -/

abbrev Squeezes {α : Type} (press : α → α) (pattern : Text → Option α) : Prop :=
  Respects squeeze press pattern

section Squeezes

variable {α : Type} {press : α → α} {pattern : Text → Option α}

theorem squeezes_drop? {keyword : Text} (hkeyword : Lowercase keyword) :
    Squeezes squeeze (drop? keyword) := by
  induction keyword with
  | nil => exact fun text => rfl
  | cons k keyword ih =>
      obtain ⟨hk, hrest⟩ := List.forall_mem_cons.1 hkeyword
      have hone : Lowercase [k] := List.forall_mem_singleton.2 hk
      intro text
      cases text with
      | nil => rfl
      | cons c text =>
          by_cases hc : isBlank c = true
          · rw [squeeze_cons_blank hc, begins_drop?.eq_none_of_notWord hone (by decide),
              begins_drop?.eq_none_of_notWord hone (isWord_eq_false_of_isBlank hc)]
            rfl
          · rw [squeeze_cons_ink (Bool.eq_false_iff.2 hc), drop?, drop?]
            split
            · exact ih hrest text
            · rfl

theorem squeezes_dropAny? {keywords : List Text}
    (hkeywords : ∀ keyword ∈ keywords, Lowercase keyword) : Squeezes squeeze (dropAny? keywords) :=
  respects_dropAny? fun keyword hmem => squeezes_drop? (hkeywords keyword hmem)

theorem squeezes_dropBlanks? : Squeezes squeeze dropBlanks? := by
  intro text
  cases text with
  | nil => rfl
  | cons c text =>
      by_cases hc : isBlank c = true
      · have hspace : dropBlanks? (' ' :: squeezeFrom true text) =
            some (trimStart (squeezeFrom true text)) := rfl
        rw [squeeze_cons_blank hc, hspace, trimStart_squeezeFrom_true, squeezeFrom_true, dropBlanks?,
          if_pos hc, Option.map_some]
      · rw [squeeze_cons_ink (Bool.eq_false_iff.2 hc), dropBlanks?, dropBlanks?, if_neg hc,
          if_neg hc]
        rfl

theorem squeezes_dropSpaced? {keyword : Text} (hkeyword : Lowercase keyword) :
    Squeezes squeeze (dropSpaced? keyword) := (squeezes_drop? hkeyword).bind squeezes_dropBlanks?

theorem endsWord_squeeze (text : Text) : endsWord (squeeze text) = endsWord text := by
  cases text with
  | nil => rfl
  | cons c text =>
      by_cases hc : isBlank c = true
      · rw [squeeze_cons_blank hc, endsWord, endsWord, isWord_eq_false_of_isBlank hc]
        decide
      · rw [squeeze_cons_ink (Bool.eq_false_iff.2 hc), endsWord, endsWord]

/-- What stands anywhere in the squeezed text stands in the text as well. -/
theorem find?_squeezeFrom {letters : Text} (hp : Squeezes press pattern)
    (hb : Begins letters pattern) (hletters : Lowercase letters) (text : Text) :
    ∀ blank inWord, (blank = true → inWord = false) →
      find? pattern inWord (squeezeFrom blank text) = (find? pattern inWord text).map press := by
  have hnone : ∀ {c : Char} {rest : Text}, isBlank c = true → pattern (c :: rest) = none :=
    fun hc => hb.eq_none_of_notWord hletters (isWord_eq_false_of_isBlank hc)
  induction text with
  | nil => exact fun _ _ _ => rfl
  | cons c text ih =>
      intro blank inWord hidle
      by_cases hc : isBlank c = true
      · have hrest := ih true false fun _ => rfl
        have hspace : find? pattern inWord (' ' :: squeezeFrom true text) =
            find? pattern false (squeezeFrom true text) := by
          have hword : isWord ' ' = false := by decide
          rw [find?, hnone (by decide), hword, ite_self]
        rw [squeezeFrom, if_pos hc, find?, hnone hc, isWord_eq_false_of_isBlank hc, ite_self]
        cases blank with
        | true => rwa [hidle rfl, if_pos rfl, List.nil_append]
        | false => exact hspace.trans hrest
      · have hhere := hp (c :: text)
        rw [squeeze_cons_ink (Bool.eq_false_iff.2 hc), squeeze] at hhere
        have hrest := ih false (isWord c) fun h => absurd h Bool.false_ne_true
        rw [squeezeFrom, if_neg hc, find?, find?, hhere, hrest]
        cases pattern (c :: text) with
        | none =>
            rw [Option.map_none]
            split <;> rfl
        | some answer =>
            rw [Option.map_some]
            split <;> rfl

theorem find?_squeeze {letters : Text} (hp : Squeezes press pattern) (hb : Begins letters pattern)
    (hletters : Lowercase letters) (text : Text) :
    find? pattern false (squeeze text) = (find? pattern false text).map press :=
  find?_squeezeFrom hp hb hletters text false false fun _ => rfl

end Squeezes

end SqlBatch.Keyword

namespace SqlBatch.Routine

open Text Keyword

/-! ## Headers -/

private theorem squeezes_sort? : Squeezes squeeze sort? := by
  have hend : Squeezes squeeze fun rest => if endsWord rest then some rest else none := by
    intro rest
    simp only [endsWord_squeeze]
    split <;> rfl
  exact (squeezes_dropAny? (by decide)).bind hend

private theorem squeezes_account? : Squeezes squeeze account? := by
  have hskip : Squeezes squeeze skipBlanks? := fun text => congrArg some (trimStart_squeeze text)
  have hsign : Squeezes squeeze equals? := by
    intro text
    cases text with
    | nil => rfl
    | cons c text =>
        by_cases hc : isBlank c = true
        · have hne : ¬ '=' = c := by
            rintro rfl
            revert hc
            decide
          rw [squeeze_cons_blank hc]
          simp [equals?, List.isPrefixOf?, hne]
        · rw [squeeze_cons_ink (Bool.eq_false_iff.2 hc)]
          by_cases hsign : '=' = c <;> simp [equals?, List.isPrefixOf?, hsign]
  have hsolid : Squeezes squeeze skipSolid? := by
    intro text
    induction text with
    | nil => rfl
    | cons c text ih =>
        by_cases hc : isBlank c = true
        · have hstop : ∀ {d : Char} {rest : Text}, isBlank d = true →
              skipSolid? (d :: rest) = some (d :: rest) :=
            fun hd => congrArg some (List.dropWhile_cons_of_neg (by simp [hd]))
          rw [squeeze_cons_blank hc, hstop (by decide), hstop hc, Option.map_some,
            squeeze_cons_blank hc]
        · have hgo : ∀ rest, skipSolid? (c :: rest) = skipSolid? rest :=
            fun rest => congrArg some (List.dropWhile_cons_of_pos (by simpa using hc))
          rw [squeeze_cons_ink (Bool.eq_false_iff.2 hc), hgo, hgo, ih]
  exact ((hskip.bind hsign).bind hskip).bind (hsolid.bind squeezes_dropBlanks?)

theorem squeezes_header? : Squeezes squeeze header? := by
  have hdefiner : Squeezes squeeze dropDefiner? := by
    have hsteps : Squeezes squeeze fun text => (drop? "definer".toList text).bind account? :=
      (squeezes_drop? (by decide)).bind squeezes_account?
    intro text
    simpa only [dropDefiner?_eq] using hsteps text
  have hreplace : Squeezes squeeze dropOrReplace? :=
    (squeezes_dropSpaced? (by decide)).bind (squeezes_dropSpaced? (by decide))
  have hfrom : Squeezes squeeze fromReplace? :=
    hreplace.getD (hdefiner.getD ((squeezes_dropSpaced? (by decide)).getD squeezes_sort?))
  have hverb : Squeezes squeeze (dropAny? ["create".toList, "alter".toList]) :=
    squeezes_dropAny? (by decide)
  have hwhole := (hverb.bind squeezes_dropBlanks?).bind hfrom
  intro text
  simpa only [header?_eq] using hwhole text

theorem starts_squeeze (text : Text) : starts (squeeze text) = starts text := by
  rw [starts, starts, find?_squeeze squeezes_header? begins_header? (by decide), Option.isSome_map]

theorem starts_lineEnd {w : Text} (hw : AllBlank w) (u v : Text) :
    starts (u ++ w ++ '\n' :: v) = starts (u ++ '\n' :: v) := by
  rw [← starts_squeeze, squeeze_lineEnd hw, starts_squeeze]

/-! ## Block marks -/

/-- A keyword at the start of a text has no blanks to be squeezed. -/
private theorem squeeze_eq_of_drop? {keyword text after : Text} (hkeyword : Lowercase keyword)
    (h : drop? keyword text = some after) :
    squeeze text = text.take (text.length - after.length) ++ squeeze after := by
  induction keyword generalizing text with
  | nil =>
      obtain rfl : text = after := Option.some.inj h
      rw [Nat.sub_self, List.take_zero, List.nil_append]
  | cons k keyword ih =>
      obtain ⟨hk, hrest⟩ := List.forall_mem_cons.1 hkeyword
      cases text with
      | nil => contradiction
      | cons c text =>
          rw [drop?, Option.ite_none_right_eq_some] at h
          obtain ⟨hc, hdrop⟩ := h
          have hlength := length_of_drop? hdrop
          have htake : (c :: text).take ((c :: text).length - after.length) =
              c :: text.take (text.length - after.length) := by
            rw [List.length_cons, Nat.sub_add_comm (by omega), List.take_succ_cons]
          rw [squeeze_cons_ink (isBlank_eq_false_of_isWord (isWord_of_fold hk hc)), htake,
            List.cons_append, ih hrest hdrop]

theorem squeezes_leadingEndWord? :
    Squeezes (fun found => (found.1, squeeze found.2)) leadingEndWord? := by
  intro text
  have hletters : ∀ keyword ∈ endWords, Lowercase keyword := by decide
  rw [leadingEndWord?, leadingEndWord?, squeezes_dropAny? hletters]
  cases hdrop : dropAny? endWords text with
  | none => rfl
  | some after =>
      obtain ⟨keyword, hmem, hkeyword⟩ := List.exists_of_findSome?_eq_some hdrop
      have htext := squeeze_eq_of_drop? (hletters keyword hmem) hkeyword
      have hword : (squeeze text).take ((squeeze text).length - (squeeze after).length) =
          text.take (text.length - after.length) := by
        rw [htext, List.length_append, Nat.add_sub_cancel, List.take_left]
      simp only [Option.map_some, Option.bind_some, endsWord_squeeze, hword]
      split <;> rfl

theorem squeezes_endWord? : Squeezes (fun found => (found.1, squeeze found.2)) endWord? :=
  squeezes_dropBlanks?.bind squeezes_leadingEndWord?

theorem squeezes_mark? : Squeezes (fun found => (found.1, squeeze found.2)) mark? := by
  have hopener : Squeezes squeeze (dropAny? ["begin".toList, "case".toList]) :=
    squeezes_dropAny? (by decide)
  have hend : Squeezes squeeze (drop? "end".toList) := squeezes_drop? (by decide)
  intro text
  rw [mark?, mark?, hopener text]
  cases dropAny? ["begin".toList, "case".toList] text with
  | some after =>
      simp only [Option.map_some, endsWord_squeeze]
      split <;> rfl
  | none =>
      simp only [Option.map_none, hend text]
      cases drop? "end".toList text with
      | none => rfl
      | some after =>
          simp only [Option.map_some, squeezes_endWord? after]
          cases endWord? after with
          | some found => rfl
          | none =>
              simp only [Option.map_none, endsWord_squeeze]
              split <;> rfl

theorem marksFrom_squeezeFrom (inWord : Bool) (text : Text) :
    ∀ blank, (blank = true → inWord = false) →
      marksFrom inWord (squeezeFrom blank text) = marksFrom inWord text := by
  -- a blank has no mark, and one blank is as good as more of them
  have hblank : ∀ {c : Char} {rest : Text} {inWord blank : Bool}, isBlank c = true →
      (blank = true → inWord = false) →
      marksFrom inWord (squeezeFrom blank (c :: rest)) =
        marksFrom false (squeezeFrom true rest) := by
    intro c rest inWord blank hc hidle
    rw [squeezeFrom, if_pos hc]
    cases blank with
    | true => rw [hidle rfl, if_pos rfl, List.nil_append]
    | false =>
        exact marksFrom_cons_of_none (begins_mark?.eq_none_of_notWord (by decide) (by decide)) _
  have hink : ∀ {c : Char} {rest : Text}, isBlank c = false → ∀ blank,
      squeezeFrom blank (c :: rest) = c :: squeeze rest := by
    intro c rest hc blank
    rw [squeezeFrom, hc]
    rfl
  fun_induction marksFrom inWord text with
  | case1 inWord =>
      intro blank _
      rw [squeezeFrom, marksFrom]
  | case2 c rest ih =>
      intro blank hidle
      by_cases hc : isBlank c = true
      · rw [hblank hc hidle, ← isWord_eq_false_of_isBlank hc, ih true fun _ =>
          isWord_eq_false_of_isBlank hc]
      · rw [hink (Bool.eq_false_iff.2 hc), marksFrom, if_pos rfl]
        exact ih false fun h => absurd h Bool.false_ne_true
  | case3 inWord c rest hword mark after hmark ih =>
      intro blank _
      obtain rfl : inWord = false := by simpa using hword
      have hc : isBlank c = false := by
        rw [Bool.eq_false_iff]
        intro hc
        rw [begins_mark?.eq_none_of_notWord (by decide) (isWord_eq_false_of_isBlank hc)] at hmark
        contradiction
      have hsqueezed := squeezes_mark? (c :: rest)
      rw [hmark, squeeze_cons_ink hc] at hsqueezed
      rw [hink hc, marksFrom_cons_of_some hsqueezed]
      exact congrArg (mark :: ·) (ih false fun h => absurd h Bool.false_ne_true)
  | case4 inWord c rest hword hmark ih =>
      intro blank hidle
      by_cases hc : isBlank c = true
      · rw [hblank hc hidle, ← isWord_eq_false_of_isBlank hc, ih true fun _ =>
          isWord_eq_false_of_isBlank hc]
      · have hink_c := Bool.eq_false_iff.2 hc
        have hsqueezed := squeezes_mark? (c :: rest)
        rw [hmark, squeeze_cons_ink hink_c] at hsqueezed
        rw [hink hink_c, marksFrom_cons_of_none hsqueezed]
        exact ih false fun h => absurd h Bool.false_ne_true

theorem balance_squeeze (text : Text) : balance (squeeze text) = balance text := by
  have hmarks : marks (squeeze text) = marks text :=
    marksFrom_squeezeFrom false text false fun h => absurd h Bool.false_ne_true
  rw [balance, balance, hmarks]

/-! ## Tails without effect -/

/-- Behind the code the tail changes neither whether there is a header nor how many blocks are
opened and closed. -/
structure Quiet (code x : Text) : Prop where
  starts : starts (code ++ x) = starts code
  balance : balance (code ++ x) = balance code

theorem quiet_of_wordless {x : Text} (hx : Wordless x) (code : Text) : Quiet code x :=
  ⟨starts_append hx code, balance_append hx code⟩

theorem Quiet.of_space {code w x : Text} (h : Quiet code (' ' :: x)) (hw : AllBlank w)
    (hne : w ≠ []) : Quiet code (w ++ x) := by
  have hsqueeze : squeeze (code ++ (w ++ x)) = squeeze (code ++ ' ' :: x) := by
    rw [← List.append_assoc, squeeze_gap hw hne, List.append_assoc, List.singleton_append]
  constructor
  · rw [← starts_squeeze, hsqueeze, starts_squeeze, h.starts]
  · rw [← balance_squeeze, hsqueeze, balance_squeeze, h.balance]

/-! ## Names -/

def nameHere? (text : Text) : Option Text :=
  ((dropIfNotExists? text).bind leadingName?).or (leadingName? text)

theorem nameAfterSort?_eq (text : Text) :
    nameAfterSort? text = ((dropAny? sorts text).bind dropBlanks?).bind nameHere? := by
  rw [Option.bind_assoc]
  rfl

theorem begins_nameAfterSort? : Begins ['p', 'f', 't', 'e'] nameAfterSort? := by
  intro text hsome
  rw [nameAfterSort?_eq, Option.bind_assoc] at hsome
  exact (begins_dropAny? (by decide)).bind _ text hsome

theorem isNameChar_of_isBlank {c : Char} (h : isBlank c = true) : isNameChar c = false := by
  have hcodes : ∀ n ∈ blankCodes, isNameChar (Char.ofNat n) = false := by decide +kernel
  rw [← Char.ofNat_toNat c]
  exact hcodes c.toNat (isBlank_iff_mem_blankCodes.1 h)

private theorem takeWhile_isNameChar_squeeze (text : Text) :
    (squeeze text).takeWhile isNameChar = text.takeWhile isNameChar := by
  induction text with
  | nil => rfl
  | cons c text ih =>
      by_cases hc : isBlank c = true
      · have hspace : (' ' :: squeezeFrom true text).takeWhile isNameChar = [] := by
          rw [List.takeWhile_cons, isNameChar_of_isBlank (by decide)]
          rfl
        rw [squeeze_cons_blank hc, hspace, List.takeWhile_cons, isNameChar_of_isBlank hc]
        rfl
      · rw [squeeze_cons_ink (Bool.eq_false_iff.2 hc), List.takeWhile_cons, List.takeWhile_cons, ih]

theorem squeezes_nameAfterSort? : Squeezes id nameAfterSort? := by
  have hname : Squeezes id leadingName? := by
    intro text
    rw [leadingName?, takeWhile_isNameChar_squeeze, Option.map_id]
    rfl
  have hexists : Squeezes squeeze dropIfNotExists? :=
    (squeezes_dropSpaced? (by decide)).bind
      ((squeezes_dropSpaced? (by decide)).bind (squeezes_dropSpaced? (by decide)))
  have hhere : Squeezes id nameHere? := by
    intro text
    have hclause := hexists.bind hname text
    simp only at hclause
    rw [nameHere?, hclause, hname, Option.map_id]
    rfl
  have hsort : Squeezes squeeze (dropAny? sorts) := squeezes_dropAny? (by decide)
  have hwhole := (hsort.bind squeezes_dropBlanks?).bind hhere
  intro text
  simpa only [nameAfterSort?_eq] using hwhole text

theorem name?_squeeze (text : Text) : name? (squeeze text) = name? text := by
  rw [name?, name?, find?_squeeze squeezes_nameAfterSort? begins_nameAfterSort? (by decide),
    Option.map_id]
  rfl

/-! ## Names before a tail -/

/-- The pattern finds nothing in the tail `x`, and of a text with the tail behind it, it gives what
it gives of the text. -/
structure Ignores (x : Text) (pattern : Text → Option Text) : Prop where
  tail : ∀ y, y <:+ x → pattern y = none
  append : ∀ text, pattern (text ++ x) = pattern text

section Ignores

variable {x : Text} {pattern other : Text → Option Text}

theorem Ignores.nil (h : Ignores x pattern) : pattern [] = none := h.tail [] (List.nil_suffix)

theorem Ignores.or (h : Ignores x pattern) (ho : Ignores x other) :
    Ignores x fun text => (pattern text).or (other text) where
  tail := fun y hy => by rw [h.tail y hy, ho.tail y hy, Option.or_none]
  append := fun text => by rw [h.append, ho.append]

theorem Ignores.bind_dropBlanks? (h : Ignores x pattern) :
    Ignores x fun text => (dropBlanks? text).bind pattern where
  tail := by
    intro y hy
    rw [Option.bind_eq_none_iff]
    intro rest hrest
    exact h.tail rest ((isSuffix_of_dropBlanks? hrest).trans hy)
  append := by
    intro text
    by_cases hblank : AllBlank text
    · -- the blanks run into the tail, in which there is nothing to be found
      have hshort : (dropBlanks? text).bind pattern = none := by
        cases text with
        | nil => rfl
        | cons c text =>
            obtain ⟨hc, hrest⟩ := allBlank_cons.1 hblank
            rw [dropBlanks?, if_pos hc, trimStart_eq_nil.2 hrest, Option.bind_some, h.nil]
      rw [hshort, Option.bind_eq_none_iff]
      intro rest hrest
      apply h.tail
      cases text with
      | nil => exact isSuffix_of_dropBlanks? hrest
      | cons c text =>
          obtain ⟨hc, htext⟩ := allBlank_cons.1 hblank
          rw [List.cons_append, dropBlanks?, if_pos hc, trimStart_blank_append htext] at hrest
          obtain rfl : trimStart x = rest := Option.some.inj hrest
          exact List.dropWhile_suffix _
    · have hne : text ≠ [] := by
        rintro rfl
        exact hblank allBlank_nil
      obtain ⟨c, text, rfl⟩ := List.exists_cons_of_ne_nil hne
      rw [List.cons_append, dropBlanks?, dropBlanks?]
      split
      · next hc =>
        have hrest : ¬ AllBlank text := fun hrest => hblank (allBlank_cons.2 ⟨hc, hrest⟩)
        rw [trimStart_append hrest, Option.bind_some, Option.bind_some, h.append]
      · rfl

theorem Ignores.bind_of_extends {letters : Text} {step : Text → Option Text}
    (h : Ignores x pattern) (hx : Wordless x) (hs : Extends (· ++ x) x step)
    (hb : Begins letters step) (hletters : Lowercase letters) :
    Ignores x fun text => (step text).bind pattern where
  tail := by
    intro y hy
    rw [hb.eq_none hletters (hx.of_suffix hy)]
    rfl
  append := by
    intro text
    rw [hs text]
    cases step text with
    | none => rfl
    | some rest => exact h.append rest

theorem Ignores.bind_dropSpaced? (h : Ignores x pattern) (hx : Wordless x) {keyword : Text}
    (hkeyword : Lowercase keyword) (hne : keyword ≠ []) :
    Ignores x fun text => (dropSpaced? keyword text).bind pattern := by
  obtain ⟨k, keyword, rfl⟩ := List.exists_cons_of_ne_nil hne
  have hone : Lowercase [k] := List.forall_mem_singleton.2 (hkeyword k (by simp))
  have hbind := h.bind_dropBlanks?.bind_of_extends hx (drop?_append hkeyword hx.endsWord)
    begins_drop? hone
  simpa only [dropSpaced?, Option.bind_assoc] using hbind

end Ignores

def Nameless (text : Text) : Prop := ∀ c ∈ text, isNameChar c = false

instance (text : Text) : Decidable (Nameless text) :=
  List.decidableBAll (fun c => isNameChar c = false) text

theorem nameless_of_allBlank {w : Text} (hw : AllBlank w) : Nameless w :=
  fun c hc => isNameChar_of_isBlank (hw c hc)

section Tail

variable {x : Text} (hx : Nameless x)

include hx

theorem wordless_of_nameless : Wordless x := by
  intro c hc
  have hname := hx c hc
  simp only [isNameChar, Bool.or_eq_false_iff] at hname
  exact hname.1.1.1.1

theorem ignores_leadingName? : Ignores x leadingName? where
  tail := by
    intro y hy
    cases y with
    | nil => rfl
    | cons c y =>
        rw [leadingName?, List.takeWhile_cons, hx c (hy.subset (by simp))]
        rfl
  append := by
    intro text
    have hstop : x.takeWhile isNameChar = [] := by
      cases x with
      | nil => rfl
      | cons c x =>
          rw [List.takeWhile_cons, hx c (by simp)]
          rfl
    have htake : (text ++ x).takeWhile isNameChar = text.takeWhile isNameChar := by
      rw [List.takeWhile_append, hstop, List.append_nil]
      split
      · next hall => exact ((List.takeWhile_prefix _).eq_of_length hall).symm
      · rfl
    rw [leadingName?, htake]
    rfl

theorem ignores_nameAfterSort? : Ignores x nameAfterSort? := by
  have hwordless := wordless_of_nameless hx
  have hname := ignores_leadingName? hx
  have hexists : Ignores x fun text => (dropIfNotExists? text).bind leadingName? := by
    have hlast : Ignores x fun text => (dropSpaced? "exists".toList text).bind leadingName? :=
      hname.bind_dropSpaced? hwordless (by decide) (by decide)
    have hnot : Ignores x fun text => (dropSpaced? "not".toList text).bind fun text =>
        (dropSpaced? "exists".toList text).bind leadingName? :=
      hlast.bind_dropSpaced? hwordless (by decide) (by decide)
    have hif : Ignores x fun text => (dropSpaced? "if".toList text).bind fun text =>
        (dropSpaced? "not".toList text).bind fun text =>
          (dropSpaced? "exists".toList text).bind leadingName? :=
      hnot.bind_dropSpaced? hwordless (by decide) (by decide)
    have hsteps : (fun text => (dropIfNotExists? text).bind leadingName?) = fun text =>
        (dropSpaced? "if".toList text).bind fun text =>
          (dropSpaced? "not".toList text).bind fun text =>
            (dropSpaced? "exists".toList text).bind leadingName? := by
      funext text
      simp only [dropIfNotExists?, Option.bind_eq_bind, Option.bind_assoc]
    rw [hsteps]
    exact hif
  have hsort : Extends (· ++ x) x (dropAny? sorts) :=
    dropAny?_append (by decide) hwordless.endsWord
  have hletters : Begins ['p', 'f', 't', 'e'] (dropAny? sorts) := begins_dropAny? (by decide)
  have hwhole := (hexists.or hname).bind_dropBlanks?.bind_of_extends hwordless hsort hletters
    (by decide)
  exact hwhole

theorem name?_append (text : Text) : name? (text ++ x) = name? text := by
  have hignores := ignores_nameAfterSort? hx
  have hnone : ∀ inWord, find? nameAfterSort? inWord x = none :=
    find?_wordless begins_nameAfterSort? (by decide) (wordless_of_nameless hx)
  have hextends : Extends id x nameAfterSort? := by
    intro text
    rw [hignores.append, Option.map_id]
    rfl
  rw [name?, name?, find?_append_of_none hnone hextends, Option.map_id]
  rfl

theorem name?_append_left (text : Text) : name? (x ++ text) = name? text :=
  find?_wordless_append begins_nameAfterSort? (by decide) (wordless_of_nameless hx) text

end Tail

theorem name?_lineEnd {w : Text} (hw : AllBlank w) (u v : Text) :
    name? (u ++ w ++ '\n' :: v) = name? (u ++ '\n' :: v) := by
  rw [← name?_squeeze, squeeze_lineEnd hw, name?_squeeze]

end SqlBatch.Routine
