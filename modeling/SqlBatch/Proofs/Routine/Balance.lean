import SqlBatch.Proofs.Routine.Structure
/-!
# Balanced blocks

A routine without comments passes the check if it has a name and its blocks balance line by line:
no run of lines from its start closes more blocks than it opens, and all lines together close as many
as they open (`faults_eq_nil_iff_balancedByLine`).  Within one line the openers count first, wherever
they stand.  So blocks that balance keyword by keyword pass, and the converse holds where no line
opens a block behind one that it closes; where one does, it can fail (`endBeforeBegin_accepted`).
-/

namespace SqlBatch.Routine

open Text

/-! ## Marks that balance -/

def marksOn (lines : List Text) : List Mark := lines.flatMap marks

/-- Keyword by keyword no more blocks are closed than are open, and none is open in the end. -/
structure Balanced (ms : List Mark) : Prop where
  covered : ∀ front, front <+: ms → front.count .closer ≤ front.count .opener
  even : ms.count .closer = ms.count .opener

/-- Line by line no more blocks are closed than are open, and none is open in the end. -/
structure BalancedByLine (lines : List Text) : Prop where
  covered : ∀ front, front <+: lines →
    (marksOn front).count .closer ≤ (marksOn front).count .opener
  even : (marksOn lines).count .closer = (marksOn lines).count .opener

def OpensFirst (ms : List Mark) : Prop :=
  ms.Pairwise fun earlier later => earlier = .closer → later ≠ .opener

@[simp] theorem marksOn_nil : marksOn [] = [] := rfl

theorem marksOn_cons (line : Text) (lines : List Text) :
    marksOn (line :: lines) = marks line ++ marksOn lines := List.flatMap_cons

theorem marksOn_append (front back : List Text) :
    marksOn (front ++ back) = marksOn front ++ marksOn back := List.flatMap_append

theorem marksOn_singleton (line : Text) : marksOn [line] = marks line := List.flatMap_singleton ..

theorem Balanced.byLine {lines : List Text} (h : Balanced (marksOn lines)) :
    BalancedByLine lines where
  covered := by
    rintro front ⟨back, rfl⟩
    exact h.covered _ ⟨marksOn back, (marksOn_append front back).symm⟩
  even := h.even

/-- A front part of the marks ends within one line. -/
private theorem exists_of_isPrefix_marksOn {front : List Mark} {lines : List Text}
    (h : front <+: marksOn lines) (hne : lines ≠ []) :
    ∃ before line part, before ++ [line] <+: lines ∧ part <+: marks line ∧
      front = marksOn before ++ part := by
  induction lines generalizing front with
  | nil => contradiction
  | cons line lines ih =>
      rw [marksOn_cons] at h
      have hfirst : front <+: marks line → ∃ before other part, before ++ [other] <+: line :: lines ∧
          part <+: marks other ∧ front = marksOn before ++ part :=
        fun hpart => ⟨[], line, front, ⟨lines, rfl⟩, hpart, rfl⟩
      rcases List.prefix_or_prefix_of_prefix h (List.prefix_append (marks line) (marksOn lines))
        with hpart | ⟨later, rfl⟩
      · exact hfirst hpart
      · have hlater : later <+: marksOn lines := (List.prefix_append_right_inj _).1 h
        by_cases hnil : lines = []
        · apply hfirst
          rw [hnil, marksOn_nil, List.prefix_nil] at hlater
          simp [hlater]
        · obtain ⟨before, other, part, hbefore, hpart, rfl⟩ := ih hlater hnil
          refine ⟨line :: before, other, part, (List.prefix_cons_inj line).2 hbefore, hpart, ?_⟩
          rw [marksOn_cons, List.append_assoc]

/-- Where nothing is opened behind what is closed, a front part of a line closes nothing, or it
opens all that the line opens. -/
theorem OpensFirst.count_of_isPrefix {ms part : List Mark} (h : OpensFirst ms) (hpart : part <+: ms) :
    part.count .closer = 0 ∨ part.count .opener = ms.count .opener := by
  obtain ⟨rest, rfl⟩ := hpart
  by_cases hmem : Mark.closer ∈ part
  · right
    have hrest : Mark.opener ∉ rest := fun hopener =>
      (List.pairwise_append.1 h).2.2 _ hmem _ hopener rfl rfl
    rw [List.count_append, List.count_eq_zero.2 hrest, Nat.add_zero]
  · left
    exact List.count_eq_zero.2 hmem

theorem BalancedByLine.balanced {lines : List Text} (h : BalancedByLine lines)
    (hfirst : ∀ line ∈ lines, OpensFirst (marks line)) : Balanced (marksOn lines) where
  covered := by
    intro front hfront
    by_cases hnil : lines = []
    · rw [hnil, marksOn_nil, List.prefix_nil] at hfront
      simp [hfront]
    obtain ⟨before, line, part, hbefore, hpart, rfl⟩ := exists_of_isPrefix_marksOn hfront hnil
    have hline : line ∈ lines := hbefore.subset (by simp)
    have hwithout := h.covered before ((List.prefix_append _ _).trans hbefore)
    have hwith := h.covered _ hbefore
    have hclosers : part.count .closer ≤ (marks line).count .closer :=
      hpart.sublist.count_le _
    rw [marksOn_append, marksOn_singleton, List.count_append, List.count_append] at hwith
    rw [List.count_append, List.count_append]
    rcases (hfirst line hline).count_of_isPrefix hpart with hnone | hall <;> omega
  even := h.even

/-! ## Lines without comments -/

/-- A line without block comments is counted as it stands, unless it is a line comment. -/
theorem Tally.read_of_unopened {t : Tally} (hout : t.inComment = false) {line : Text}
    (hopen : includes Comment.blockOpen line = false) :
    t.read line =
      if Comment.isLineComment line then t
      else ⟨false, t.depth + (balance line).opened - (balance line).closed,
        t.sound && decide ((balance line).closed ≤ t.depth + (balance line).opened)⟩ := by
  split
  · next hcomment => exact read_of_lineComment hout hcomment
  · next hcode =>
    have htrim : includes Comment.blockOpen (trim line) = false := by
      rwa [Comment.includes_blockOpen_trim]
    rw [read_of_code hout (Bool.eq_false_iff.2 hcode), count, Comment.stripBlocks_eq_self htrim,
      Comment.leavesBlockOpen_eq_false htrim, balance_trim]

/-- What the tally of lines of code says of their marks. -/
private theorem foldl_read_of_code {lines : List Text}
    (hopen : ∀ line ∈ lines, includes Comment.blockOpen line = false)
    (hcode : ∀ line ∈ lines, Comment.isLineComment line = false) :
    (lines.foldl Tally.read {}).inComment = false ∧
      ((lines.foldl Tally.read {}).sound = true ↔
        ∀ front, front <+: lines →
          (marksOn front).count .closer ≤ (marksOn front).count .opener) ∧
      ((lines.foldl Tally.read {}).sound = true →
        (lines.foldl Tally.read {}).depth + (marksOn lines).count .closer =
          (marksOn lines).count .opener) := by
  induction lines using List.reverseRecOn with
  | nil => simp
  | append_singleton lines line ih =>
      obtain ⟨hopen, hlast⟩ := List.forall_mem_append.1 hopen
      obtain ⟨hcode, hline⟩ := List.forall_mem_append.1 hcode
      obtain ⟨hout, hsound, hdepth⟩ := ih hopen hcode
      have hcount (mark : Mark) : (marksOn (lines ++ [line])).count mark =
          (marksOn lines).count mark + (marks line).count mark := by
        rw [marksOn_append, marksOn_singleton, List.count_append]
      have hfronts : (∀ front, front <+: lines ++ [line] →
            (marksOn front).count .closer ≤ (marksOn front).count .opener) ↔
          (marksOn (lines ++ [line])).count .closer ≤ (marksOn (lines ++ [line])).count .opener ∧
            ∀ front, front <+: lines →
              (marksOn front).count .closer ≤ (marksOn front).count .opener := by
        simp only [List.prefix_concat_iff, forall_eq_or_imp]
      rw [List.foldl_append, List.foldl_cons, List.foldl_nil,
        Tally.read_of_unopened hout (hlast line (List.mem_singleton_self line)),
        if_neg (Bool.eq_false_iff.1 (hline line (List.mem_singleton_self line))), hfronts, ← hsound,
        hcount, hcount, balance, Bool.and_eq_true, decide_eq_true_eq]
      dsimp only
      refine ⟨rfl, ?_, ?_⟩
      · constructor
        · rintro ⟨hbefore, hcovered⟩
          have := hdepth hbefore
          exact ⟨by omega, hbefore⟩
        · rintro ⟨hcovered, hbefore⟩
          have := hdepth hbefore
          exact ⟨hbefore, by omega⟩
      · rintro ⟨hbefore, hcovered⟩
        have := hdepth hbefore
        omega

theorem balancedByLine_iff {lines : List Text}
    (hopen : ∀ line ∈ lines, includes Comment.blockOpen line = false)
    (hcode : ∀ line ∈ lines, Comment.isLineComment line = false) :
    BalancedByLine lines ↔
      (lines.foldl Tally.read {}).sound = true ∧ (lines.foldl Tally.read {}).depth = 0 := by
  obtain ⟨-, hsound, hdepth⟩ := foldl_read_of_code hopen hcode
  constructor
  · intro h
    have hcovered := hsound.2 h.covered
    have hopened := hdepth hcovered
    have heven := h.even
    exact ⟨hcovered, by omega⟩
  · rintro ⟨hcovered, hnone⟩
    have hopened := hdepth hcovered
    exact ⟨hsound.1 hcovered, by omega⟩

/-! ## The check -/

/-- A routine without comments has no faults if it has a name and its blocks balance line by line.
Balance keyword by keyword is enough for that, and is no more than that where no line opens a block
behind one that it closes. -/
theorem faults_eq_nil_iff_balancedByLine {text : Text}
    (hopen : includes Comment.blockOpen text = false)
    (hcode : ∀ line ∈ lines text, Comment.isLineComment line = false) :
    (faults text = [] ↔ (name? text).isSome = true ∧ BalancedByLine (lines text)) ∧
      (Balanced (marksOn (lines text)) → BalancedByLine (lines text)) ∧
      ((∀ line ∈ lines text, OpensFirst (marks line)) →
        (BalancedByLine (lines text) ↔ Balanced (marksOn (lines text)))) := by
  have hlines : ∀ line ∈ lines text, includes Comment.blockOpen line = false :=
    fun _ hline => Comment.includes_blockOpen_of_isInfix (isInfix_of_mem_lines hline) hopen
  refine ⟨?_, Balanced.byLine, fun hfirst => ⟨fun h => h.balanced hfirst, Balanced.byLine⟩⟩
  rw [faults_eq_nil_iff, balancedByLine_iff hlines hcode, tally]

def nestedBlocks : Text :=
  "CREATE PROCEDURE p() BEGIN\nCASE x WHEN 1 THEN BEGIN END;\nEND CASE; END".toList

theorem nestedBlocks_balanced :
    BalancedByLine (lines nestedBlocks) ∧ Balanced (marksOn (lines nestedBlocks)) := by
  have hfirst : ∀ line ∈ lines nestedBlocks, OpensFirst (marks line) := by
    unfold OpensFirst
    decide +kernel
  have hopen : includes Comment.blockOpen nestedBlocks = false := by decide +kernel
  have hcode : ∀ line ∈ lines nestedBlocks, Comment.isLineComment line = false := by
    decide +kernel
  have hcheck := faults_eq_nil_iff_balancedByLine hopen hcode
  have hbalanced := (hcheck.1.1 (by decide +kernel)).2
  exact ⟨hbalanced, (hcheck.2.2 hfirst).1 hbalanced⟩

def endBeforeBegin : Text := "CREATE PROCEDURE p()\nEND BEGIN".toList

/-- The check accepts it, though the `END` has no `BEGIN` before it and the `BEGIN` no `END` behind
it. -/
theorem endBeforeBegin_accepted :
    starts endBeforeBegin = true ∧ includes Comment.blockOpen endBeforeBegin = false ∧
      (∀ line ∈ lines endBeforeBegin, Comment.isLineComment line = false) ∧
      ¬ (faults endBeforeBegin = [] ↔
        (name? endBeforeBegin).isSome = true ∧ Balanced (marksOn (lines endBeforeBegin))) := by
  have hmarks : marksOn (lines endBeforeBegin) = [.closer, .opener] := by decide +kernel
  refine ⟨by decide +kernel, by decide +kernel, by decide +kernel, fun h => ?_⟩
  have hbalanced := (h.1 (by decide +kernel)).2
  rw [hmarks] at hbalanced
  exact absurd (hbalanced.covered [.closer] ⟨[.opener], rfl⟩) (by decide)

end SqlBatch.Routine
