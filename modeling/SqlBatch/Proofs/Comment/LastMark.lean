import SqlBatch.Proofs.Comment.Spans
/-!
# The last mark of a line

Code is what a reading from left to right leaves of a line (`Scans`), while the last `/*` of the
line tells whether it leaves a comment open.  The two agree, but for lines whose last `/*` stands
within a comment and shares a character with the `*/` that ends it (`leavesBlockOpen_iff_scan`).
`Place` is what has to be known of a text to read on behind it.
-/

namespace SqlBatch.Comment

open Text

/-! ## Reading from left to right -/

/-- A line is read up to the next `/*`, then up to the first `*/` behind that, and so on: `code` is
left of it, and `stays` says whether a comment is still open at its end. -/
inductive Scans : Text → Text → Bool → Prop where
  | plain {line : Text} (unopened : includes blockOpen line = false) : Scans line line false
  | unclosed {front comment : Text} (unopened : includes blockOpen front = false)
    (unclosed : includes blockClose comment = false) :
    Scans (front ++ (blockOpen ++ comment)) (front ++ [' ']) true
  | closed {front comment rest code : Text} {stays : Bool}
    (unopened : includes blockOpen front = false) (unclosed : includes blockClose comment = false)
    (later : Scans rest code stays) :
    Scans (front ++ (blockOpen ++ (comment ++ (blockClose ++ rest)))) (front ++ ' ' :: code) stays

/-- Up to its first `/*` a line is code. -/
theorem scan_code {front : Text} (h : includes blockOpen front = false) (rest : Text) :
    stripFrom false (front ++ (blockOpen ++ rest)) = front ++ ' ' :: stripFrom true rest ∧
      endsInside false (front ++ (blockOpen ++ rest)) = endsInside true rest := by
  induction front with
  | nil => exact ⟨rfl, rfl⟩
  | cons c front ih =>
      rw [includes, Bool.or_eq_false_iff] at h
      obtain ⟨hcode, hends⟩ := ih h.2
      have hmark : ∀ after, c = '/' → front ++ (blockOpen ++ rest) = '*' :: after → False := by
        rintro after rfl hafter
        cases front with
        | nil => simp [blockOpen] at hafter
        | cons d front =>
            obtain rfl : d = '*' := (List.cons.inj hafter).1
            simp [blockOpen, List.isPrefixOf] at h
      rw [List.cons_append, stripFrom, endsInside, hcode, hends]
      · exact ⟨rfl, rfl⟩
      · exact hmark
      · exact hmark

/-- Up to the first `*/` a comment goes on. -/
theorem scan_comment {comment : Text} (h : includes blockClose comment = false) (rest : Text) :
    stripFrom true (comment ++ (blockClose ++ rest)) = stripFrom false rest ∧
      endsInside true (comment ++ (blockClose ++ rest)) = endsInside false rest := by
  induction comment with
  | nil => exact ⟨rfl, rfl⟩
  | cons c comment ih =>
      rw [includes, Bool.or_eq_false_iff] at h
      obtain ⟨hcode, hends⟩ := ih h.2
      have hmark : ∀ after, c = '*' → comment ++ (blockClose ++ rest) = '/' :: after → False := by
        rintro after rfl hafter
        cases comment with
        | nil => simp [blockClose] at hafter
        | cons d comment =>
            obtain rfl : d = '/' := (List.cons.inj hafter).1
            simp [blockClose, List.isPrefixOf] at h
      rw [List.cons_append, stripFrom, endsInside, hcode, hends]
      · exact ⟨rfl, rfl⟩
      · exact hmark
      · exact hmark

theorem endsInside_true_of_unclosed {text : Text} (h : includes blockClose text = false) :
    endsInside true text = true := by
  induction text with
  | nil => rfl
  | cons c text ih =>
      rw [includes, Bool.or_eq_false_iff] at h
      rw [endsInside, ih h.2]
      rintro after rfl rfl
      simp [blockClose, List.isPrefixOf] at h

/-- A mark that a text has, has a first place there. -/
theorem exists_first {mark text : Text} (hmark : mark ≠ []) (h : includes mark text = true) :
    ∃ front rest, text = front ++ (mark ++ rest) ∧ includes mark front = false := by
  have hnil : includes mark [] = false := by simpa [includes] using hmark
  induction text with
  | nil =>
      rw [hnil] at h
      contradiction
  | cons c text ih =>
      by_cases hhere : mark <+: c :: text
      · obtain ⟨rest, hrest⟩ := hhere
        exact ⟨[], rest, hrest.symm, hnil⟩
      · rw [includes_cons_of_not_isPrefix hhere] at h
        obtain ⟨front, rest, rfl, hfront⟩ := ih h
        refine ⟨c :: front, rest, rfl, ?_⟩
        rw [includes_cons_of_not_isPrefix, hfront]
        intro hstart
        exact hhere (hstart.trans (List.prefix_append (c :: front) (mark ++ rest)))

theorem scans_stripBlocks (line : Text) :
    Scans line (stripBlocks line) (endsInside false line) := by
  induction hlength : line.length using Nat.strongRecOn generalizing line with
  | _ n ih =>
      cases hopen : includes blockOpen line with
      | false =>
          rw [stripBlocks_eq_self hopen, endsInside_eq_false hopen]
          exact .plain hopen
      | true =>
          obtain ⟨front, behind, hline, hfront⟩ := exists_first (by decide) hopen
          obtain ⟨hcode, hends⟩ := scan_code hfront behind
          rw [hline] at hlength ⊢
          rw [stripBlocks, hcode, hends]
          cases hclose : includes blockClose behind with
          | false =>
              rw [stripFrom_true_of_unmarked hclose, endsInside_true_of_unclosed hclose]
              exact .unclosed hfront hclose
          | true =>
              obtain ⟨comment, rest, rfl, hcomment⟩ := exists_first (by decide) hclose
              obtain ⟨hcode, hends⟩ := scan_comment hcomment rest
              have hshorter : rest.length < n := by
                simp only [List.length_append, blockOpen, List.length_cons] at hlength
                omega
              rw [hcode, hends]
              exact .closed hfront hcomment (ih _ hshorter rest rfl)

/-- There is one way to read a line, and what it leaves are the code of the line and whether a
comment is open behind it. -/
theorem scans_iff {line code : Text} {stays : Bool} :
    Scans line code stays ↔ stripBlocks line = code ∧ endsInside false line = stays := by
  constructor
  · intro h
    induction h with
    | plain unopened => exact ⟨stripBlocks_eq_self unopened, endsInside_eq_false unopened⟩
    | unclosed unopened unclosed =>
        obtain ⟨hcode, hends⟩ := scan_code unopened _
        rw [stripBlocks, hcode, hends, stripFrom_true_of_unmarked unclosed,
          endsInside_true_of_unclosed unclosed]
        exact ⟨rfl, rfl⟩
    | closed unopened unclosed later ih =>
        obtain ⟨hcode, hends⟩ := scan_code unopened _
        obtain ⟨hlater, hstays⟩ := scan_comment unclosed _
        rw [stripBlocks, hcode, hends, hlater, hstays, ih.2]
        exact ⟨congrArg _ (congrArg _ ih.1), rfl⟩
  · rintro ⟨rfl, rfl⟩
    exact scans_stripBlocks line

/-! ## Character by character -/

inductive Place where
  | code
  /-- In code, behind a `/` that may be half a mark. -/
  | slash
  | comment
  /-- In a comment, behind a `*` that may be half a mark. -/
  | star
  deriving DecidableEq

namespace Place

def next : Place → Char → Place
  | .code, c => if c = '/' then .slash else .code
  | .slash, c => if c = '*' then .comment else if c = '/' then .slash else .code
  | .comment, c => if c = '*' then .star else .comment
  | .star, c => if c = '/' then .code else if c = '*' then .star else .comment

def isInside : Place → Bool
  | .code | .slash => false
  | .comment | .star => true

def start (inside : Bool) : Place := if inside then .comment else .code

@[simp] theorem start_false : start false = code := rfl

@[simp] theorem start_true : start true = comment := rfl

def behind (p : Place) (text : Text) : Place := text.foldl next p

theorem behind_append (p : Place) (u v : Text) : p.behind (u ++ v) = (p.behind u).behind v :=
  List.foldl_append

/-- Half a mark counts for nothing if the other half does not follow. -/
private theorem isInside_slash {text : Text} (h : text.head? ≠ some '*') :
    (slash.behind text).isInside = (code.behind text).isInside := by
  cases text with
  | nil => rfl
  | cons c text =>
      have hc : c ≠ '*' := by simpa using h
      simp [behind, next, hc]

theorem isInside_star {text : Text} (h : text.head? ≠ some '/') :
    (star.behind text).isInside = (comment.behind text).isInside := by
  cases text with
  | nil => rfl
  | cons c text =>
      have hc : c ≠ '/' := by simpa using h
      simp [behind, next, hc]

end Place

theorem head?_ne {text : Text} {c : Char} (h : ∀ after, text = c :: after → False) :
    text.head? ≠ some c := by
  intro hhead
  obtain ⟨after, hafter⟩ := List.head?_eq_some_iff.1 hhead
  exact h after hafter

theorem endsInside_eq_isInside (inside : Bool) (text : Text) :
    endsInside inside text = ((Place.start inside).behind text).isInside := by
  fun_induction endsInside inside text with
  | case1 inside => cases inside <;> rfl
  | case2 rest ih => exact ih
  | case3 c rest hmark ih =>
      rw [ih]
      by_cases hc : c = '/'
      · have hrest : rest.head? ≠ some '*' := head?_ne fun after => hmark after hc
        have hslash : (Place.start false).behind (c :: rest) = Place.slash.behind rest := by
          rw [hc]
          rfl
        rw [hslash, Place.isInside_slash hrest]
        rfl
      · simp [Place.start, Place.behind, Place.next, hc]
  | case4 rest ih => exact ih
  | case5 c rest hmark ih =>
      rw [ih]
      by_cases hc : c = '*'
      · have hrest : rest.head? ≠ some '/' := head?_ne fun after => hmark after hc
        have hstar : (Place.start true).behind (c :: rest) = Place.star.behind rest := by
          rw [hc]
          rfl
        rw [hstar, Place.isInside_star hrest]
        rfl
      · simp [Place.start, Place.behind, Place.next, hc]

/-! ## The last `/*` -/

/-- Of a `/*` between two texts: it stands within a comment, and shares a character with the `*/`
that ends the comment. -/
def Shared (front back : Text) : Prop :=
  (∃ inner, front = inner ++ ['*'] ∧ endsInside false inner = true) ∨
    endsInside false front = true ∧ back.head? = some '/'

/-- The last `/*` of a line is shared, and no `*/` stands behind it. -/
def LastShared (line : Text) : Prop :=
  ∃ front back, line = front ++ (blockOpen ++ back) ∧ Markless back ∧ Shared front back

private theorem leavesBlockOpen_cons {text : Text} (h : includes blockOpen text = true) (c : Char) :
    leavesBlockOpen (c :: text) = leavesBlockOpen text := by
  rw [includes_eq_isSome_afterLast?, Option.isSome_iff_exists] at h
  obtain ⟨after, hafter⟩ := h
  rw [leavesBlockOpen, leavesBlockOpen, afterLast?, hafter]

theorem includes_append_blockOpen (front back : Text) :
    includes blockOpen (front ++ (blockOpen ++ back)) = true := by
  rw [includes_iff_isInfix, ← List.append_assoc]
  exact List.infix_append front blockOpen back

/-- What stands behind the last `/*` tells whether a comment is left open. -/
theorem leavesBlockOpen_append_open {back : Text} (hback : includes blockOpen back = false)
    (front : Text) :
    leavesBlockOpen (front ++ (blockOpen ++ back)) = !includes blockClose back := by
  induction front with
  | nil =>
      have hopen := leavesBlockOpen_of_open back
      rwa [hback, if_neg Bool.false_ne_true] at hopen
  | cons c front ih =>
      rw [List.cons_append, leavesBlockOpen_cons (includes_append_blockOpen front back), ih]

/-- There is a last `/*` on a line that has one. -/
theorem exists_last {line : Text} (h : includes blockOpen line = true) :
    ∃ front back, line = front ++ (blockOpen ++ back) ∧ includes blockOpen back = false := by
  induction line with
  | nil => contradiction
  | cons c line ih =>
      cases hlater : includes blockOpen line with
      | true =>
          obtain ⟨front, back, rfl, hback⟩ := ih hlater
          exact ⟨c :: front, back, rfl, hback⟩
      | false =>
          rw [includes, hlater, Bool.or_false, List.isPrefixOf_iff_prefix] at h
          obtain ⟨back, hback⟩ := h
          obtain ⟨-, hline⟩ := List.cons.inj hback
          have hsuffix : back <:+ line := ⟨['*'], hline⟩
          exact ⟨[], back, hback.symm, includes_blockOpen_of_isInfix hsuffix.isInfix hlater⟩

/-- Behind an inner `*` of a comment a `/` would end it. -/
private theorem behind_eq_star {front : Text} :
    Place.code.behind front = .star ↔
      ∃ inner, front = inner ++ ['*'] ∧ endsInside false inner = true := by
  rcases List.eq_nil_or_concat' front with rfl | ⟨inner, c, rfl⟩
  · simp [Place.behind]
  · have hinner : endsInside false inner = (Place.code.behind inner).isInside :=
      endsInside_eq_isInside false inner
    have hlast : ∀ p : Place, p.next c = .star ↔ c = '*' ∧ p.isInside = true := by
      intro p
      cases p <;> by_cases hstar : c = '*' <;> by_cases hslash : c = '/' <;>
        simp_all [Place.next, Place.isInside]
    have hbehind : Place.code.behind (inner ++ [c]) = (Place.code.behind inner).next c :=
      Place.behind_append _ _ _
    rw [hbehind, hlast, ← hinner]
    constructor
    · rintro ⟨rfl, hinside⟩
      exact ⟨inner, rfl, hinside⟩
    · rintro ⟨other, hother, hinside⟩
      obtain ⟨rfl, hc⟩ := List.append_inj' hother rfl
      exact ⟨(List.cons.inj hc).1, hinside⟩

theorem endsInside_true_eq {text : Text} (h : includes blockOpen text = false) :
    endsInside true text = !includes blockClose text := by
  cases hclose : includes blockClose text with
  | false => exact endsInside_true_of_unclosed hclose
  | true =>
      obtain ⟨comment, rest, rfl, hcomment⟩ := exists_first (by decide) hclose
      have hrest : rest <:+ comment ++ (blockClose ++ rest) :=
        (List.suffix_append _ _).trans (List.suffix_append _ _)
      rw [(scan_comment hcomment rest).2]
      exact endsInside_eq_false (includes_blockOpen_of_isInfix hrest.isInfix h)

/-- Where no comment begins, the code behind one is the end of the text. -/
theorem exists_stripFrom_true_eq {text : Text} (h : includes blockOpen text = false) :
    stripFrom true text = [] ∨ ∃ front, text = front ++ blockClose ++ stripFrom true text := by
  cases hclose : includes blockClose text with
  | false => exact .inl (stripFrom_true_of_unmarked hclose)
  | true =>
      obtain ⟨comment, rest, rfl, hcomment⟩ := exists_first (by decide) hclose
      have hrest : rest <:+ comment ++ (blockClose ++ rest) :=
        (List.suffix_append _ _).trans (List.suffix_append _ _)
      have hcode : stripFrom false rest = rest :=
        stripBlocks_eq_self (includes_blockOpen_of_isInfix hrest.isInfix h)
      refine .inr ⟨comment, ?_⟩
      rw [(scan_comment hcomment rest).1, hcode, List.append_assoc]

private theorem isInside_star_behind {back : Text} (hback : includes blockOpen back = false) :
    (Place.star.behind back).isInside = true ↔
      includes blockClose back = false ∧ back.head? ≠ some '/' := by
  by_cases hhead : back.head? = some '/'
  · obtain ⟨rest, rfl⟩ := List.head?_eq_some_iff.1 hhead
    have hrest : includes blockOpen rest = false :=
      includes_blockOpen_of_isInfix (List.suffix_cons '/' rest).isInfix hback
    have hcode : (Place.code.behind rest).isInside = false := by
      rw [← Place.start_false, ← endsInside_eq_isInside, endsInside_eq_false hrest]
    have hslash : Place.star.behind ('/' :: rest) = Place.code.behind rest := rfl
    rw [hslash, hcode]
    simp
  · rw [Place.isInside_star hhead, ← Place.start_true, ← endsInside_eq_isInside,
      endsInside_true_eq hback]
    simp [hhead]

/-- A comment is open behind the last `/*`, unless a `*/` closes it or takes a character of the `/*`
for itself. -/
theorem endsInside_append_open {back : Text} (hback : includes blockOpen back = false)
    (front : Text) :
    endsInside false (front ++ (blockOpen ++ back)) = true ↔
      includes blockClose back = false ∧ ¬ Shared front back := by
  have hfront : endsInside false front = (Place.code.behind front).isInside :=
    endsInside_eq_isInside false front
  have hclosed : (Place.code.behind back).isInside = false := by
    rw [← Place.start_false, ← endsInside_eq_isInside, endsInside_eq_false hback]
  have hopened : (Place.comment.behind back).isInside = !includes blockClose back := by
    rw [← Place.start_true, ← endsInside_eq_isInside, endsInside_true_eq hback]
  have hline : endsInside false (front ++ (blockOpen ++ back)) =
      ((((Place.code.behind front).next '/').next '*').behind back).isInside := by
    rw [endsInside_eq_isInside, Place.behind_append]
    rfl
  rw [hline, Shared, ← behind_eq_star, hfront]
  cases Place.code.behind front with
  | code =>
      show (Place.comment.behind back).isInside = true ↔ _
      rw [hopened]
      simp [Place.isInside]
  | slash =>
      show (Place.comment.behind back).isInside = true ↔ _
      rw [hopened]
      simp [Place.isInside]
  | comment =>
      show (Place.star.behind back).isInside = true ↔ _
      rw [isInside_star_behind hback]
      simp [Place.isInside]
  | star =>
      show (Place.code.behind back).isInside = true ↔ _
      rw [hclosed]
      simp

/-- A line is said to leave a comment open if reading it from left to right ends within one, and
also, wrongly, if its last `/*` is shared: the comment is over there, and that `/*` starts none. -/
theorem leavesBlockOpen_iff_scan (line : Text) :
    (∀ code stays, Scans line code stays ↔
      stripBlocks line = code ∧ endsInside false line = stays) ∧
    (leavesBlockOpen line = true ↔ endsInside false line = true ∨ LastShared line) := by
  refine ⟨fun _ _ => scans_iff, ?_⟩
  cases hopen : includes blockOpen line with
  | false =>
      rw [leavesBlockOpen_eq_false hopen, endsInside_eq_false hopen]
      simp only [Bool.false_eq_true, false_or, false_iff]
      rintro ⟨front, back, rfl, -, -⟩
      rw [includes_append_blockOpen] at hopen
      contradiction
  | true =>
      obtain ⟨front, back, rfl, hback⟩ := exists_last hopen
      rw [endsInside_append_open hback]
      constructor
      · intro hleft
        have hclose : includes blockClose back = false := by
          simpa [leavesBlockOpen_append_open hback] using hleft
        by_cases hshared : Shared front back
        · exact .inr ⟨front, back, rfl, ⟨hback, hclose⟩, hshared⟩
        · exact .inl ⟨hclose, hshared⟩
      · rintro (⟨hclose, -⟩ | ⟨front', back', hline, hmarkless, -⟩)
        · rw [leavesBlockOpen_append_open hback, hclose]
          rfl
        · rw [hline, leavesBlockOpen_append_open hmarkless.opens, hmarkless.closes]
          rfl

def starBehindComment : Text := "SELECT 6 /* six */* 7;".toList

/-- The comment is over, but the line is said to leave one open. -/
theorem starBehindComment_misjudged :
    leavesBlockOpen starBehindComment = true ∧ endsInside false starBehindComment = false ∧
      stripBlocks starBehindComment = "SELECT 6  * 7;".toList := by
  decide +kernel

end SqlBatch.Comment
