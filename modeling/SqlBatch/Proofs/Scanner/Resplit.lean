import SqlBatch.Proofs.Scanner.RoundTrip
/-!
# One statement cut again

Under its delimiter, the source of a statement is cut into that statement and nothing else
(`split_under_source`), unless the delimiter means something else at the end of the text than where
it stood: behind a line comment it ends nothing.
-/

namespace SqlBatch.Scanner

open Text Mode

/-- A source behind a line that sets the delimiter, if it is not the first one. -/
def under (d source : Text) : Text :=
  if d = Delimiter.initial then source else "DELIMITER ".toList ++ d ++ '\n' :: source

def heading (d : Text) : List (StatementKind × Text × Option Text) :=
  if d = Delimiter.initial then [] else [(.directive, "DELIMITER ".toList ++ d, none)]

/-- Whether a block comment is open behind a line.  There is no answer for a line that sets the
delimiter. -/
def commentBehind? (inComment : Bool) (line : Text) : Option Bool :=
  match reading inComment line with
  | .comment | .commentStart => some true
  | .commentEnd _ | .blank | .lineComment | .code => some false
  | .directive _ => none

/-- The delimiter can follow the text right away, and no line before the last one sets another.
`inComment` says whether the last line begins within a block comment. -/
structure Resplits (statement : Statement) (d : Text) (inComment : Bool) : Prop where
  before : (lines statement.text).dropLast.foldlM commentBehind? false = some inComment
  joins : Joins statement.text d inComment

/-! ## Lines that set no delimiter -/

section CommentBehind

variable {m : Mode} {front : List Text} {raw : Text} {inComment : Bool}

private theorem commentBehind?_trim (inComment : Bool) (line : Text) :
    commentBehind? inComment (trim line) = commentBehind? inComment line := by
  rw [commentBehind?, commentBehind?, reading_trim]

theorem foldlM_commentBehind?_congr {lines others : List Text}
    (h : lines.map trim = others.map trim) (inComment : Bool) :
    lines.foldlM commentBehind? inComment = others.foldlM commentBehind? inComment := by
  have htrim : ∀ lines : List Text, (lines.map trim).foldlM commentBehind? inComment =
      lines.foldlM commentBehind? inComment := by
    intro lines
    simp only [List.foldlM_map, commentBehind?_trim]
  rw [← htrim, h, htrim]

theorem commentBehind?_of_reading (h : ∀ token, reading m.inBlockComment raw ≠ .directive token) :
    commentBehind? m.inBlockComment raw = some (m.hold raw).inBlockComment := by
  have hreads := reads_reading m.inBlockComment raw
  unfold commentBehind? Mode.hold
  revert h hreads
  generalize reading m.inBlockComment raw = r
  intro h hreads
  generalize hin : m.inBlockComment = inComment at hreads
  cases hreads with
  | directive => exact absurd rfl (h _)
  | _ => simp [hin]

theorem reading_ne_directive_of_commentBehind? {inComment behind : Bool}
    (h : commentBehind? inComment raw = some behind) (token : Text) :
    reading inComment raw ≠ .directive token := by
  intro hreading
  rw [commentBehind?, hreading] at h
  contradiction

private theorem foldlM_commentBehind?_blanks {blanks : List Text}
    (h : ∀ line ∈ blanks, AllBlank line) (inComment : Bool) :
    blanks.foldlM commentBehind? inComment = some inComment := by
  induction blanks with
  | nil => rfl
  | cons raw blanks ih =>
      obtain ⟨hblank, hrest⟩ := List.forall_mem_cons.1 h
      have hraw : commentBehind? inComment raw = some inComment := by
        rw [commentBehind?, reading_of_blank inComment hblank]
        cases inComment <;> rfl
      rw [List.foldlM_cons, hraw]
      exact ih hrest

theorem holdAll_inBlockComment (h : front.foldlM commentBehind? m.inBlockComment = some inComment) :
    (m.holdAll front).inBlockComment = inComment := by
  induction front generalizing m with
  | nil => exact Option.some.inj h
  | cons raw front ih =>
      obtain ⟨behind, hraw, hfront⟩ := Option.bind_eq_some_iff.1 h
      have hhold := commentBehind?_of_reading (reading_ne_directive_of_commentBehind? hraw)
      obtain rfl : (m.hold raw).inBlockComment = behind := Option.some.inj (hhold.symm.trans hraw)
      exact ih hfront

end CommentBehind

/-- What comes behind a token is part of it. -/
theorem directive?_append_solid {d line token : Text} (hd : Solid d)
    (h : Delimiter.directive? line = some token) :
    Delimiter.directive? (trimEnd line ++ d) = some (token ++ d) := by
  have hsolid := Delimiter.solid_of_directive? h
  have hink : ¬ AllBlank token := hsolid.not_allBlank
  have hspaced : Keyword.dropSpaced? "delimiter".toList (trim line) = some token := by
    unfold Delimiter.directive? at h
    split at h
    · next rest hrest =>
      rw [hrest, (Option.ite_none_left_eq_some.1 h).2]
    · contradiction
  obtain ⟨rest, hdrop, hblanks⟩ := Option.bind_eq_some_iff.1 hspaced
  have htoken : dropBlanks? (rest ++ d) = some (token ++ d) := by
    cases rest with
    | nil => contradiction
    | cons c rest =>
        rw [dropBlanks?, Option.ite_none_right_eq_some] at hblanks
        obtain ⟨hc, hrest⟩ := hblanks
        obtain rfl : trimStart rest = token := Option.some.inj hrest
        rw [allBlank_trimStart] at hink
        rw [List.cons_append, dropBlanks?, if_pos hc, trimStart_append hink]
  have htrim : trim (trimEnd line ++ d) = trim line ++ d := by
    rw [trim_append_solid hd, trimStart_trimEnd]
  have hwhole : Keyword.dropSpaced? "delimiter".toList (trim line ++ d) = some (token ++ d) :=
    Option.bind_eq_some_iff.2 ⟨rest ++ d, Keyword.drop?_append_of_some hdrop d, htoken⟩
  have hblank : (token ++ d).any isBlank = false := by
    simpa using ⟨hsolid.2, hd.2⟩
  have hempty : (token ++ d).isEmpty = false := by simp [hd.1]
  rw [Delimiter.directive?, htrim, hwhole]
  simp only [hblank, hempty]
  rfl

/-! ## Where the statement comes from -/

structure Awaits (s : Scanner) (lines : List Text) : Prop where
  carries : s.Carries lines
  feed : ∀ line ∈ lines, '\n' ∉ line
  pending : (lines.foldlM commentBehind? false).isSome = true → s.Pending lines

def Recloses (statement : Statement) : Prop :=
  ∀ d ∈ statement.terminator, statement.text ≠ [] ∧
    ∀ inComment, Resplits statement d inComment → ∃ behind front last,
      Closes d statement.source behind front last ∧ Ended d behind statement

namespace Awaits

variable {s : Scanner} {lines : List Text} {raw : Text}

theorem hold (h : s.Awaits lines) (hraw : '\n' ∉ raw) (hopen : s.mode.ending raw = .open) :
    (s.hold raw).Awaits (withLine lines raw) := by
  by_cases hidle : lines = [] ∧ AllBlank raw
  · obtain ⟨rfl, hblank⟩ := hidle
    have hcarries := h.carries.hold_blank hblank
    rw [withLine_nil_of_blank hblank]
    exact ⟨hcarries, by simp, fun _ => hcarries.pending⟩
  · have hwith : withLine lines raw = lines ++ [raw] := if_neg hidle
    exact {
      carries := h.carries.hold raw
      feed := by
        rw [hwith]
        exact List.forall_mem_append.2 ⟨h.feed, List.forall_mem_singleton.2 hraw⟩
      pending := by
        intro hunset
        obtain ⟨behind, hbehind⟩ := Option.isSome_iff_exists.1 hunset
        rw [hwith, List.foldlM_append, Option.bind_eq_bind, Option.bind_eq_some_iff] at hbehind
        obtain ⟨inComment, hlines, hlast⟩ := hbehind
        obtain ⟨_, hlast, -⟩ := Option.bind_eq_some_iff.1 hlast
        have hpending := h.pending (Option.isSome_of_eq_some hlines)
        have hin : s.inBlockComment = inComment := by
          have hmode := holdAll_inBlockComment (m := idle s.delimiter) hlines
          rwa [← hpending.mode] at hmode
        rw [← hin] at hlast
        exact hpending.hold hraw hopen (reading_ne_directive_of_commentBehind? hlast) }

/-- No line under way sets a delimiter if none before the last line of the text does. -/
theorem pending_of_seam (h : s.Awaits lines) {v last : Text} {front : List Text} {inComment : Bool}
    (hseam : Seam lines v front last)
    (hbefore : front.foldlM commentBehind? false = some inComment)
    (hunnamed : inComment = false → Delimiter.directive? last = none) : s.Pending lines := by
  apply h.pending
  cases hseam with
  | same => exact Option.isSome_of_eq_some hbefore
  | @above _ _ blanks hlines hblanks _ =>
      have hlast : ∃ behind, commentBehind? inComment last = some behind := by
        cases hreading : reading inComment last with
        | directive token =>
            cases reading_eq_iff.1 hreading with
            | directive _ _ _ names => exact nomatch (hunnamed rfl).symm.trans names
        | _ => simp [commentBehind?, hreading]
      obtain ⟨behind, hbehind⟩ := hlast
      have hblanks := foldlM_commentBehind?_blanks hblanks behind
      rw [hlines, List.append_assoc, List.foldlM_append, hbefore]
      simp [hbehind, hblanks]

theorem recloses (h : s.Awaits lines) (hraw : '\n' ∉ raw) (hclosing : s.mode.ending raw = .closing)
    (hne : ((s.hold raw).underWay true).text ≠ []) : Recloses ((s.hold raw).underWay true) := by
  obtain ⟨v, front, last, hv, hseam, hframed, htext⟩ :=
    h.carries.exists_seam h.feed hraw hclosing hne
  have hended := ended_of_closing h.carries hclosing
  have hdelimiter := hold_delimiter_of_closing h.carries.delimiter hclosing
  intro d hd
  obtain rfl : (s.hold raw).delimiter = d := Option.some.inj hd
  refine ⟨hne, fun inComment hfits => ?_⟩
  obtain ⟨hbefore, hjoins⟩ := hfits
  rw [hdelimiter] at hjoins ⊢
  -- the lines of the text before the last one are those of the script
  obtain ⟨front', last', htidy, hfront, -⟩ := exists_tidy_concat front last
  rw [htext] at hbefore hjoins
  rw [hframed.lines_trim_passage, htidy, List.dropLast_concat,
    foldlM_commentBehind?_congr hfront] at hbefore
  have hunnamed : inComment = false → Delimiter.directive? last = none := by
    intro hout
    have hjoined := hjoins.unnamed hout
    rw [directive?_lastLine (hframed.concat_solid h.carries.delimiter)
      (hframed.trim_passage_concat_solid h.carries.delimiter)] at hjoined
    rw [Option.eq_none_iff_forall_ne_some]
    intro token htoken
    rw [directive?_append_solid h.carries.delimiter htoken] at hjoined
    contradiction
  have hpending := h.pending_of_seam hseam hbefore hunnamed
  have hin := holdAll_inBlockComment (m := idle s.delimiter) hbefore
  rw [← hin] at hjoins
  have hcloses := hseam.closes hpending hframed hclosing hv hjoins
  rw [← htext, ← hended.source] at hcloses
  exact ⟨_, _, _, hcloses, hended⟩

end Awaits

theorem invariant_awaits : Invariant Awaits Recloses where
  carries := Awaits.carries
  idle := fun h => ⟨h, by simp, fun _ => h.pending⟩
  hold := Awaits.hold
  closing := Awaits.recloses
  underWay := fun _ _ _ hd => nomatch hd
  directive := fun _ _ _ hd => nomatch hd

/-! ## The scanner under the delimiter -/

section Under

variable {d : Text} (hsolid : Solid d)

include hsolid

private theorem directive?_delimiterLine :
    Delimiter.directive? ("DELIMITER ".toList ++ d) = some d := by
  have htrim : trim ("DELIMITER ".toList ++ d) = "DELIMITER ".toList ++ d :=
    trim_append_solid hsolid _
  have hspaced : Keyword.dropSpaced? "delimiter".toList ("DELIMITER ".toList ++ d) = some d := by
    show some (trimStart d) = some d
    rw [hsolid.trimStart_eq]
  have hblank : d.any isBlank = false := by simpa using hsolid.2
  have hempty : d.isEmpty = false := by simpa using hsolid.1
  rw [Delimiter.directive?, htrim, hspaced]
  simp [hblank, hempty]

private theorem lines_under (hd : d ≠ Delimiter.initial) (source : Text) :
    lines (under d source) = ("DELIMITER ".toList ++ d) :: lines source := by
  have hfeed : '\n' ∉ "DELIMITER ".toList ++ d := by
    rw [List.mem_append, not_or]
    exact ⟨by decide, fun hmem => absurd (hsolid.2 _ hmem) (by decide)⟩
  have hreturn : ['\r'].isSuffixOf? ("DELIMITER ".toList ++ d) = none := by
    rw [Option.eq_none_iff_forall_ne_some]
    intro front hfront
    rw [List.isSuffixOf?_eq_some_iff_append_eq] at hfront
    have hlast := congrArg List.getLast? hfront
    rw [List.getLast?_concat, List.getLast?_append_of_ne_nil _ hsolid.1] at hlast
    have hblank := hsolid.2 '\r' (List.mem_of_getLast? hlast.symm)
    contradiction
  rw [under, if_neg hd, lines_append_lineFeed hfeed, hreturn, Option.getD_none]

private theorem reading_delimiterLine (hmarkless : Comment.Markless d) :
    reading false ("DELIMITER ".toList ++ d) = .directive d := by
  have hopen : includes Comment.blockOpen ("DELIMITER ".toList ++ d) = false := by
    have hline : includes Comment.blockOpen "DELIMITER ".toList = false := by decide
    rwa [Comment.blockOpen, includes_append hmarkless.opens fun h => absurd h (by decide)]
  have hink : ¬ AllBlank ("DELIMITER ".toList ++ d) :=
    fun hblank => hsolid.not_allBlank (allBlank_append.1 hblank).2
  rw [reading_eq_iff]
  refine .directive hink rfl ?_ (directive?_delimiterLine hsolid)
  apply Comment.leavesBlockOpen_eq_false
  rwa [Comment.includes_blockOpen_trim]

theorem exists_under (hmarkless : Comment.Markless d) (source : Text) :
    ∃ r : Scanner, r.Carries [] ∧ r.mode = idle d ∧ r.ready.map outline = heading d ∧
      split (under d source) = (r.feedAll (lines source)).finish.ready := by
  by_cases hd : d = Delimiter.initial
  · exact ⟨{}, carries_initial, by rw [hd]; rfl, by rw [heading, if_pos hd]; rfl,
      by rw [under, if_pos hd, split]⟩
  · have hending : ({} : Scanner).mode.ending ("DELIMITER ".toList ++ d) = .directive d := by
      have hreading := reading_delimiterLine hsolid hmarkless
      have hout : ({} : Scanner).mode.inBlockComment = false := rfl
      rw [Mode.ending, hout, hreading]
      rfl
    have hcarries := carries_initial.of_directive hending
    refine ⟨({} : Scanner).feed ("DELIMITER ".toList ++ d), hcarries, ?_, ?_, ?_⟩
    · rw [hcarries.mode_eq, feed_of_directive hending]
      rfl
    · have htext : trim ("DELIMITER ".toList ++ d) = "DELIMITER ".toList ++ d :=
        trim_append_solid hsolid _
      have houtline : outline (directiveOn {} ("DELIMITER ".toList ++ d)) =
          (.directive, "DELIMITER ".toList ++ d, none) := by
        simp only [outline, directiveOn, htext]
      rw [carries_initial.ready_of_directive hending, carries_initial.unlessEmpty_underWay_nil,
        heading, if_neg hd, ← houtline]
      rfl
    · rw [split, lines_under hsolid hd]
      rfl

end Under

/-- The source of a statement, under its delimiter, is cut into that statement alone. -/
theorem split_under_source {script : Text} {statement : Statement} {d : Text}
    (hmem : statement ∈ split script) (hterminator : statement.terminator = some d)
    {inComment : Bool} (hfits : Resplits statement d inComment) :
    (split (under d statement.source)).map outline = heading d ++ [outline statement] := by
  obtain ⟨hne, hcloses⟩ := invariant_awaits.of_mem_split hmem d hterminator
  obtain ⟨behind, front, last, hcloses, hended⟩ := hcloses inComment hfits
  obtain ⟨r, hcarries, hmode, hready, hsplit⟩ :=
    exists_under hended.solid hfits.joins.markless statement.source
  have hlines : lines statement.source = tidy (front ++ [last]) := by
    rw [← hcloses.source, hcloses.framed.lines_trim_passage]
  obtain ⟨hrest, -, houtlines⟩ := feedAll_closes hcarries hmode hcloses hended
  rw [hsplit, hlines, ready_finish, hrest.unlessEmpty_underWay_nil, List.append_nil, houtlines,
    hready, unlessEmpty_of_ne_nil hne]
  rfl

def routineUnderWord : Text :=
  "DELIMITER go\nCREATE PROCEDURE p() BEGIN /*\nDELIMITER x\n*/ SELECT 1;\nEND;\n\n  go\n".toList

theorem routineUnderWord_resplits :
    (split (under ['g', 'o']
        "CREATE PROCEDURE p() BEGIN /*\nDELIMITER x\n*/ SELECT 1;\nEND;go".toList)).map outline =
      [(.directive, "DELIMITER go".toList, none),
        (.routine, "CREATE PROCEDURE p() BEGIN /*\nDELIMITER x\n*/ SELECT 1;\nEND;".toList,
          some ['g', 'o'])] := by
  have hmem : ⟨"CREATE PROCEDURE p() BEGIN /*\nDELIMITER x\n*/ SELECT 1;\nEND;".toList, 2, .routine,
      some ['g', 'o']⟩ ∈ split routineUnderWord := by decide +kernel
  have hfits : Resplits ⟨"CREATE PROCEDURE p() BEGIN /*\nDELIMITER x\n*/ SELECT 1;\nEND;".toList, 2,
      .routine, some ['g', 'o']⟩ ['g', 'o'] false := {
    before := by decide +kernel
    joins := {
      markless := ⟨by decide +kernel, by decide +kernel⟩
      apart := by decide +kernel
      plain := fun _ => by decide +kernel
      unnamed := fun _ => by decide +kernel
      alone := ⟨by decide +kernel, by decide +kernel⟩
      glued := ⟨by decide +kernel, by decide +kernel⟩
      spaced := ⟨by decide +kernel, by decide +kernel⟩ } }
  exact split_under_source hmem rfl hfits

def delimiterBehindComment : Text := "SELECT 1\n-- note\n;".toList

/-- In the source, the delimiter is part of the comment. -/
theorem delimiterBehindComment_lost :
    ∃ statement ∈ split delimiterBehindComment, statement.terminator = some Delimiter.initial ∧
      (split (under Delimiter.initial statement.source)).map outline ≠ [outline statement] :=
  ⟨⟨"SELECT 1\n-- note".toList, 1, .ordinary, some [';']⟩, by decide +kernel⟩

end SqlBatch.Scanner
