import SqlBatch.Proofs.Scanner.Segmentation
import SqlBatch.Proofs.Scanner.Stays
/-!
# Scripts put together again

The sources of the statements of a script, joined by line feeds, make up a script that is cut into
the same statements.  `Rebuilds` is the invariant: whenever a statement ends in the script, the
scanner that has taken the sources of the statements so far is between two statements as well, with
the same delimiter in force.
-/

namespace SqlBatch.Scanner

open Text Mode

def outline (statement : Statement) : StatementKind × Text × Option Text :=
  (statement.kind, statement.text, statement.terminator)

/-- The delimiter can follow the text on its last line: no comment would hide it there, and the line
would not become a `DELIMITER` line. -/
def Sound (statement : Statement) : Prop :=
  Comment.isLineComment (lastLine statement.text) = false ∧
    Delimiter.directive? (lastLine statement.source) = none

/-! ## The lines of a source -/

/-- Lines that have not ended a statement, from the one behind the last statement on. -/
structure Pending (s : Scanner) (lines : List Text) : Prop where
  carries : s.Carries lines
  feed : ∀ line ∈ lines, '\n' ∉ line
  mode : s.mode = (idle s.delimiter).holdAll lines
  stays : (idle s.delimiter).Stays lines

/-- The source of a statement that a delimiter ends has lines on which the delimiter ends it, and
behind which the scanner is as it is behind the statement itself. -/
structure Closes (delimiter : Text) (source : Text) (behind : Mode) (front : List Text)
    (last : Text) : Prop where
  framed : Framed (front ++ [last])
  source : trim (passage (front ++ [last])) = source
  stays : (idle delimiter).Stays front
  closing : ((idle delimiter).holdAll front).ending last = .closing
  behind : ((idle delimiter).holdAll front).hold last = behind

section LastLine

variable {front : List Text} {last source : Text} (h : Framed (front ++ [last]))
  (hsource : trim (passage (front ++ [last])) = source)

include h hsource

theorem directive?_lastLine :
    Delimiter.directive? (lastLine source) = Delimiter.directive? last := by
  rw [← Delimiter.directive?_trim, ← hsource, h.trim_lastLine, Delimiter.directive?_trim]

theorem isLineComment_lastLine :
    Comment.isLineComment (lastLine source) = Comment.isLineComment last := by
  rw [← Comment.isLineComment_trim, ← hsource, h.trim_lastLine, Comment.isLineComment_trim]

end LastLine

/-! ## The seam between a text and its delimiter -/

/-- Where the text before a delimiter ends, `v` being the rest of the line of the delimiter and
`lines` the lines before it: on the same line, or on one above it. -/
inductive Seam (lines : List Text) (v : Text) : List Text → Text → Prop where
  | same (ink : ¬ AllBlank v) : Seam lines v lines v
  | above {front : List Text} {last : Text} {blanks : List Text}
    (split : lines = front ++ [last] ++ blanks) (gap : ∀ line ∈ blanks, AllBlank line)
    (blank : AllBlank v) : Seam lines v front last

theorem exists_seam {lines : List Text} {v : Text} (hfirst : ∀ line ∈ lines.head?, ¬ AllBlank line)
    (hfeed : ∀ line ∈ lines, '\n' ∉ line) (hv : '\n' ∉ v) (hne : trim (block lines ++ v) ≠ []) :
    ∃ front last, Seam lines v front last ∧ Framed (front ++ [last]) ∧
      trim (block lines ++ v) = trim (passage (front ++ [last])) := by
  by_cases hblank : AllBlank v
  · have hlines : lines ≠ [] := by
      rintro rfl
      exact hne (trim_eq_nil.2 hblank)
    obtain ⟨front, last, blanks, rfl, hblanks, hframed⟩ := exists_framed hlines hfirst hfeed
    refine ⟨front, last, .above rfl hblanks hblank, hframed, ?_⟩
    rw [trim_append_blank hblank, trim_block, trim_passage_append_blanks hblanks]
  · refine ⟨lines, v, .same hblank, framed_concat hfirst hblank hfeed hv, ?_⟩
    exact (trim_passage_concat lines v).symm

theorem Carries.exists_seam {s : Scanner} {lines : List Text} {raw : Text} (h : s.Carries lines)
    (hfeed : ∀ line ∈ lines, '\n' ∉ line) (hraw : '\n' ∉ raw)
    (hclosing : s.mode.ending raw = .closing) (hne : ((s.hold raw).underWay true).text ≠ []) :
    ∃ v front last, trimEnd raw = v ++ s.delimiter ∧ Seam lines v front last ∧
      Framed (front ++ [last]) ∧
      ((s.hold raw).underWay true).text = trim (passage (front ++ [last])) := by
  obtain ⟨v, hv, htext⟩ := h.text_of_closing hclosing
  have hend := lineFeed_notMem_trimEnd hraw
  rw [hv, List.mem_append, not_or] at hend
  rw [htext] at hne ⊢
  obtain ⟨front, last, hseam, hframed, htrim⟩ := Scanner.exists_seam h.first hfeed hend.1 hne
  exact ⟨v, front, last, hv, hseam, hframed, htrim⟩

/-- The delimiter can follow the text right away.  `inComment` says whether the last line of the
text begins within a block comment. -/
structure Joins (text d : Text) (inComment : Bool) : Prop where
  markless : Comment.Markless d
  apart : Comment.Apart Comment.marks text d
  plain : inComment = false → Comment.isLineComment (lastLine text) = false
  unnamed : inComment = false → Delimiter.directive? (lastLine (text ++ d)) = none
  alone : Routine.Quiet [] d
  glued : Routine.Quiet (codeOn inComment (trim (lastLine text))) d
  spaced : Routine.Quiet (codeOn inComment (trim (lastLine text))) (' ' :: d)

theorem Joins.quiet {text d : Text} {inComment : Bool} (h : Joins text d inComment) {w : Text}
    (hw : AllBlank w) : Routine.Quiet (codeOn inComment (trim (lastLine text))) (w ++ d) := by
  by_cases hnil : w = []
  · rw [hnil]
    exact h.glued
  · exact h.spaced.of_space hw hnil

theorem Joins.apart_trim {d : Text} {inComment : Bool} {front : List Text} {last : Text}
    (h : Joins (trim (passage (front ++ [last]))) d inComment) (hink : ¬ AllBlank last) :
    Comment.Apart Comment.marks (trim last) d := by
  have hend : ¬ AllBlank (trimEnd last) := by rwa [allBlank_trimEnd]
  have hgetLast := getLast?_trim_append hend (block front)
  rw [← passage_concat, trim_trimEnd] at hgetLast
  exact h.apart.congr hgetLast.symm

/-- Blank lines leave the scanner as it is behind the lines before them. -/
theorem Pending.mode_of_blanks {s : Scanner} {front blanks : List Text} {last : Text}
    (h : s.Pending (front ++ [last] ++ blanks)) (hblanks : ∀ line ∈ blanks, AllBlank line) :
    s.mode = ((idle s.delimiter).holdAll front).hold last := by
  rw [h.mode, holdAll_append, holdAll_of_blank hblanks, holdAll_append]
  rfl

/-- A delimiter at a seam can move up to the text before it. -/
theorem Seam.closes {s : Scanner} {lines front : List Text} {raw v last : Text}
    (hseam : Seam lines v front last) (h : s.Pending lines) (hframed : Framed (front ++ [last]))
    (hclosing : s.mode.ending raw = .closing) (hv : trimEnd raw = v ++ s.delimiter)
    (hjoins : Joins (trim (passage (front ++ [last]))) s.delimiter
      ((idle s.delimiter).holdAll front).inBlockComment) :
    Closes s.delimiter (trim (passage (front ++ [last])) ++ s.delimiter) (s.mode.hold raw) front
      (trimEnd last ++ s.delimiter) := by
  have hsolid := h.carries.delimiter
  have hlast := hframed.trim_lastLine
  have hclosed := hframed.concat_solid hsolid
  have hsource := hframed.trim_passage_concat_solid hsolid
  have hink : ¬ AllBlank last := hframed.last last (by simp)
  have hapart := hjoins.apart_trim hink
  have hunnamed := hjoins.unnamed
  rw [directive?_lastLine hclosed hsource] at hunnamed
  have hplain := hjoins.plain
  rw [isLineComment_lastLine hframed rfl] at hplain
  have hstays := h.stays
  have hquiet := fun w => hjoins.quiet (w := w)
  rw [hlast] at hquiet
  cases hseam with
  | same =>
      rw [← h.mode] at hunnamed hquiet
      obtain ⟨hmoved, hhold⟩ := closing_of_moved hsolid hjoins.markless hv.symm hink hapart hquiet
        hclosing hunnamed
      exact {
        framed := hclosed
        source := hsource
        stays := hstays
        closing := by
          rw [← h.mode]
          exact hmoved
        behind := by
          rw [← h.mode]
          exact hhold }
  | above hlines hblanks hblank =>
      have hlone : trim raw = s.delimiter := by
        rw [← trim_trimEnd, hv, trim_blank_append hblank, hsolid.trim_eq]
      rw [hlines, stays_append, stays_append, stays_singleton] at hstays
      obtain ⟨⟨hfront, -, hreading⟩, -⟩ := hstays
      have hdelimiter : ((idle s.delimiter).holdAll front).delimiter = s.delimiter :=
        holdAll_delimiter hfront
      have hmode := (hlines ▸ h).mode_of_blanks hblanks
      have hglued := hquiet [] allBlank_nil
      rw [List.nil_append] at hglued
      have hmarkless := hjoins.markless
      have halone := hjoins.alone
      rw [hmode] at hclosing ⊢
      obtain ⟨hmoved, hhold⟩ := closing_of_lone (m := (idle s.delimiter).holdAll front)
        (by rwa [hdelimiter]) (by rwa [hdelimiter]) (by rw [hdelimiter, hlone])
        (by rwa [hdelimiter]) (by rwa [hdelimiter]) (hold_delimiter_of_stays hreading) hclosing hink
        (by rwa [hdelimiter]) hreading hplain (by rwa [hdelimiter])
      rw [hdelimiter] at hmoved hhold
      exact ⟨hclosed, hsource, hfront, hmoved, hhold⟩

/-! ## The scanner that takes the sources -/

def kindIn (inRoutine : Bool) : StatementKind := if inRoutine then .routine else .ordinary

def rebuild (groups : List (List Text)) : Scanner := ({} : Scanner).feedAll (groups.flatMap tidy)

theorem rebuild_append (groups more : List (List Text)) :
    rebuild (groups ++ more) = (rebuild groups).feedAll (more.flatMap tidy) := by
  rw [rebuild, rebuild, List.flatMap_append, feedAll, feedAll, feedAll, List.foldl_append]

theorem rebuild_concat (groups : List (List Text)) (group : List Text) :
    rebuild (groups ++ [group]) = (rebuild groups).feedAll (tidy group) := by
  rw [rebuild_append, List.flatMap_singleton]

theorem outline_underWay {s : Scanner} {lines : List Text} (h : s.Carries lines) :
    outline (s.underWay false) = (kindIn s.mode.inRoutine, trim (passage lines), none) := by
  rw [← h.text_eq]
  rfl

theorem map_outline_unlessEmpty {a b : Statement} (h : outline a = outline b) :
    (unlessEmpty a).map outline = (unlessEmpty b).map outline := by
  have htext : a.text = b.text := congrArg (fun o => o.2.1) h
  unfold unlessEmpty
  rw [htext]
  split
  · rfl
  · simp [h]

structure Ended (d : Text) (behind : Mode) (statement : Statement) : Prop where
  solid : Solid d
  delimiter : behind.delimiter = d
  trimmed : trim statement.text = statement.text
  kind : statement.kind = kindIn behind.inRoutine
  terminator : statement.terminator = some d

theorem Ended.source {d : Text} {behind : Mode} {statement : Statement}
    (h : Ended d behind statement) : statement.source = statement.text ++ d := by
  rw [Statement.source, h.terminator, Option.getD_some]

/-- The lines of the source of a statement make up that statement again. -/
theorem feedAll_closes {r : Scanner} {d : Text} (h : r.Carries []) (hmode : r.mode = idle d)
    {statement : Statement} {behind : Mode} {front : List Text} {last : Text}
    (hcloses : Closes d statement.source behind front last) (hended : Ended d behind statement) :
    (r.feedAll (tidy (front ++ [last]))).Carries [] ∧
      (r.feedAll (tidy (front ++ [last]))).delimiter = d ∧
      (r.feedAll (tidy (front ++ [last]))).ready.map outline =
        r.ready.map outline ++ (unlessEmpty statement).map outline := by
  have hframed := hcloses.framed
  -- the lines of the source differ from those of the frame in blank ends only
  obtain ⟨front', last', htidy, hfront, hend⟩ := exists_tidy_concat front last
  have hstays : r.mode.Stays front' := by
    rw [hmode, stays_congr hfront]
    exact hcloses.stays
  obtain ⟨hcarries, hbefore, hready⟩ := h.feedAll_of_stays hstays
  have hfeed : r.feedAll (tidy (front ++ [last])) = (r.feedAll front').feed last' := by
    rw [htidy, feedAll_append_line]
  generalize r.feedAll front' = t at hcarries hbefore hready hfeed
  rw [hmode, holdAll_congr hfront] at hbefore
  have hclosing : t.mode.ending last' = .closing := by
    rw [hbefore, ending_congr hend, hcloses.closing]
  have hbehind : (t.hold last').mode = behind := by
    rw [mode_hold, hbefore, hold_congr hend, hcloses.behind]
  have hheld : (t.hold last').Carries (tidy (front ++ [last])) := by
    have hfold := foldl_withLine_nil hframed.first_tidy
    rw [htidy, List.foldl_append] at hfold
    rw [htidy, ← hfold]
    exact hcarries.hold last'
  have hdelimiter : (t.hold last').delimiter = d :=
    (congrArg Mode.delimiter hbehind).trans hended.delimiter
  have hsource : trim (block (tidy (front ++ [last]))) = trim (statement.text ++ d ++ []) := by
    rw [trim_block, passage_tidy, ← hframed.trim_passage, hcloses.source, Statement.source,
      hended.terminator, Option.getD_some, List.append_nil]
  have htext : ((t.hold last').underWay true).text = statement.text := by
    show Delimiter.strip (t.hold last').delimiter (t.hold last').buffer = statement.text
    rw [hdelimiter, hheld.buffer, Delimiter.strip_congr hsource,
      Delimiter.strip_append hended.solid allBlank_nil, hended.trimmed]
  have houtline : outline ((t.hold last').underWay true) = outline statement := by
    rw [outline, outline, htext, hended.kind, hended.terminator, ← hbehind, ← hdelimiter]
    rfl
  rw [hfeed]
  refine ⟨hcarries.of_closing hclosing, ?_, ?_⟩
  · rw [hcarries.delimiter_of_closing hclosing, ← hdelimiter,
      hold_delimiter_of_closing hcarries.delimiter hclosing]
  · rw [ready_of_closing hclosing, List.map_append, hready, map_outline_unlessEmpty houtline]

/-- Behind the lines of `groups`, which are the sources of the statements in `ready`, the scanner
has queued the same statements and is between two statements. -/
structure Mirrors (ready : List Statement) (delimiter : Text) (groups : List (List Text)) :
    Prop where
  framed : ∀ group ∈ groups, Framed group
  sources : ready.map Statement.source = groups.map fun group => trim (passage group)
  carries : (rebuild groups).Carries []
  delimiter : (rebuild groups).delimiter = delimiter
  outlines : (rebuild groups).ready.map outline = ready.map outline

namespace Mirrors

variable {ready : List Statement} {d : Text} {groups : List (List Text)}

theorem mode_eq (h : Mirrors ready d groups) : (rebuild groups).mode = idle d := by
  rw [h.carries.mode_eq, h.delimiter]
  rfl

theorem framed_append (h : Mirrors ready d groups) {more : List (List Text)}
    (hmore : ∀ group ∈ more, Framed group) : ∀ group ∈ groups ++ more, Framed group :=
  List.forall_mem_append.2 ⟨h.framed, hmore⟩

theorem add_closing (h : Mirrors ready d groups) {statement : Statement} {behind : Mode}
    {front : List Text} {last : Text} (hcloses : Closes d statement.source behind front last)
    (hended : Ended d behind statement) (hne : statement.text ≠ []) :
    Mirrors (ready ++ [statement]) d (groups ++ [front ++ [last]]) := by
  obtain ⟨hcarries, hdelimiter, hready⟩ := feedAll_closes h.carries h.mode_eq hcloses hended
  have hone := unlessEmpty_of_ne_nil hne
  rw [← rebuild_concat] at hcarries hdelimiter hready
  exact {
    framed := h.framed_append (List.forall_mem_singleton.2 hcloses.framed)
    sources := by
      rw [List.map_append, List.map_append, h.sources, List.map_singleton, List.map_singleton,
        hcloses.source]
    carries := hcarries
    delimiter := hdelimiter
    outlines := by rw [hready, h.outlines, hone, List.map_append] }

end Mirrors

structure Catches (s : Scanner) (groups more : List (List Text)) : Prop where
  framed : ∀ group ∈ more, Framed group
  sources : (unlessEmpty (s.underWay false)).map Statement.source =
    more.map fun group => trim (passage group)
  carries : ∃ carried, (rebuild (groups ++ more)).Carries carried
  mode : (rebuild (groups ++ more)).mode = s.mode
  ready : (rebuild (groups ++ more)).ready = (rebuild groups).ready
  outlines : (unlessEmpty ((rebuild (groups ++ more)).underWay false)).map outline =
    (unlessEmpty (s.underWay false)).map outline

section Catches

variable {s : Scanner} {groups : List (List Text)} (hmirrors : Mirrors s.ready s.delimiter groups)

include hmirrors

private theorem catches_nil (h : s.Pending []) : Catches s groups [] := by
  have hmode : (rebuild groups).mode = s.mode := by
    rw [hmirrors.mode_eq, h.mode]
    rfl
  have hempty := h.carries.unlessEmpty_underWay_nil
  have houtlines : (unlessEmpty ((rebuild groups).underWay false)).map outline =
      (unlessEmpty (s.underWay false)).map outline := by
    apply map_outline_unlessEmpty
    rw [outline_underWay hmirrors.carries, outline_underWay h.carries, hmode]
  rw [← List.append_nil groups] at hmode houtlines
  exact {
    framed := by simp
    sources := by
      rw [hempty]
      rfl
    carries := by
      rw [List.append_nil]
      exact ⟨[], hmirrors.carries⟩
    mode := hmode
    ready := by rw [List.append_nil]
    outlines := houtlines }

/-- The blank lines at the end of the lines under way are in no source. -/
private theorem catches_framed {front : List Text} {last : Text} {blanks : List Text}
    (h : s.Pending (front ++ [last] ++ blanks)) (hblanks : ∀ line ∈ blanks, AllBlank line)
    (hframed : Framed (front ++ [last])) : Catches s groups [front ++ [last]] := by
  have htext : trim (passage (front ++ [last] ++ blanks)) = trim (passage (front ++ [last])) :=
    trim_passage_append_blanks hblanks _
  have hstays : (rebuild groups).mode.Stays (tidy (front ++ [last])) := by
    rw [hmirrors.mode_eq, stays_congr (map_trim_tidy _)]
    exact (stays_append.1 h.stays).1
  obtain ⟨hcarries, hmode, hready⟩ := hmirrors.carries.feedAll_of_stays hstays
  rw [foldl_withLine_nil hframed.first_tidy] at hcarries
  rw [hmirrors.mode_eq, holdAll_congr (map_trim_tidy _)] at hmode
  rw [← rebuild_concat] at hcarries hmode hready
  have hsame : (rebuild (groups ++ [front ++ [last]])).mode = s.mode := by
    rw [hmode, h.mode, holdAll_append _ (front ++ [last]), holdAll_of_blank hblanks]
  have hsource : (s.underWay false).source = trim (passage (front ++ [last])) := by
    rw [← htext, ← h.carries.text_eq]
    exact List.append_nil _
  have hone := h.carries.unlessEmpty_underWay (by simp)
  exact {
    framed := List.forall_mem_singleton.2 hframed
    sources := by rw [hone, List.map_singleton, List.map_singleton, hsource]
    carries := ⟨_, hcarries⟩
    mode := hsame
    ready := hready
    outlines := by
      apply map_outline_unlessEmpty
      rw [outline_underWay hcarries, outline_underWay h.carries, hsame, htext, passage_tidy,
        ← hframed.trim_passage, trim_trim] }

theorem exists_catches {lines : List Text} (h : s.Pending lines) :
    ∃ more, Catches s groups more := by
  by_cases hnil : lines = []
  · rw [hnil] at h
    exact ⟨[], catches_nil hmirrors h⟩
  · obtain ⟨front, last, blanks, rfl, hblanks, hframed⟩ :=
      exists_framed hnil h.carries.first h.feed
    exact ⟨[front ++ [last]], catches_framed hmirrors h hblanks hframed⟩

end Catches

theorem Mirrors.exists_directive {s : Scanner} {lines : List Text} {groups : List (List Text)}
    (h : Mirrors s.ready s.delimiter groups) (hpending : s.Pending lines) {raw token : Text}
    (hraw : '\n' ∉ raw) (hdirective : s.mode.ending raw = .directive token) :
    ∃ groups', Mirrors (s.feed raw).ready token groups' := by
  obtain ⟨more, hcatches⟩ := exists_catches h hpending
  obtain ⟨carried, hcarries⟩ := hcatches.carries
  have hready := hpending.carries.ready_of_directive hdirective
  have hending : (rebuild (groups ++ more)).mode.ending (trim raw) = .directive token := by
    rw [ending_trim, hcatches.mode, hdirective]
  have hrebuild : rebuild (groups ++ (more ++ [[raw]])) =
      (rebuild (groups ++ more)).feed (trim raw) := by
    rw [← List.append_assoc, rebuild_append]
    rfl
  have hink : ¬ AllBlank raw :=
    not_allBlank_of_reading_directive (Mode.reading_of_ending_directive hdirective).1
  have hframed : Framed ([] ++ [raw]) := framed_concat (by simp) hink (by simp) hraw
  refine ⟨groups ++ (more ++ [[raw]]), ?_⟩
  exact {
    framed := by
      apply h.framed_append
      exact List.forall_mem_append.2 ⟨hcatches.framed, List.forall_mem_singleton.2 hframed⟩
    sources := by
      have hself : (s.directiveOn raw).source = trim (passage [raw]) := by
        rw [passage, List.map_singleton, joinWith, trim_trimEnd]
        exact List.append_nil _
      rw [hready, List.map_append, List.map_append, h.sources, hcatches.sources,
        List.map_singleton, hself]
      simp
    carries := by
      rw [hrebuild]
      exact hcarries.of_directive hending
    delimiter := by rw [hrebuild, feed_of_directive hending]
    outlines := by
      have hself : outline ((rebuild (groups ++ more)).directiveOn (trim raw)) =
          outline (s.directiveOn raw) := by
        simp [outline, directiveOn]
      rw [hrebuild, hcarries.ready_of_directive hending, hready, hcatches.ready]
      simp only [List.map_append, List.map_singleton, h.outlines, hcatches.outlines, hself] }

theorem Mirrors.exists_finish {s : Scanner} {lines : List Text} {groups : List (List Text)}
    (h : Mirrors s.ready s.delimiter groups) (hpending : s.Pending lines) :
    ∃ groups', (∀ group ∈ groups', Framed group) ∧
      s.finish.ready.map Statement.source = groups'.map (fun group => trim (passage group)) ∧
      (rebuild groups').finish.ready.map outline = s.finish.ready.map outline := by
  obtain ⟨more, hcatches⟩ := exists_catches h hpending
  refine ⟨groups ++ more, h.framed_append hcatches.framed, ?_, ?_⟩
  · rw [ready_finish, List.map_append, List.map_append, h.sources, hcatches.sources]
  · rw [ready_finish, ready_finish, List.map_append, List.map_append, hcatches.ready, h.outlines,
      hcatches.outlines]

/-! ## Line by line -/

/-- Characters that are part of no word and stand in no comment mark. -/
def Signs (token : Text) : Prop := ∀ c ∈ token, isWord c = false ∧ c ∉ ['/', '*', '-', '#']

instance (token : Text) : Decidable (Signs token) :=
  List.decidableBAll (fun c => isWord c = false ∧ c ∉ ['/', '*', '-', '#']) token

namespace Signs

variable {token : Text} (h : Signs token)

include h

theorem notMem {c : Char} (hc : c ∈ ['/', '*', '-', '#']) : c ∉ token := fun hmem => (h c hmem).2 hc

theorem wordless : Wordless token := fun c hc => (h c hc).1

theorem markless : Comment.Markless token where
  opens := by
    rw [Bool.eq_false_iff, ne_eq, includes_iff_isInfix]
    exact fun hopen => h.notMem (by simp) (hopen.subset (List.mem_cons_self (a := '/')))
  closes := by
    rw [Bool.eq_false_iff, ne_eq, includes_iff_isInfix]
    exact fun hclose => h.notMem (by simp) (hclose.subset (List.mem_cons_self (a := '*')))

theorem apart (line : Text) : Comment.Apart Comment.marks line token := by
  apply Comment.apart_of_head
  rintro c hc pair hpair rfl
  refine h.notMem ?_ (List.mem_of_mem_head? hc)
  simp only [Comment.marks, Comment.blockMarks, List.mem_cons, List.not_mem_nil, or_false] at hpair
  rcases hpair with rfl | rfl | rfl <;> simp

theorem joins {statement : Statement} (hterminator : statement.terminator = some token)
    (hsound : Sound statement) (inComment : Bool) : Joins statement.text token inComment where
  markless := h.markless
  apart := h.apart statement.text
  plain := fun _ => hsound.1
  unnamed := by
    intro _
    have hsource : statement.source = statement.text ++ token := by
      rw [Statement.source, hterminator, Option.getD_some]
    rw [← hsource]
    exact hsound.2
  alone := Routine.quiet_of_wordless h.wordless _
  glued := Routine.quiet_of_wordless h.wordless _
  spaced := Routine.quiet_of_wordless (wordless_cons.2 ⟨by decide, h.wordless⟩) _

end Signs

/-- `groups` are the lines of the sources of all statements behind which `lines` are under way. -/
structure Rebuilds (s : Scanner) (lines : List Text) (groups : List (List Text)) : Prop where
  pending : s.Pending lines
  signs : Signs s.delimiter
  mirrors : Mirrors s.ready s.delimiter groups

theorem Carries.pending {s : Scanner} (h : s.Carries []) : s.Pending [] where
  carries := h
  feed := by simp
  mode := h.mode_eq
  stays := stays_nil _

theorem Pending.hold {s : Scanner} {lines : List Text} (h : s.Pending lines) {raw : Text}
    (hraw : '\n' ∉ raw) (hopen : s.mode.ending raw = .open)
    (hreading : ∀ token, reading s.inBlockComment raw ≠ .directive token) :
    (s.hold raw).Pending (withLine lines raw) := by
  have hdelimiter := hold_delimiter_of_reading hreading
  by_cases hidle : lines = [] ∧ AllBlank raw
  · obtain ⟨rfl, hblank⟩ := hidle
    rw [withLine_nil_of_blank hblank]
    exact (h.carries.hold_blank hblank).pending
  · have hwith : withLine lines raw = lines ++ [raw] := if_neg hidle
    have hmode := h.mode
    rw [hwith]
    exact {
      carries := by
        rw [← hwith]
        exact h.carries.hold raw
      feed := List.forall_mem_append.2 ⟨h.feed, List.forall_mem_singleton.2 hraw⟩
      mode := by
        rw [mode_hold, hdelimiter, holdAll_append, ← hmode]
        rfl
      stays := by
        rw [hdelimiter, stays_append, stays_singleton, ← hmode]
        exact ⟨h.stays, hopen, hreading⟩ }

theorem ended_of_closing {s : Scanner} {lines : List Text} (h : s.Carries lines) {raw : Text}
    (hclosing : s.mode.ending raw = .closing) :
    Ended s.delimiter (s.mode.hold raw) ((s.hold raw).underWay true) := by
  obtain ⟨v, -, htext⟩ := h.text_of_closing hclosing
  exact {
    solid := h.delimiter
    delimiter := Mode.hold_delimiter_of_closing h.delimiter hclosing
    trimmed := by rw [htext, trim_trim]
    kind := by
      rw [← mode_hold]
      rfl
    terminator := by
      rw [← hold_delimiter_of_closing h.delimiter hclosing]
      rfl }

def sets? (s : Scanner) (raw : Text) : Option Text :=
  match reading s.inBlockComment raw with
  | .directive token => some token
  | _ => none

theorem sets?_of_reading {s : Scanner} {raw token : Text}
    (h : reading s.inBlockComment raw = .directive token) : s.sets? raw = some token := by
  rw [sets?, h]

/-- Where `DELIMITER` lines stand outside of routines, a line that ends nothing is none. -/
theorem reading_ne_directive_of_open {s : Scanner} {raw : Text}
    (hunfolded : (s.sets? raw).isSome = true → s.inRoutine = false)
    (hopen : s.mode.ending raw = .open) (token : Text) :
    reading s.inBlockComment raw ≠ .directive token := by
  intro hreading
  have hout : s.mode.inRoutine = false :=
    hunfolded (Option.isSome_of_eq_some (sets?_of_reading hreading))
  have hmode : s.mode.inBlockComment = s.inBlockComment := rfl
  simp [Mode.ending, hmode, hreading, hout] at hopen

namespace Rebuilds

variable {s : Scanner} {lines : List Text} {groups : List (List Text)} {raw : Text}

theorem feed_open (h : Rebuilds s lines groups) (hraw : '\n' ∉ raw)
    (hunfolded : (s.sets? raw).isSome = true → s.inRoutine = false)
    (hopen : s.mode.ending raw = .open) : Rebuilds (s.feed raw) (withLine lines raw) groups := by
  have hreading := reading_ne_directive_of_open hunfolded hopen
  have hdelimiter := hold_delimiter_of_reading hreading
  rw [feed_of_open hopen]
  exact {
    pending := h.pending.hold hraw hopen hreading
    signs := by
      rw [hdelimiter]
      exact h.signs
    mirrors := by
      rw [hdelimiter, hold_ready]
      exact h.mirrors }

theorem feed_closing (h : Rebuilds s lines groups) (hraw : '\n' ∉ raw)
    (hsound : ∀ statement ∈ (s.feed raw).ready, statement.isTerminated = true → Sound statement)
    (hclosing : s.mode.ending raw = .closing) : ∃ groups', Rebuilds (s.feed raw) [] groups' := by
  have hcarries := h.pending.carries
  have hended := ended_of_closing hcarries hclosing
  have hdelimiter := hcarries.delimiter_of_closing hclosing
  have hready := ready_of_closing hclosing
  have hpending := (hcarries.of_closing hclosing).pending
  by_cases hne : ((s.hold raw).underWay true).text = []
  · rw [unlessEmpty_of_nil hne, List.append_nil] at hready
    refine ⟨groups, hpending, ?_, ?_⟩
    · rw [hdelimiter]
      exact h.signs
    · rw [hdelimiter, hready]
      exact h.mirrors
  · rw [unlessEmpty_of_ne_nil hne] at hready
    have hmem : (s.hold raw).underWay true ∈ (s.feed raw).ready := by simp [hready]
    have hterminated : ((s.hold raw).underWay true).isTerminated = true := rfl
    obtain ⟨v, front, last, hv, hseam, hframed, htext⟩ :=
      hcarries.exists_seam h.pending.feed hraw hclosing hne
    have hjoins := h.signs.joins hended.terminator (hsound _ hmem hterminated)
    rw [htext] at hjoins
    have hcloses := hseam.closes h.pending hframed hclosing hv (hjoins _)
    rw [← htext, ← hended.source] at hcloses
    refine ⟨groups ++ [front ++ [trimEnd last ++ s.delimiter]], hpending, ?_, ?_⟩
    · rw [hdelimiter]
      exact h.signs
    · rw [hdelimiter, hready]
      exact h.mirrors.add_closing hcloses hended hne

theorem feed_directive (h : Rebuilds s lines groups) (hraw : '\n' ∉ raw)
    (hsigns : ∀ token ∈ s.sets? raw, Signs token) {token : Text}
    (hdirective : s.mode.ending raw = .directive token) :
    ∃ groups', Rebuilds (s.feed raw) [] groups' := by
  obtain ⟨groups', hmirrors⟩ := h.mirrors.exists_directive h.pending hraw hdirective
  have hreading := (Mode.reading_of_ending_directive hdirective).1
  have hdelimiter : (s.feed raw).delimiter = token := by rw [feed_of_directive hdirective]
  refine ⟨groups', (h.pending.carries.of_directive hdirective).pending, ?_, ?_⟩
  · rw [hdelimiter]
    exact hsigns token (sets?_of_reading hreading)
  · rw [hdelimiter]
    exact hmirrors

theorem exists_feed (h : Rebuilds s lines groups) (hraw : '\n' ∉ raw)
    (hsigns : ∀ token ∈ s.sets? raw, Signs token)
    (hunfolded : (s.sets? raw).isSome = true → s.inRoutine = false)
    (hsound : ∀ statement ∈ (s.feed raw).ready, statement.isTerminated = true → Sound statement) :
    ∃ lines' groups', Rebuilds (s.feed raw) lines' groups' := by
  cases hending : s.mode.ending raw with
  | «open» => exact ⟨_, groups, h.feed_open hraw hunfolded hending⟩
  | closing =>
      obtain ⟨groups', hfeed⟩ := h.feed_closing hraw hsound hending
      exact ⟨[], groups', hfeed⟩
  | directive token =>
      obtain ⟨groups', hfeed⟩ := h.feed_directive hraw hsigns hending
      exact ⟨[], groups', hfeed⟩

end Rebuilds

/-! ## The whole script -/

/-- No delimiter of the script can be taken for something else, or be hidden, at the end of the
text before it. -/
structure Rebuildable (script : Text) : Prop where
  tokens : ∀ k < (lines script).length,
    ∀ token ∈ (after (lines script) k).sets? (lineAt (lines script) (k + 1)), Signs token
  unfolded : ∀ k < (lines script).length,
    ((after (lines script) k).sets? (lineAt (lines script) (k + 1))).isSome = true →
      (after (lines script) k).inRoutine = false
  uncommented : ∀ statement ∈ split script, statement.isTerminated = true →
    Comment.isLineComment (lastLine statement.text) = false
  undirected : ∀ statement ∈ split script, statement.isTerminated = true →
    Delimiter.directive? (lastLine statement.source) = none

theorem rebuilds_initial : Rebuilds {} [] [] where
  pending := carries_initial.pending
  signs := by decide +kernel
  mirrors := {
    framed := by simp
    sources := rfl
    carries := carries_initial
    delimiter := rfl
    outlines := rfl }

theorem Rebuildable.exists_rebuilds {script : Text} (h : Rebuildable script) {k : Nat}
    (hk : k ≤ (lines script).length) :
    ∃ carried groups, Rebuilds (after (lines script) k) carried groups := by
  induction k with
  | zero => exact ⟨[], [], rebuilds_initial⟩
  | succ k ih =>
      obtain ⟨carried, groups, hrebuilds⟩ := ih (by omega)
      have hraw : '\n' ∉ lineAt (lines script) (k + 1) := by
        rw [lineAt_succ hk]
        exact lineFeed_notMem_of_mem_lines (List.getElem_mem hk)
      rw [after_succ hk]
      apply hrebuilds.exists_feed hraw
      · exact h.tokens k hk
      · exact h.unfolded k hk
      · intro statement hstatement hterminated
        rw [← after_succ hk] at hstatement
        have hmem := mem_split_of_mem_after hk hstatement
        exact ⟨h.uncommented statement hmem hterminated, h.undirected statement hmem hterminated⟩

/-- The sources of the statements of a script, joined, are cut into the same statements. -/
theorem split_joined_sources {script : Text} (h : Rebuildable script) :
    (split (joinWith ['\n'] ((split script).map Statement.source))).map outline =
      (split script).map outline := by
  obtain ⟨carried, groups, hrebuilds⟩ := h.exists_rebuilds (Nat.le_refl _)
  obtain ⟨all, hframed, hsources, houtlines⟩ :=
    hrebuilds.mirrors.exists_finish hrebuilds.pending
  rw [← split_eq_after] at hsources houtlines
  have hlines : lines (joinWith ['\n'] ((split script).map Statement.source)) =
      all.flatMap tidy := by
    rw [hsources, lines_joinWith_passages hframed]
  have hrebuilt : split (joinWith ['\n'] ((split script).map Statement.source)) =
      (rebuild all).finish.ready := by
    rw [split, hlines, rebuild]
  rw [hrebuilt, houtlines]

def looseDelimiters : Text :=
  "SELECT 1\n\n ;\nDELIMITER $$\nCREATE PROCEDURE p() BEGIN\nSELECT 2;\nEND  $$\n".toList

theorem looseDelimiters_joined :
    (split (joinWith ['\n'] ((split looseDelimiters).map Statement.source))).map outline =
      [(.ordinary, "SELECT 1".toList, some [';']),
        (.directive, "DELIMITER $$".toList, none),
        (.routine, "CREATE PROCEDURE p() BEGIN\nSELECT 2;\nEND".toList, some ['$', '$'])] := by
  have hrebuildable : Rebuildable looseDelimiters := {
    tokens := by decide +kernel
    unfolded := by decide +kernel
    uncommented := by decide +kernel
    undirected := by decide +kernel }
  rw [split_joined_sources hrebuildable]
  decide +kernel

end SqlBatch.Scanner
