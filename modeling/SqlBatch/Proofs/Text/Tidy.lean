import SqlBatch.Proofs.Text.Lines
/-!
# Tidy lines

The text of a passage without its blank ends has lines again: the tidy ones, which differ from the
lines of the passage in blank ends only.
-/

namespace SqlBatch.Text

/-- Lines without their blank ends, but for the start of all lines behind the first. -/
def tidy : List Text → List Text
  | [] => []
  | first :: rest => trim first :: rest.map trimEnd

/-- The lines of a statement: none has a line feed in it, and no blank line stands at the ends. -/
structure Framed (lines : List Text) : Prop where
  ne_nil : lines ≠ []
  first : ∀ line ∈ lines.head?, ¬ AllBlank line
  last : ∀ line ∈ lines.getLast?, ¬ AllBlank line
  feed : ∀ line ∈ lines, '\n' ∉ line

/-! ## One passage -/

@[simp] theorem tidy_eq_nil {lines : List Text} : tidy lines = [] ↔ lines = [] := by
  cases lines <;> simp [tidy]

theorem map_trim_tidy (lines : List Text) : (tidy lines).map trim = lines.map trim := by
  cases lines <;> simp [tidy]

theorem exists_tidy_concat (front : List Text) (last : Text) :
    ∃ front' last', tidy (front ++ [last]) = front' ++ [last'] ∧
      front'.map trim = front.map trim ∧ trim last' = trim last := by
  have hne : tidy (front ++ [last]) ≠ [] := mt tidy_eq_nil.1 (by simp)
  obtain ⟨front', last', htidy⟩ := (List.eq_nil_or_concat' _).resolve_left hne
  have htrims := map_trim_tidy (front ++ [last])
  rw [htidy, List.map_append, List.map_append] at htrims
  obtain ⟨hfront, hlast⟩ := List.append_inj' htrims rfl
  exact ⟨front', last', htidy, hfront, by simpa using hlast⟩

theorem trim_getLast?_tidy (lines : List Text) :
    (tidy lines).getLast?.map trim = lines.getLast?.map trim := by
  rw [← List.getLast?_map, map_trim_tidy, List.getLast?_map]

theorem map_trimEnd_tidy (lines : List Text) : (tidy lines).map trimEnd = tidy lines := by
  cases lines <;> simp [tidy]

theorem passage_tidy (lines : List Text) : passage (tidy lines) = joinWith ['\n'] (tidy lines) := by
  rw [passage, map_trimEnd_tidy]

theorem passage_concat (lines : List Text) (last : Text) :
    passage (lines ++ [last]) = block lines ++ trimEnd last := by
  have hblock := block_eq_passage (show lines ++ [last] ≠ [] by simp)
  have hlast : block [last] = trimEnd last ++ ['\n'] := by simp [block]
  rw [block_append, hlast, ← List.append_assoc] at hblock
  exact (List.append_cancel_right hblock).symm

theorem trimEnd_passage {lines : List Text} (h : ∀ line ∈ lines.getLast?, ¬ AllBlank line) :
    trimEnd (passage lines) = passage lines := by
  cases lines using List.reverseRecOn with
  | nil => rfl
  | append_singleton lines last =>
      have hink : ¬ AllBlank (trimEnd last) := by
        rw [allBlank_trimEnd]
        exact h last (by simp)
      rw [passage_concat, trimEnd_append hink, trimEnd_trimEnd]

theorem Framed.trim_passage {lines : List Text} (h : Framed lines) :
    trim (passage lines) = joinWith ['\n'] (tidy lines) := by
  obtain ⟨first, rest, rfl⟩ := List.exists_cons_of_ne_nil h.ne_nil
  have hfirst : ¬ AllBlank (trimEnd first) := by
    rw [allBlank_trimEnd]
    exact h.first first (by simp)
  by_cases hrest : rest = []
  · simp [hrest, passage, tidy, joinWith]
  · have hhead : passage (first :: rest) = trimEnd first ++ (['\n'] ++ passage rest) := by
      rw [passage, List.map_cons, joinWith_cons _ _ (by simpa using hrest), List.append_assoc,
        ← passage]
    calc trim (passage (first :: rest))
        = trimStart (passage (first :: rest)) := by
          rw [← trimStart_trimEnd, trimEnd_passage h.last]
      _ = trim first ++ (['\n'] ++ passage rest) := by
          rw [hhead, trimStart_append hfirst, trimStart_trimEnd]
      _ = joinWith ['\n'] (tidy (first :: rest)) := by
          rw [tidy, joinWith_cons _ _ (by simpa using hrest), passage, List.append_assoc]

/-! ## Several passages -/

private theorem lineFeed_notMem_trim {line : Text} (h : '\n' ∉ line) : '\n' ∉ trim line :=
  fun hmem => h ((trim_isInfix line).subset hmem)

theorem lineFeed_notMem_trimEnd {line : Text} (h : '\n' ∉ line) : '\n' ∉ trimEnd line := by
  obtain ⟨w, -, hw⟩ := exists_eq_trimEnd_append line
  intro hmem
  apply h
  rw [hw]
  exact List.mem_append_left w hmem

theorem framed_concat {lines : List Text} {last : Text}
    (hfirst : ∀ line ∈ lines.head?, ¬ AllBlank line) (hlast : ¬ AllBlank last)
    (hfeed : ∀ line ∈ lines, '\n' ∉ line) (hlast_feed : '\n' ∉ last) :
    Framed (lines ++ [last]) where
  ne_nil := by simp
  first := by
    cases lines with
    | nil => simpa using hlast
    | cons line lines => simpa using hfirst
  last := by simpa using hlast
  feed := List.forall_mem_append.2 ⟨hfeed, List.forall_mem_singleton.2 hlast_feed⟩

theorem framed_concat_solid {lines : List Text} {core d : Text} (hd : Solid d)
    (hfirst : ∀ line ∈ lines.head?, ¬ AllBlank line) (hfeed : ∀ line ∈ lines, '\n' ∉ line)
    (hcore : '\n' ∉ core) : Framed (lines ++ [trimEnd core ++ d]) := by
  refine framed_concat hfirst ?_ hfeed ?_
  · rw [allBlank_append]
    exact fun hblank => hd.not_allBlank hblank.2
  · rw [List.mem_append, not_or]
    refine ⟨lineFeed_notMem_trimEnd hcore, fun hmem => ?_⟩
    have hsolid := hd.2 '\n' hmem
    contradiction

theorem Framed.concat_solid {front : List Text} {last d : Text} (h : Framed (front ++ [last]))
    (hd : Solid d) : Framed (front ++ [trimEnd last ++ d]) := by
  obtain ⟨hfeed, hlast⟩ := List.forall_mem_append.1 h.feed
  apply framed_concat_solid hd _ hfeed (hlast last (by simp))
  intro line hline
  apply h.first
  rw [List.head?_append, Option.mem_def.1 hline]
  rfl

theorem Framed.trim_passage_concat_solid {front : List Text} {last d : Text}
    (h : Framed (front ++ [last])) (hd : Solid d) :
    trim (passage (front ++ [trimEnd last ++ d])) = trim (passage (front ++ [last])) ++ d := by
  rw [trim_passage_of_solid hd (trimEnd_append_solid hd _).symm, ← passage_concat,
    ← trimStart_trimEnd (passage (front ++ [last])), trimEnd_passage h.last]

theorem trimEnd_of_mem_tidy {lines : List Text} {line : Text} (h : line ∈ tidy lines) :
    trimEnd line = line := by
  rw [← map_trimEnd_tidy] at h
  obtain ⟨other, -, rfl⟩ := List.mem_map.1 h
  exact trimEnd_trimEnd other

private theorem getLast?_ne_of_trimEnd {line : Text} (h : trimEnd line = line) :
    line.getLast? ≠ some '\r' := by
  intro hlast
  have hreturn : isBlank '\r' = true := by decide
  have hsolid := List.head?_dropWhile_not isBlank line.reverse
  rw [← h, trimEnd, List.getLast?_reverse] at hlast
  rw [hlast] at hsolid
  simp [hreturn] at hsolid

namespace Framed

variable {lines : List Text}

theorem feed_tidy (h : Framed lines) {line : Text} (hline : line ∈ tidy lines) :
    '\n' ∉ line := by
  have htrim : trim line ∈ lines.map trim := by
    rw [← map_trim_tidy]
    exact List.mem_map_of_mem hline
  obtain ⟨first, rest, rfl⟩ := List.exists_cons_of_ne_nil h.ne_nil
  rcases List.mem_cons.1 hline with rfl | hrest
  · exact lineFeed_notMem_trim (h.feed first (by simp))
  · obtain ⟨other, hother, rfl⟩ := List.mem_map.1 hrest
    exact lineFeed_notMem_trimEnd (h.feed other (by simp [hother]))

theorem first_tidy (h : Framed lines) : ∀ line ∈ (tidy lines).head?, ¬ AllBlank line := by
  obtain ⟨first, rest, rfl⟩ := List.exists_cons_of_ne_nil h.ne_nil
  have hfirst := h.first first (by simp)
  simpa [tidy] using hfirst

theorem last_tidy (h : Framed lines) : ∀ line ∈ (tidy lines).getLast?, line ≠ [] := by
  rintro line hline rfl
  have hlast := trim_getLast?_tidy lines
  rw [Option.mem_def.1 hline] at hlast
  obtain ⟨other, hother, htrim⟩ := Option.map_eq_some_iff.1 hlast.symm
  exact h.last other hother (trim_eq_nil.1 htrim)

end Framed

theorem lines_joinWith_passages {groups : List (List Text)}
    (h : ∀ group ∈ groups, Framed group) :
    lines (joinWith ['\n'] (groups.map fun group => trim (passage group))) =
      groups.flatMap tidy := by
  have hjoin : groups.map (fun group => trim (passage group)) =
      (groups.map tidy).map (joinWith ['\n']) := by
    rw [List.map_map]
    apply List.map_congr_left
    intro group hgroup
    exact (h group hgroup).trim_passage
  have hnil : [] ∉ groups.map tidy := by
    intro hmem
    obtain ⟨group, hgroup, hempty⟩ := List.mem_map.1 hmem
    exact (h group hgroup).ne_nil (tidy_eq_nil.1 hempty)
  rw [hjoin, joinWith_map_joinWith _ hnil, ← List.flatMap_def]
  apply lines_joinWith
  · intro line hline
    obtain ⟨group, hgroup, hmem⟩ := List.mem_flatMap.1 hline
    exact (h group hgroup).feed_tidy hmem
  · intro line hline
    obtain ⟨group, -, hmem⟩ := List.mem_flatMap.1 hline
    exact getLast?_ne_of_trimEnd (trimEnd_of_mem_tidy hmem)
  · cases groups using List.reverseRecOn with
    | nil => simp
    | append_singleton groups last =>
        have hlast := h last (by simp)
        rw [List.flatMap_append, List.flatMap_singleton,
          List.getLast?_append_of_ne_nil _ (mt tidy_eq_nil.1 hlast.ne_nil)]
        exact hlast.last_tidy

def lastLine (text : Text) : Text := (lines text).getLast?.getD []

theorem Framed.lines_trim_passage {group : List Text} (h : Framed group) :
    lines (trim (passage group)) = tidy group := by
  have hgroups : ∀ other ∈ [group], Framed other := by simpa using h
  have hone := lines_joinWith_passages hgroups
  simpa [joinWith] using hone

theorem Framed.trim_lastLine {front : List Text} {last : Text} (h : Framed (front ++ [last])) :
    trim (lastLine (trim (passage (front ++ [last])))) = trim last := by
  have htidy := trim_getLast?_tidy (front ++ [last])
  rw [List.getLast?_concat, Option.map_some] at htidy
  obtain ⟨line, hline, htrim⟩ := Option.map_eq_some_iff.1 htidy
  rw [lastLine, h.lines_trim_passage, hline, Option.getD_some, htrim]

/-- The lines up to the last one with something on it make up the same text. -/
theorem exists_framed {carried : List Text} (hne : carried ≠ [])
    (hfirst : ∀ line ∈ carried.head?, ¬ AllBlank line) (hfeed : ∀ line ∈ carried, '\n' ∉ line) :
    ∃ front last blanks, carried = front ++ [last] ++ blanks ∧ (∀ line ∈ blanks, AllBlank line) ∧
      Framed (front ++ [last]) := by
  induction carried using List.reverseRecOn with
  | nil => contradiction
  | append_singleton carried line ih =>
      by_cases hblank : AllBlank line
      · have hcarried : carried ≠ [] := by
          rintro rfl
          exact hfirst line (by simp) hblank
        have hhead : (carried ++ [line]).head? = carried.head? :=
          List.head?_append_of_ne_nil _ hcarried
        rw [hhead] at hfirst
        obtain ⟨front, last, blanks, rfl, hblanks, hframed⟩ :=
          ih hcarried hfirst fun other hother => hfeed other (List.mem_append_left _ hother)
        have hmore : ∀ other ∈ blanks ++ [line], AllBlank other :=
          List.forall_mem_append.2 ⟨hblanks, List.forall_mem_singleton.2 hblank⟩
        exact ⟨front, last, blanks ++ [line], by simp, hmore, hframed⟩
      · refine ⟨carried, line, [], by simp, by simp, ⟨by simp, hfirst, ?_, hfeed⟩⟩
        simpa using hblank

theorem trim_passage_append_blanks {blanks : List Text} (h : ∀ line ∈ blanks, AllBlank line)
    (lines : List Text) : trim (passage (lines ++ blanks)) = trim (passage lines) := by
  rw [← trim_block, block_append, trim_append_blank (allBlank_block.2 h), trim_block]

/-- The lines of a text without blank ends are those of its passage up to the last that is not
blank. -/
theorem map_trim_lines_passage {group : List Text} (hfirst : ∀ line ∈ group.head?, ¬ AllBlank line)
    (hfeed : ∀ line ∈ group, '\n' ∉ line) :
    (lines (trim (passage group))).map trim = (group.map trim).rdropWhile List.isEmpty := by
  by_cases hne : group = []
  · rw [hne]
    rfl
  obtain ⟨front, last, blanks, rfl, hblanks, hframed⟩ := exists_framed hne hfirst hfeed
  have hempty : ∀ line ∈ (blanks.map trim).reverse, line.isEmpty = true := by
    intro line hline
    obtain ⟨blank, hblank, rfl⟩ := List.mem_map.1 (List.mem_reverse.1 hline)
    rw [trim_eq_nil.2 (hblanks blank hblank), List.isEmpty_nil]
  have hlast : ¬ (trim last).isEmpty = true := by
    rw [List.isEmpty_iff, trim_eq_nil]
    exact hframed.last last (by simp)
  have hdrop : ((front ++ [last] ++ blanks).map trim).rdropWhile List.isEmpty =
      ((front ++ [last]).map trim).rdropWhile List.isEmpty := by
    rw [List.rdropWhile, List.map_append, List.reverse_append, List.dropWhile_append_of_pos hempty,
      ← List.rdropWhile]
  rw [trim_passage_append_blanks hblanks, hframed.lines_trim_passage, map_trim_tidy, hdrop,
    List.map_append, List.map_singleton, List.rdropWhile_concat_neg _ _ _ hlast]

/-- The lines of a text, blank ends and blank lines behind them apart. -/
def HasLines (text : Text) (group : List Text) : Prop :=
  ∃ n, group.map trim = (lines text).map trim ++ List.replicate n []

theorem hasLines_passage {group : List Text} (hfirst : ∀ line ∈ group.head?, ¬ AllBlank line)
    (hfeed : ∀ line ∈ group, '\n' ∉ line) : HasLines (trim (passage group)) group := by
  have hblanks : (group.map trim).rtakeWhile List.isEmpty =
      List.replicate ((group.map trim).rtakeWhile List.isEmpty).length [] := by
    rw [List.eq_replicate_iff]
    exact ⟨rfl, fun line hline => List.isEmpty_iff.1 (List.mem_rtakeWhile_imp hline)⟩
  refine ⟨((group.map trim).rtakeWhile List.isEmpty).length, ?_⟩
  rw [map_trim_lines_passage hfirst hfeed, ← hblanks, List.rdropWhile_append_rtakeWhile]

theorem HasLines.foldl_eq {text : Text} {group : List Text} (h : HasLines text group) {α : Type}
    {f : α → Text → α} (htrim : ∀ a line, f a (trim line) = f a line) (hnil : ∀ a, f a [] = a)
    (a : α) : (lines text).foldl f a = group.foldl f a := by
  obtain ⟨n, hlines⟩ := h
  have hall : ∀ group : List Text, (group.map trim).foldl f a = group.foldl f a := by
    intro group
    rw [List.foldl_map]
    simp only [htrim]
  have hblanks : ∀ (n : Nat) (a : α), (List.replicate n []).foldl f a = a := by
    intro n a
    induction n with
    | zero => rfl
    | succ n ih => rw [List.replicate_succ, List.foldl_cons, hnil, ih]
  rw [← hall, ← hall group, hlines, List.foldl_append, hblanks]

theorem trim_passage_concat (lines : List Text) (last : Text) :
    trim (passage (lines ++ [last])) = trim (block lines ++ last) := by
  obtain ⟨w, hw, hend⟩ := exists_eq_trimEnd_append last
  conv_rhs => rw [hend, ← List.append_assoc, trim_append_blank hw, ← passage_concat]

end SqlBatch.Text
