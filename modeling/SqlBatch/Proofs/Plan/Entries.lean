import SqlBatch.Proofs.Plan
import SqlBatch.Proofs.Plan.Groups
import SqlBatch.Proofs.Text.Lines
import Mathlib.Data.List.Pairwise
import Mathlib.Data.List.Range
/-!
# The answers to entries

Each group of entries gives one verdict, at its last entry.  The plan is followed entry by entry:
before each of them some groups are answered, and perhaps a routine waits for its end.
-/

namespace SqlBatch.Plan

open Text

variable {entries : List Entry} {k : Nat}

/-! ## The plan of the entries from a place on -/

section PlanFrom

def planFrom (entries : List Entry) (k : Nat) (pending : Option Pending) : Plan :=
  ofEntriesFrom (delimiterAt entries k) pending (entries.drop k)

theorem closesRoutine_iff (i : Nat) :
    closesRoutine (delimiterAt entries i) (queryAt entries i) = true ↔ Closes entries i := by
  unfold closesRoutine Closes
  cases hbody : (delimiterAt entries i).isSuffixOf? (queryAt entries i) with
  | some body =>
      have hquery := List.isSuffixOf?_eq_some_iff_append_eq.1 hbody
      constructor
      · exact fun hend => ⟨body, hquery.symm, (Routine.mentionsEnd_iff body).1 hend⟩
      · rintro ⟨other, hother, hend⟩
        rw [← hquery] at hother
        obtain rfl : body = other := List.append_cancel_right hother
        exact (Routine.mentionsEnd_iff body).2 hend
  | none =>
      constructor
      · exact fun h => nomatch h
      · rintro ⟨body, hquery, -⟩
        rw [List.isSuffixOf?_eq_some_iff_append_eq.2 hquery.symm] at hbody
        contradiction

theorem opens_iff (i : Nat) :
    (Routine.starts (queryAt entries i) &&
      !(delimiterAt entries i).isSuffixOf (queryAt entries i)) = true ↔ Opens entries i := by
  rw [Opens, ← List.isSuffixOf_iff_suffix, Bool.and_eq_true, Bool.not_eq_true', Bool.not_eq_true]

variable (hlt : k < entries.length) {pending : Option Pending}

include hlt

private theorem planFrom_blank (hblank : ¬ Inked entries k) :
    planFrom entries k pending = planFrom entries (k + 1) pending := by
  have hquery : queryAt entries k = [] := not_not.1 hblank
  have hnone : Delimiter.directive? (queryAt entries k) = none := by
    rw [hquery]
    rfl
  rw [planFrom, planFrom, delimiterAt_succ hlt, hnone, drop_eq_cons hlt]
  simp only [ofEntriesFrom, trim_entryAt, hquery, List.isEmpty_nil, if_true, Option.getD_none]

private theorem planFrom_directive {token : Text}
    (hdirective : Delimiter.directive? (queryAt entries k) = some token) :
    planFrom entries k pending =
      .accept (queryAt entries k) (entryAt entries k).line ::
        planFrom entries (k + 1) pending := by
  rw [planFrom, planFrom, delimiterAt_succ hlt, hdirective, drop_eq_cons hlt]
  simp only [ofEntriesFrom, trim_entryAt, List.isEmpty_iff, if_neg (inked_of_directive? hdirective),
    hdirective, Option.getD_some]

variable (hplain : Plain entries k)

include hplain

theorem planFrom_pending (routine : Pending) :
    planFrom entries k (some routine) =
      let text := routine.text ++ '\n' :: queryAt entries k
      if closesRoutine (delimiterAt entries k) (queryAt entries k) then
        .check (Delimiter.strip (delimiterAt entries k) text) text routine.line ::
          planFrom entries (k + 1) none
      else planFrom entries (k + 1) (some ⟨text, routine.line⟩) := by
  rw [planFrom, drop_eq_cons hlt]
  simp only [planFrom, delimiterAt_succ hlt, ofEntriesFrom, trim_entryAt, List.isEmpty_iff,
    if_neg hplain.1, hplain.2, Option.getD_none]
  rfl

theorem planFrom_idle :
    planFrom entries k none =
      if Routine.starts (queryAt entries k) &&
          !(delimiterAt entries k).isSuffixOf (queryAt entries k) then
        planFrom entries (k + 1) (some ⟨queryAt entries k, (entryAt entries k).line⟩)
      else
        .check (Delimiter.strip (delimiterAt entries k) (queryAt entries k)) (queryAt entries k)
            (entryAt entries k).line ::
          planFrom entries (k + 1) none := by
  rw [planFrom, drop_eq_cons hlt]
  simp only [planFrom, delimiterAt_succ hlt, ofEntriesFrom, trim_entryAt, List.isEmpty_iff,
    if_neg hplain.1, hplain.2, Option.getD_none]
  rfl

end PlanFrom

/-! ## The groups before a place -/

def pendingAt (entries : List Entry) (k first : Nat) : Pending :=
  ⟨joinWith ['\n'] ((taken entries first k).map (queryAt entries)), (entryAt entries first).line⟩

private theorem pendingAt_of_not_plain {first : Nat} (h : first ≤ k) (hplain : ¬ Plain entries k) :
    pendingAt entries (k + 1) first = pendingAt entries k first := by
  rw [pendingAt, taken_succ h, if_neg hplain, List.append_nil, pendingAt]

/-- A routine takes one entry more. -/
theorem Waits.text_succ {first : Nat} (h : Waits entries first k) (hplain : Plain entries k) :
    joinWith ['\n'] ((taken entries first (k + 1)).map (queryAt entries)) =
      (pendingAt entries k first).text ++ '\n' :: queryAt entries k := by
  have hbefore : (taken entries first k).map (queryAt entries) ≠ [] := by
    simpa using h.taken_ne_nil
  rw [taken_succ (Nat.le_of_lt h.lt), if_pos hplain, List.map_append,
    joinWith_append _ hbefore (by simp), List.append_assoc]
  rfl

structure Answered (entries : List Entry) (k : Nat) (groups : List Group) : Prop where
  fits : ∀ group ∈ groups, group.Fits entries
  before : ∀ group ∈ groups, group.answeredAt entries < k
  ordered : groups.Pairwise fun earlier later =>
    earlier.answeredAt entries < later.answeredAt entries

theorem Answered.succ {groups : List Group} (h : Answered entries k groups) :
    Answered entries (k + 1) groups :=
  { h with before := fun group hgroup => Nat.lt_succ_of_lt (h.before group hgroup) }

theorem Answered.add {groups : List Group} (h : Answered entries k groups) {group : Group}
    (hfits : group.Fits entries) (hat : group.answeredAt entries = k) :
    Answered entries (k + 1) (groups ++ [group]) where
  fits := List.forall_mem_append.2 ⟨h.fits, List.forall_mem_singleton.2 hfits⟩
  before := List.forall_mem_append.2
    ⟨h.succ.before, List.forall_mem_singleton.2 (hat ▸ Nat.lt_succ_self _)⟩
  ordered := by
    refine List.pairwise_append.2 ⟨h.ordered, List.pairwise_singleton _ _, ?_⟩
    intro earlier hearlier later hlater
    rw [List.mem_singleton.1 hlater, hat]
    exact h.before earlier hearlier

/-- Before place `k` the groups are answered, and perhaps a routine waits for its end. -/
structure Grouped (entries : List Entry) (k : Nat) (waiting : Option Nat) (groups : List Group) :
    Prop where
  answered : Answered entries k groups
  waits : ∀ first ∈ waiting, Waits entries first k
  partition :
    (groups.flatMap (Group.members entries) ++
        waiting.elim [] fun first => taken entries first k).Perm
      ((List.range k).filter (Inked entries))
  plan : ofEntries entries =
    groups.map (Group.task entries) ++ planFrom entries k (waiting.map (pendingAt entries k))

namespace Grouped

variable {waiting : Option Nat} {groups : List Group}

theorem initial (entries : List Entry) : Grouped entries 0 none [] where
  answered := ⟨by simp, by simp, .nil⟩
  waits := by simp
  partition := .refl _
  plan := rfl

/-- An entry that a routine does not take leaves the one that waits as it is. -/
theorem waiting_succ (h : Grouped entries k waiting groups) (hplain : ¬ Plain entries k) :
    (∀ first ∈ waiting, Waits entries first (k + 1)) ∧
      waiting.map (pendingAt entries (k + 1)) = waiting.map (pendingAt entries k) ∧
      (waiting.elim [] fun first => taken entries first (k + 1)) =
        waiting.elim [] fun first => taken entries first k := by
  refine ⟨fun first hfirst => (h.waits first hfirst).succ fun hk => absurd hk hplain, ?_⟩
  cases waiting with
  | none => exact ⟨rfl, rfl⟩
  | some first =>
      have hle := Nat.le_of_lt (h.waits first rfl).lt
      rw [Option.map_some, Option.map_some, pendingAt_of_not_plain hle hplain, Option.elim_some,
        Option.elim_some, taken_succ hle, if_neg hplain, List.append_nil]
      exact ⟨rfl, rfl⟩

private theorem step_blank (h : Grouped entries k waiting groups) (hlt : k < entries.length)
    (hblank : ¬ Inked entries k) : Grouped entries (k + 1) waiting groups := by
  obtain ⟨hwaits, hpending, htaken⟩ := h.waiting_succ fun hplain => hblank hplain.1
  exact {
    answered := h.answered.succ
    waits := hwaits
    partition := by
      rw [htaken, filter_inked_succ, if_neg hblank, List.append_nil]
      exact h.partition
    plan := by rw [h.plan, planFrom_blank hlt hblank, hpending] }

theorem step_directive (h : Grouped entries k waiting groups) (hlt : k < entries.length)
    {token : Text} (hdirective : Delimiter.directive? (queryAt entries k) = some token) :
    Grouped entries (k + 1) waiting (groups ++ [.directive k]) := by
  obtain ⟨hwaits, hpending, htaken⟩ := h.waiting_succ fun hplain => by
    rw [hplain.2] at hdirective
    contradiction
  exact {
    answered := h.answered.add (.directive hdirective) rfl
    waits := hwaits
    partition := by
      rw [htaken, filter_inked_succ, if_pos (inked_of_directive? hdirective), List.flatMap_append,
        List.append_assoc]
      refine (List.perm_append_comm.append_left _).trans ?_
      rw [← List.append_assoc]
      exact h.partition.append_right _
    plan := by
      rw [h.plan, planFrom_directive hlt hdirective, hpending, List.map_append, List.append_assoc]
      rfl }

section Plain

variable (hplain : Plain entries k)

include hplain

/-- An entry joins the routine that waits. -/
theorem partition_waiting {first : Nat} (h : Grouped entries k (some first) groups) :
    (groups.flatMap (Group.members entries) ++ taken entries first (k + 1)).Perm
      ((List.range (k + 1)).filter (Inked entries)) := by
  rw [filter_inked_succ, if_pos hplain.1, taken_succ (Nat.le_of_lt (h.waits first rfl).lt),
    if_pos hplain, ← List.append_assoc]
  exact h.partition.append_right _

/-- An entry that no routine waits for is taken on its own. -/
theorem partition_alone (h : Grouped entries k none groups) :
    (groups.flatMap (Group.members entries) ++ [k]).Perm
      ((List.range (k + 1)).filter (Inked entries)) := by
  have hpartition := h.partition
  rw [Option.elim_none, List.append_nil] at hpartition
  rw [filter_inked_succ, if_pos hplain.1]
  exact hpartition.append_right _

variable (hlt : k < entries.length)

include hlt

private theorem step_goesOn {first : Nat} (h : Grouped entries k (some first) groups)
    (hstays : ¬ Closes entries k) : Grouped entries (k + 1) (some first) groups where
  answered := h.answered.succ
  waits := by
    rintro _ ⟨⟩
    exact (h.waits first rfl).succ fun _ => hstays
  partition := partition_waiting hplain h
  plan := by
    have htext := (h.waits first rfl).text_succ hplain
    rw [h.plan, Option.map_some, planFrom_pending hlt hplain,
      if_neg (mt (closesRoutine_iff k).1 hstays), ← htext]
    rfl

private theorem step_closes {first : Nat} (h : Grouped entries k (some first) groups)
    (hcloses : Closes entries k) :
    Grouped entries (k + 1) none (groups ++ [.routine first k]) where
  answered := h.answered.add (.routine (h.waits first rfl) hplain hcloses) rfl
  waits := by simp
  partition := by
    rw [List.flatMap_append, List.flatMap_singleton, Option.elim_none, List.append_nil]
    exact partition_waiting hplain h
  plan := by
    have htext := (h.waits first rfl).text_succ hplain
    rw [h.plan, Option.map_some, planFrom_pending hlt hplain,
      if_pos ((closesRoutine_iff k).2 hcloses), ← htext, List.map_append, List.append_assoc]
    rfl

private theorem step_opens (h : Grouped entries k none groups) (hopens : Opens entries k) :
    Grouped entries (k + 1) (some k) groups := by
  have htaken : taken entries k (k + 1) = [k] := by
    rw [taken_succ (Nat.le_refl k), taken_self, if_pos hplain, List.nil_append]
  exact {
    answered := h.answered.succ
    waits := by
      rintro _ ⟨⟩
      exact ⟨Nat.lt_succ_self k, hplain, hopens, by omega⟩
    partition := by
      rw [Option.elim_some, htaken]
      exact partition_alone hplain h
    plan := by
      rw [h.plan, Option.map_none, planFrom_idle hlt hplain, if_pos ((opens_iff k).2 hopens),
        Option.map_some, pendingAt, htaken]
      rfl }

private theorem step_single (h : Grouped entries k none groups) (hwhole : ¬ Opens entries k) :
    Grouped entries (k + 1) none (groups ++ [.single k]) where
  answered := h.answered.add (.single hplain hwhole) rfl
  waits := by simp
  partition := by
    rw [List.flatMap_append, List.flatMap_singleton, Option.elim_none, List.append_nil]
    exact partition_alone hplain h
  plan := by
    rw [h.plan, Option.map_none, planFrom_idle hlt hplain, if_neg (mt (opens_iff k).1 hwhole),
      List.map_append, List.append_assoc]
    rfl

end Plain

theorem step (h : Grouped entries k waiting groups) (hlt : k < entries.length) :
    ∃ waiting' groups', Grouped entries (k + 1) waiting' groups' := by
  by_cases hink : Inked entries k
  · cases hdirective : Delimiter.directive? (queryAt entries k) with
    | some token => exact ⟨_, _, h.step_directive hlt hdirective⟩
    | none =>
        have hplain : Plain entries k := ⟨hink, hdirective⟩
        cases waiting with
        | some first =>
            by_cases hcloses : Closes entries k
            · exact ⟨_, _, step_closes hplain hlt h hcloses⟩
            · exact ⟨_, _, step_goesOn hplain hlt h hcloses⟩
        | none =>
            by_cases hopens : Opens entries k
            · exact ⟨_, _, step_opens hplain hlt h hopens⟩
            · exact ⟨_, _, step_single hplain hlt h hopens⟩
  · exact ⟨_, _, h.step_blank hlt hink⟩

theorem exists_all (entries : List Entry) {k : Nat} (h : k ≤ entries.length) :
    ∃ waiting groups, Grouped entries k waiting groups := by
  induction k with
  | zero => exact ⟨none, [], .initial entries⟩
  | succ k ih =>
      obtain ⟨waiting, groups, hgrouped⟩ := ih (by omega)
      exact hgrouped.step h

/-- At the end a routine that still waits is the last group. -/
theorem grouping (h : Grouped entries entries.length waiting groups) :
    ∃ all, Grouping entries all ∧ ofEntries entries = all.map (Group.task entries) := by
  have hplan := h.plan
  rw [planFrom, List.drop_length] at hplan
  cases waiting with
  | none =>
      refine ⟨groups, ⟨h.answered.fits, ?_, h.answered.ordered⟩, ?_⟩
      · simpa using h.partition
      · simpa [ofEntriesFrom, abandon] using hplan
  | some first =>
      have hall := h.answered.add (.openRoutine (h.waits first rfl)) rfl
      refine ⟨_, ⟨hall.fits, ?_, hall.ordered⟩, ?_⟩
      · simpa [Group.members] using h.partition
      · rw [hplan, List.map_append]
        rfl

end Grouped

/-- Entries fall into groups in one way, and each group is answered once, at its end. -/
theorem exists_grouping (entries : List Entry) :
    ∃ groups, Grouping entries groups ∧ (∀ others, Grouping entries others → others = groups) ∧
      calls (ofEntries entries) = groups.filterMap (Group.statement? entries) ∧
      ∀ validate : Validator,
        verdicts validate (ofEntries entries) = groups.map (Group.verdict entries validate) ∧
        recorded validate (ofEntries entries) =
          (verdicts validate (ofEntries entries), calls (ofEntries entries)) := by
  obtain ⟨waiting, answered, hgrouped⟩ := Grouped.exists_all entries (Nat.le_refl _)
  obtain ⟨groups, hgrouping, hplan⟩ := hgrouped.grouping
  refine ⟨groups, hgrouping, fun others hothers => hothers.unique hgrouping, ?_,
    fun validate => ⟨?_, recorded_eq validate _⟩⟩
  · rw [hplan, calls, List.filterMap_map]
    exact List.filterMap_congr fun group _ => Group.checked?_task entries group
  · rw [hplan, verdicts, List.map_map]
    exact List.map_congr_left fun group _ => Group.verdict_task entries validate group

end SqlBatch.Plan
