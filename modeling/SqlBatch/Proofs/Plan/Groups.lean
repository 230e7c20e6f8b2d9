import SqlBatch.Plan
import SqlBatch.Proofs.Routine.Words
import SqlBatch.Proofs.Text.Trim
import Mathlib.Data.List.Nodup
import Mathlib.Data.List.Pairwise
import Mathlib.Data.List.Range
/-!
# Groups of entries

The entries that are not blank fall into groups: a directive is one, the entries of a routine are
one, and any other entry is one.  A routine takes the entries from its header up to the one that
closes it, all but the directives, which are in force from where they stand.  `Grouping` says this
of places in the list alone, and `Grouping.unique` that it leaves no choice.
-/

namespace SqlBatch.Plan

open Text

section Entries

variable (entries : List Entry)

/-! ## Entries by place -/

/-- The entry at a place, counted from zero; behind the last one there are but blank entries. -/
def entryAt (i : Nat) : Entry := entries[i]?.getD ⟨[], 0⟩

def queryAt (i : Nat) : Text := trim (entryAt entries i).text

def Inked (i : Nat) : Prop := queryAt entries i ≠ []

def Plain (i : Nat) : Prop := Inked entries i ∧ Delimiter.directive? (queryAt entries i) = none

instance : DecidablePred (Inked entries) := fun i =>
  inferInstanceAs (Decidable (queryAt entries i ≠ []))

instance : DecidablePred (Plain entries) := fun _ => instDecidableAnd

/-- The delimiter in force at an entry: the last one that a directive before it names. -/
def delimiterAt (i : Nat) : Text :=
  ((entries.take i).filterMap fun entry =>
    Delimiter.directive? (trim entry.text)).getLast?.getD Delimiter.initial

/-- A routine header that the delimiter does not end. -/
def Opens (i : Nat) : Prop :=
  Routine.starts (queryAt entries i) = true ∧ ¬ delimiterAt entries i <:+ queryAt entries i

/-- The delimiter ends the entry, and one of the words before it is an `END`. -/
def Closes (i : Nat) : Prop :=
  ∃ body, queryAt entries i = body ++ delimiterAt entries i ∧
    ∃ word ∈ runs body, Keyword.spells "end" word = true

def taken (first stop : Nat) : List Nat :=
  (List.range' first (stop - first)).filter (Plain entries)

end Entries

/-! ## Groups -/

structure Waits (entries : List Entry) (first k : Nat) : Prop where
  lt : first < k
  plain : Plain entries first
  opens : Opens entries first
  goesOn : ∀ j, first < j → j < k → Plain entries j → ¬ Closes entries j

/-- Entries that are answered together, by their places. -/
inductive Group where
  | directive (entry : Nat)
  | single (entry : Nat)
  | routine (first last : Nat)
  /-- A routine that no entry closes. -/
  | openRoutine (first : Nat)
  deriving DecidableEq

namespace Group

def first : Group → Nat
  | .directive i | .single i | .routine i _ | .openRoutine i => i

variable (entries : List Entry)

/-- The place at which a group is answered; an open routine is answered behind all entries. -/
def answeredAt : Group → Nat
  | .directive i | .single i | .routine _ i => i
  | .openRoutine _ => entries.length

def members : Group → List Nat
  | .directive i | .single i => [i]
  | .routine first last => taken entries first (last + 1)
  | .openRoutine first => taken entries first entries.length

def query (group : Group) : Text :=
  joinWith ['\n'] ((group.members entries).map (queryAt entries))

/-- What the validator is to judge of a group, without the delimiter in force at its end. -/
def statement? (group : Group) : Option Text :=
  match group with
  | .single i | .routine _ i => some (Delimiter.strip (delimiterAt entries i) (group.query entries))
  | .directive _ | .openRoutine _ => none

def verdict (validate : Validator) (group : Group) : Verdict where
  line := (entryAt entries group.first).line
  query := group.query entries
  error :=
    match group with
    | .openRoutine _ => some Task.incompleteMessage
    | _ => (group.statement? entries).bind fun statement => (validate statement).error?

def task (group : Group) : Task :=
  match group with
  | .directive i => .accept (group.query entries) (entryAt entries i).line
  | .openRoutine i => .incomplete (group.query entries) (entryAt entries i).line
  | .single i | .routine i _ =>
    .check ((group.statement? entries).getD []) (group.query entries) (entryAt entries i).line

theorem verdict_task (validate : Validator) (group : Group) :
    (group.task entries).verdict validate = group.verdict entries validate := by
  cases group <;> rfl

theorem checked?_task (group : Group) :
    (group.task entries).checked? = group.statement? entries := by
  cases group <;> rfl

inductive Fits : Group → Prop where
  | directive {i : Nat} {token : Text}
    (sets : Delimiter.directive? (queryAt entries i) = some token) : Fits (.directive i)
  | single {i : Nat} (plain : Plain entries i) (whole : ¬ Opens entries i) : Fits (.single i)
  | routine {first last : Nat} (waits : Waits entries first last) (plain : Plain entries last)
    (closes : Closes entries last) : Fits (.routine first last)
  | openRoutine {first : Nat} (waits : Waits entries first entries.length) :
    Fits (.openRoutine first)

end Group

/-- `groups` are what the entries fall into, in the order of their answers.  Each entry that is not
blank is in one group, once; so no entry within a routine stands alone or begins another one. -/
structure Grouping (entries : List Entry) (groups : List Group) : Prop where
  fits : ∀ group ∈ groups, group.Fits entries
  partition : (groups.flatMap (Group.members entries)).Perm
    ((List.range entries.length).filter (Inked entries))
  ordered : groups.Pairwise fun earlier later =>
    earlier.answeredAt entries < later.answeredAt entries

variable {entries : List Entry} {k : Nat}

/-! ## One entry more -/

theorem trim_entryAt (i : Nat) : trim (entryAt entries i).text = queryAt entries i := rfl

theorem drop_eq_cons (h : k < entries.length) :
    entries.drop k = entryAt entries k :: entries.drop (k + 1) := by
  rw [List.drop_eq_getElem_cons h, entryAt, List.getElem?_eq_getElem h, Option.getD_some]

theorem delimiterAt_succ (h : k < entries.length) :
    delimiterAt entries (k + 1) =
      (Delimiter.directive? (queryAt entries k)).getD (delimiterAt entries k) := by
  have hlast : trim entries[k].text = queryAt entries k := by
    rw [queryAt, entryAt, List.getElem?_eq_getElem h, Option.getD_some]
  rw [delimiterAt, List.take_succ_eq_append_getElem h, List.filterMap_append]
  cases hdirective : Delimiter.directive? (queryAt entries k) with
  | none =>
      simp only [List.filterMap_cons, List.filterMap_nil, hlast, hdirective, List.append_nil]
      rfl
  | some token =>
      simp only [List.filterMap_cons, List.filterMap_nil, hlast, hdirective, List.getLast?_concat,
        Option.getD_some]

theorem not_inked_of_length_le (h : entries.length ≤ k) : ¬ Inked entries k := by
  rw [Inked, queryAt, entryAt, List.getElem?_eq_none h]
  exact not_not_intro rfl

theorem lt_length_of_inked {i : Nat} (h : Inked entries i) : i < entries.length := by
  by_contra hle
  exact not_inked_of_length_le (Nat.not_lt.1 hle) h

theorem filter_inked_succ (entries : List Entry) (k : Nat) :
    (List.range (k + 1)).filter (Inked entries) =
      (List.range k).filter (Inked entries) ++ if Inked entries k then [k] else [] := by
  rw [List.range_succ, List.filter_append, List.filter_singleton]
  simp

theorem mem_taken {first stop i : Nat} :
    i ∈ taken entries first stop ↔ first ≤ i ∧ i < stop ∧ Plain entries i := by
  rw [taken, List.mem_filter, List.mem_range'_1, decide_eq_true_eq, and_assoc]
  constructor
  · rintro ⟨hfirst, hlt, hplain⟩
    exact ⟨hfirst, by omega, hplain⟩
  · rintro ⟨hfirst, hlt, hplain⟩
    exact ⟨hfirst, by omega, hplain⟩

theorem taken_succ {first : Nat} (h : first ≤ k) :
    taken entries first (k + 1) =
      taken entries first k ++ if Plain entries k then [k] else [] := by
  have hcount : k + 1 - first = k - first + 1 := by omega
  have hlast : first + (k - first) = k := by omega
  rw [taken, hcount, List.range'_1_concat, List.filter_append, List.filter_singleton, hlast, taken]
  simp

theorem taken_self (first : Nat) : taken entries first first = [] := by
  rw [taken, Nat.sub_self]
  rfl

theorem inked_of_directive? {i : Nat} {token : Text}
    (h : Delimiter.directive? (queryAt entries i) = some token) : Inked entries i := by
  intro hempty
  rw [hempty] at h
  contradiction

theorem Plain.not_directive {i : Nat} (h : Plain entries i) {token : Text} :
    Delimiter.directive? (queryAt entries i) ≠ some token := by
  rw [h.2]
  exact (Option.some_ne_none token).symm

theorem Waits.succ {first : Nat} (h : Waits entries first k)
    (hstays : Plain entries k → ¬ Closes entries k) : Waits entries first (k + 1) where
  lt := Nat.lt_succ_of_lt h.lt
  plain := h.plain
  opens := h.opens
  goesOn := by
    intro j hfirst hlt
    rcases Nat.lt_succ_iff_lt_or_eq.1 hlt with hbefore | rfl
    · exact h.goesOn j hfirst hbefore
    · exact hstays

theorem Waits.taken_ne_nil {first : Nat} (h : Waits entries first k) :
    taken entries first k ≠ [] :=
  List.ne_nil_of_mem (mem_taken.2 ⟨Nat.le_refl first, h.lt, h.plain⟩)

/-! ## The groups are determined by the entries -/

namespace Group.Fits

variable {group other : Group}

theorem first_inked (h : group.Fits entries) : Inked entries group.first := by
  cases h with
  | directive sets => exact inked_of_directive? sets
  | single plain _ => exact plain.1
  | routine waits => exact waits.plain.1
  | openRoutine waits => exact waits.plain.1

theorem first_mem (h : group.Fits entries) : group.first ∈ group.members entries := by
  cases h with
  | directive sets => exact List.mem_singleton_self _
  | single plain _ => exact List.mem_singleton_self _
  | routine waits =>
      exact mem_taken.2 ⟨Nat.le_refl _, Nat.lt_succ_of_lt waits.lt, waits.plain⟩
  | openRoutine waits => exact mem_taken.2 ⟨Nat.le_refl _, waits.lt, waits.plain⟩

theorem first_le (h : group.Fits entries) {i : Nat} (hmem : i ∈ group.members entries) :
    group.first ≤ i := by
  cases h with
  | directive sets => exact Nat.le_of_eq (List.mem_singleton.1 hmem).symm
  | single plain _ => exact Nat.le_of_eq (List.mem_singleton.1 hmem).symm
  | routine _ _ => exact (mem_taken.1 hmem).1
  | openRoutine _ => exact (mem_taken.1 hmem).1

/-! What a group is shows at its first entry, and for a routine at those behind it. -/

private theorem eq_directive (h : group.Fits entries) {token : Text}
    (sets : Delimiter.directive? (queryAt entries group.first) = some token) :
    group = .directive group.first := by
  cases h with
  | directive _ => rfl
  | single plain _ => exact absurd sets plain.not_directive
  | routine waits => exact absurd sets waits.plain.not_directive
  | openRoutine waits => exact absurd sets waits.plain.not_directive

private theorem eq_single (h : group.Fits entries) (plain : Plain entries group.first)
    (whole : ¬ Opens entries group.first) : group = .single group.first := by
  cases h with
  | directive sets => exact absurd sets plain.not_directive
  | single _ _ => rfl
  | routine waits => exact absurd waits.opens whole
  | openRoutine waits => exact absurd waits.opens whole

private theorem eq_routine (h : group.Fits entries) {last : Nat}
    (waits : Waits entries group.first last) (plain : Plain entries last)
    (closes : Closes entries last) : group = .routine group.first last := by
  cases h with
  | directive sets => exact absurd sets waits.plain.not_directive
  | single _ whole => exact absurd waits.opens whole
  | @routine first stop waits' plain' closes' =>
      -- neither of two entries that close the routine is before the other
      rcases Nat.lt_trichotomy last stop with hlt | rfl | hlt
      · exact absurd closes (waits'.goesOn last waits.lt hlt plain)
      · rfl
      · exact absurd closes' (waits.goesOn stop waits'.lt hlt plain')
  | openRoutine waits' =>
      exact absurd closes (waits'.goesOn last waits.lt (lt_length_of_inked plain.1) plain)

private theorem eq_openRoutine (h : group.Fits entries)
    (waits : Waits entries group.first entries.length) : group = .openRoutine group.first := by
  cases h with
  | directive sets => exact absurd sets waits.plain.not_directive
  | single _ whole => exact absurd waits.opens whole
  | @routine first stop waits' plain closes =>
      exact absurd closes (waits.goesOn stop waits'.lt (lt_length_of_inked plain.1) plain)
  | openRoutine _ => rfl

theorem eq_of_first (h : group.Fits entries) (hother : other.Fits entries)
    (hfirst : other.first = group.first) : group = other := by
  cases h with
  | @directive i token sets =>
      have sets' : Delimiter.directive? (queryAt entries other.first) = some token := hfirst ▸ sets
      rw [hother.eq_directive sets', hfirst, first]
  | single plain whole => rw [hother.eq_single (hfirst ▸ plain) (hfirst ▸ whole), hfirst, first]
  | routine waits plain closes =>
      rw [hother.eq_routine (hfirst ▸ waits) plain closes, hfirst, first]
  | openRoutine waits => rw [hother.eq_openRoutine (hfirst ▸ waits), hfirst, first]

end Group.Fits

namespace Grouping

variable {groups others : List Group}

theorem exists_mem (h : Grouping entries groups) {i : Nat} (hi : Inked entries i) :
    ∃ group ∈ groups, i ∈ group.members entries := by
  rw [← List.mem_flatMap, h.partition.mem_iff, List.mem_filter, List.mem_range]
  exact ⟨lt_length_of_inked hi, decide_eq_true hi⟩

theorem eq_of_mem (h : Grouping entries groups) {group other : Group} (hgroup : group ∈ groups)
    (hother : other ∈ groups) {i : Nat} (hi : i ∈ group.members entries)
    (hi' : i ∈ other.members entries) : group = other := by
  have hnodup : (groups.flatMap (Group.members entries)).Nodup :=
    h.partition.nodup_iff.2 (List.nodup_range.filter _)
  have : Std.Symm (Function.onFun List.Disjoint (Group.members entries)) :=
    ⟨fun _ _ hdisjoint _ hi hi' => hdisjoint hi' hi⟩
  by_contra hne
  exact (List.nodup_flatMap.1 hnodup).2.forall hgroup hother hne hi hi'

/-- An entry is in the same group of both groupings. -/
theorem agree (h : Grouping entries groups) (h' : Grouping entries others) (i : Nat) :
    ∀ group ∈ groups, ∀ other ∈ others, i ∈ group.members entries → i ∈ other.members entries →
      group = other := by
  induction i using Nat.strong_induction_on with
  | _ i ih =>
      intro group hgroup other hother hi hi'
      have hfits := h.fits group hgroup
      have hfits' := h'.fits other hother
      -- a group that begins before the entry is in both groupings by then
      rcases Nat.lt_or_eq_of_le (hfits.first_le hi) with hlt | hfirst
      · obtain ⟨same, hsame, hmem⟩ := h'.exists_mem hfits.first_inked
        obtain rfl := ih _ hlt group hgroup same hsame hfits.first_mem hmem
        exact h'.eq_of_mem hsame hother hi hi'
      rcases Nat.lt_or_eq_of_le (hfits'.first_le hi') with hlt | hfirst'
      · obtain ⟨same, hsame, hmem⟩ := h.exists_mem hfits'.first_inked
        obtain rfl := ih _ hlt same hsame other hother hmem hfits'.first_mem
        exact h.eq_of_mem hgroup hsame hi hi'
      · exact hfits.eq_of_first hfits' (hfirst'.trans hfirst.symm)

theorem subset (h : Grouping entries groups) (h' : Grouping entries others) : groups ⊆ others := by
  intro group hgroup
  have hfits := h.fits group hgroup
  obtain ⟨other, hother, hmem⟩ := h'.exists_mem hfits.first_inked
  rwa [h.agree h' _ group hgroup other hother hfits.first_mem hmem]

theorem nodup (h : Grouping entries groups) : groups.Nodup :=
  h.ordered.imp fun hlt heq => Nat.ne_of_lt hlt (congrArg _ heq)

theorem unique (h : Grouping entries groups) (h' : Grouping entries others) : groups = others := by
  have hperm : groups.Perm others :=
    (List.perm_ext_iff_of_nodup h.nodup h'.nodup).2 fun group => ⟨(h.subset h' ·), (h'.subset h ·)⟩
  refine hperm.eq_of_pairwise (fun _ _ _ _ hlt hgt => ?_) h.ordered h'.ordered
  exact absurd hgt (Nat.lt_asymm hlt)

end Grouping

end SqlBatch.Plan
