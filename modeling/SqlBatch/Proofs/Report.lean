import SqlBatch.Report
import SqlBatch.Proofs.Plan.Statements
import SqlBatch.Proofs.Routine.Header
/-!
# What reports say

A script is reported on statement by statement, and a text that was entered as a whole is one query
(`reportInput_eq` tells the inputs of a run apart).
-/

namespace SqlBatch

open Text

namespace Plan

def soloTask (script : Text) (line : Nat) : Task :=
  if (Delimiter.directive? script).isSome then .accept (trim script) line
  else if Routine.starts script && !Delimiter.initial.isSuffixOf (trim script) then
    .incomplete (trim script) line
  else .check (Delimiter.strip Delimiter.initial script) (trim script) line

theorem ofEntries_singleton {script : Text} (hink : ¬ AllBlank script) (line : Nat) :
    ofEntries [⟨script, line⟩] = [soloTask script line] := by
  have hstrip : Delimiter.strip Delimiter.initial (trim script) =
      Delimiter.strip Delimiter.initial script := Delimiter.strip_congr (trim_trim script) _
  have hquery : trim script ≠ [] := mt trim_eq_nil.1 hink
  simp only [ofEntries, ofEntriesFrom, List.isEmpty_iff, if_neg hquery, Delimiter.directive?_trim,
    Routine.starts_trim, hstrip, abandon, soloTask]
  cases Delimiter.directive? script with
  | some token => rfl
  | none => cases Routine.starts script && !Delimiter.initial.isSuffixOf (trim script) <;> rfl

theorem ofEntries_blank {script : Text} (hblank : AllBlank script) (line : Nat) :
    ofEntries [⟨script, line⟩] = [] := by
  simp [ofEntries, ofEntriesFrom, trim_eq_nil.2 hblank, abandon]

end Plan

namespace Report

variable (validate : Validator) (script : Text)

theorem ofScript_eq :
    ofScript validate script = ⟨(split script).map (Statement.verdict validate)⟩ := by
  rw [ofScript, ofStatements, Plan.ofStatements_split, Plan.verdicts_map_task]

theorem ofEntries_eq (line : Nat) :
    ofEntries validate [⟨script, line⟩] =
      ⟨if AllBlank script then [] else [(Plan.soloTask script line).verdict validate]⟩ := by
  rw [ofEntries]
  split
  · next hblank => rw [Plan.ofEntries_blank hblank, Plan.verdicts, List.map_nil]
  · next hink => rw [Plan.ofEntries_singleton hink, Plan.verdicts, List.map_singleton]

theorem success_iff {report : Report} :
    report.success = true ↔ ∀ verdict ∈ report.verdicts, verdict.isValid = true := by
  rw [success, valid, total, beq_iff_eq, List.countP_eq_length]

end Report
end SqlBatch
