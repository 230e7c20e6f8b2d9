import SqlBatch.Plan
import SqlBatch.Script
/-!
# Reports

The verdicts on one script in order, and what they come to.
-/

namespace SqlBatch

structure Report where
  verdicts : List Verdict
  deriving DecidableEq, Repr

structure SourceReport where
  source : Text
  report : Report
  deriving DecidableEq, Repr

namespace Report

def total (report : Report) : Nat := report.verdicts.length

def valid (report : Report) : Nat := report.verdicts.countP Verdict.isValid

def success (report : Report) : Bool := report.valid == report.total

def failures (report : Report) : List Verdict := report.verdicts.filter (!·.isValid)

def ofStatements (validate : Validator) (statements : List Statement) : Report :=
  ⟨(Plan.ofStatements statements).verdicts validate⟩

def ofScript (validate : Validator) (script : Text) : Report :=
  ofStatements validate (split script)

def ofEntries (validate : Validator) (entries : List Entry) : Report :=
  ⟨(Plan.ofEntries entries).verdicts validate⟩

end Report
end SqlBatch
