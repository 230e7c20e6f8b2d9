import SqlBatch.Report.Json
import SqlBatch.Report.Listing
import SqlBatch.Run.Reports
/-!
# The ending of a run

A run that goes through prints its reports and says by its status whether all statements are valid.
One that fails prints nothing but its failure.
-/

namespace SqlBatch

def SourceReport.render (format : OutputFormat) (sources : List SourceReport) : Text :=
  match format with
  | .json => renderJson sources
  | .text => renderListing sources

/-- What a program leaves behind: what it wrote to its two outputs, and its exit status. -/
@[ext] structure Ending where
  status : Nat
  stdout : Text := []
  stderr : Text := []
  deriving DecidableEq, Repr

namespace Ending

def ofFailure (failure : Failure) : Ending :=
  { status := 2, stderr := "sqlcheck: ".toList ++ failure.message ++ ['\n'] }

def ofReports (format : OutputFormat) (sources : List SourceReport) : Ending where
  status := if sources.all (·.report.success) then 0 else 1
  stdout := SourceReport.render format sources ++ ['\n']

end Ending

def Config.carryOut (validators : Dialect → Validator) (config : Config) (files : Files)
    (stdin : List UInt8) : Ending :=
  match config.check validators files stdin with
  | .error failure => .ofFailure failure
  | .ok sources => .ofReports config.format sources

end SqlBatch
