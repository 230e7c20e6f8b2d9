import SqlBatch.Report
import SqlBatch.Text.Blank
import SqlBatch.Text.Lines
/-!
# Reports as listings

One line for each statement, with the first line of its text, and the error below a statement that
has one; then a summary.
-/

namespace SqlBatch

def Verdict.listing (verdict : Verdict) : Text :=
  let start := (Text.lines verdict.query).headD []
  Text.padStart 5 (Text.decimal verdict.line) ++
    match verdict.error with
    | none => "  ok     ".toList ++ start ++ ['\n']
    | some message =>
      "  error  ".toList ++ start ++ ['\n'] ++ List.replicate 7 ' ' ++ message ++ ['\n']

def Report.listing (report : Report) : Text :=
  report.verdicts.flatMap Verdict.listing ++
    Text.decimal report.valid ++ " of ".toList ++ Text.decimal report.total ++
    " statements valid\n".toList

def SourceReport.listing (source : SourceReport) : Text :=
  "== ".toList ++ source.source ++ " ==\n".toList ++ source.report.listing

/-- The listings of a run; only several sources are named. -/
def SourceReport.renderListing (sources : List SourceReport) : Text :=
  Text.trimEnd <|
    match sources with
    | [single] => single.report.listing
    | sources => sources.flatMap SourceReport.listing

end SqlBatch
