import SqlBatch.Report
import SqlBatch.Text.Json
/-!
# Reports in JSON

A single source is written as its bare report, any other number as an array of labelled ones.  A
valid verdict has no `error`.
-/

namespace SqlBatch

def Verdict.layout (verdict : Verdict) : Json.Layout :=
  Json.object <|
    [("lineNumber".toList, Json.number verdict.line), ("query".toList, Json.string verdict.query),
      ("valid".toList, Json.boolean verdict.isValid)] ++
    verdict.error.toList.map fun message => ("error".toList, Json.string message)

namespace Report

def layout (report : Report) : Json.Layout :=
  Json.object
    [("success".toList, Json.boolean report.success),
      ("totalQueries".toList, Json.number report.total),
      ("validQueries".toList, Json.number report.valid),
      ("results".toList, Json.array (report.verdicts.map Verdict.layout))]

def json (report : Report) : Text := report.layout 0

end Report

def SourceReport.layout (source : SourceReport) : Json.Layout :=
  Json.object
    [("source".toList, Json.string source.source), ("report".toList, source.report.layout)]

def SourceReport.renderJson : List SourceReport → Text
  | [single] => single.report.json
  | sources => Json.array (sources.map SourceReport.layout) 0

end SqlBatch
