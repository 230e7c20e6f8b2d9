import SqlBatch.Proofs.Text.Json
import SqlBatch.Run.Ending
/-!
# What the JSON of a run says

Reports are laid out as JSON values that determine them: a verdict with an error has a field more
than one without, and a single report is an object where any other number of them is an array.  So
the JSON of a run gives its reports back, with the labels of their sources unless there is only one
(`render_json_eq_iff`).
-/

namespace SqlBatch

open Json

/-! ## Verdicts and reports as values -/

def Verdict.value (verdict : Verdict) : Value :=
  .object <|
    [("lineNumber".toList, .number verdict.line), ("query".toList, .string verdict.query),
      ("valid".toList, .boolean verdict.isValid)] ++
    verdict.error.toList.map fun message => ("error".toList, .string message)

def Report.value (report : Report) : Value :=
  .object
    [("success".toList, .boolean report.success), ("totalQueries".toList, .number report.total),
      ("validQueries".toList, .number report.valid),
      ("results".toList, .array (report.verdicts.map Verdict.value))]

namespace SourceReport

def value (source : SourceReport) : Value :=
  .object [("source".toList, .string source.source), ("report".toList, source.report.value)]

def document : List SourceReport → Value
  | [single] => single.report.value
  | sources => .array (sources.map value)

end SourceReport

/-! ## Their layout -/

theorem Verdict.layout_value (verdict : Verdict) : verdict.value.layout = verdict.layout := by
  rw [Verdict.value, Value.layout, Verdict.layout]
  cases verdict.error <;> simp [Value.layout]

theorem Report.layout_value (report : Report) : report.value.layout = report.layout := by
  have hverdicts : (report.verdicts.map Verdict.value).map Value.layout =
      report.verdicts.map Verdict.layout := by
    rw [List.map_map]
    exact List.map_congr_left fun verdict _ => verdict.layout_value
  simp only [Report.value, Report.layout, Value.layout, List.map_cons, List.map_nil, hverdicts]

theorem SourceReport.layout_value (source : SourceReport) :
    source.value.layout = source.layout := by
  simp only [SourceReport.value, SourceReport.layout, Value.layout, List.map_cons, List.map_nil,
    Report.layout_value]

theorem SourceReport.renderJson_eq (sources : List SourceReport) :
    renderJson sources = (document sources).layout 0 := by
  unfold renderJson document
  split
  · next single => rw [Report.layout_value, Report.json]
  · have hsources : (sources.map value).map Value.layout = sources.map SourceReport.layout := by
      rw [List.map_map]
      exact List.map_congr_left fun source _ => source.layout_value
    simp only [Value.layout, hsources]

/-! ## What they determine -/

theorem Verdict.value_injective : Function.Injective Verdict.value := by
  rintro ⟨line, query, error⟩ ⟨line', query', error'⟩ h
  cases error <;> cases error' <;> simp_all [Verdict.value]

theorem Report.value_injective : Function.Injective Report.value := by
  rintro ⟨verdicts⟩ ⟨verdicts'⟩ h
  simp only [Report.value, Value.object.injEq, List.cons.injEq, Prod.mk.injEq, true_and, and_true,
    Value.array.injEq] at h
  rw [Verdict.value_injective.list_map h.2.2.2]

theorem SourceReport.value_injective : Function.Injective SourceReport.value := by
  rintro ⟨source, report⟩ ⟨source', report'⟩ h
  simp only [SourceReport.value, Value.object.injEq, List.cons.injEq, Prod.mk.injEq, true_and,
    and_true, Value.string.injEq] at h
  rw [h.1, Report.value_injective h.2]

namespace SourceReport

private theorem eq_iff_map_eq {sources others : List SourceReport} :
    sources = others ↔
      sources.map (·.report) = others.map (·.report) ∧
        sources.map (·.source) = others.map (·.source) := by
  constructor
  · rintro rfl
    exact ⟨rfl, rfl⟩
  · rintro ⟨hreports, hlabels⟩
    induction sources generalizing others with
    | nil => exact (List.map_eq_nil_iff.1 hreports.symm).symm
    | cons source sources ih =>
        cases others with
        | nil => contradiction
        | cons other others =>
            obtain ⟨hreport, hreports⟩ := List.cons.inj hreports
            obtain ⟨hlabel, hlabels⟩ := List.cons.inj hlabels
            have hsource : source = other := by
              cases source
              exact (SourceReport.mk.injEq ..).mpr ⟨hlabel, hreport⟩
            rw [hsource, ih hreports hlabels]

theorem document_eq_array {sources : List SourceReport} (h : sources.length ≠ 1) :
    document sources = .array (sources.map value) := by
  unfold document
  split
  · contradiction
  · rfl

theorem document_eq_iff {sources others : List SourceReport} :
    document sources = document others ↔
      sources.map (·.report) = others.map (·.report) ∧
        (sources.length ≠ 1 → sources.map (·.source) = others.map (·.source)) := by
  have hlength (h : sources.map (·.report) = others.map (·.report)) :
      sources.length = others.length := by
    simpa using congrArg List.length h
  by_cases hone : sources.length = 1
  · obtain ⟨source, rfl⟩ := List.length_eq_one_iff.1 hone
    by_cases hother : others.length = 1
    · obtain ⟨other, rfl⟩ := List.length_eq_one_iff.1 hother
      simp [document, Report.value_injective.eq_iff]
    · rw [document_eq_array hother]
      exact iff_of_false (by simp [document, Report.value]) fun h => hother (hlength h.1).symm
  · by_cases hother : others.length = 1
    · obtain ⟨other, rfl⟩ := List.length_eq_one_iff.1 hother
      rw [document_eq_array hone]
      exact iff_of_false (by simp [document, Report.value]) fun h => hone (hlength h.1)
    · rw [document_eq_array hone, document_eq_array hother, Value.array.injEq,
        value_injective.list_map.eq_iff, eq_iff_map_eq]
      simp [hone]

/-- Two runs have one JSON text if and only if they have the same reports, and the same labels unless
each has only one report. -/
theorem render_json_eq_iff (sources others : List SourceReport) :
    render .json sources = render .json others ↔
      sources.map (·.report) = others.map (·.report) ∧
        (sources.length ≠ 1 → sources.map (·.source) = others.map (·.source)) := by
  rw [render, render, renderJson_eq, renderJson_eq, (Value.layout_injective 0).eq_iff,
    document_eq_iff]

end SourceReport

end SqlBatch
