import SqlBatch.Report.Listing
import SqlBatch.Proofs.Text.Trim
/-!
# What the listing of a run says

A listing is printed line by line (`renderListing_eq`): a line for each verdict, another one for its
error, and a summary behind the verdicts of each report.  Several reports stand under headings.
-/

namespace SqlBatch

open Text

def printed (rows : List Text) : Text := rows.flatMap (· ++ ['\n'])

@[simp] theorem printed_cons (row : Text) (rows : List Text) :
    printed (row :: rows) = row ++ '\n' :: printed rows := by
  simp [printed]

@[simp] theorem printed_append (front back : List Text) :
    printed (front ++ back) = printed front ++ printed back := List.flatMap_append

theorem printed_flatMap {α : Type} {f : α → List Text} {g : α → Text} {items : List α}
    (h : ∀ item, printed (f item) = g item) : printed (items.flatMap f) = items.flatMap g := by
  rw [printed, List.flatMap_assoc]
  exact congrArg (items.flatMap ·) (funext h)

def Verdict.rows (verdict : Verdict) : List Text :=
  let place := List.leftpad 5 ' ' (decimal verdict.line)
  let start := (lines verdict.query).headD []
  match verdict.error with
  | none => [place ++ "  ok     ".toList ++ start]
  | some message => [place ++ "  error  ".toList ++ start, "       ".toList ++ message]

def Report.summary (report : Report) : Text :=
  decimal (report.verdicts.countP Verdict.isValid) ++ " of ".toList ++
    decimal report.verdicts.length ++ " statements valid".toList

def Report.rows (report : Report) : List Text :=
  report.verdicts.flatMap Verdict.rows ++ [report.summary]

def SourceReport.heading (source : SourceReport) : Text :=
  "== ".toList ++ source.source ++ " ==".toList

/-- The lines of a listing; that of no report at all is an empty line. -/
def SourceReport.rows : List SourceReport → List Text
  | [] => [[]]
  | [single] => single.report.rows
  | sources => sources.flatMap fun source => source.heading :: source.report.rows

theorem Verdict.printed_rows (verdict : Verdict) : printed verdict.rows = verdict.listing := by
  unfold rows listing padStart List.leftpad
  cases verdict.error <;> simp [printed]

theorem Report.printed_rows (report : Report) : printed report.rows = report.listing := by
  rw [rows, printed_append, printed_flatMap Verdict.printed_rows, printed_cons, summary, listing,
    valid, total]
  simp [printed]

namespace SourceReport

theorem printed_heading_cons (source : SourceReport) :
    printed (source.heading :: source.report.rows) = source.listing := by
  rw [printed_cons, Report.printed_rows, heading, listing]
  simp

/-- A summary ends with a word, so that nothing but its line feed is trimmed off. -/
theorem trimEnd_append_listing (front : Text) (report : Report) :
    trimEnd (front ++ report.listing) ++ ['\n'] = front ++ report.listing := by
  obtain ⟨text, htext⟩ : ∃ text, report.listing = text ++ "valid".toList ++ ['\n'] := by
    rw [Report.listing]
    exact ⟨report.verdicts.flatMap Verdict.listing ++ decimal report.valid ++ " of ".toList ++
      decimal report.total ++ " statements ".toList, by simp⟩
  rw [htext, ← List.append_assoc, trimEnd_append_blank (by decide), ← List.append_assoc,
    trimEnd_append_solid (by decide)]

theorem renderListing_eq (sources : List SourceReport) :
    renderListing sources ++ ['\n'] = printed (rows sources) := by
  unfold renderListing rows
  split
  · next single =>
    rw [Report.printed_rows]
    exact trimEnd_append_listing [] single.report
  · next hseveral =>
    split
    · rfl
    · next single => exact absurd rfl (hseveral single)
    · next hsome _ =>
      rw [printed_flatMap printed_heading_cons]
      obtain ⟨front, last, rfl⟩ := (List.eq_nil_or_concat' sources).resolve_left hsome
      rw [List.flatMap_append, List.flatMap_singleton, listing, ← List.append_assoc]
      exact trimEnd_append_listing _ last.report

end SourceReport
end SqlBatch
