import JavadocCoverage.Report.Rendering
import JavadocCoverage.Proofs.Json.Finding

/-!
# The JSON form of a report

The JSON form of a report is a document, and the only value that it is a written form of is
that of the report: an object with the counts and the files, in which the error of a file is a
member only when there is one.  The value determines the report, and so does the text.
-/

namespace JavadocCoverage

open Json (Value Numeral IsDocument)

/-! ### Values -/

/-- The value of what is said of a file in JSON. -/
def FileReport.value (report : FileReport) : Value :=
  .object (
    ("path".toList, .string report.path)
      :: ("findings".toList, .array (report.findings.map Finding.value))
      :: match report.error with
        | none => []
        | some error => [("error".toList, .string error)])

/-- The value of a report in JSON. -/
def Report.value (report : Report) : Value :=
  .object [
    ("root".toList, .string report.root),
    ("files_scanned".toList, .number (.ofNat report.filesScanned)),
    ("files_with_findings".toList, .number (.ofNat report.filesWithFindings)),
    ("total_findings".toList, .number (.ofNat report.totalFindings)),
    ("unreadable_files".toList, .number (.ofNat report.unreadableFiles)),
    ("duration_ms".toList, .number (.ofNat report.durationMs)),
    ("files".toList, .array (report.files.map FileReport.value))]

theorem FileReport.value_json (report : FileReport) :
  report.json.value = report.value
  := by
  obtain ⟨path, findings, error⟩ := report
  have hfindings : Json.elementValues (findings.map Finding.json) = findings.map Finding.value := by
    rw [Json.elementValues_eq_map, List.map_map]
    apply List.map_congr_left
    intro finding _
    exact finding.value_json
  cases error with
  | none =>
    simp only [json, value, ← hfindings]
    rfl
  | some error =>
    simp only [json, value, ← hfindings]
    rfl

theorem Report.value_json (report : Report) :
  report.json.value = report.value
  := by
  have hfiles : Json.elementValues (report.files.map FileReport.json)
      = report.files.map FileReport.value := by
    rw [Json.elementValues_eq_map, List.map_map]
    apply List.map_congr_left
    intro file _
    exact file.value_json
  rw [value, ← hfiles]
  rfl

/-! ### The values determine what they are of -/

theorem DeclarationKind.key_injective :
  Function.Injective DeclarationKind.key
  := by
  intro kind kind' h
  cases kind with
  | type =>
    cases kind' with
    | type => rfl
    | method => cases h
  | method =>
    cases kind' with
    | type => cases h
    | method => rfl

theorem Finding.value_injective :
  Function.Injective Finding.value
  := by
  rintro ⟨kind, line, text⟩ ⟨kind', line', text'⟩ h
  simp only [value, Finding.members, Value.object.injEq, List.cons.injEq, Prod.mk.injEq,
    Value.string.injEq, Value.number.injEq, true_and, and_true] at h
  obtain ⟨hkind, hline, rfl⟩ := h
  obtain rfl := DeclarationKind.key_injective hkind
  obtain rfl := Numeral.ofNat_injective hline
  rfl

theorem FileReport.value_injective :
  Function.Injective FileReport.value
  := by
  rintro ⟨path, findings, error⟩ ⟨path', findings', error'⟩ h
  simp only [value, Value.object.injEq, List.cons.injEq, Prod.mk.injEq, Value.string.injEq,
    Value.array.injEq, true_and] at h
  obtain ⟨rfl, hfindings, herror⟩ := h
  obtain rfl := List.map_injective_iff.mpr Finding.value_injective hfindings
  cases error with
  | none =>
    cases error' with
    | none => rfl
    | some error' => cases herror
  | some error =>
    cases error' with
    | none => cases herror
    | some error' =>
      cases herror
      rfl

theorem Report.value_injective :
  Function.Injective Report.value
  := by
  rintro ⟨root, scanned, found, total, unreadable, duration, files⟩ report' h
  simp only [value, Value.object.injEq, List.cons.injEq, Prod.mk.injEq, Value.string.injEq,
    Value.number.injEq, Value.array.injEq, true_and, and_true] at h
  obtain ⟨rfl, hscanned, hfound, htotal, hunreadable, hduration, hfiles⟩ := h
  obtain rfl := Numeral.ofNat_injective hscanned
  obtain rfl := Numeral.ofNat_injective hfound
  obtain rfl := Numeral.ofNat_injective htotal
  obtain rfl := Numeral.ofNat_injective hunreadable
  obtain rfl := Numeral.ofNat_injective hduration
  obtain rfl := List.map_injective_iff.mpr FileReport.value_injective hfiles
  rfl

/-! ### The text -/

/-- The JSON form of a report is a written form of the value of the report and of no other
one, and different reports have different forms. -/
theorem Report.isDocument_jsonText :
  (∀ (report : Report) (value : Value),
      IsDocument report.jsonText value ↔ value = report.value)
    ∧ Function.Injective Report.jsonText
  := by
  have hwritten (report : Report) : IsDocument report.jsonText report.value := by
    rw [← report.value_json]
    exact Json.isDocument_pretty report.json 0
  constructor
  · intro report value
    constructor
    · intro h
      exact h.unique (hwritten report)
    · rintro rfl
      exact hwritten report
  · intro report report' h
    apply Report.value_injective
    apply (hwritten report).unique
    rw [h]
    exact hwritten report'

end JavadocCoverage
