import JavadocCoverage.Json.Finding
import JavadocCoverage.Report.Basic

/-!
# Renderings

A report as a text for readers and as a JSON document, and a list of paths.
-/

namespace JavadocCoverage

/-- Texts as lines, each with a line feed after it. -/
def ofLines (lines : List Text) : Text :=
  lines.flatMap (· ++ ['\n'])

/-- Paths, one to a line. -/
def renderPaths (paths : List Path) : Text :=
  ofLines (paths.map Path.render)

namespace FileReport

/-- The lines for one file: its path, that it could not be read, and its findings. -/
def lines (report : FileReport) : List Text :=
  ("File: ".toList ++ report.path)
    :: (report.error.toList.map ("  - Unreadable: ".toList ++ ·)
      ++ report.findings.map ("  - ".toList ++ ·.render))

end FileReport

/-- The report as a text for readers. -/
def Report.text (report : Report) : Text :=
  ofLines (report.files.flatMap FileReport.lines)

/-- What is said of a file, as a JSON document.  The error is a member only when
there is one. -/
def FileReport.json (report : FileReport) : Json :=
  .object <| [
    ("path".toList, .string report.path),
    ("findings".toList, .array (report.findings.map Finding.json))]
    ++ report.error.toList.map fun error => ("error".toList, .string error)

namespace Report

/-- The report as a JSON document. -/
def json (report : Report) : Json :=
  .object [
    ("root".toList, .string report.root),
    ("files_scanned".toList, .number report.filesScanned),
    ("files_with_findings".toList, .number report.filesWithFindings),
    ("total_findings".toList, .number report.totalFindings),
    ("unreadable_files".toList, .number report.unreadableFiles),
    ("duration_ms".toList, .number report.durationMs),
    ("files".toList, .array (report.files.map FileReport.json))]

/-- The pretty form of the report as a JSON document. -/
def jsonText (report : Report) : Text :=
  report.json.pretty 0

end Report

end JavadocCoverage
