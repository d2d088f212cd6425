import JavadocCoverage.Source.Scan

/-!
# Reports

What a check has to say of each file and of all files together.  `summarize` keeps
the files that are not clean and counts; its lemmas say what each count counts.
-/

namespace JavadocCoverage

/-- What a check has to say of one file: its findings, or that it could not be
read. -/
structure FileReport where
  path : Text
  findings : List Finding
  error : Option Text
deriving DecidableEq, Repr

namespace FileReport

/-- There is nothing to say of the file. -/
def isClean (report : FileReport) : Bool :=
  report.findings.isEmpty && report.error.isNone

/-- The file has findings. -/
def hasFindings (report : FileReport) : Bool :=
  !report.findings.isEmpty

/-- The file could not be read. -/
def isUnreadable (report : FileReport) : Bool :=
  report.error.isSome

end FileReport

/-- What a check has to say of the files below a root. -/
structure Report where
  root : Text
  filesScanned : Nat
  filesWithFindings : Nat
  totalFindings : Nat
  unreadableFiles : Nat
  durationMs : Nat
  /-- The files that are not clean, in the order of the walk. -/
  files : List FileReport
deriving DecidableEq, Repr

namespace Report

/-- Some file has findings or could not be read. -/
def hasProblems (report : Report) : Bool :=
  report.totalFindings > 0 || report.unreadableFiles > 0

/-- The report on all files, from the reports on each. -/
def summarize (root : Path) (durationMs : Nat) (reports : List FileReport) : Report :=
  let files := reports.filter (!·.isClean)
  { root := root.render
    filesScanned := reports.length
    filesWithFindings := files.countP (·.hasFindings)
    totalFindings := (files.flatMap (·.findings)).length
    unreadableFiles := files.countP (·.isUnreadable)
    durationMs
    files }

end Report

end JavadocCoverage
