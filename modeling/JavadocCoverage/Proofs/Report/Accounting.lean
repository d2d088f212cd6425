import Mathlib.Algebra.GroupWithZero.Nat
import Mathlib.Tactic.Use
import JavadocCoverage.Program

/-!
# The account of a check

What the report of a check says of the sources below its root (`Report.AccountsFor`): each
one is counted, the ones that are not clean are listed in the order of the walk, and the
counts of the list are the counts of the whole.  A check fails on findings just when some
source has findings or cannot be read (`check_accounts`).

What carries the counts is that nothing is said twice of a file: a report on a file that
could not be read has no findings (`FileReport.IsCoherent`).
-/

namespace JavadocCoverage

/-! ## One file -/

namespace FileReport

/-- The file has no findings unless it was read. -/
def IsCoherent (report : FileReport) : Prop :=
  report.findings = [] ∨ report.error = none

/-- A clean file has neither findings nor an error. -/
theorem isClean_iff {report : FileReport} :
  report.isClean = true ↔ report.findings = [] ∧ report.error = none
  := by
  simp [isClean]

/-- A coherent report on a file that is not clean is either on its findings or on its
error. -/
theorem IsCoherent.either
    {report : FileReport} (h : report.IsCoherent) (hclean : report.isClean = false) :
  (report.findings ≠ [] ∧ report.error = none) ∨ (report.findings = [] ∧ report.error ≠ none)
  := by
  have hproblem : ¬ (report.findings = [] ∧ report.error = none) := by
    rw [← isClean_iff, hclean]
    exact Bool.false_ne_true
  rcases h with hfindings | herror
  · right
    use hfindings
    intro herror
    exact hproblem ⟨hfindings, herror⟩
  · left
    constructor
    · intro hfindings
      exact hproblem ⟨hfindings, herror⟩
    · exact herror

theorem IsCoherent.isUnreadable
    {report : FileReport} (h : report.IsCoherent) (hclean : report.isClean = false) :
  report.isUnreadable = !report.hasFindings
  := by
  obtain ⟨hfindings, herror⟩ | ⟨hfindings, herror⟩ := h.either hclean
  · simp [FileReport.isUnreadable, hasFindings, hfindings, herror]
  · simp [FileReport.isUnreadable, hasFindings, hfindings, Option.isSome_iff_ne_none, herror]

theorem lines_ne_nil (report : FileReport) :
  report.lines ≠ []
  := by
  simp [lines]

end FileReport

namespace FileReading

theorem report_isCoherent (reading : FileReading) :
  reading.report.IsCoherent
  := by
  rw [report]
  split
  · right
    rfl
  · left
    rfl

/-- The file has something to say of it: it could not be read, or its content has
findings. -/
def HasProblem (reading : FileReading) : Prop :=
  match reading.content with
  | .ok content => checkText (Utf8.decode content) ≠ []
  | .error _ => True

instance : DecidablePred HasProblem
  | ⟨_, .ok content⟩ => inferInstanceAs (Decidable (checkText (Utf8.decode content) ≠ []))
  | ⟨_, .error _⟩ => inferInstanceAs (Decidable True)

/-- The report on a file is clean unless the file has a problem. -/
theorem report_isClean_iff {reading : FileReading} :
  reading.report.isClean = true ↔ ¬ reading.HasProblem
  := by
  rw [FileReport.isClean_iff, report, source, HasProblem]
  cases reading.content with
  | ok content => simp [SourceFile.check, SourceFile.scan, SourceFile.ofText, checkText, checkLines]
  | error cause => simp

end FileReading

/-! ## Many files -/

/-- The findings of all files are those of the files that are not clean. -/
theorem flatMap_findings_filter (reports : List FileReport) :
  (reports.filter (!·.isClean)).flatMap (·.findings) = reports.flatMap (·.findings)
  := by
  induction reports with
  | nil => rfl
  | cons report reports ih =>
    cases hclean : report.isClean with
    | true =>
      have hfindings := (FileReport.isClean_iff.mp hclean).1
      rw [List.filter_cons_of_neg (by simp [hclean]), List.flatMap_cons, hfindings, ih]
      rfl
    | false =>
      rw [List.filter_cons_of_pos (by simp [hclean]), List.flatMap_cons, List.flatMap_cons, ih]

/-- The files of a kind that no clean file is of are the same among those that are not
clean. -/
theorem countP_filter_not_isClean
    {p : FileReport → Bool} (hp : ∀ report, p report = true → report.isClean = false)
    (reports : List FileReport) :
  (reports.filter (!·.isClean)).countP p = reports.countP p
  := by
  rw [List.countP_filter]
  apply List.countP_congr
  intro report _
  rw [Bool.and_eq_true, Bool.not_eq_true', and_iff_left_iff_imp]
  exact hp report

theorem ofLines_eq_nil {lines : List Text} :
  ofLines lines = [] ↔ lines = []
  := by
  cases lines with
  | nil => simp [ofLines]
  | cons line lines => simp [ofLines]

namespace Report

variable (root : Path) (durationMs : Nat) (reports : List FileReport)

/-- The text of a report is empty when no file is listed in it. -/
theorem text_eq_nil {report : Report} :
  report.text = [] ↔ report.files = []
  := by
  rw [text, ofLines_eq_nil]
  cases report.files with
  | nil => simp
  | cons file files => simp [FileReport.lines_ne_nil]

theorem mem_files_summarize {file : FileReport} :
  file ∈ (summarize root durationMs reports).files ↔ file ∈ reports ∧ file.isClean = false
  := by
  simp [summarize]

/-- No file with findings is left out. -/
theorem filesWithFindings_summarize :
  (summarize root durationMs reports).filesWithFindings = reports.countP (·.hasFindings)
  := by
  apply countP_filter_not_isClean
  intro report hfindings
  simp only [FileReport.hasFindings, Bool.not_eq_true'] at hfindings
  rw [FileReport.isClean, hfindings, Bool.false_and]

/-- No file that could not be read is left out. -/
theorem unreadableFiles_summarize :
  (summarize root durationMs reports).unreadableFiles = reports.countP (·.isUnreadable)
  := by
  apply countP_filter_not_isClean
  intro report herror
  rw [FileReport.isClean, Option.isNone_eq_false_iff.mpr herror, Bool.and_false]

/-- The findings are counted over all files. -/
theorem totalFindings_summarize :
  (summarize root durationMs reports).totalFindings
    = (reports.map fun report => report.findings.length).sum
  := by
  rw [← List.length_flatMap, ← flatMap_findings_filter reports]
  rfl

variable {reports}

/-- Each file that is listed has findings or could not be read, not both. -/
theorem filesWithFindings_add_unreadableFiles
    (hcoherent : ∀ report ∈ reports, report.IsCoherent) :
  (summarize root durationMs reports).filesWithFindings
      + (summarize root durationMs reports).unreadableFiles
    = (summarize root durationMs reports).files.length
  := by
  have hunreadable : (summarize root durationMs reports).unreadableFiles
      = (summarize root durationMs reports).files.countP (!·.hasFindings) := by
    apply List.countP_congr
    intro file hmem
    obtain ⟨hmem, hclean⟩ := (mem_files_summarize root durationMs reports).mp hmem
    rw [(hcoherent file hmem).isUnreadable hclean]
  have hnot : ∀ file : FileReport, decide (¬ file.hasFindings = true) = !file.hasFindings := by
    simp
  rw [hunreadable, List.length_eq_countP_add_countP FileReport.hasFindings]
  simp only [hnot]
  rfl

variable (reports)

/-- There are problems just when a file is listed. -/
theorem hasProblems_summarize :
  (summarize root durationMs reports).hasProblems = true
    ↔ (summarize root durationMs reports).files ≠ []
  := by
  have htotal : 0 < (summarize root durationMs reports).totalFindings
      ↔ ∃ file ∈ (summarize root durationMs reports).files, file.findings ≠ [] := by
    simp only [summarize, List.length_pos_iff, ne_eq, List.flatMap_eq_nil_iff, not_forall,
      exists_prop]
  have hunreadable : 0 < (summarize root durationMs reports).unreadableFiles
      ↔ ∃ file ∈ (summarize root durationMs reports).files, file.isUnreadable = true := by
    apply List.countP_pos_iff
  rw [hasProblems, Bool.or_eq_true, decide_eq_true_iff, decide_eq_true_iff, gt_iff_lt, gt_iff_lt,
    htotal, hunreadable]
  constructor
  · rintro (⟨file, hmem, -⟩ | ⟨file, hmem, -⟩)
    · exact List.ne_nil_of_mem hmem
    · exact List.ne_nil_of_mem hmem
  · intro hfiles
    obtain ⟨file, hmem⟩ := List.exists_mem_of_ne_nil _ hfiles
    have hclean := ((mem_files_summarize root durationMs reports).mp hmem).2
    by_cases hfindings : file.findings = []
    · right
      use file, hmem
      rw [FileReport.isUnreadable, Option.isSome_iff_ne_none]
      intro herror
      rw [FileReport.isClean_iff.mpr ⟨hfindings, herror⟩] at hclean
      cases hclean
    · left
      exact ⟨file, hmem, hfindings⟩

end Report

/-! ## All sources -/

/-- A report gives the account of the sources below a root of a tree. -/
structure Report.AccountsFor (report : Report) (tree : Node) (root : Path) : Prop where
  /-- Every source is counted. -/
  filesScanned : report.filesScanned = (tree.findSources root).length
  /-- Just the clean sources are left out, and the order is that of the walk. -/
  files : report.files
    = ((tree.findSources root).map fun path => (tree.reading path).report).filter (!·.isClean)
  /-- The files are among those that are listed for the same root. -/
  paths : (report.files.map (·.path)).Sublist ((tree.findSources root).map Path.render)
  /-- A file has findings or an error, not both. -/
  exclusive : ∀ file ∈ report.files,
    (file.findings ≠ [] ∧ file.error = none) ∨ (file.findings = [] ∧ file.error ≠ none)
  filesWithFindings : report.filesWithFindings
    = (tree.findSources root).countP fun path => (tree.reading path).report.hasFindings
  unreadableFiles : report.unreadableFiles
    = (tree.findSources root).countP fun path => (tree.reading path).report.isUnreadable
  /-- The two counts of files are those of the files with findings and of the others. -/
  counts : report.filesWithFindings + report.unreadableFiles = report.files.length
  length_le : report.files.length ≤ report.filesScanned
  /-- The findings are counted over all sources. -/
  totalFindings : report.totalFindings
    = ((tree.findSources root).map fun path => (tree.reading path).report.findings.length).sum
  hasProblems : report.hasProblems = true ↔ report.files ≠ []
  text : report.files ≠ [] ↔ report.text ≠ []

namespace Node

/-- The report of a check accounts for the sources below the root. -/
theorem audit_accountsFor (tree : Node) (root : Path) (durationMs : Nat) :
  (tree.audit root durationMs).AccountsFor tree root
  := by
  have hreports : (tree.readings root).map FileReading.report
      = (tree.findSources root).map fun path => (tree.reading path).report := by
    simp [readings, Function.comp_def]
  have hcoherent : ∀ report ∈ (tree.readings root).map FileReading.report, report.IsCoherent := by
    intro report hmem
    obtain ⟨reading, -, rfl⟩ := List.mem_map.mp hmem
    apply FileReading.report_isCoherent
  have hpaths : ((tree.findSources root).map fun path => (tree.reading path).report).map (·.path)
      = (tree.findSources root).map Path.render := by
    rw [List.map_map]
    apply List.map_congr_left
    intro path _
    rw [Function.comp_apply, FileReading.report]
    split
    · rfl
    · rfl
  have hlisted : ∀ file ∈ (tree.audit root durationMs).files,
      file ∈ (tree.readings root).map FileReading.report ∧ file.isClean = false := by
    intro file hmem
    exact (Report.mem_files_summarize root durationMs _).mp hmem
  exact
  { filesScanned := by
      simp [audit, auditReport, Report.summarize, readings]
    files := by
      simp [audit, auditReport, Report.summarize, readings, Function.comp_def]
    paths := by
      rw [← hpaths]
      apply List.Sublist.map
      rw [← hreports]
      apply List.filter_sublist
    exclusive := by
      intro file hmem
      obtain ⟨hmem, hclean⟩ := hlisted file hmem
      exact (hcoherent file hmem).either hclean
    filesWithFindings := by
      rw [audit, auditReport, Report.filesWithFindings_summarize, hreports, List.countP_map]
      rfl
    unreadableFiles := by
      rw [audit, auditReport, Report.unreadableFiles_summarize, hreports, List.countP_map]
      rfl
    counts := by
      apply Report.filesWithFindings_add_unreadableFiles _ _ hcoherent
    length_le := by
      apply List.length_filter_le
    totalFindings := by
      rw [audit, auditReport, Report.totalFindings_summarize, hreports, List.map_map]
      rfl
    hasProblems := by
      apply Report.hasProblems_summarize
    text := by
      rw [ne_eq, ne_eq, Report.text_eq_nil] }

/-- The report of a check can be written where it is asked for, by the answers of the system. -/
def CanDeliver (tree : Node) (root : Path) (options : CheckOptions) (durationMs : Nat)
    (answers : List WriteAnswer) : Prop :=
  ∀ path ∈ options.outputPath?,
    (tree.deliver path (Utf8.encode (options.content (tree.audit root durationMs)))
      answers).2 = none

instance (tree : Node) (root : Path) (options : CheckOptions) (durationMs : Nat)
    (answers : List WriteAnswer) :
    Decidable (tree.CanDeliver root options durationMs answers) :=
  inferInstanceAs (Decidable (∀ path ∈ options.outputPath?, _ = none))

/-- Some source below the root has findings or cannot be read. -/
def HasProblemBelow (tree : Node) (root : Path) : Prop :=
  ∃ path ∈ tree.findSources root, (tree.reading path).HasProblem

theorem audit_hasProblems (tree : Node) (root : Path) (durationMs : Nat) :
  (tree.audit root durationMs).hasProblems = true ↔ tree.HasProblemBelow root
  := by
  have haccount := tree.audit_accountsFor root durationMs
  rw [haccount.hasProblems, haccount.files, ne_eq, List.filter_eq_nil_iff]
  simp [FileReading.report_isClean_iff, HasProblemBelow]

/-- The exit code of a check whose report was delivered is that of its report. -/
theorem check_code
    {tree : Node} {root : Path} {options : CheckOptions} {durationMs : Nat}
    {answers : List WriteAnswer} (hdeliver : tree.CanDeliver root options durationMs answers)
    (filter : Filter) :
  (tree.check filter root options durationMs answers).2.code
    = options.exitCode (tree.audit root durationMs)
  := by
  rw [check]
  cases houtput : options.outputPath? with
  | none => rfl
  | some path =>
    have hnone := hdeliver path houtput
    rw [audit] at hnone
    simp only [hnone]
    rfl

/-- The report of a check accounts for the sources that are listed for the same root, and
a check whose report is delivered fails just when it is to fail on findings and a source
has findings or cannot be read. -/
theorem check_accounts
    (tree : Node) (root : Path) (durationMs : Nat) (answers : List WriteAnswer) :
  (tree.audit root durationMs).AccountsFor tree root
    ∧ (∀ arguments environment filter, plan arguments environment = .files filter root →
      (tree.run arguments environment durationMs answers).2.stdout
        = ofLines ((tree.findSources root).map Path.render))
    ∧ (∀ arguments environment filter options,
      plan arguments environment = .check filter root options →
      tree.CanDeliver root options durationMs answers →
      (options.failOnFindings = true ∧ tree.HasProblemBelow root →
        (tree.run arguments environment durationMs answers).2.code = 1)
      ∧ (¬ (options.failOnFindings = true ∧ tree.HasProblemBelow root) →
        (tree.run arguments environment durationMs answers).2.code = 0))
  := by
  refine ⟨tree.audit_accountsFor root durationMs, ?_, ?_⟩
  · intro arguments environment filter hplan
    rw [run, hplan]
    rfl
  · intro arguments environment filter options hplan hdeliver
    have hcode : (tree.run arguments environment durationMs answers).2.code
        = options.exitCode (tree.audit root durationMs) := by
      rw [run, hplan]
      apply check_code hdeliver
    have hfails : (options.failOnFindings && (tree.audit root durationMs).hasProblems) = true
        ↔ options.failOnFindings = true ∧ tree.HasProblemBelow root := by
      rw [Bool.and_eq_true, audit_hasProblems]
    rw [hcode, CheckOptions.exitCode, ← hfails]
    constructor
    · intro h
      exact if_pos h
    · intro h
      exact if_neg h

/-- A tree with a directory `d` that holds one source, which has a finding. -/
def undocumentedTree : Node :=
  .directory [
    (Path.ofText "d".toList, .directory [
      (Path.ofText "Bare.java".toList, .file (Utf8.encode "public class Bare".toList))])]

/-- The source in `undocumentedTree` is listed, and a check that writes its report to a
file fails when it is to fail on findings and does not fail otherwise. -/
theorem check_accounts_undocumentedTree :
  let files := ["p", "files", "d"].map String.toList
  let check := ["p", "check", "d", "--format", "json", "--output", "out/report"].map String.toList
  (undocumentedTree.run files {} 5).2.stdout = "d/Bare.java\n".toList
    ∧ (undocumentedTree.run check {} 5).2.code = 0
    ∧ (undocumentedTree.run (check ++ ["--fail-on-findings".toList]) {} 5).2.code = 1
  := by
  have hfound : undocumentedTree.findSources (Path.ofText "d".toList)
      = [Path.ofText "d/Bare.java".toList] := by
    decide +kernel
  obtain ⟨-, hfiles, hcheck⟩ := check_accounts undocumentedTree (Path.ofText "d".toList) 5 []
  refine ⟨?_, ?_, ?_⟩
  · rw [hfiles _ _ _ rfl, hfound]
    decide +kernel
  · apply (hcheck _ _ _ _ rfl (by decide +kernel)).2
    rintro ⟨hfail, -⟩
    exact Bool.false_ne_true hfail
  · apply (hcheck _ _ _ _ rfl (by decide +kernel)).1
    constructor
    · rfl
    · use Path.ofText "d/Bare.java".toList
      rw [hfound]
      constructor
      · exact List.mem_singleton_self _
      · decide +kernel

end Node

end JavadocCoverage
