import Mathlib.Data.List.DropRight
import Mathlib.Tactic.Use
import JavadocCoverage.Proofs.Text.Decimal
import JavadocCoverage.Proofs.Text.DecodedLines
import JavadocCoverage.Report.Rendering

/-!
# Reading a text report

The text of a report has no escapes, and still tells everything that the report says of the
files: what is read from it (`filesOfText`) are the files of the report
(`filesOfText_text`), provided that no path, error or finding breaks a line.

A line is a heading or a bullet and begins with the words for what it says (`Mark`), which
none of the others begin with.  The line of a finding ends in the digits of a number; the
declaration before them may hold anything, also the words that stand between the two, since
these words do not end in a digit.
-/

namespace JavadocCoverage

/-! ### Findings -/

/-- The words between a declaration and the number of its line. -/
def lineWords : Text := " at line ".toList

theorem getLast?_lineWords :
  lineWords.getLast? = some ' '
  := by
  decide

/-- Digits at the end of a text are told from what stands before them, when that does not
end in a digit. -/
theorem rdropWhile_append_digits
    {front digits : Text} (hdigits : ∀ c ∈ digits, c.isDigit = true)
    (hfront : ∀ c ∈ front.getLast?, c.isDigit = false) :
  (front ++ digits).rdropWhile Char.isDigit = front
    ∧ (front ++ digits).rtakeWhile Char.isDigit = digits
  := by
  induction digits using List.reverseRecOn with
  | nil =>
    have hlast : ∀ hne : front ≠ [], ¬ (front.getLast hne).isDigit = true := by
      intro hne
      rw [hfront _ (List.getLast_mem_getLast? hne)]
      exact Bool.false_ne_true
    rw [List.append_nil]
    exact ⟨List.rdropWhile_eq_self_iff.mpr hlast, List.rtakeWhile_eq_nil_iff.mpr hlast⟩
  | append_singleton digits c ih =>
    obtain ⟨hdrop, htake⟩ := ih fun c' hc' => hdigits c' (List.mem_append_left _ hc')
    have hc : c.isDigit = true := hdigits c List.mem_concat_self
    rw [← List.append_assoc, List.rdropWhile_concat_pos _ _ _ hc,
      List.rtakeWhile_concat_pos _ _ _ hc, hdrop, htake]
    exact ⟨rfl, rfl⟩

namespace Finding

/-- The finding of the given kind that is shown as `text`, after the label of the kind. -/
def ofShown? (kind : DeclarationKind) (text : Text) : Option Finding :=
  ((text.rdropWhile Char.isDigit).dropSuffix? lineWords).map fun declaration =>
    ⟨kind, ofDigits (text.rtakeWhile Char.isDigit), declaration⟩

/-- The number and the declaration of a finding are read from what is shown of them. -/
theorem ofShown?_eq_some (finding : Finding) :
  ofShown? finding.kind (finding.text ++ lineWords ++ decimal finding.line) = some finding
  := by
  have hwords : ∀ c ∈ (finding.text ++ lineWords).getLast?, c.isDigit = false := by
    rw [List.getLast?_append, getLast?_lineWords]
    rintro c ⟨rfl⟩
    rfl
  have hdigits : ∀ c ∈ decimal finding.line, c.isDigit := fun c hc => isDigit_of_mem_decimal hc
  obtain ⟨hdrop, htake⟩ := rdropWhile_append_digits hdigits hwords
  have hsuffix : (finding.text ++ lineWords).dropSuffix? lineWords = some finding.text := by
    apply List.dropSuffix?_eq_some_iff.mpr
    use lineWords, rfl
    apply beq_self_eq_true
  rw [ofShown?, hdrop, htake, hsuffix, ofDigits_decimal]
  rfl

end Finding

/-! ### Lines -/

/-- What one line of a text report says. -/
inductive ReportLine
  | file (path : Text)
  | unreadable (error : Text)
  | finding (finding : Finding)

/-- The forms of a line: a heading, and the bullets for an error and for the findings of
each kind. -/
inductive Mark
  | file
  | unreadable
  | finding (kind : DeclarationKind)
deriving DecidableEq

namespace Mark

/-- The words that a line begins with. -/
def words : Mark → Text
  | file => "File: ".toList
  | unreadable => "  - Unreadable: ".toList
  | finding kind => "  - ".toList ++ kind.label ++ ": ".toList

/-- All forms. -/
def all : List Mark := [file, unreadable, finding .type, finding .method]

theorem find?_all (mark : Mark) :
  all.find? (· = mark) = some mark
  := by
  rcases mark with _ | _ | kind
  · rfl
  · rfl
  · cases kind with
    | type => rfl
    | method => rfl

theorem mem_all (mark : Mark) :
  mark ∈ all
  := List.mem_of_find?_eq_some mark.find?_all

/-- The words of one form do not begin with those of another. -/
theorem eq_of_words_isPrefix
    {mark mark' : Mark} (h : mark.words <+: mark'.words) :
  mark = mark'
  := by
  have hall : ∀ mark ∈ all, ∀ mark' ∈ all, mark.words <+: mark'.words → mark = mark' := by
    decide
  exact hall mark mark.mem_all mark' mark'.mem_all h

/-- A line begins with the words of its own form only. -/
theorem words_isPrefix_iff {mark mark' : Mark} {rest : Text} :
  mark'.words <+: mark.words ++ rest ↔ mark' = mark
  := by
  constructor
  · intro h
    rcases List.prefix_or_prefix_of_prefix h (List.prefix_append mark.words rest) with h | h
    · exact eq_of_words_isPrefix h
    · exact (eq_of_words_isPrefix h).symm
  · rintro rfl
    apply List.prefix_append

/-- What a line of the given form says, from what stands after its first words. -/
def read? : Mark → Text → Option ReportLine
  | file, path => some (.file path)
  | unreadable, error => some (.unreadable error)
  | finding kind, text => (Finding.ofShown? kind text).map .finding

end Mark

namespace ReportLine

/-- A line as it is shown to a reader. -/
def render : ReportLine → Text
  | file path => "File: ".toList ++ path
  | unreadable error => "  - Unreadable: ".toList ++ error
  | finding shown => "  - ".toList ++ shown.render

/-- What a line says, if it is one of a text report. -/
def ofText? (line : Text) : Option ReportLine :=
  (Mark.all.find? fun mark => mark.words.isPrefixOf line).bind fun mark =>
    mark.read? (line.drop mark.words.length)

theorem ofText?_words (mark : Mark) (rest : Text) :
  ofText? (mark.words ++ rest) = mark.read? rest
  := by
  have hfind : (Mark.all.find? fun mark' => mark'.words.isPrefixOf (mark.words ++ rest))
      = some mark := by
    have hown : (fun mark' : Mark => mark'.words.isPrefixOf (mark.words ++ rest))
        = fun mark' => decide (mark' = mark) := by
      funext mark'
      rw [Bool.eq_iff_iff, List.isPrefixOf_iff_prefix, Mark.words_isPrefix_iff, decide_eq_true_iff]
    rw [hown]
    exact Mark.find?_all mark
  rw [ofText?, hfind, Option.bind_some, List.drop_left]

/-- A line is read as what it says. -/
theorem ofText?_render (line : ReportLine) :
  ofText? line.render = some line
  := by
  rcases line with path | error | found
  · apply ofText?_words .file
  · apply ofText?_words .unreadable
  · have hrender : render (finding found) = (Mark.finding found.kind).words
        ++ (found.text ++ lineWords ++ decimal found.line) := by
      unfold render Finding.render Mark.words lineWords
      simp only [List.append_assoc]
    rw [hrender, ofText?_words, Mark.read?, Finding.ofShown?_eq_some]
    rfl

end ReportLine

/-! ### Files -/

/-- What is read from lines upward: the files whose heading has been met, and what has been
read of the file whose heading is still to come. -/
structure ReadLines where
  error : Option Text := none
  findings : List Finding := []
  files : List FileReport := []

/-- What is read when one more line stands above. -/
def ReadLines.below (line : ReportLine) (read : ReadLines) : ReadLines :=
  match line with
  | .file path => { files := ⟨path, read.findings, read.error⟩ :: read.files }
  | .unreadable error => { read with error := some error }
  | .finding finding => { read with findings := finding :: read.findings }

/-- The files that a text report tells of. -/
def filesOfText (text : Text) : List FileReport :=
  (((text.splitOn '\n').filterMap ReportLine.ofText?).foldr ReadLines.below {}).files

namespace FileReport

/-- What the lines for one file say. -/
def reportLines (report : FileReport) : List ReportLine :=
  .file report.path
    :: (report.error.toList.map .unreadable ++ report.findings.map .finding)

theorem lines_eq_map_render (report : FileReport) :
  report.lines = report.reportLines.map ReportLine.render
  := by
  simp only [lines, reportLines, List.map_cons, List.map_append, List.map_map]
  rfl

/-- The lines for a file are read as the file. -/
theorem foldr_below_reportLines (report : FileReport) (files : List FileReport) :
  report.reportLines.foldr ReadLines.below { files } = { files := report :: files }
  := by
  obtain ⟨path, findings, error⟩ := report
  have hfindings : (findings.map ReportLine.finding).foldr ReadLines.below { files }
      = { findings, files } := by
    induction findings with
    | nil => rfl
    | cons finding findings ih =>
      rw [List.map_cons, List.foldr_cons, ih]
      rfl
  rw [reportLines, List.foldr_cons, List.foldr_append, hfindings]
  cases error with
  | none => rfl
  | some error => rfl

theorem foldr_below_flatMap_reportLines (files : List FileReport) :
  (files.flatMap reportLines).foldr ReadLines.below {} = { files }
  := by
  induction files with
  | nil => rfl
  | cons file files ih =>
    rw [List.flatMap_cons, List.foldr_append, ih, foldr_below_reportLines]

theorem filterMap_ofText?_lines (files : List FileReport) :
  (files.flatMap lines).filterMap ReportLine.ofText? = files.flatMap reportLines
  := by
  have hlines : files.flatMap lines = (files.flatMap reportLines).map ReportLine.render := by
    simp only [List.map_flatMap, ← lines_eq_map_render]
  rw [hlines, List.filterMap_map, Function.comp_def]
  simp only [ReportLine.ofText?_render, List.filterMap_some]

/-- Nothing that is said of the file breaks a line. -/
structure IsOnLines (report : FileReport) : Prop where
  path : '\n' ∉ report.path
  error : ∀ error ∈ report.error, '\n' ∉ error
  findings : ∀ finding ∈ report.findings, '\n' ∉ finding.text

theorem isOnLines_iff {report : FileReport} :
  report.IsOnLines ↔ '\n' ∉ report.path ∧ (∀ error ∈ report.error, '\n' ∉ error)
    ∧ ∀ finding ∈ report.findings, '\n' ∉ finding.text
  := by
  constructor
  · rintro ⟨hpath, herror, hfindings⟩
    exact ⟨hpath, herror, hfindings⟩
  · rintro ⟨hpath, herror, hfindings⟩
    exact ⟨hpath, herror, hfindings⟩

instance : DecidablePred IsOnLines :=
  fun _ => decidable_of_iff _ isOnLines_iff.symm

/-- The lines for a file are not broken by what they say. -/
theorem IsOnLines.lineFeed_notMem
    {report : FileReport} (h : report.IsOnLines) :
  ∀ line ∈ report.lines, '\n' ∉ line
  := by
  have hlabel : ∀ kind : DeclarationKind, '\n' ∉ kind.label := by
    intro kind
    cases kind with
    | type => decide
    | method => decide
  have hdecimal : ∀ n, '\n' ∉ decimal n := by
    intro n h
    cases isDigit_of_mem_decimal h
  intro line hline
  rw [FileReport.lines, List.mem_cons, List.mem_append, List.mem_map, List.mem_map] at hline
  rcases hline with rfl | ⟨error, herror, rfl⟩ | ⟨finding, hfinding, rfl⟩
  · simp [h.path]
  · simp [h.error error (Option.mem_toList.mp herror)]
  · simp [Finding.render, h.findings finding hfinding, hlabel, hdecimal]

end FileReport

/-! ### Reports -/

/-- The lines of a text are those it was made of, with an empty one after the last line
feed. -/
theorem splitOn_ofLines
    {lines : List Text} (h : ∀ line ∈ lines, '\n' ∉ line) :
  (ofLines lines).splitOn '\n' = lines ++ [[]]
  := by
  induction lines with
  | nil => rfl
  | cons line lines ih =>
    obtain ⟨hline, hlines⟩ := List.forall_mem_cons.mp h
    rw [ofLines, List.flatMap_cons, List.append_assoc, List.singleton_append,
      List.splitOn_append_cons_self, List.splitOn_eq_singleton hline, List.singleton_append,
      List.cons_append]
    exact congrArg (line :: ·) (ih hlines)

/-- The text of a finding has no line feed: it is from one line of the source. -/
theorem lineFeed_notMem_of_mem_checkText
    {source : Text} {finding : Finding} (h : finding ∈ checkText source) :
  '\n' ∉ finding.text
  := by
  obtain ⟨line, hline, htext⟩ := text_of_mem_checkLines h
  have hcut : IsCutInto '\n' '\r' source (splitLines source) := splitLines_eq_iff.mp rfl
  have hsublist : line.trim.Sublist line := by
    apply List.Sublist.trans _ (List.dropWhile_sublist Text.isWhiteSpace)
    rw [← List.reverse_sublist, Text.trim, Text.trimEnd, List.reverse_reverse]
    apply List.dropWhile_sublist
  rw [htext]
  intro hmem
  exact (hcut.isUnbroken line (List.mem_of_getElem? hline)).1 (hsublist.subset hmem)

namespace Report

/-- Nothing that is said of a file breaks a line. -/
def IsOnLines (report : Report) : Prop :=
  ∀ file ∈ report.files, file.IsOnLines

instance : DecidablePred IsOnLines :=
  fun report => inferInstanceAs (Decidable (∀ file ∈ report.files, file.IsOnLines))

theorem filesOfText_eq
    {report : Report} (h : report.IsOnLines) :
  filesOfText report.text = report.files
  := by
  have hlines : ∀ line ∈ report.files.flatMap FileReport.lines, '\n' ∉ line := by
    intro line hline
    obtain ⟨file, hfile, hline⟩ := List.mem_flatMap.mp hline
    exact (h file hfile).lineFeed_notMem line hline
  have hempty : [[]].filterMap ReportLine.ofText? = [] := rfl
  rw [filesOfText, text, splitOn_ofLines hlines, List.filterMap_append, hempty, List.append_nil,
    FileReport.filterMap_ofText?_lines, FileReport.foldr_below_flatMap_reportLines]

/-- The files of a report are read from its text when nothing that is said of them breaks a
line, as no finding in a source does; so reports on different files have different texts. -/
theorem filesOfText_text :
  (∀ source, ∀ finding ∈ checkText source, '\n' ∉ finding.text)
    ∧ (∀ report : Report, report.IsOnLines → filesOfText report.text = report.files)
    ∧ ∀ report report' : Report, report.IsOnLines → report'.IsOnLines →
      report.files ≠ report'.files → report.text ≠ report'.text
  := by
  refine ⟨?_, ?_, ?_⟩
  · intro source finding h
    exact lineFeed_notMem_of_mem_checkText h
  · intro report h
    exact filesOfText_eq h
  · intro report report' h h' hfiles htext
    apply hfiles
    rw [← filesOfText_eq h, htext, filesOfText_eq h']

/-- A report whose paths, errors and declarations look like lines of a report. -/
def misleadingReport (line : Nat) : Report :=
  { root := []
    filesScanned := 2
    filesWithFindings := 1
    totalFindings := 2
    unreadableFiles := 1
    durationMs := 0
    files := [
      ⟨"File: a".toList,
        [⟨.method, line, "  - Class/Interface: b at line 7".toList⟩,
          ⟨.type, 7, " at line ".toList⟩], none⟩,
      ⟨[], [], some "  - Method: c at line 7".toList⟩] }

/-- What a misleading report says is read from its text, and another number in it gives
another text. -/
theorem filesOfText_text_misleadingReport :
  filesOfText (misleadingReport 18446744073709551615).text
      = (misleadingReport 18446744073709551615).files
    ∧ (misleadingReport 18446744073709551615).text ≠ (misleadingReport 7).text
  := by
  obtain ⟨-, hread, hne⟩ := filesOfText_text
  constructor
  · exact hread _ (by decide)
  · exact hne _ _ (by decide) (by decide) (by decide)

end Report

end JavadocCoverage
