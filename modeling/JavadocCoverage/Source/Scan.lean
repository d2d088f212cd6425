import JavadocCoverage.Source.Comment
import JavadocCoverage.Source.Finding
import JavadocCoverage.Text.Line
import JavadocCoverage.Files.Path

/-!
# Scanning a source

The findings in the lines of a source, in the order of the lines, and the
statistics of its documentation comments.
-/

namespace JavadocCoverage

/-- The findings that one trimmed line gives, where `above` holds the trimmed
lines above it, nearest first, and `number` is its own number. -/
def lineFindings (above : List Text) (number : Nat) (line : Text) : List Finding :=
  (declarationKinds line).filterMap fun kind =>
    if isDocumented above then none else some ⟨kind, number, line⟩

/-- The findings in trimmed lines, the first of which has the given number. -/
def findingsFrom (above : List Text) (number : Nat) : List Text → List Finding
  | [] => []
  | line :: lines =>
    lineFindings above number line ++ findingsFrom (line :: above) (number + 1) lines

/-- What a scan of lines gives. -/
structure LineScan where
  /-- The findings, in the order of the lines. -/
  findings : List Finding
  /-- The number of documentation comments that were closed. -/
  docComments : Nat
  /-- The index of the line that closed the last of them, counted from 0. -/
  lastCommentEnd : Option Nat
  /-- A documentation comment is open at the end. -/
  unterminatedComment : Bool
deriving DecidableEq, Repr

/-- The scan of the lines of a source. -/
def scanLines (lines : List Text) : LineScan :=
  let lines := lines.map Text.trim
  let spans := CommentSpans.after {} 0 lines
  { findings := findingsFrom [] 1 lines
    docComments := spans.closed
    lastCommentEnd := spans.lastEnd
    unterminatedComment := spans.isOpen }

/-- The findings in lines. -/
def checkLines (lines : List Text) : List Finding :=
  (scanLines lines).findings

/-- The findings in a text. -/
def checkText (text : Text) : List Finding :=
  checkLines (splitLines text)

/-- A source: the path it is known by and its lines. -/
structure SourceFile where
  path : Path
  lines : List Text

namespace SourceFile

/-- The source with the given text. -/
def ofText (path : Path) (text : Text) : SourceFile :=
  ⟨path, splitLines text⟩

/-- The scan of a source. -/
def scan (source : SourceFile) : LineScan :=
  scanLines source.lines

/-- The findings in a source. -/
def check (source : SourceFile) : List Finding :=
  source.scan.findings

end SourceFile

end JavadocCoverage
