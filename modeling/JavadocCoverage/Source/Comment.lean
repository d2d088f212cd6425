import JavadocCoverage.Text.WhiteSpace

/-!
# Documentation comments

When a line is documented by what stands above it: `isDocumented` looks upward
past blank lines and annotations, and the first other line decides.  And the
spans of documentation comments in a source, which `CommentSpans.next` follows
line by line.

All lines here are trimmed.
-/

namespace JavadocCoverage

/-- The line opens a documentation comment. -/
def opensComment (line : Text) : Bool :=
  Text.startsWith "/**".toList line

/-- The line closes a comment. -/
def closesComment (line : Text) : Bool :=
  Text.endsIn "*/".toList line

/-- The line is an annotation. -/
def isAnnotation (line : Text) : Bool :=
  Text.startsWith "@".toList line

/-- The line neither documents what is below it nor keeps it from being
documented. -/
def isTransparent (line : Text) : Bool :=
  line.isEmpty || isAnnotation line

/-- Of the lines above, nearest first, the first that is not transparent closes a
comment. -/
def isDocumented (above : List Text) : Bool :=
  (above.find? (!isTransparent ·)).any closesComment

/-- The spans of documentation comments in the lines read so far. -/
structure CommentSpans where
  /-- A span is open. -/
  isOpen : Bool := false
  /-- The number of spans closed. -/
  closed : Nat := 0
  /-- The index of the line that closed the last span. -/
  lastEnd : Option Nat := none
deriving DecidableEq, Repr

/-- The spans after one more line, which has the given index.  A line may open a
span and close it. -/
def CommentSpans.next (spans : CommentSpans) (index : Nat) (line : Text) : CommentSpans :=
  let isOpen := spans.isOpen || opensComment line
  if isOpen && closesComment line then
    { isOpen := false, closed := spans.closed + 1, lastEnd := some index }
  else
    { spans with isOpen }

/-- The spans after the lines, the first of which has the given index. -/
def CommentSpans.after (spans : CommentSpans) (index : Nat) : List Text → CommentSpans
  | [] => spans
  | line :: lines => (spans.next index line).after (index + 1) lines

end JavadocCoverage
