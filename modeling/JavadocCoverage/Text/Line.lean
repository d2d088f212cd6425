import JavadocCoverage.Text.Basic

/-!
# Lines

Sequences cut into lines.  A line ends at a line feed, at a carriage return
followed by a line feed, or at a carriage return alone; what follows the last of
these is a line when it is not empty.  The cut is the same for characters and for
octets, so it is made over any type with two marks.
-/

namespace JavadocCoverage

section

variable {α : Type} [DecidableEq α]

/-- The lines of a sequence, where `line` holds, last first, what has been read of
the current line, and `afterReturn` tells that a carriage return stands just
before. -/
def linesFrom (lineFeed carriageReturn : α) (afterReturn : Bool) (line : List α) :
    List α → List (List α)
  | [] => if line.isEmpty then [] else [line.reverse]
  | c :: rest =>
    if c = lineFeed then
      if afterReturn then
        linesFrom lineFeed carriageReturn false line rest
      else
        line.reverse :: linesFrom lineFeed carriageReturn false [] rest
    else if c = carriageReturn then
      line.reverse :: linesFrom lineFeed carriageReturn true [] rest
    else
      linesFrom lineFeed carriageReturn false (c :: line) rest

end

/-- The lines of a text. -/
def splitLines (text : Text) : List Text :=
  linesFrom '\n' '\r' false [] text

/-- The lines of an octet sequence. -/
def splitByteLines (bytes : Bytes) : List Bytes :=
  linesFrom 0x0A 0x0D false [] bytes

/-- The text up to its first line feed, without a carriage return that stands
just before it. -/
def firstLine (text : Text) : Text :=
  match text.span (· ≠ '\n') with
  | (line, []) => line
  | (line, _ :: _) => if line.getLast? = some '\r' then line.dropLast else line

end JavadocCoverage
