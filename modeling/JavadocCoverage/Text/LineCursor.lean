import JavadocCoverage.Text.Utf8

/-!
# Lines cut out of octets

The lines of a text cut out of the octets that encode it.  A cursor goes from octet to
octet, and where one ends a line it cuts that line off: a slice of the octets, from the
offset at which the line starts to the one at which the cursor stands.  A slice is made
between characters only; one that would start or end within a character is refused, and
then there are no lines at all.
-/

namespace JavadocCoverage

namespace Utf8

/-- The octet starts a character: it is not one of 0x80 to 0xBF, with which a character
goes on. -/
def isLead (b : UInt8) : Bool :=
  b < 0x80 || 0xC0 ≤ b

/-- The offset is at one of the two ends of the octets, or that of an octet that starts a
character. -/
def isBoundary (octets : Bytes) (offset : Nat) : Bool :=
  offset = 0 || offset = octets.length || octets[offset]?.any isLead

/-- The octets from the offset `first` up to the offset `past`, unless these are out of
order or lie within a character. -/
def slice? (octets : Bytes) (first past : Nat) : Option Bytes :=
  if first ≤ past && isBoundary octets first && isBoundary octets past then
    some ((octets.take past).drop first)
  else none

end Utf8

/-- A cursor: the offset at which the current line starts, the offset of the octet to be
read next, and the lines cut off so far, last first. -/
structure LineCursor where
  start : Nat := 0
  position : Nat := 0
  lines : List Bytes := []
deriving DecidableEq, Repr

namespace LineCursor

/-- The cursor after it has cut off the line up to its position; the next line starts at
the offset `below`. -/
def endLine (octets : Bytes) (below : Nat) (cursor : LineCursor) : Option LineCursor :=
  (Utf8.slice? octets cursor.start cursor.position).map fun line =>
    ⟨below, below, line :: cursor.lines⟩

/-- The cursor after the octet `b`, which stands at its position. -/
def next (octets : Bytes) (cursor : LineCursor) (b : UInt8) : Option LineCursor :=
  if b = 0x0A then
    cursor.endLine octets (cursor.position + 1)
  else if b = 0x0D then
    if octets[cursor.position + 1]? = some 0x0A then
      cursor.endLine octets (cursor.position + 2)
    else
      cursor.endLine octets (cursor.position + 1)
  else
    some { cursor with position := cursor.position + 1 }

theorem endLine_eq_some_iff
    {octets : Bytes} {below : Nat} {cursor cursor' : LineCursor} :
  cursor.endLine octets below = some cursor' ↔
    ∃ line, Utf8.slice? octets cursor.start cursor.position = some line ∧
      ⟨below, below, line :: cursor.lines⟩ = cursor'
  := Option.map_eq_some_iff

theorem position_lt_of_endLine_eq_some
    {octets : Bytes} {below : Nat} {cursor cursor' : LineCursor}
    (hbelow : cursor.position < below) (h : cursor.endLine octets below = some cursor') :
  cursor.position < cursor'.position
  := by
  obtain ⟨line, -, rfl⟩ := endLine_eq_some_iff.mp h
  apply hbelow

/-- A cursor only moves forward. -/
theorem position_lt_of_next_eq_some
    {octets : Bytes} {cursor cursor' : LineCursor} {b : UInt8}
    (h : cursor.next octets b = some cursor') :
  cursor.position < cursor'.position
  := by
  unfold next at h
  split at h
  next => apply position_lt_of_endLine_eq_some (by omega) h
  next =>
    split at h
    next =>
      split at h
      next => apply position_lt_of_endLine_eq_some (by omega) h
      next => apply position_lt_of_endLine_eq_some (by omega) h
    next =>
      obtain rfl := Option.some.inj h
      apply Nat.lt_succ_self

/-- All lines, when no octet is left to be read.  What stands after the last end of a line
is a line when it is not empty. -/
def finish (octets : Bytes) (cursor : LineCursor) : Option (List Bytes) :=
  if cursor.start < octets.length then
    (Utf8.slice? octets cursor.start octets.length).map fun line =>
      (line :: cursor.lines).reverse
  else
    some cursor.lines.reverse

/-- All lines, read from where the cursor stands. -/
def run (octets : Bytes) (cursor : LineCursor) : Option (List Bytes) :=
  if hposition : cursor.position < octets.length then
    match hnext : cursor.next octets octets[cursor.position] with
    | some cursor' => run octets cursor'
    | none => none
  else
    cursor.finish octets
termination_by octets.length - cursor.position
decreasing_by
  have hlt := position_lt_of_next_eq_some hnext
  omega

end LineCursor

/-- The lines cut out of the octets by a cursor that starts at the first of them. -/
def cutLines (octets : Bytes) : Option (List Bytes) :=
  LineCursor.run octets {}

end JavadocCoverage
