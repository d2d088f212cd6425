import JavadocCoverage.Log.Event
import JavadocCoverage.Pattern.WellFormed

/-!
# Directives

The parts of a log filter.  A directive sets how detailed the events may be that it
cares about: those of modules whose path starts with its target, and with the field
that it names.
-/

namespace JavadocCoverage

/-- What a directive says: up to which detail the events of a target and with a field
are shown.  A directive on a span or on the value of a field never applies, since the
program has neither. -/
structure Directive where
  target : Option Text
  field : Option Text
  applies : Bool
  detail : Nat
deriving DecidableEq, Repr

/-! ### Levels -/

/-- The names of levels in a filter, with their details. -/
def levelNames : List (Text × Nat) :=
  [("off".toList, 0), ("error".toList, 1), ("warn".toList, 2), ("info".toList, 3),
    ("debug".toList, 4), ("trace".toList, 5)]

/-- The detail of the level with a number: digits, with or without a plus sign. -/
def numericDetail? (text : Text) : Option Nat :=
  let digits := if text.head? == some '+' then text.drop 1 else text
  if !digits.isEmpty && digits.all Char.isDigit && ofDigits digits ≤ 5 then
    some (ofDigits digits)
  else none

/-- The detail of the level that a text names, in capital or small letters. -/
def detail? (text : Text) : Option Nat :=
  (numericDetail? text).or (levelNames.lookup (text.map Char.toLower))

/-- The detail written after the sign of equality.  All events are meant when nothing
is. -/
def levelDetail? (text : Text) : Option Nat :=
  if text.isEmpty then some 5 else detail? text

/-! ### Fields -/

/-- The text is an exponent, or empty. -/
def isExponent : Text → Bool
  | [] => true
  | c :: rest =>
    let digits := match rest with
      | '+' :: digits => digits
      | '-' :: digits => digits
      | digits => digits
    (c = 'e' || c = 'E') && !digits.isEmpty && digits.all Char.isDigit

/-- The text is a decimal number without a sign, with or without a point and an
exponent, or the name of a number that is not finite. -/
def isUnsignedNumber (text : Text) : Bool :=
  let (whole, rest) := text.span Char.isDigit
  let (fraction, rest) := match rest with
    | '.' :: rest => rest.span Char.isDigit
    | rest => ([], rest)
  (!(whole ++ fraction).isEmpty && isExponent rest)
    || ["inf".toList, "infinity".toList, "nan".toList].elem (text.map Char.toLower)

/-- The text can be the value of a field: a number, or else a pattern.  A number that
is not a pattern has a plus sign. -/
def isFieldValue (text : Text) : Bool :=
  isPattern text || (text.head? == some '+' && isUnsignedNumber (text.drop 1))

/-- What is asked of a field: its name, and whether its value matters. -/
structure FieldTest where
  name : Text
  hasValue : Bool

/-- Reads what is asked of a field: its name, and perhaps a value after a sign of
equality. -/
def FieldTest.ofText? (text : Text) : Option FieldTest :=
  match text.splitOn '=' with
  | [name] => if name.isEmpty then none else some ⟨name, false⟩
  | name :: value :: _ => if isFieldValue value then some ⟨name, true⟩ else none
  | [] => none

/-! ### Reading -/

/-- A place in a directive.  The marks are looked for in the text without the white
space at its ends, and what stands between them is taken from the text as it is
written, at the same distance in octets from its start. -/
structure Cursor where
  marks : Bytes
  written : Bytes

namespace Cursor

/-- The start of a directive. -/
def start (text : Text) : Cursor :=
  ⟨Utf8.encode (Text.trim text), Utf8.encode text⟩

/-- The character of an octet of ASCII. -/
def character (octet : UInt8) : Char :=
  Char.ofNat octet.toNat

/-- What stands before the first of some marks of ASCII, that mark, and the place after
it. -/
def upTo? (isMark : Char → Bool) (cursor : Cursor) : Option (Text × Char × Cursor) :=
  let count := (cursor.marks.takeWhile fun octet => !isMark (character octet)).length
  (cursor.marks[count]?).map fun octet =>
    (Utf8.decode (cursor.written.take count), character octet,
      ⟨cursor.marks.drop (count + 1), cursor.written.drop (count + 1)⟩)

/-- The place after a mark that has to be next. -/
def past? (mark : Char) (cursor : Cursor) : Option Cursor :=
  if cursor.marks.head?.map character = some mark then
    some ⟨cursor.marks.drop 1, cursor.written.drop 1⟩
  else none

/-- What is left. -/
def rest (cursor : Cursor) : Text :=
  Utf8.decode cursor.written

end Cursor

namespace Directive

/-- A directive may start with `c`. -/
def mayStart (c : Char) : Bool :=
  c = '-' || c = ':' || c = '_' || Text.isAlphanumeric c

/-- Reads the end of a directive: a sign of equality and a level, or nothing. -/
def readLevel? (cursor : Cursor) : Option Nat :=
  if cursor.marks.isEmpty then some 5
  else do levelDetail? (← cursor.past? '=').rest

/-- Reads a directive with a target from after an opening bracket.  In the brackets
stand a span and, in braces, what is asked of a field. -/
def withBracket? (target : Option Text) (cursor : Cursor) : Option Directive := do
  let (span, mark, cursor) ← cursor.upTo? fun c => c = ']' || c = '\x7b'
  if mark = ']' then return ⟨target, none, false, ← readLevel? cursor⟩
  else
    let (field, _, cursor) ← cursor.upTo? (· = '\x7d')
    let test ← FieldTest.ofText? field
    let detail ← readLevel? (← cursor.past? ']')
    return ⟨target, some test.name, span.isEmpty && !test.hasValue, detail⟩

/-- Reads a directive.  A word without a level is a level, or else a target of which
all events are shown. -/
def ofText? (text : Text) : Option Directive :=
  let cursor := Cursor.start text
  match Text.trim text with
  | [] => none
  | c :: _ =>
    if c = '[' then do withBracket? none (← cursor.past? '[')
    else if !mayStart c then none
    else
      match cursor.upTo? fun c => c = '=' || c = '[' with
      | none =>
        match detail? text with
        | some detail => some ⟨none, none, true, detail⟩
        | none => some ⟨some text, none, true, 5⟩
      | some (target, mark, cursor) =>
        if mark = '=' then (levelDetail? cursor.rest).map (⟨some target, none, true, ·⟩)
        else withBracket? (some target) cursor

/-- The directive cares about the event. -/
def caresAbout (directive : Directive) (event : Event) : Bool :=
  directive.applies && directive.target.all (Text.startsWith · event.origin)
    && directive.field.all event.hasField

/-- How long the target of a directive is, where none is shorter than any. -/
def targetRank (directive : Directive) : Nat :=
  directive.target.elim 0 (·.length + 1)

/-- The first of two fields comes before the second: none before any, and others in the
order of their names. -/
def fieldPrecedes : Option Text → Option Text → Bool
  | none, some _ => true
  | some a, some b => a < b
  | _, none => false

/-- The first directive is more specific than the second: its target is longer, or as
long and its field comes later. -/
def isAbove (a b : Directive) : Bool :=
  b.targetRank < a.targetRank
    || (b.targetRank = a.targetRank && fieldPrecedes b.field a.field)

end Directive

end JavadocCoverage
