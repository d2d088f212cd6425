import JavadocCoverage.Json.Skip
import JavadocCoverage.Json.Value
import JavadocCoverage.Source.Finding

/-!
# Findings in JSON

A finding as a JSON document, and the reading of a finding from a text.  A finding
may be written as an object, with its members in any order and others among them, or
as the array of its kind, line and text; a kind as its name, or as an object whose
one member has that name and the value null.
-/

namespace JavadocCoverage

/-- The name of a kind in JSON. -/
def DeclarationKind.key : DeclarationKind → Text
  | type => "class".toList
  | method => "method".toList

/-- The kind with the given name in JSON. -/
def DeclarationKind.ofKey? (key : Text) : Option DeclarationKind :=
  if key = type.key then some type
  else if key = method.key then some method
  else none

/-- A finding as a JSON document. -/
def Finding.json (finding : Finding) : Json :=
  .object [
    ("kind".toList, .string finding.kind.key),
    ("line".toList, .number finding.line),
    ("text".toList, .string finding.text)]

namespace Json

/-- The fault of a value that is not of the form that was asked for: a string, number
or word has to be well formed before it can be mismatched. -/
def mismatch : Text → Fault
  | '[' :: _ => .mismatched
  | '\x7b' :: _ => .mismatched
  | '"' :: rest => faultOr (readString true [] rest)
  | 'n' :: rest => faultOr (readWord "ull".toList rest)
  | 't' :: rest => faultOr (readWord "rue".toList rest)
  | 'f' :: rest => faultOr (readWord "alse".toList rest)
  | c :: rest => if startsNumber c then faultOr (readNumber (c :: rest)) else .malformed
  | [] => .truncated
where
  /-- The fault of a reading, or that what was read is mismatched. -/
  faultOr {α : Type} : Except Fault α → Fault
    | .error fault => fault
    | .ok _ => .mismatched

/-- Reads a string value. -/
def readText (text : Text) : Except Fault (Text × Text) :=
  match skipSpace text with
  | '"' :: rest => readString true [] rest
  | rest => .error (mismatch rest)

/-- Reads a natural number that fits in 64 bits. -/
def readNatural (text : Text) : Except Fault (Nat × Text) :=
  match skipSpace text with
  | [] => .error .truncated
  | c :: rest =>
    if startsNumber c then do
      let (numeral, rest) ← readNumber (c :: rest)
      match numeral.natural? with
      | some n => .ok (n, rest)
      | none => .error .mismatched
    else .error (mismatch (c :: rest))

/-- Reads the value null. -/
def readNull (text : Text) : Except Fault Text :=
  match skipSpace text with
  | 'n' :: rest => readWord "ull".toList rest
  | rest => .error (mismatch rest)

/-- Reads the name of a kind. -/
def readKey (text : Text) : Except Fault (DeclarationKind × Text) := do
  let (key, rest) ← readText text
  match DeclarationKind.ofKey? key with
  | some kind => return (kind, rest)
  | none => throw .mismatched

/-- Reads a kind. -/
def readKind (text : Text) : Except Fault (DeclarationKind × Text) :=
  match skipSpace text with
  | [] => .error .truncated
  | '"' :: rest => readKey ('"' :: rest)
  | '\x7b' :: rest => do
    let rest ← readMark '"' rest
    let (kind, rest) ← readKey ('"' :: rest)
    let rest ← readMark ':' rest
    let rest ← readNull rest
    let rest ← readMark '\x7d' rest
    return (kind, rest)
  | _ => .error .malformed

/-- The members of a finding that have been read. -/
structure Members where
  kind : Option DeclarationKind := none
  line : Option Nat := none
  text : Option Text := none

/-- The finding with the members, when none is missing. -/
def Members.finding? (members : Members) : Option Finding := do
  return ⟨← members.kind, ← members.line, ← members.text⟩

/-- Reads the value of the member with the given key.  A member of a finding may be
read once. -/
def readMember (members : Members) (key text : Text) : Except Fault (Members × Text) := do
  if key = "kind".toList then
    if members.kind.isSome then throw .mismatched
    let rest ← readMark ':' text
    let (kind, rest) ← readKind rest
    return ({ members with kind := some kind }, rest)
  else if key = "line".toList then
    if members.line.isSome then throw .mismatched
    let rest ← readMark ':' text
    let (line, rest) ← readNatural rest
    return ({ members with line := some line }, rest)
  else if key = "text".toList then
    if members.text.isSome then throw .mismatched
    let rest ← readMark ':' text
    let (text, rest) ← readText rest
    return ({ members with text := some text }, rest)
  else
    let rest ← readMark ':' text
    let rest ← skipValue rest
    return (members, rest)

/-- Reads members, from the quote that opens the key of one of them to the closing
brace.  Each member takes one unit of fuel. -/
def readMembersWith : Nat → Members → Text → Except Fault (Finding × Text)
  | 0, _, _ => .error .malformed
  | fuel + 1, members, text =>
    match skipSpace text with
    | [] => .error .truncated
    | '"' :: rest => do
      let (key, rest) ← readString true [] rest
      let (members, rest) ← readMember members key rest
      match skipSpace rest with
      | [] => .error .truncated
      | ',' :: rest => readMembersWith fuel members rest
      | '\x7d' :: rest =>
        match members.finding? with
        | some finding => .ok (finding, rest)
        | none => .error .mismatched
      | _ => .error .malformed
    | _ => .error .malformed

/-- Reads the members of a finding after the opening brace. -/
def readObject (text : Text) : Except Fault (Finding × Text) :=
  match skipSpace text with
  | [] => .error .truncated
  | '\x7d' :: _ => .error .mismatched
  | rest => readMembersWith rest.length {} rest

/-- Reads the comma before an element that has to be there. -/
def readComma (text : Text) : Except Fault Text :=
  match skipSpace text with
  | [] => .error .truncated
  | ']' :: _ => .error .mismatched
  | ',' :: rest =>
    match skipSpace rest with
    | [] => .error .truncated
    | ']' :: _ => .error .malformed
    | rest => .ok rest
  | _ => .error .malformed

/-- Reads the elements of a finding after the opening bracket. -/
def readArray (text : Text) : Except Fault (Finding × Text) :=
  match skipSpace text with
  | [] => .error .truncated
  | ']' :: _ => .error .mismatched
  | rest => do
    let (kind, rest) ← readKind rest
    let rest ← readComma rest
    let (line, rest) ← readNatural rest
    let rest ← readComma rest
    let (text, rest) ← readText rest
    let rest ← readMark ']' rest
    return (⟨kind, line, text⟩, rest)

end Json

/-- Reads a finding and nothing else from a text. -/
def Finding.ofJson (text : Text) : Except Json.Fault Finding := do
  let (finding, rest) ←
    match Json.skipSpace text with
    | '\x7b' :: rest => Json.readObject rest
    | '[' :: rest => Json.readArray rest
    | rest => .error (Json.mismatch rest)
  if (Json.skipSpace rest).isEmpty then return finding else throw .malformed

end JavadocCoverage
