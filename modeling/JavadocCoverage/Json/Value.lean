import JavadocCoverage.Text.Decimal
import JavadocCoverage.Text.Hexadecimal

/-!
# JSON values

JSON documents whose numbers are natural numbers, and their two written forms: the
compact form, on one line, and the pretty form, with one element or member to a
line, two spaces deeper than what encloses it.
-/

namespace JavadocCoverage

/-- A JSON document.  The members of an object are in order. -/
inductive Json
  | null
  | bool (value : Bool)
  | number (value : Nat)
  | string (value : Text)
  | array (elements : List Json)
  | object (members : List (Text × Json))

namespace Json

/-- What is written for `c` within a string: quotes, backslashes and control
characters are escaped, with a letter where there is one. -/
def escape (c : Char) : Text :=
  if c = '"' then ['\\', '"']
  else if c = '\\' then ['\\', '\\']
  else if c = '\x08' then ['\\', 'b']
  else if c = '\t' then ['\\', 't']
  else if c = '\n' then ['\\', 'n']
  else if c = '\x0c' then ['\\', 'f']
  else if c = '\r' then ['\\', 'r']
  else if c.toNat < 0x20 then
    "\\u00".toList ++ [hexDigit (c.toNat / 16), hexDigit (c.toNat % 16)]
  else [c]

/-- A text as a JSON string. -/
def quote (text : Text) : Text :=
  '"' :: text.flatMap escape ++ ['"']

/-- What is written for a scalar. -/
def scalar : Json → Text
  | null => "null".toList
  | bool value => if value then "true".toList else "false".toList
  | number value => decimal value
  | string value => quote value
  | _ => []

mutual

/-- The compact form of a document. -/
def compact : Json → Text
  | array elements => '[' :: compactElements elements ++ [']']
  | object members => '\x7b' :: compactMembers members ++ ['\x7d']
  | value => value.scalar

/-- The compact form of the elements of an array. -/
def compactElements : List Json → Text
  | [] => []
  | [element] => element.compact
  | element :: elements => element.compact ++ ',' :: compactElements elements

/-- The compact form of the members of an object. -/
def compactMembers : List (Text × Json) → Text
  | [] => []
  | [(key, value)] => quote key ++ ':' :: value.compact
  | (key, value) :: members => quote key ++ ':' :: value.compact ++ ',' :: compactMembers members

end

/-- A line feed and the indentation of the given depth. -/
def newLine (depth : Nat) : Text :=
  '\n' :: List.replicate (2 * depth) ' '

mutual

/-- The pretty form of a document within `depth` others. -/
def pretty (depth : Nat) : Json → Text
  | array [] => "[]".toList
  | array elements => '[' :: prettyElements (depth + 1) elements ++ newLine depth ++ [']']
  | object [] => "\x7b\x7d".toList
  | object members => '\x7b' :: prettyMembers (depth + 1) members ++ newLine depth ++ ['\x7d']
  | value => value.scalar

/-- The pretty form of the elements of an array, each on its own line. -/
def prettyElements (depth : Nat) : List Json → Text
  | [] => []
  | [element] => newLine depth ++ element.pretty depth
  | element :: elements =>
    newLine depth ++ element.pretty depth ++ ',' :: prettyElements depth elements

/-- The pretty form of the members of an object, each on its own line. -/
def prettyMembers (depth : Nat) : List (Text × Json) → Text
  | [] => []
  | [(key, value)] => newLine depth ++ quote key ++ ": ".toList ++ value.pretty depth
  | (key, value) :: members =>
    newLine depth ++ quote key ++ ": ".toList ++ value.pretty depth
      ++ ',' :: prettyMembers depth members

end

end Json

end JavadocCoverage
