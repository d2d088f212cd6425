import JavadocCoverage.Pattern.Flags
import JavadocCoverage.Text.Hexadecimal

/-!
# Atoms of patterns

The parts of a pattern that have no parts: characters, escapes and anchors; how they
are read, and under which flags they may stand.  The properties of characters beyond
ASCII are not known to patterns, so an atom that needs one may not stand.
-/

namespace JavadocCoverage

namespace Pattern

/-- The parts of a pattern that have no parts. -/
inductive Atom
  /-- A character; `isOctet` when it is written by two hexadecimal digits. -/
  | literal (c : Char) (isOctet : Bool)
  /-- Any character. -/
  | any
  /-- A start or end of the text or of a line. -/
  | edge
  /-- A start or end of a word, or the lack of one. -/
  | wordEdge
  /-- The digits, blanks or letters of words, or all characters but those. -/
  | shorthand (isNegated : Bool)
deriving DecidableEq, Repr

/-- Reads `n` hexadecimal digits after a number: the number with them, and the rest. -/
def readHexDigits (flags : Flags) (value : Nat) : Nat → Text → Option (Nat × Text)
  | 0, text => some (value, text)
  | _ + 1, [] => none
  | n + 1, c :: rest => do
    readHexDigits flags (16 * value + (← hexValue? c)) n (flags.skipSpace rest)

/-- Reads a character that is written by `n` hexadecimal digits. -/
def readScalar (flags : Flags) (n : Nat) (text : Text) : Option (Atom × Text) := do
  let (value, rest) ← readHexDigits flags 0 n (flags.skipSpace text)
  if value.isValidChar then return (.literal (Char.ofNat value) (n = 2), rest) else none

/-- The character that a backslash and `c` stand for.  All marks of ASCII but the angle
brackets stand for themselves. -/
def escaped? (c : Char) : Option Char :=
  if c = 'a' then some '\x07'
  else if c = 'f' then some '\x0c'
  else if c = 'n' then some '\n'
  else if c = 'r' then some '\r'
  else if c = 't' then some '\t'
  else if c = 'v' then some '\x0b'
  else if c.toNat < 0x80 && !c.isAlphanum && c ≠ '<' && c ≠ '>' then some c
  else none

/-- Reads what follows a backslash. -/
def readEscape (flags : Flags) : Text → Option (Atom × Text)
  | [] => none
  | c :: rest =>
    if c = 'x' then readScalar flags 2 rest
    else if c = 'u' then readScalar flags 4 rest
    else if c = 'U' then readScalar flags 8 rest
    else if ['A', 'z'].elem c then some (.edge, rest)
    else if ['b', 'B', '<', '>'].elem c then some (.wordEdge, rest)
    else if ['d', 's', 'w'].elem c then some (.shorthand false, rest)
    else if ['D', 'S', 'W'].elem c then some (.shorthand true, rest)
    else (escaped? c).map fun c => (.literal c false, rest)

/-- Reads an atom. -/
def readAtom (flags : Flags) : Text → Option (Atom × Text)
  | [] => none
  | '\\' :: rest => readEscape flags rest
  | '.' :: rest => some (.any, rest)
  | '^' :: rest => some (.edge, rest)
  | '$' :: rest => some (.edge, rest)
  | c :: rest => some (.literal c false, rest)

namespace Atom

/-- The atom may stand in a pattern, which has to match whole characters. -/
def mayStand (flags : Flags) : Atom → Bool
  | literal c isOctet =>
    if flags.isUnicode then !flags.ignoresCase else !(isOctet && c.toNat ≥ 0x80)
  | any => flags.isUnicode
  | edge => true
  | wordEdge => !flags.isUnicode
  | shorthand isNegated => !flags.isUnicode && !isNegated

/-- The atom may stand in a class.  A class of octets holds those of ASCII only. -/
def mayStandInClass (flags : Flags) : Atom → Bool
  | literal c _ => if flags.isUnicode then !flags.ignoresCase else c.toNat < 0x80
  | shorthand isNegated => !flags.isUnicode && !isNegated
  | _ => false

/-- The two atoms may be the ends of a range in a class. -/
def mayEndRange (flags : Flags) (low high : Atom) : Bool :=
  match low, high with
  | literal a _, literal b _ =>
    a ≤ b && low.mayStandInClass flags && high.mayStandInClass flags
  | _, _ => false

end Atom

end Pattern

end JavadocCoverage
