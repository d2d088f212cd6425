import JavadocCoverage.Text.WhiteSpace

/-!
# Flags of patterns

The flags under which a part of a pattern is read, the letters that set them, and what
is passed over between the characters of a pattern with spaces.
-/

namespace JavadocCoverage

namespace Pattern

/-- The flags under which a part of a pattern is read. -/
structure Flags where
  /-- Capital and small letters are not told apart. -/
  ignoresCase : Bool := false
  /-- The pattern is one of characters, and not of octets. -/
  isUnicode : Bool := true
  /-- White space and comments are passed over. -/
  isSpaced : Bool := false
deriving DecidableEq, Repr

/-- The text after the white space and the comments it starts with, the first of which
is open at its start or not.  A comment goes from a number sign to the end of the
line. -/
def skipSpaceFrom (inComment : Bool) : Text → Text
  | [] => []
  | c :: rest =>
    if inComment then skipSpaceFrom (c ≠ '\n') rest
    else if c = '#' then skipSpaceFrom true rest
    else if Text.isWhiteSpace c then skipSpaceFrom false rest
    else c :: rest

namespace Flags

/-- The text after what is passed over at its start. -/
def skipSpace (flags : Flags) (text : Text) : Text :=
  if flags.isSpaced then skipSpaceFrom false text else text

/-- The character that is next, where white space is passed over but of a comment only
its number sign.  In a text that holds nothing else it is the first. -/
def next? (flags : Flags) (text : Text) : Option Char :=
  if flags.isSpaced then
    match Text.trimStart text with
    | '#' :: rest => (Text.trimStart rest).head?.or text.head?
    | rest => rest.head?.or text.head?
  else text.head?

/-- The flags with the one of the given letter set or unset.  The other letters do not
change which patterns are well formed. -/
def set (flags : Flags) (letter : Char) (on : Bool) : Flags :=
  if letter = 'i' then { flags with ignoresCase := on }
  else if letter = 'u' then { flags with isUnicode := on }
  else if letter = 'x' then { flags with isSpaced := on }
  else flags

end Flags

/-- The letters of flags, and the dash after which they are unset. -/
def flagLetters : List Char :=
  ['i', 'm', 's', 'u', 'U', 'R', 'x', '-']

/-- A run of letters as it has been read: the letters, last first, and the flags after
them. -/
structure FlagRun where
  letters : List Char := []
  flags : Flags

/-- Reads letters of flags up to the colon or the parenthesis after them: the run, the
mark, and the rest.  No letter may be repeated, and a dash not be the last. -/
def readFlags (run : FlagRun) : Text → Option (FlagRun × Char × Text)
  | [] => none
  | c :: rest =>
    if c = ':' ∨ c = ')' then
      if run.letters.head? = some '-' then none else some (run, c, rest)
    else if !flagLetters.elem c || run.letters.elem c then none
    else readFlags ⟨c :: run.letters, run.flags.set c (!run.letters.elem '-')⟩ rest

end Pattern

end JavadocCoverage
