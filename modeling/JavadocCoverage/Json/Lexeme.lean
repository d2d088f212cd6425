import JavadocCoverage.Json.Double
import JavadocCoverage.Text.Hexadecimal
import JavadocCoverage.Text.Utf8

/-!
# Lexemes of JSON

The reading of one string, number, word or mark at the start of a text.  Each reader
gives what it read and the text that is left, or the fault met first from the left.
-/

namespace JavadocCoverage

namespace Json

/-- The faults of a text as a document: it is not well formed, it is well formed so
far but not of the form that was asked for, or it ends too early. -/
inductive Fault
  | malformed
  | mismatched
  | truncated
deriving DecidableEq, Repr

/-- The result of reading from the start of a text: what was read, and the rest. -/
abbrev Reading (α : Type) := Except Fault (α × Text)

/-- The text without the white space it starts with: spaces, tabs, line feeds and
carriage returns. -/
def skipSpace (text : Text) : Text :=
  text.dropWhile fun c => c = ' ' || c = '\t' || c = '\n' || c = '\r'

/-- Reads a word. -/
def readWord : Text → Text → Except Fault Text
  | [], rest => .ok rest
  | _ :: _, [] => .error .truncated
  | w :: word, c :: rest => if c = w then readWord word rest else .error .malformed

/-- Reads a mark after white space. -/
def readMark (mark : Char) (text : Text) : Except Fault Text :=
  match skipSpace text with
  | [] => .error .truncated
  | c :: rest => if c = mark then .ok rest else .error .malformed

/-! ### Strings -/

/-- The fault of a text that does not start with four hexadecimal digits.  It is
too short when it has fewer than four octets. -/
def hexFault (text : Text) : Fault :=
  if (Utf8.encode (text.take 4)).length < 4 then .truncated else .malformed

/-- Reads four hexadecimal digits. -/
def readHex (text : Text) : Reading Nat :=
  match text with
  | a :: b :: c :: d :: rest =>
    match hexValue? a, hexValue? b, hexValue? c, hexValue? d with
    | some a, some b, some c, some d => .ok (((a * 16 + b) * 16 + c) * 16 + d, rest)
    | _, _, _, _ => .error (hexFault text)
  | _ => .error (hexFault text)

/-- The character that a backslash and a letter stand for. -/
def letterEscape? (c : Char) : Option Char :=
  if c = '"' then some '"'
  else if c = '\\' then some '\\'
  else if c = '/' then some '/'
  else if c = 'b' then some '\x08'
  else if c = 'f' then some '\x0c'
  else if c = 'n' then some '\n'
  else if c = 'r' then some '\r'
  else if c = 't' then some '\t'
  else none

/-- `n` is the first of a pair of surrogates. -/
def isLeading (n : Nat) : Bool :=
  0xD800 ≤ n && n < 0xDC00

/-- `n` is the second of a pair of surrogates. -/
def isTrailing (n : Nat) : Bool :=
  0xDC00 ≤ n && n < 0xE000

/-- Reads the second of a pair of surrogates, with its escape. -/
def readTrailing (leading : Nat) : Text → Reading Char
  | [] => .error .truncated
  | ['\\'] => .error .truncated
  | '\\' :: 'u' :: rest =>
    match readHex rest with
    | .error fault => .error fault
    | .ok (n, rest) =>
      if isTrailing n then
        .ok (Char.ofNat (0x10000 + (leading - 0xD800) * 0x400 + (n - 0xDC00)), rest)
      else .error .malformed
  | _ => .error .malformed

/-- Reads what follows a backslash.  Unless `paired` is set, a surrogate may stand
alone and is then of no consequence. -/
def readEscape (paired : Bool) : Text → Reading Char
  | [] => .error .truncated
  | 'u' :: rest =>
    match readHex rest with
    | .error fault => .error fault
    | .ok (n, rest) =>
      if isTrailing n then
        if paired then .error .malformed else .ok (Utf8.replacement, rest)
      else if isLeading n then
        if paired then readTrailing n rest else .ok (Utf8.replacement, rest)
      else .ok (Char.ofNat n, rest)
  | c :: rest =>
    match letterEscape? c with
    | some c => .ok (c, rest)
    | none => .error .malformed

theorem length_lt_of_readHex
    {text rest : Text} {n : Nat} (h : readHex text = .ok (n, rest)) :
  rest.length < text.length
  := by
  unfold readHex at h
  split at h
  · split at h
    · simp only [Except.ok.injEq, Prod.mk.injEq] at h
      simp only [← h.2, List.length_cons]
      omega
    · cases h
  · cases h

theorem length_lt_of_readTrailing
    {leading : Nat} {text rest : Text} {c : Char}
    (h : readTrailing leading text = .ok (c, rest)) :
  rest.length < text.length
  := by
  unfold readTrailing at h
  split at h
  · cases h
  · cases h
  · split at h
    · cases h
    · next found =>
      have := length_lt_of_readHex found
      split at h
      · simp only [Except.ok.injEq, Prod.mk.injEq] at h
        simp only [← h.2, List.length_cons]
        omega
      · cases h
  · cases h

theorem length_lt_of_readEscape
    {paired : Bool} {text rest : Text} {c : Char}
    (h : readEscape paired text = .ok (c, rest)) :
  rest.length < text.length
  := by
  unfold readEscape at h
  split at h
  · cases h
  · split at h
    · cases h
    · next found =>
      have := length_lt_of_readHex found
      simp only [List.length_cons]
      split at h
      · split at h
        · cases h
        · simp only [Except.ok.injEq, Prod.mk.injEq] at h
          simp only [← h.2]
          omega
      · split at h
        · split at h
          · have := length_lt_of_readTrailing h
            omega
          · simp only [Except.ok.injEq, Prod.mk.injEq] at h
            simp only [← h.2]
            omega
        · simp only [Except.ok.injEq, Prod.mk.injEq] at h
          simp only [← h.2]
          omega
  · split at h
    · simp only [Except.ok.injEq, Prod.mk.injEq] at h
      simp only [← h.2, List.length_cons]
      omega
    · cases h

/-- Reads a string after its opening quote, where `decoded` holds, last first, the
characters read so far. -/
def readString (paired : Bool) (decoded : Text) : Text → Reading Text
  | [] => .error .truncated
  | '"' :: rest => .ok (decoded.reverse, rest)
  | '\\' :: rest =>
    match _ : readEscape paired rest with
    | .error fault => .error fault
    | .ok (c, rest) => readString paired (c :: decoded) rest
  | c :: rest =>
    if c.toNat < 0x20 then .error .malformed else readString paired (c :: decoded) rest
termination_by text => text.length
decreasing_by
  · have := length_lt_of_readEscape ‹_›
    simp only [List.length_cons]
    omega
  · simp

/-! ### Numbers -/

/-- A number as it is written. -/
structure Numeral where
  isNegative : Bool
  whole : Text
  /-- The digits after the point, if there is one. -/
  fraction : Option Text
  /-- The exponent, if there is one. -/
  exponent : Option Int

namespace Numeral

/-- The number is too great, or too far below zero, for a double. -/
def isTooGreat (numeral : Numeral) : Bool :=
  (Scaled.ofDigits numeral.whole (numeral.fraction.getD []) (numeral.exponent.getD 0)).isTooGreat

/-- The number, when it is written as a natural number and fits in 64 bits. -/
def natural? (numeral : Numeral) : Option Nat :=
  let value := ofDigits numeral.whole
  if numeral.isNegative || numeral.fraction.isSome || numeral.exponent.isSome
    || value ≥ UInt64.size then none
  else some value

end Numeral

/-- Reads one or more digits.  `atEnd` is the fault when the text ends before
them. -/
def readDigits (atEnd : Fault) (text : Text) : Reading Text :=
  match text.span Char.isDigit with
  | ([], []) => .error atEnd
  | ([], _ :: _) => .error .malformed
  | (digits, rest) => .ok (digits, rest)

/-- Reads the digits before the point, of which the first is not zero unless it is
the only one. -/
def readWhole (atEnd : Fault) (text : Text) : Reading Text :=
  match readDigits atEnd text with
  | .ok ('0' :: _ :: _, _) => .error .malformed
  | result => result

/-- Reads the point and the digits after it, if there is a point. -/
def readFraction (atEnd : Fault) : Text → Reading (Option Text)
  | '.' :: rest => (readDigits atEnd rest).map fun (digits, rest) => (some digits, rest)
  | text => .ok (none, text)

/-- Reads the digits of an exponent. -/
def readExponentDigits (atEnd : Fault) (isNegative : Bool) (text : Text) :
    Reading (Option Int) :=
  (readDigits atEnd text).map fun (digits, rest) =>
    let value : Int := ofDigits digits
    (some (if isNegative then -value else value), rest)

/-- Reads an exponent, if there is one. -/
def readExponent (atEnd : Fault) (text : Text) : Reading (Option Int) :=
  match text with
  | c :: rest =>
    if c = 'e' ∨ c = 'E' then
      match rest with
      | '+' :: rest => readExponentDigits atEnd false rest
      | '-' :: rest => readExponentDigits atEnd true rest
      | _ => readExponentDigits atEnd false rest
    else .ok (none, text)
  | [] => .ok (none, text)

/-- Reads a number.  `atEnd` is the fault when the text ends where a digit has to
stand. -/
def readNumeral (atEnd : Fault) (text : Text) : Except Fault (Numeral × Text) := do
  let isNegative := text.head? == some '-'
  let (whole, rest) ← readWhole atEnd (if isNegative then text.drop 1 else text)
  let (fraction, rest) ← readFraction atEnd rest
  let (exponent, rest) ← readExponent atEnd rest
  return (⟨isNegative, whole, fraction, exponent⟩, rest)

/-- Reads a number that a double can hold. -/
def readNumber (text : Text) : Reading Numeral :=
  match readNumeral .truncated text with
  | .error fault => .error fault
  | .ok (numeral, rest) => if numeral.isTooGreat then .error .malformed else .ok (numeral, rest)

/-- A number may start with `c`. -/
def startsNumber (c : Char) : Bool :=
  c = '-' || c.isDigit

end Json

end JavadocCoverage
