import JavadocCoverage.Text.Basic

/-!
# UTF-8

The encoding of texts as octets, and the decoding of octets.  Decoding reads one
octet at a time and is total: it yields the characters of the well-formed parts
and a mark for each maximal part that no well-formed sequence continues.
`decode` puts the replacement character for a mark, and `isWellFormed` tells that
there is none.
-/

namespace JavadocCoverage

namespace Utf8

/-- The octets of a text. -/
def encode (text : Text) : Bytes :=
  text.flatMap String.utf8EncodeChar

/-- What is open after some octets: nothing, or a character that needs `more`
octets, the next of them between `low` and `high`, and whose octets so far denote
`value`. -/
inductive Pending
  | nothing
  | character (more : Nat) (low high : UInt8) (value : Nat)
deriving DecidableEq, Repr

/-- What an octet that starts a character, or ought to, yields at once, and what
it opens. -/
def start (b : UInt8) : List (Option Char) × Pending :=
  if b < 0x80 then ([some (Char.ofNat b.toNat)], .nothing)
  else if b < 0xC2 then ([none], .nothing)
  else if b < 0xE0 then ([], .character 1 0x80 0xBF (b.toNat - 0xC0))
  else if b = 0xE0 then ([], .character 2 0xA0 0xBF 0)
  else if b = 0xED then ([], .character 2 0x80 0x9F 0x0D)
  else if b < 0xF0 then ([], .character 2 0x80 0xBF (b.toNat - 0xE0))
  else if b = 0xF0 then ([], .character 3 0x90 0xBF 0)
  else if b < 0xF4 then ([], .character 3 0x80 0xBF (b.toNat - 0xF0))
  else if b = 0xF4 then ([], .character 3 0x80 0x8F 4)
  else ([none], .nothing)

/-- What one octet yields, and what is open after it.  An octet that does not
continue the open character marks that character's part as ill-formed and is then
read as a start. -/
def step : Pending → UInt8 → List (Option Char) × Pending
  | .nothing, b => start b
  | .character more low high value, b =>
    if low ≤ b ∧ b ≤ high then
      let value := 64 * value + (b.toNat - 0x80)
      if more ≤ 1 then ([some (Char.ofNat value)], .nothing)
      else ([], .character (more - 1) 0x80 0xBF value)
    else
      let (units, pending) := start b
      (none :: units, pending)

/-- What the end of the octets yields. -/
def finish : Pending → List (Option Char)
  | .nothing => []
  | .character .. => [none]

/-- A run of the decoder: the units it has yielded, last first, and what is
open. -/
structure Run where
  units : List (Option Char) := []
  pending : Pending := .nothing

/-- The run after one more octet. -/
def Run.next (run : Run) (b : UInt8) : Run :=
  let (units, pending) := step run.pending b
  ⟨units.reverse ++ run.units, pending⟩

/-- The characters of the well-formed parts of `bytes`, and `none` for each
maximal ill-formed part. -/
def units (bytes : Bytes) : List (Option Char) :=
  let run := bytes.foldl Run.next {}
  run.units.reverse ++ finish run.pending

/-- The character that stands for an ill-formed part. -/
def replacement : Char := '\uFFFD'

/-- The text of `bytes`, with the replacement character for each maximal
ill-formed part. -/
def decode (bytes : Bytes) : Text :=
  (units bytes).map (·.getD replacement)

/-- `bytes` has no ill-formed part. -/
def isWellFormed (bytes : Bytes) : Bool :=
  (units bytes).all (·.isSome)

end Utf8

end JavadocCoverage
