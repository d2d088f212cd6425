import JavadocCoverage.Text.Basic

/-!
# Decimal notation

Natural numbers as decimal digits, and the value of a run of digits.
-/

namespace JavadocCoverage

/-- The decimal notation of `n`, with no leading zero. -/
def decimal (n : Nat) : Text :=
  Nat.toDigits 10 n

/-- The value of the digit `c`. -/
def digitValue (c : Char) : Nat :=
  c.toNat - '0'.toNat

/-- The number that a run of digits denotes. -/
def ofDigits (digits : Text) : Nat :=
  digits.foldl (fun n c => 10 * n + digitValue c) 0

end JavadocCoverage
