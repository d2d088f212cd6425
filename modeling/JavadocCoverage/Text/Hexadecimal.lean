import JavadocCoverage.Text.Basic

/-!
# Hexadecimal digits

The digits of hexadecimal notation and their values.
-/

namespace JavadocCoverage

/-- The hexadecimal digit of value `n`, where it is a letter a small one. -/
def hexDigit (n : Nat) : Char :=
  Nat.digitChar n

/-- The value of a hexadecimal digit. -/
def hexValue? (c : Char) : Option Nat :=
  if '0' ≤ c ∧ c ≤ '9' then some (c.toNat - '0'.toNat)
  else if 'a' ≤ c ∧ c ≤ 'f' then some (c.toNat - 'a'.toNat + 10)
  else if 'A' ≤ c ∧ c ≤ 'F' then some (c.toNat - 'A'.toNat + 10)
  else none

end JavadocCoverage
