import JavadocCoverage.Text.Decimal

/-!
# Doubles

Which decimal numbers are too great for a double.  A number is held as a significand
of 64 bits and a power of ten; both are rounded to doubles before they are
multiplied.  `toDouble_eq_self` says that a number of 53 binary digits is its own
double.
-/

namespace JavadocCoverage

namespace Json

/-- The natural number of 53 binary digits that is nearest to `n`, and of two that are
equally near the one whose last digit is zero. -/
def toDouble (n : Nat) : Nat :=
  let unit := Nat.pow 2 (n.log2 + 1 - 53)
  let (quotient, rest) := (n / unit, n % unit)
  let up := 2 * rest > unit || (2 * rest = unit && quotient % 2 = 1)
  (if up then quotient + 1 else quotient) * unit

theorem toDouble_eq_self
    {n : Nat} (h : n < Nat.pow 2 53) :
  toDouble n = n
  := by
  have hlog : n.log2 + 1 - 53 = 0 := by
    by_cases hn : n = 0
    · subst hn
      rfl
    · have := (Nat.log2_lt hn).mpr h
      omega
  simp [toDouble, hlog, Nat.mod_one]

/-- The least number that is too great for a double, rounding considered. -/
def doubleBound : Nat := Nat.pow 2 1024 - Nat.pow 2 970

/-- A decimal number: the significand times a power of ten. -/
structure Scaled where
  significand : Nat
  exponent : Int
deriving DecidableEq, Repr

/-- The number with the next digits as far as they fit in 64 bits, and the digits that
are left. -/
def gather (significand : Nat) : Text → Nat × Text
  | [] => (significand, [])
  | digit :: digits =>
    let next := 10 * significand + digitValue digit
    if next < UInt64.size then gather next digits else (significand, digit :: digits)

/-- The number with the given digits before and after the point and the given
exponent.  Digits that do not fit are dropped; of those before the point each adds to
the exponent. -/
def Scaled.ofDigits (whole fraction : Text) (exponent : Int) : Scaled :=
  let (significand, dropped) := gather 0 whole
  let (significand, ignored) := gather significand fraction
  ⟨significand, exponent + dropped.length - (fraction.length - ignored.length)⟩

/-- The number is too great for a double.  One with a negative exponent never is. -/
def Scaled.isTooGreat (number : Scaled) : Bool :=
  match number.exponent with
  | .ofNat n =>
    number.significand ≠ 0
      && (n > 308 || toDouble number.significand * toDouble (Nat.pow 10 n) ≥ doubleBound)
  | .negSucc _ => false

end Json

end JavadocCoverage
