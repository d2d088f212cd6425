import Mathlib.Data.Nat.Digits.Defs
import JavadocCoverage.Text.Decimal

/-!
# Reading decimal notation

The decimal notation of a number consists of digits, of which the first is zero only when
it is the only one, and denotes the number (`ofDigits_decimal`).
-/

namespace JavadocCoverage

theorem isDigit_of_mem_decimal {n : Nat} {c : Char} (h : c ∈ decimal n) :
  c.isDigit = true
  := Nat.isDigit_of_mem_toDigits (by decide) (by decide) h

theorem decimal_ne_nil (n : Nat) :
  decimal n ≠ []
  := Nat.toDigits_ne_nil

@[simp]
theorem ofDigits_decimal (n : Nat) :
  ofDigits (decimal n) = n
  := Nat.ofDigitChars_ten_toDigits

theorem decimal_injective :
  Function.Injective decimal
  := Function.LeftInverse.injective ofDigits_decimal

/-- A decimal notation does not start with a zero that other digits follow. -/
theorem eq_nil_of_decimal_eq_zero_cons
    {n : Nat} {digits : Text} (h : decimal n = '0' :: digits) :
  digits = []
  := by
  induction n using Nat.strong_induction_on generalizing digits with
  | _ n ih =>
    rcases Nat.lt_or_ge n 10 with hn | hn
    · rw [decimal, Nat.toDigits_of_lt_base hn] at h
      exact (List.cons.inj h).2.symm
    · -- The notation of a tenth stands before the last digit, and is not that of zero.
      rw [decimal, Nat.toDigits_of_base_le (by decide) hn] at h
      have hpos : 0 < n / 10 := Nat.div_pos hn (by decide)
      cases htenth : Nat.toDigits 10 (n / 10) with
      | nil => exact absurd htenth Nat.toDigits_ne_nil
      | cons c tenth =>
        rw [htenth] at h
        obtain ⟨rfl, -⟩ := List.cons.inj h
        obtain rfl := ih (n / 10) (Nat.div_lt_self (by omega) (by decide)) htenth
        have hzero : n / 10 = 0 := by
          rw [← ofDigits_decimal (n / 10), decimal, htenth]
          rfl
        omega

end JavadocCoverage
