import Mathlib.Algebra.Group.Nat.Defs
import Mathlib.Data.Int.Init

/-!
# Float64 values

A finite float64 is a fraction whose denominator is a power of two.
-/

namespace Restitch.Std.Float64

/-- The values of a float64. A zero has no sign here. -/
inductive Value where
  | nan
  | infinite (negative : Bool)
  | finite (numerator : Int) (exponent : Nat)
deriving DecidableEq

namespace Value

/-- Neither NaN nor an infinity. -/
def isFinite : Value → Bool
  | .finite _ _ => true
  | _ => false

/-- The integer that a float is, if it is one. -/
def whole : Value → Option Int
  | .finite numerator exponent =>
      if numerator % (2 ^ exponent : Nat) = 0 then some (numerator / (2 ^ exponent : Nat)) else none
  | _ => none

/-- The conversion to a 64-bit integer: towards zero, and some value of the processor for
what does not fit. -/
def toInt (outside : Int) : Value → Int
  | .finite numerator exponent =>
      let truncated := numerator.tdiv (2 ^ exponent : Nat)
      if -9223372036854775808 ≤ truncated ∧ truncated < 9223372036854775808 then truncated
      else outside
  | _ => outside

/-- An integer is converted to itself. -/
theorem toInt_of_whole {outside n : Int} {value : Value} (isWhole : value.whole = some n)
    (fits : -9223372036854775808 ≤ n ∧ n < 9223372036854775808) : value.toInt outside = n := by
  cases value with
  | nan => cases isWhole
  | infinite negative => cases isWhole
  | finite numerator exponent =>
      rw [whole, Option.ite_none_right_eq_some] at isWhole
      obtain ⟨divides, isQuotient⟩ := isWhole
      have quotient : numerator.tdiv (2 ^ exponent : Nat) = n := by
        rw [Int.tdiv_eq_ediv_of_dvd (Int.dvd_of_emod_eq_zero divides)]
        exact Option.some.inj isQuotient
      rw [toInt, quotient]
      exact if_pos fits

end Value

end Restitch.Std.Float64
