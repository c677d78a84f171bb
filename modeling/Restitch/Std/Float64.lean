import Mathlib.Algebra.Group.Nat.Defs
import Mathlib.Data.Nat.Log
import Mathlib.Tactic.Linarith
import Mathlib.Tactic.Positivity
import Mathlib.Tactic.Ring

/-!
# Whole numbers as float64

A whole number is rounded to 53 significant bits, and printed with the fewest
digits that round to the same float (`strconv.FormatFloat(v, 'g', -1, 64)`).
-/

namespace Restitch.Std.Float64

/-- The nearest float to a whole number, ties to even. -/
def round (n : Nat) : Nat :=
  let unit := 2 ^ (Nat.log 2 n - 52)
  let mantissa := n / unit
  let rest := n % unit
  if 2 * rest < unit ∨ (2 * rest = unit ∧ mantissa % 2 = 0) then mantissa * unit
  else (mantissa + 1) * unit

/-- A float64 with a whole value. -/
structure Whole where
  negative : Bool
  magnitude : Nat
deriving DecidableEq

/-- The float64 of an integer. It is what the literal of the integer is decoded as, but the
literal `-0`, which is decoded as the negative zero. -/
def ofInt (n : Int) : Whole := ⟨n < 0, round n.natAbs⟩

/-- The multiple of `10 ^ zeros` next to `m` that rounds to `m`, without its zeros. -/
def candidate (m zeros : Nat) : Option Nat :=
  let low := m / 10 ^ zeros
  let lowRounds := round (low * 10 ^ zeros) = m
  let highRounds := round ((low + 1) * 10 ^ zeros) = m
  if lowRounds ∧ (¬ highRounds ∨ m - low * 10 ^ zeros ≤ (low + 1) * 10 ^ zeros - m) then some low
  else if highRounds then some (low + 1)
  else none

/-- The fewest digits that round to `m`, and the zeros behind them, with at most this
many zeros. -/
def shortestFrom (m : Nat) : Nat → Nat × Nat
  | 0 => (m, 0)
  | zeros + 1 =>
      ((candidate m (zeros + 1)).map fun digits => (digits, zeros + 1)).getD (shortestFrom m zeros)

/-- The fewest digits that round to `m`, and the zeros behind them. -/
def shortest (m : Nat) : Nat × Nat :=
  if m = 0 then (0, 0) else shortestFrom m (Nat.toDigits 10 m).length

/-- `%f` of digits and zeros. -/
def fmtF (digits : List Char) (zeros : Nat) : List Char := digits ++ List.replicate zeros '0'

/-- `%e` of digits and an exponent. -/
def fmtE (digits : List Char) (exponent : Nat) : List Char :=
  let fraction := digits.tail
  digits.take 1 ++ (if fraction = [] then [] else '.' :: fraction) ++ ['e', '+'] ++
    (if exponent < 10 then ['0'] else []) ++ Nat.toDigits 10 exponent

/-- A magnitude under `'g'` with the shortest precision: `%e` from an exponent of 6 on. -/
def formatMagnitude (m : Nat) : List Char :=
  let (digits, zeros) := shortest m
  let text := Nat.toDigits 10 digits
  let exponent := text.length + zeros - 1
  if 6 ≤ exponent then fmtE text exponent else fmtF text zeros

/-- `strconv.FormatFloat(v, 'g', -1, 64)`. -/
def formatFloat (v : Whole) : List Char :=
  (if v.negative then ['-'] else []) ++ formatMagnitude v.magnitude

/-! ### Rounding -/

/-- Integers up to `2 ^ 53` are float64 values. -/
theorem round_of_le {n : Nat} (small : n ≤ 2 ^ 53) : round n = n := by
  by_cases exact_ : n < 2 ^ 53
  · have unit : Nat.log 2 n - 52 = 0 := by
      have bound : Nat.log 2 n < 53 := Nat.log_lt_of_lt_pow' (by decide) exact_
      omega
    simp only [round, unit, pow_zero, Nat.mod_one, Nat.div_one]
    simp
  · have top : n = 2 ^ 53 := by omega
    subst top
    decide +kernel

/-- Above `2 ^ 53`, only `2 ^ 53 + 1` rounds down to it. -/
theorem eq_of_round_eq {c m : Nat} (small : m ≤ 2 ^ 53) (rounds : round c = m) :
    c = m ∨ c = 2 ^ 53 + 1 := by
  by_cases low : c ≤ 2 ^ 53
  · rw [round_of_le low] at rounds
    exact .inl rounds
  right
  have high : 53 ≤ Nat.log 2 c := Nat.le_log_of_pow_le (by decide) (by omega)
  -- The mantissa has 53 bits, so rounding keeps the leading power of two.
  have mantissa : 2 ^ 52 ≤ c / 2 ^ (Nat.log 2 c - 52) := by
    rw [Nat.le_div_iff_mul_le (by positivity), ← pow_add]
    have exponents : 52 + (Nat.log 2 c - 52) = Nat.log 2 c := by omega
    rw [exponents]
    exact Nat.pow_log_le_self 2 (by omega)
  simp only [round] at rounds
  generalize isUnit : 2 ^ (Nat.log 2 c - 52) = unit at mantissa rounds
  have two : 2 ≤ unit := by
    rw [← isUnit]
    exact Nat.le_self_pow (by omega) 2
  have parts := Nat.div_add_mod c unit
  generalize c / unit = q at mantissa rounds parts
  generalize isRest : c % unit = rest at rounds parts
  have bound : rest < unit := isRest ▸ Nat.mod_lt _ (by omega)
  split at rounds
  · have isUnit : unit = 2 := by nlinarith
    subst isUnit
    omega
  · nlinarith

/-! ### The shortest digits of a small number -/

/-- A candidate is rounded to the number. -/
theorem round_candidate {m zeros digits : Nat} (found : candidate m zeros = some digits) :
    round (digits * 10 ^ zeros) = m := by
  simp only [candidate] at found
  split at found
  · rename_i low
    cases found
    exact low.1
  · split at found
    · rename_i high
      cases found
      exact high
    · cases found

/-- Up to `2 ^ 53`, a candidate with its zeros is the number itself. -/
theorem candidate_mul {m zeros digits : Nat} (small : m ≤ 2 ^ 53)
    (found : candidate m (zeros + 1) = some digits) : digits * 10 ^ (zeros + 1) = m := by
  rcases eq_of_round_eq small (round_candidate found) with same | above
  · exact same
  · rw [pow_succ, ← mul_assoc] at above
    omega

/-- Up to `2 ^ 53`, the fewest digits and their zeros are the number itself. -/
theorem shortestFrom_mul {m : Nat} (small : m ≤ 2 ^ 53) (zeros : Nat) :
    (shortestFrom m zeros).1 * 10 ^ (shortestFrom m zeros).2 = m := by
  induction zeros with
  | zero => exact Nat.mul_one m
  | succ zeros ih =>
      rw [shortestFrom]
      cases found : candidate m (zeros + 1) with
      | none => exact ih
      | some digits => exact candidate_mul small found

/-- The shortest decimal of an integer up to `2 ^ 53` is that integer. -/
theorem shortest_mul {m : Nat} (small : m ≤ 2 ^ 53) :
    (shortest m).1 * 10 ^ (shortest m).2 = m := by
  rw [shortest]
  split
  · rename_i zero
    rw [zero]
    rfl
  · exact shortestFrom_mul small _

/-- The zeros of a product are written behind its digits. -/
theorem toDigits_mul_pow {digits : Nat} (positive : 0 < digits) (zeros : Nat) :
    Nat.toDigits 10 (digits * 10 ^ zeros) = fmtF (Nat.toDigits 10 digits) zeros := by
  induction zeros with
  | zero => simp [fmtF]
  | succ zeros ih =>
      have more : 0 < digits * 10 ^ zeros := by positivity
      have appended := Nat.toDigits_append_toDigits (by decide : 1 < 10) more (by decide : 0 < 10)
      have factor : digits * 10 ^ (zeros + 1) = 10 * (digits * 10 ^ zeros) + 0 := by
        rw [pow_succ]
        ring
      rw [factor, ← appended, ih, fmtF, fmtF, List.append_assoc, List.replicate_succ']
      rfl

/-- The digits and zeros of a small number are its decimal digits. -/
theorem fmtF_shortest {m : Nat} (small : m ≤ 2 ^ 53) :
    fmtF (Nat.toDigits 10 (shortest m).1) (shortest m).2 = Nat.toDigits 10 m := by
  by_cases zero : m = 0
  · subst zero
    rfl
  · have mul := shortest_mul small
    have positive : 0 < (shortest m).1 := by
      rcases Nat.eq_zero_or_pos (shortest m).1 with none_ | some_
      · rw [none_, Nat.zero_mul] at mul
        exact absurd mul.symm zero
      · exact some_
    rw [← toDigits_mul_pow positive, mul]

theorem mem_fmtE (digits : List Char) (exponent : Nat) : 'e' ∈ fmtE digits exponent := by
  simp [fmtE]

/-- Whole numbers up to `2 ^ 53` are printed as their decimal digits exactly below a
million. -/
theorem formatMagnitude_eq_iff {m : Nat} (small : m ≤ 2 ^ 53) :
    formatMagnitude m = Nat.toDigits 10 m ↔ m < 10 ^ 6 := by
  have digits := fmtF_shortest small
  have count := congrArg List.length digits
  simp only [fmtF, List.length_append, List.length_replicate] at count
  rw [← Nat.length_toDigits_le_iff (by decide : 1 < 10) (by decide : 0 < 6)]
  simp only [formatMagnitude, count]
  split
  · rename_i large
    refine iff_of_false ?_ (by omega)
    intro same
    have digit := Nat.isDigit_of_mem_toDigits (by decide) (by decide) (same ▸ mem_fmtE _ _)
    exact absurd digit (by decide)
  · rename_i few
    exact iff_of_true digits (by omega)

/-- The decimal digits of an integer. -/
def decimal (n : Int) : List Char :=
  (if n < 0 then ['-'] else []) ++ Nat.toDigits 10 n.natAbs

/-- An integer that a float holds exactly is printed as its decimal digits exactly below
a million. -/
theorem formatFloat_ofInt_iff {n : Int} (small : n.natAbs ≤ 2 ^ 53) :
    formatFloat (ofInt n) = decimal n ↔ n.natAbs < 10 ^ 6 := by
  rw [← formatMagnitude_eq_iff small, formatFloat, decimal, ofInt, round_of_le small]
  simp only [decide_eq_true_eq, List.append_cancel_left_eq]

end Restitch.Std.Float64
