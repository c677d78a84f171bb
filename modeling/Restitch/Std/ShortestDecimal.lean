import Mathlib.Data.Nat.Dist
import Restitch.Std.Float64

/-!
# Numbers that their float64 prints

Rounding to a float64 is monotone, so the printer's candidates next to a float are all it
needs to look at. A whole number is printed as it is exactly if it is the shortest decimal
of its nearest float64.
-/

namespace Restitch.Std.Float64

/-! ### Rounding is monotone -/

/-- The distance between floats next to a number. -/
def unitOf (n : Nat) : Nat := 2 ^ (Nat.log 2 n - 52)

/-- The unit of the last place is positive. -/
theorem unitOf_pos (n : Nat) : 0 < unitOf n := by
  rw [unitOf]
  positivity

/-- Rounding goes to one of the two multiples of the unit next to a number. -/
theorem round_eq (n : Nat) :
    round n = n / unitOf n * unitOf n ∨ round n = (n / unitOf n + 1) * unitOf n := by
  rw [round, ← unitOf]
  by_cases down : 2 * (n % unitOf n) < unitOf n ∨
      (2 * (n % unitOf n) = unitOf n ∧ n / unitOf n % 2 = 0)
  · exact .inl (if_pos down)
  · exact .inr (if_neg down)

/-- A multiple of its unit is a float. -/
theorem round_of_dvd {n : Nat} (divides : unitOf n ∣ n) : round n = n := by
  have exact_ : n % unitOf n = 0 := Nat.mod_eq_zero_of_dvd divides
  have down : 2 * (n % unitOf n) < unitOf n := by
    rw [exact_]
    exact unitOf_pos n
  rw [round, ← unitOf]
  exact (if_pos (.inl down)).trans (Nat.div_mul_cancel divides)

/-- A number is below the next power of two. -/
theorem lt_pow_log_succ (n : Nat) : n < 2 ^ (Nat.log 2 n + 1) :=
  Nat.lt_pow_succ_log_self (by decide) n

/-- A power of two that the number reaches is a multiple of its unit. -/
theorem unitOf_dvd_pow_log (n : Nat) : unitOf n ∣ 2 ^ Nat.log 2 n :=
  Nat.pow_dvd_pow 2 (Nat.sub_le _ _)

/-- Rounding stays at or above the power of two below a number. -/
theorem pow_log_le_round {n : Nat} (nonzero : n ≠ 0) : 2 ^ Nat.log 2 n ≤ round n := by
  have reached : 2 ^ Nat.log 2 n ≤ n / unitOf n * unitOf n := by
    obtain ⟨k, power⟩ := unitOf_dvd_pow_log n
    have below : k ≤ n / unitOf n := by
      rw [Nat.le_div_iff_mul_le (unitOf_pos n), Nat.mul_comm, ← power]
      exact Nat.pow_log_le_self 2 nonzero
    rw [power, Nat.mul_comm]
    exact Nat.mul_le_mul_right _ below
  rcases round_eq n with down | up
  · rw [down]
    exact reached
  · rw [up]
    exact reached.trans (Nat.mul_le_mul_right _ (Nat.le_succ _))

/-- Rounding stays at or below the power of two above a number. -/
theorem round_le_pow_log (n : Nat) : round n ≤ 2 ^ (Nat.log 2 n + 1) := by
  have above : (n / unitOf n + 1) * unitOf n ≤ 2 ^ (Nat.log 2 n + 1) := by
    obtain ⟨k, power⟩ := (unitOf_dvd_pow_log n).trans (Nat.pow_dvd_pow 2 (Nat.le_succ _))
    have below : n / unitOf n < k := by
      rw [Nat.div_lt_iff_lt_mul (unitOf_pos n), Nat.mul_comm, ← power]
      exact lt_pow_log_succ n
    rw [power, Nat.mul_comm]
    exact Nat.mul_le_mul_left _ below
  rcases round_eq n with down | up
  · rw [down]
    exact (Nat.mul_le_mul_right _ (Nat.le_succ _)).trans above
  · rw [up]
    exact above

/-- Numbers with the same unit keep their order. -/
theorem round_mono_of_unitOf {a b : Nat} (le : a ≤ b) (same : unitOf a = unitOf b) :
    round a ≤ round b := by
  have partsA := Nat.div_add_mod a (unitOf b)
  have partsB := Nat.div_add_mod b (unitOf b)
  have restA := Nat.mod_lt a (unitOf_pos b)
  have restB := Nat.mod_lt b (unitOf_pos b)
  have quotients : a / unitOf b ≤ b / unitOf b := Nat.div_le_div_right le
  rcases Nat.lt_or_eq_of_le quotients with less | equal
  · -- The next float above `a` is at most the float below `b`.
    have step : (a / unitOf b + 1) * unitOf b ≤ b / unitOf b * unitOf b :=
      Nat.mul_le_mul_right _ less
    have upA : round a ≤ (a / unitOf b + 1) * unitOf b := by
      rcases round_eq a with down | up
      · rw [down, same]
        exact Nat.mul_le_mul_right _ (Nat.le_succ _)
      · rw [up, same]
    have downB : b / unitOf b * unitOf b ≤ round b := by
      rcases round_eq b with down | up
      · rw [down]
      · rw [up]
        exact Nat.mul_le_mul_right _ (Nat.le_succ _)
    exact upA.trans (step.trans downB)
  · have rests : a % unitOf b ≤ b % unitOf b := by
      rw [equal] at partsA
      omega
    rw [round, round, ← unitOf, ← unitOf, same, equal]
    split
    · split
      · exact Nat.le_refl _
      · exact Nat.mul_le_mul_right _ (Nat.le_succ _)
    · rename_i up
      have upB : ¬ (2 * (b % unitOf b) < unitOf b ∨
          (2 * (b % unitOf b) = unitOf b ∧ b / unitOf b % 2 = 0)) := by
        omega
      rw [if_neg upB]

/-- Rounding is monotone. -/
theorem round_mono {a b : Nat} (le : a ≤ b) : round a ≤ round b := by
  rcases Nat.lt_or_eq_of_le (Nat.log_mono_right le : Nat.log 2 a ≤ Nat.log 2 b) with less | equal
  · have nonzero : b ≠ 0 := by
      rintro rfl
      rw [Nat.log_zero_right] at less
      cases less
    calc round a ≤ 2 ^ (Nat.log 2 a + 1) := round_le_pow_log a
      _ ≤ 2 ^ Nat.log 2 b := Nat.pow_le_pow_right (by decide) less
      _ ≤ round b := pow_log_le_round nonzero
  · refine round_mono_of_unitOf le ?_
    rw [unitOf, unitOf, equal]

/-- A float is its own nearest float. -/
theorem round_round (n : Nat) : round (round n) = round n := by
  refine round_of_dvd ?_
  have divides : unitOf n ∣ round n := by
    rcases round_eq n with down | up
    · exact down ▸ Nat.dvd_mul_left _ _
    · exact up ▸ Nat.dvd_mul_left _ _
  by_cases top : round n = 2 ^ (Nat.log 2 n + 1)
  · have power := unitOf_dvd_pow_log (2 ^ (Nat.log 2 n + 1))
    rw [Nat.log_pow (by decide)] at power
    rw [top]
    exact power
  · have log : Nat.log 2 (round n) ≤ Nat.log 2 n := by
      have below := lt_of_le_of_ne (round_le_pow_log n) top
      exact Nat.le_of_lt_succ (Nat.log_lt_of_lt_pow' (Nat.succ_ne_zero _) below)
    exact (Nat.pow_dvd_pow 2 (Nat.sub_le_sub_right log 52)).trans divides

/-- Rounding never halves a number. -/
theorem lt_two_mul_round {n : Nat} (nonzero : n ≠ 0) : n < 2 * round n := by
  have reached := pow_log_le_round nonzero
  have below := lt_pow_log_succ n
  rw [pow_succ] at below
  omega

/-- Only zero is rounded to zero. -/
theorem round_pos {n : Nat} (nonzero : n ≠ 0) : 0 < round n := by
  have below := lt_two_mul_round nonzero
  omega

/-! ### The shortest decimal of a float -/

/-- The choice between two numbers around `m`: the closer one, or the smaller one. -/
def Nearer (m a b : Nat) : Prop :=
  Nat.dist a m < Nat.dist b m ∨ (Nat.dist a m = Nat.dist b m ∧ a ≤ b)

/-- Two numbers of which each is the nearer one are equal. -/
theorem Nearer.antisymm {m a b : Nat} (first : Nearer m a b) (second : Nearer m b a) : a = b := by
  simp only [Nearer] at first second
  omega

/-- Nothing is nearer to a number than itself. -/
theorem nearer_self (m b : Nat) : Nearer m m b := by
  simp only [Nearer, Nat.dist]
  omega

/-- Below a number, the larger one is nearer. -/
theorem nearer_of_le {m a b : Nat} (le : b ≤ a) (below : a ≤ m) : Nearer m a b := by
  simp only [Nearer, Nat.dist]
  omega

/-- Above a number, the smaller one is nearer. -/
theorem nearer_of_ge {m a b : Nat} (above : m ≤ a) (le : a ≤ b) : Nearer m a b := by
  simp only [Nearer, Nat.dist]
  omega

/-- `n` has the most zeros at its end of all numbers whose nearest float is `m`, and is
next to `m` among those with as many. -/
structure ShortestDecimal (m n zeros : Nat) : Prop where
  divides : 10 ^ zeros ∣ n
  rounds : round n = m
  fewest : ∀ more, zeros < more → ∀ digits, round (digits * 10 ^ more) ≠ m
  nearest : ∀ digits, round (digits * 10 ^ zeros) = m → Nearer m n (digits * 10 ^ zeros)

/-- Two shortest decimals of one number have as many zeros. -/
theorem ShortestDecimal.zeros_le {m n n' zeros zeros' : Nat} (first : ShortestDecimal m n zeros)
    (second : ShortestDecimal m n' zeros') : zeros' ≤ zeros := by
  by_contra more
  obtain ⟨digits, rfl⟩ := second.divides
  refine first.fewest zeros' (Nat.lt_of_not_le more) digits ?_
  rw [Nat.mul_comm]
  exact second.rounds

/-- A float has one shortest decimal. -/
theorem ShortestDecimal.unique {m n n' zeros zeros' : Nat} (first : ShortestDecimal m n zeros)
    (second : ShortestDecimal m n' zeros') : n = n' := by
  obtain rfl : zeros = zeros' := Nat.le_antisymm (second.zeros_le first) (first.zeros_le second)
  have isFirst := first.divides
  have isSecond := second.divides
  obtain ⟨digits, rfl⟩ := isFirst
  obtain ⟨digits', rfl⟩ := isSecond
  have nearer := first.nearest digits' (Nat.mul_comm _ _ ▸ second.rounds)
  have nearer' := second.nearest digits (Nat.mul_comm _ _ ▸ first.rounds)
  rw [Nat.mul_comm digits'] at nearer
  rw [Nat.mul_comm digits] at nearer'
  exact nearer.antisymm nearer'

/-- The next multiple of a power of ten is above the number. -/
theorem lt_above (m zeros : Nat) : m < (m / 10 ^ zeros + 1) * 10 ^ zeros := by
  rw [Nat.mul_comm]
  exact Nat.lt_mul_div_succ m (by positivity)

/-- If any multiple below a float rounds to it, then the one next to it does. -/
theorem round_low {m zeros digits : Nat} (isFloat : round m = m)
    (rounds : round (digits * 10 ^ zeros) = m) (below : digits ≤ m / 10 ^ zeros) :
    round (m / 10 ^ zeros * 10 ^ zeros) = m := by
  refine Nat.le_antisymm ?_ ?_
  · exact (round_mono (Nat.div_mul_le_self m _)).trans isFloat.le
  · exact rounds.ge.trans (round_mono (Nat.mul_le_mul_right _ below))

/-- If any multiple above a float rounds to it, then the one next to it does. -/
theorem round_high {m zeros digits : Nat} (isFloat : round m = m)
    (rounds : round (digits * 10 ^ zeros) = m) (above : m / 10 ^ zeros < digits) :
    round ((m / 10 ^ zeros + 1) * 10 ^ zeros) = m := by
  refine Nat.le_antisymm ?_ ?_
  · exact (round_mono (Nat.mul_le_mul_right _ above)).trans rounds.le
  · exact isFloat.ge.trans (round_mono (lt_above m zeros).le)

/-- Without a candidate no multiple of the power of ten is rounded to the number. -/
theorem candidate_eq_none {m zeros : Nat} (isFloat : round m = m)
    (absent : candidate m zeros = none) (digits : Nat) : round (digits * 10 ^ zeros) ≠ m := by
  intro rounds
  simp only [candidate] at absent
  split at absent
  · cases absent
  rename_i notLow
  split at absent
  · cases absent
  rename_i notHigh
  rcases Nat.lt_or_ge (m / 10 ^ zeros) digits with above | below
  · exact notHigh (round_high isFloat rounds above)
  · exact notLow ⟨round_low isFloat rounds below, .inl notHigh⟩

/-- The candidate rounds to the float, and is next to it among the multiples that do. -/
theorem candidate_eq_some {m zeros digits : Nat} (isFloat : round m = m)
    (found : candidate m zeros = some digits) :
    round (digits * 10 ^ zeros) = m ∧
      ∀ other, round (other * 10 ^ zeros) = m →
        Nearer m (digits * 10 ^ zeros) (other * 10 ^ zeros) := by
  refine ⟨round_candidate found, ?_⟩
  intro other rounds
  have lowBelow : m / 10 ^ zeros * 10 ^ zeros ≤ m := Nat.div_mul_le_self m _
  have highAbove := lt_above m zeros
  simp only [candidate] at found
  split at found
  · rename_i low
    cases found
    rcases Nat.lt_or_ge (m / 10 ^ zeros) other with above | below
    · have beyond : (m / 10 ^ zeros + 1) * 10 ^ zeros ≤ other * 10 ^ zeros :=
        Nat.mul_le_mul_right _ above
      have closer := low.2.resolve_left (not_not_intro (round_high isFloat rounds above))
      simp only [Nearer, Nat.dist]
      omega
    · exact nearer_of_le (Nat.mul_le_mul_right _ below) lowBelow
  · rename_i notLow
    split at found
    · cases found
      rcases Nat.lt_or_ge (m / 10 ^ zeros) other with above | below
      · exact nearer_of_ge highAbove.le (Nat.mul_le_mul_right _ above)
      · have lower : other * 10 ^ zeros ≤ m / 10 ^ zeros * 10 ^ zeros :=
          Nat.mul_le_mul_right _ below
        have closer : ¬ (m - m / 10 ^ zeros * 10 ^ zeros ≤
            (m / 10 ^ zeros + 1) * 10 ^ zeros - m) := by
          intro close
          exact notLow ⟨round_low isFloat rounds below, .inr close⟩
        simp only [Nearer, Nat.dist]
        omega
    · cases found

/-- The search finds the shortest decimal among those with at most this many zeros. -/
theorem shortestFrom_spec {m : Nat} (isFloat : round m = m) (bound : Nat) :
    round ((shortestFrom m bound).1 * 10 ^ (shortestFrom m bound).2) = m ∧
      (∀ more, (shortestFrom m bound).2 < more → more ≤ bound →
        ∀ digits, round (digits * 10 ^ more) ≠ m) ∧
      ∀ digits, round (digits * 10 ^ (shortestFrom m bound).2) = m →
        Nearer m ((shortestFrom m bound).1 * 10 ^ (shortestFrom m bound).2)
          (digits * 10 ^ (shortestFrom m bound).2) := by
  induction bound with
  | zero =>
      refine ⟨?_, ?_, ?_⟩
      · rw [shortestFrom, pow_zero, Nat.mul_one, isFloat]
      · intro more above within
        exact absurd above (Nat.not_lt.mpr (within.trans (Nat.zero_le _)))
      · intro digits _
        rw [shortestFrom, pow_zero, Nat.mul_one]
        exact nearer_self m _
  | succ bound ih =>
      rw [shortestFrom]
      cases found : candidate m (bound + 1) with
      | some digits =>
          obtain ⟨rounds, nearest⟩ := candidate_eq_some isFloat found
          refine ⟨rounds, ?_, nearest⟩
          intro more above within
          exact absurd above (Nat.not_lt.mpr within)
      | none =>
          obtain ⟨rounds, fewest, nearest⟩ := ih
          refine ⟨rounds, ?_, nearest⟩
          intro more above within
          rcases Nat.lt_or_eq_of_le within with less | rfl
          · exact fewest more above (Nat.le_of_lt_succ less)
          · exact candidate_eq_none isFloat found

/-- Only zero is printed as zero. -/
theorem shortest_pos {m : Nat} (positive : 0 < m) : 0 < (shortest m).1 := by
  rw [shortest, if_neg positive.ne']
  induction (Nat.toDigits 10 m).length with
  | zero => exact positive
  | succ bound ih =>
      rw [shortestFrom]
      cases found : candidate m (bound + 1) with
      | none => exact ih
      | some digits =>
          have rounds := round_candidate found
          refine Nat.pos_of_ne_zero ?_
          rintro rfl
          rw [Nat.zero_mul, round_of_le (Nat.zero_le _)] at rounds
          exact positive.ne rounds

/-- What the printer writes for a float, as a number. -/
def shortestValue (m : Nat) : Nat := (shortest m).1 * 10 ^ (shortest m).2

/-- A number is below the power of ten of its length. -/
theorem lt_pow_length_toDigits (m : Nat) : m < 10 ^ (Nat.toDigits 10 m).length :=
  (Nat.length_toDigits_le_iff (by decide) Nat.length_toDigits_pos).mp (Nat.le_refl _)

/-- The printer writes the shortest decimal of a float. -/
theorem shortestDecimal_shortestValue {m : Nat} (isFloat : round m = m) (nonzero : m ≠ 0) :
    ShortestDecimal m (shortestValue m) (shortest m).2 := by
  obtain ⟨rounds, fewest, nearest⟩ := shortestFrom_spec isFloat (Nat.toDigits 10 m).length
  rw [shortestValue, shortest, if_neg nonzero]
  refine ⟨Nat.dvd_mul_left _ _, rounds, ?_, nearest⟩
  intro more above digits roundsMore
  rcases Nat.lt_or_ge (Nat.toDigits 10 m).length more with beyond | within
  · -- More zeros than the float has digits make a number more than twice as large.
    have positive : digits * 10 ^ more ≠ 0 := by
      intro zero
      rw [zero, round_of_le (Nat.zero_le _)] at roundsMore
      exact nonzero roundsMore.symm
    have below := lt_two_mul_round positive
    have reaches : 10 ^ more ≤ digits * 10 ^ more :=
      Nat.le_mul_of_pos_left _ (Nat.pos_of_mul_pos_right (Nat.pos_of_ne_zero positive))
    have power : 10 ^ ((Nat.toDigits 10 m).length + 1) ≤ 10 ^ more :=
      Nat.pow_le_pow_right (by decide) beyond
    have digitsBound := lt_pow_length_toDigits m
    rw [pow_succ] at power
    omega
  · exact fewest more above within digits roundsMore

/-- A whole number is printed as it is exactly if it is the shortest decimal of its nearest
float. -/
theorem shortestValue_round_iff {n : Nat} :
    shortestValue (round n) = n ↔ n = 0 ∨ ∃ zeros, ShortestDecimal (round n) n zeros := by
  by_cases nonzero : n = 0
  · subst nonzero
    exact iff_of_true rfl (.inl rfl)
  · have printed := shortestDecimal_shortestValue (round_round n) (round_pos nonzero).ne'
    rw [or_iff_right nonzero]
    constructor
    · intro same
      rw [same] at printed
      exact ⟨_, printed⟩
    · rintro ⟨zeros, own⟩
      exact printed.unique own

/-- Every number up to `2 ^ 53` is. -/
theorem shortestValue_of_le {n : Nat} (small : n ≤ 2 ^ 53) : shortestValue (round n) = n := by
  rw [round_of_le small]
  exact shortest_mul small

end Restitch.Std.Float64
