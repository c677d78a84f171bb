import Mathlib.Algebra.Group.Nat.Defs
import Restitch.Upstream.RetryPolicy

/-!
# The pause before the next attempt (`internal/upstream/retry.go`)

`shouldRetry` waits for a drawn backoff, or for what the Retry-After header of the
response asks for. A `time.Duration` is a signed 64-bit count of nanoseconds.
-/

namespace Restitch.Upstream

/-- The digits of a number, `none` without any or with another character among them. -/
def unsignedDecimal (digits : List Char) : Option Int :=
  if digits ≠ [] ∧ digits.all Char.isDigit = true then some (Nat.ofDigitChars 10 digits 0)
  else none

/-- A decimal integer of any size, with an optional sign. -/
def signedDecimal : List Char → Option Int
  | '-' :: digits => (unsignedDecimal digits).map fun value => -value
  | '+' :: digits => unsignedDecimal digits
  | digits => unsignedDecimal digits

/-- `strconv.Atoi`: an integer outside of 64 bits is an error. -/
def atoi (text : String) : Option Int :=
  (signedDecimal text.toList).filter fun value =>
    -9223372036854775808 ≤ value ∧ value < 9223372036854775808

/-- `time.Second`. -/
def second : Int := 1000000000

/-- The product of two durations keeps the low 64 bits. -/
def durationMul (left right : Int) : Int := (left * right).bmod 18446744073709551616

section Pause

variable (cfg : RetryConfig) (attempt : Nat) (jitter : Int → Int)

/-- `retryBackoff`, with the random factor and the conversion from `float64`. -/
def retryBackoff : Int :=
  let base := cfg.interval * (2 ^ min attempt 20 : Nat)
  let d := jitter base
  if cfg.maxBackoff < d then cfg.maxBackoff else d

/-- `sleepDur` of `shouldRetry`, with the Retry-After header of the response, if there is
one. `Get` gives the empty string for a header that is absent. -/
def sleepDur : (resp : Option String) → Int
  | none => retryBackoff cfg attempt jitter
  | some ra =>
      if ra = "" then retryBackoff cfg attempt jitter
      else
        match atoi ra with
        | none => retryBackoff cfg attempt jitter
        | some secs =>
            let secs := if secs < 0 then 0 else secs
            let sleep := durationMul secs second
            if cfg.maxBackoff < sleep then cfg.maxBackoff else sleep

/-- The pause behind an attempt, if another one is left. -/
def pauseBehind (resp : Option String) : Option Int :=
  if cfg.maxAttempts ≤ (attempt : Int) + 1 then none else some (sleepDur cfg attempt jitter resp)

end Pause

/-- What a Retry-After value asks for: that many seconds, or the time until that date. -/
def requestedDelay (parseTime : String → Option Int) (now : Int) (value : String) : Option Int :=
  match signedDecimal value.toList with
  | some secs => some (secs * second)
  | none => (parseTime value).map (· - now)

/-- A pause of the requested delay within the bounds. -/
structure HonoursDelay (cfg : RetryConfig) (delay pause : Int) : Prop where
  eq : pause = min (max delay 0) cfg.maxBackoff
  nonneg : 0 ≤ pause
  atMost : pause ≤ cfg.maxBackoff

/-- When a requested delay is kept: the value is an integer that `Atoi` takes, and the
delay fits into 64 bits or what is left of it is not below the bound. For any other value
the drawn backoff has to be that delay by chance. -/
def KeepsDelay (cfg : RetryConfig) (attempt : Nat) (jitter : Int → Int) (value : String)
    (delay : Int) : Prop :=
  match atoi value with
  | some _ => delay < 9223372036854775808 ∨ cfg.maxBackoff ≤ delay.bmod 18446744073709551616
  | none =>
      min (jitter (cfg.interval * (2 ^ min attempt 20 : Nat))) cfg.maxBackoff =
        min (max delay 0) cfg.maxBackoff

/-- `shouldRetry` waits for the pause if there is one. -/
theorem shouldRetry_eq_any (cfg : RetryConfig) (world : CallWorld) (attempt : Nat)
    (jitter : Int → Int) (resp : Option String) (runsOut : Int → Bool)
    (pause : world.pause attempt = runsOut (sleepDur cfg attempt jitter resp)) :
    shouldRetry cfg world attempt = (pauseBehind cfg attempt jitter resp).any runsOut := by
  rw [shouldRetry, pauseBehind, pause]
  by_cases left : (attempt : Int) + 1 < cfg.maxAttempts
  · rw [if_neg (Int.not_le.mpr left), decide_eq_true left, Bool.true_and, Option.any_some]
  · rw [if_pos (Int.not_lt.mp left), decide_eq_false left, Bool.false_and, Option.any_none]

/-- A number is read exactly if it is a decimal that fits into 64 bits. -/
theorem atoi_eq_some_iff {text : String} {value : Int} :
    atoi text = some value ↔ signedDecimal text.toList = some value ∧
      -9223372036854775808 ≤ value ∧ value < 9223372036854775808 := by
  rw [atoi, Option.filter_eq_some_iff, decide_eq_true_iff]

/-- A product within 64 bits is not changed. -/
theorem durationMul_of_small {left right : Int} (nonneg : 0 ≤ left * right)
    (small : left * right < 9223372036854775808) : durationMul left right = left * right := by
  rw [durationMul, Int.bmod_eq_of_le_mul_two]
  · omega
  · omega

/-- The backoff is the jittered interval, up to the maximum. -/
theorem retryBackoff_eq_min (cfg : RetryConfig) (attempt : Nat) (jitter : Int → Int) :
    retryBackoff cfg attempt jitter =
      min (jitter (cfg.interval * (2 ^ min attempt 20 : Nat))) cfg.maxBackoff := by
  rw [retryBackoff]
  split <;> omega

/-- Without a number in the header the backoff is slept. -/
theorem sleepDur_of_atoi_none {cfg : RetryConfig} {attempt : Nat} {jitter : Int → Int}
    {value : String} (other : atoi value = none) :
    sleepDur cfg attempt jitter (some value) = retryBackoff cfg attempt jitter := by
  rw [sleepDur, other]
  exact ite_self _

/-- A number in the header is slept in seconds, up to the maximum. -/
theorem sleepDur_of_atoi_some {cfg : RetryConfig} {attempt : Nat} {jitter : Int → Int}
    {value : String} {secs : Int} (taken : atoi value = some secs) :
    sleepDur cfg attempt jitter (some value) =
      min (durationMul (max secs 0) second) cfg.maxBackoff := by
  have nonempty : value ≠ "" := by
    intro empty
    rw [empty] at taken
    cases taken
  have clamped : (if secs < 0 then 0 else secs) = max secs 0 := by
    split <;> omega
  rw [sleepDur, if_neg nonempty, taken]
  dsimp only
  rw [clamped]
  split <;> omega

/-- A requested delay is honoured exactly if it is kept. -/
theorem sleepDur_honoursDelay_iff (cfg : RetryConfig) (attempt : Nat) (jitter : Int → Int)
    (parseTime : String → Option Int) (now : Int) (value : String) (delay : Int)
    (positive : 0 < cfg.maxBackoff) (duration : cfg.maxBackoff < 9223372036854775808)
    (requested : requestedDelay parseTime now value = some delay) :
    HonoursDelay cfg delay (sleepDur cfg attempt jitter (some value)) ↔
      KeepsDelay cfg attempt jitter value delay := by
  have bounds : ∀ pause,
      HonoursDelay cfg delay pause ↔ pause = min (max delay 0) cfg.maxBackoff := by
    intro pause
    refine ⟨HonoursDelay.eq, fun equal => ⟨equal, ?_, ?_⟩⟩ <;> omega
  rw [bounds, KeepsDelay]
  cases taken : atoi value with
  | none => rw [sleepDur_of_atoi_none taken, retryBackoff_eq_min]
  | some secs =>
      have whole := (atoi_eq_some_iff.mp taken).1
      rw [requestedDelay, whole] at requested
      have delayed : delay = secs * second := (Option.some.inj requested).symm
      rw [sleepDur_of_atoi_some taken]
      dsimp only
      rcases Int.le_total secs 0 with negative | nonneg
      · have zero : durationMul (max secs 0) second = 0 := by
          rw [Int.max_eq_right negative, durationMul, Int.zero_mul, Int.zero_bmod]
        have below : delay ≤ 0 := by
          rw [delayed, second]
          omega
        rw [zero]
        omega
      · rw [Int.max_eq_left nonneg]
        have above : 0 ≤ delay := by
          rw [delayed, second]
          omega
        by_cases small : delay < 9223372036854775808
        · rw [durationMul_of_small (delayed ▸ above) (delayed ▸ small), ← delayed]
          omega
        · rw [durationMul, ← delayed]
          omega

/-- The defaults, with a cap of 30 seconds. -/
def cappedConfig : RetryConfig := applyRetryDefaults ⟨3, 0, 30000000000, [], [], false⟩

/-- A request for two minutes is capped at 30 seconds. -/
theorem sleepDur_honoursDelay_iff_120 :
    HonoursDelay cappedConfig 120000000000 (sleepDur cappedConfig 0 id (some "120")) ↔
      KeepsDelay cappedConfig 0 id "120" 120000000000 :=
  sleepDur_honoursDelay_iff cappedConfig 0 id (fun _ => none) 0 "120" 120000000000 (by decide)
    (by decide) (by decide +kernel)

/-- This many seconds wrap around to a negative pause. -/
theorem sleepDur_negative :
    requestedDelay (fun _ => none) 0 "9223372037" = some 9223372037000000000 ∧
      ¬ HonoursDelay cappedConfig 9223372037000000000
        (sleepDur cappedConfig 0 id (some "9223372037")) := by
  refine ⟨by decide +kernel, fun honours => ?_⟩
  exact absurd honours.nonneg (by decide +kernel)

end Restitch.Upstream
