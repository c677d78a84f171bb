import Restitch.Upstream.RetryPolicy

/-!
# Which responses of a call can be read

A response that is to be tried again is drained before the next attempt looks for a body
to send. If there is none, that response is what the call returns.
-/

namespace Restitch.Upstream

variable (cfg : RetryConfig) (request : RetryRequest) (world : CallWorld)

/-- The response a call returns is open, and every other one is drained and closed. -/
structure ClosesOthers (run : RetryRun) : Prop where
  returned : ∀ response, run.response = some response → response ∉ run.drained
  others : ∀ attempt < run.sent.length, Answered (world.outcome attempt) →
    run.response ≠ some attempt → attempt ∈ run.drained

/-- Some attempt is answered, is to be followed by another one, and the other one has no
body. -/
def StuckBehindResponse : Prop :=
  isRetryableMethod request.method cfg.retryNonIdempotent = true ∧
    ∃ attempt, (∀ earlier < attempt, Continues cfg request world earlier) ∧
      Answered (world.outcome attempt) ∧ Paused cfg world attempt ∧
      ¬ Replayable request (attempt + 1)

variable {cfg request world}

/-- A call ends with the first attempt that does not continue. -/
theorem Ended.final_eq {final attempt : Nat} {run : RetryRun}
    (ended : Ended cfg request world 0 final run)
    (again : ∀ earlier < attempt, Continues cfg request world earlier)
    (stopped : ¬ Continues cfg request world attempt) : final = attempt := by
  rcases Nat.lt_trichotomy final attempt with less | same | greater
  · exact absurd (again final less) ended.stopped
  · exact same
  · exact absurd (ended.again attempt (Nat.zero_le _) greater) stopped

/-- All other bodies are closed unless the last answer was drained and the pause after it was over.
-/
theorem Ended.closesOthers_iff {final : Nat} {run : RetryRun}
    (ended : Ended cfg request world 0 final run) :
    ClosesOthers world run ↔ ¬ (Answered (world.outcome final) ∧ Paused cfg world final) := by
  rw [← ended.finalDrained]
  have result := after_eq final (world.outcome final)
  rw [← ended.response, ← ended.err] at result
  refine ⟨?_, ?_⟩
  · intro closes drained
    have answered := (ended.finalDrained.mp drained).1
    rcases result with ⟨failed, _, _⟩ | ⟨_, response, _⟩
    · obtain ⟨status, found⟩ := answered
      rw [failed] at found
      cases found
    · exact closes.returned final response drained
  · intro kept
    refine ⟨?_, ?_⟩
    · intro response found
      rcases result with ⟨_, missing, _⟩ | ⟨_, returned, _⟩
      · rw [missing] at found
        cases found
      · rw [returned] at found
        cases found
        exact kept
    · intro attempt below answered other
      rw [ended.length_sent] at below
      rcases Nat.eq_or_lt_of_le (Nat.le_of_lt_succ below) with same | earlier
      · subst same
        rcases result with ⟨failed, _, _⟩ | ⟨_, returned, _⟩
        · obtain ⟨status, found⟩ := answered
          rw [failed] at found
          cases found
        · exact absurd returned other
      · exact ended.drained attempt (Nat.zero_le _) earlier answered

/-- A call keeps the response it returns open, and drains and closes the others, unless it
is stuck behind a response without a body for the next attempt. -/
theorem roundTrip_closesOthers_iff (cfg : RetryConfig) (request : RetryRequest)
    (world : CallWorld) :
    ClosesOthers world (roundTrip (applyRetryDefaults cfg) request world) ↔
      ¬ StuckBehindResponse (applyRetryDefaults cfg) request world := by
  cases retryable : isRetryableMethod request.method (applyRetryDefaults cfg).retryNonIdempotent with
  | true =>
      obtain ⟨final, ended⟩ :=
        roundTrip_ended world (applyRetryDefaults_maxAttempts_pos cfg) retryable
      rw [ended.closesOthers_iff]
      refine not_congr ⟨?_, ?_⟩
      · rintro ⟨answered, paused⟩
        refine ⟨retryable, final, fun earlier => ended.again earlier (Nat.zero_le _), answered,
          paused, ?_⟩
        intro replayable
        exact ended.stopped ⟨paused, replayable⟩
      · rintro ⟨_, attempt, again, answered, paused, missing⟩
        rw [ended.final_eq again fun continues => missing continues.replayable]
        exact ⟨answered, paused⟩
  | false =>
      rw [roundTrip_of_not_retryable retryable]
      refine iff_of_true ⟨by simp [RetryRun.attempted, RetryRun.stop], ?_⟩ ?_
      · intro attempt below answered other
        obtain rfl : attempt = 0 := Nat.lt_one_iff.mp below
        obtain ⟨status, found⟩ := answered
        exact absurd (by rw [found]; rfl) other
      · rintro ⟨retried, _⟩
        rw [retryable] at retried
        cases retried

/-- A `PUT` with a body that cannot be taken a second time. -/
def unrewindableRequest : RetryRequest where
  method := "PUT"
  body := some [1]
  getBody := none
  copies _ _ _ given := nomatch given

/-- Every attempt is answered with 503. -/
def unavailableWorld : CallWorld := ⟨fun _ => .response 503, fun _ => true⟩

/-- The only response of this call is returned after it was drained. -/
theorem not_closesOthers_unrewindable :
    ¬ ClosesOthers unavailableWorld
      (roundTrip (applyRetryDefaults ⟨3, 1000000, 0, [503], [], false⟩) unrewindableRequest
        unavailableWorld) := by
  intro closes
  exact closes.returned 0 (by decide) (by decide)

end Restitch.Upstream
