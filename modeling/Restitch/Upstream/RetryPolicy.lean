import Restitch.Upstream.Retry

/-!
# What a call with retries does

The attempts of a call go on exactly as long as `Continues` holds of them. One lemma for
an attempt that continues and one for an attempt that ends the call carry the induction
over the loop.
-/

namespace Restitch.Upstream

/-- An outcome that is tried again: an error, or a status in `BackoffOn` and not in
`DropOn`. -/
def Retried (cfg : RetryConfig) : Outcome → Prop
  | .error => True
  | .response status => status ∈ cfg.backoffOn ∧ status ∉ cfg.dropOn

/-- There is a body for an attempt other than the first. -/
def Replayable (request : RetryRequest) (attempt : Nat) : Prop :=
  match request.getBody with
  | some get => (get attempt).isSome
  | none => request.body = none

/-- An outcome has a response. -/
def Answered (outcome : Outcome) : Prop := ∃ status, outcome = .response status

/-- The response and the error after an attempt. -/
def LastOutcome.after (attempt : Nat) : Outcome → LastOutcome
  | .error => ⟨none, some attempt⟩
  | .response _ => ⟨some attempt, none⟩

section Attempts

variable (cfg : RetryConfig) (request : RetryRequest) (world : CallWorld)

/-- An attempt is to be followed by another one. -/
structure Paused (attempt : Nat) : Prop where
  retried : Retried cfg (world.outcome attempt)
  left : (attempt : Int) + 1 < cfg.maxAttempts
  pause : world.pause attempt = true

/-- What a further attempt is made after. -/
structure Continues (attempt : Nat) : Prop extends Paused cfg world attempt where
  replayable : Replayable request (attempt + 1)

/-- What a call that starts at one attempt and ends with another does. -/
structure Ended (first final : Nat) (run : RetryRun) : Prop where
  ordered : first ≤ final
  sent : run.sent = (List.range' first (final + 1 - first)).map fun attempt =>
    (attempt, request.body)
  again : ∀ attempt, first ≤ attempt → attempt < final → Continues cfg request world attempt
  stopped : ¬ Continues cfg request world final
  response : run.response = (LastOutcome.after final (world.outcome final)).lastResp
  err : run.err = (LastOutcome.after final (world.outcome final)).lastErr
  drained : ∀ attempt, first ≤ attempt → attempt < final → Answered (world.outcome attempt) →
    attempt ∈ run.drained
  finalDrained : final ∈ run.drained ↔
    Answered (world.outcome final) ∧ Paused cfg world final

/-- The policy of a call. -/
structure MeetsPolicy (run : RetryRun) : Prop where
  /-- The attempts are made in order, each with the complete original body. -/
  sent : run.sent = (List.range run.sent.length).map fun attempt => (attempt, request.body)
  once : isRetryableMethod request.method cfg.retryNonIdempotent = false → run.sent.length = 1
  atMost : (run.sent.length : Int) ≤ cfg.maxAttempts
  again : ∀ attempt, attempt + 1 < run.sent.length → Continues cfg request world attempt
  /-- Another attempt is made when the policy calls for one. -/
  stopped : isRetryableMethod request.method cfg.retryNonIdempotent = true →
    ∀ attempt, attempt + 1 = run.sent.length → ¬ Continues cfg request world attempt
  /-- The call returns the outcome of the last attempt: a response or an error. -/
  result : ∃ final, run.sent.length = final + 1 ∧
    ((world.outcome final = .error ∧ run.response = none ∧ run.err = some final) ∨
      (Answered (world.outcome final) ∧ run.response = some final ∧ run.err = none))

end Attempts

variable {cfg : RetryConfig} {request : RetryRequest} {world : CallWorld}

/-- There is at least one attempt. -/
theorem applyRetryDefaults_maxAttempts_pos (cfg : RetryConfig) :
    0 < (applyRetryDefaults cfg).maxAttempts := by
  rw [applyRetryDefaults]
  dsimp only
  split <;> omega

/-- Another attempt is due while there are attempts left and the pause is not cut short. -/
theorem shouldRetry_eq_true_iff {attempt : Nat} :
    shouldRetry cfg world attempt = true ↔
      (attempt : Int) + 1 < cfg.maxAttempts ∧ world.pause attempt = true := by
  rw [shouldRetry, Bool.and_eq_true, decide_eq_true_iff]

/-- A body is there, and complete, exactly if it can be replayed. -/
theorem attemptBody_succ_of_replayable {attempt : Nat}
    (replayable : Replayable request (attempt + 1)) :
    attemptBody request (attempt + 1) = some request.body := by
  rw [attemptBody, if_neg (Nat.succ_ne_zero attempt)]
  cases gets : request.getBody with
  | none =>
      rw [Replayable, gets] at replayable
      simp [show request.body = none from replayable]
  | some get =>
      rw [Replayable, gets] at replayable
      obtain ⟨copy, copied⟩ := Option.isSome_iff_exists.mp replayable
      simp [copied, request.copies get _ copy gets copied]

/-- A body that cannot be sent again leads to no further attempt. -/
theorem attemptBody_succ_of_not_replayable {attempt : Nat}
    (missing : ¬ Replayable request (attempt + 1)) : attemptBody request (attempt + 1) = none := by
  rw [attemptBody, if_neg (Nat.succ_ne_zero attempt)]
  cases gets : request.getBody with
  | none =>
      rw [Replayable, gets] at missing
      exact if_pos (Option.isSome_iff_ne_none.mpr missing)
  | some get =>
      rw [Replayable, gets] at missing
      simpa using missing

/-- The loop ends at once where there is no body to send. -/
theorem retryLoop_of_not_replayable {attempt : Nat} (remaining : Nat) (last : LastOutcome)
    (missing : ¬ Replayable request (attempt + 1)) :
    retryLoop cfg request world (remaining + 1) (attempt + 1) last =
      .stop last.lastResp last.lastErr := by
  rw [retryLoop, attemptBody_succ_of_not_replayable missing]

/-- What an attempt does with the loop behind it. -/
theorem retryLoop_attempt (cfg : RetryConfig) (world : CallWorld) {attempt : Nat}
    (remaining : Nat) (last : LastOutcome)
    (ready : attemptBody request attempt = some request.body)
    (prior : ∀ response, last.lastResp = some response → response < attempt) :
    ∃ drained, (∀ response ∈ drained, response ≤ attempt) ∧
      ((Paused cfg world attempt ∧ (attempt ∈ drained ↔ Answered (world.outcome attempt)) ∧
          retryLoop cfg request world (remaining + 1) attempt last =
            (retryLoop cfg request world remaining (attempt + 1)
              (.after attempt (world.outcome attempt))).attempted attempt request.body drained) ∨
        (¬ Paused cfg world attempt ∧ attempt ∉ drained ∧
          retryLoop cfg request world (remaining + 1) attempt last =
            (RetryRun.stop (LastOutcome.after attempt (world.outcome attempt)).lastResp
              (LastOutcome.after attempt (world.outcome attempt)).lastErr).attempted attempt
                request.body drained)) := by
  have earlier : ∀ response ∈ last.lastResp.toList, response < attempt := fun response member =>
    prior response (Option.mem_toList.mp member)
  rw [retryLoop, ready]
  cases outcome : world.outcome attempt with
  | error =>
      refine ⟨[], by simp, ?_⟩
      by_cases pauses : shouldRetry cfg world attempt = true
      · obtain ⟨left, pause⟩ := shouldRetry_eq_true_iff.mp pauses
        refine .inl ⟨⟨by rw [outcome]; trivial, left, pause⟩, ?_, ?_⟩
        · simp [Answered]
        · simp [pauses, LastOutcome.after]
      · refine .inr ⟨?_, by simp, ?_⟩
        · intro paused
          exact pauses (shouldRetry_eq_true_iff.mpr ⟨paused.left, paused.pause⟩)
        · simp [pauses, LastOutcome.after]
  | response status =>
      by_cases dropped : status ∈ cfg.dropOn
      · refine ⟨[], by simp, .inr ⟨?_, by simp, by simp [dropped, LastOutcome.after]⟩⟩
        intro paused
        have retried := paused.retried
        rw [outcome] at retried
        exact retried.2 dropped
      · by_cases backs : status ∈ cfg.backoffOn
        · by_cases pauses : shouldRetry cfg world attempt = true
          · obtain ⟨left, pause⟩ := shouldRetry_eq_true_iff.mp pauses
            refine ⟨last.lastResp.toList ++ [attempt], ?_, .inl ⟨⟨?_, left, pause⟩, ?_, ?_⟩⟩
            · intro response member
              rcases List.mem_append.mp member with old | new
              · exact (earlier response old).le
              · exact (List.mem_singleton.mp new).le
            · rw [outcome]
              exact ⟨backs, dropped⟩
            · simp [Answered]
            · simp [dropped, backs, pauses, LastOutcome.after]
          · refine ⟨last.lastResp.toList, fun response member => (earlier response member).le,
              .inr ⟨?_, fun member => Nat.lt_irrefl _ (earlier attempt member), ?_⟩⟩
            · intro paused
              exact pauses (shouldRetry_eq_true_iff.mpr ⟨paused.left, paused.pause⟩)
            · simp [dropped, backs, pauses, LastOutcome.after]
        · refine ⟨[], by simp, .inr ⟨?_, by simp, by simp [dropped, backs, LastOutcome.after]⟩⟩
          intro paused
          have retried := paused.retried
          rw [outcome] at retried
          exact backs retried.1

/-- The call ends with an attempt that does not continue. -/
theorem Ended.final {attempt : Nat} {drained : List Nat}
    (stopped : ¬ Continues cfg request world attempt)
    (member : attempt ∈ drained ↔ Answered (world.outcome attempt) ∧ Paused cfg world attempt) :
    Ended cfg request world attempt attempt
      ((RetryRun.stop (LastOutcome.after attempt (world.outcome attempt)).lastResp
        (LastOutcome.after attempt (world.outcome attempt)).lastErr).attempted attempt
          request.body drained) where
  ordered := Nat.le_refl _
  sent := by simp [RetryRun.attempted, RetryRun.stop]
  again other above below := absurd (Nat.lt_of_le_of_lt above below) (Nat.lt_irrefl _)
  stopped := stopped
  response := rfl
  err := rfl
  drained other above below := absurd (Nat.lt_of_le_of_lt above below) (Nat.lt_irrefl _)
  finalDrained := by simpa [RetryRun.attempted, RetryRun.stop] using member

/-- An attempt that continues in front of the rest of the call. -/
theorem Ended.attempted {attempt final : Nat} {rest : RetryRun} {drained : List Nat}
    (ended : Ended cfg request world (attempt + 1) final rest)
    (again : Continues cfg request world attempt)
    (member : attempt ∈ drained ↔ Answered (world.outcome attempt))
    (within : ∀ response ∈ drained, response ≤ attempt) :
    Ended cfg request world attempt final (rest.attempted attempt request.body drained) where
  ordered := Nat.le_of_succ_le ended.ordered
  sent := by
    have length : final + 1 - attempt = (final + 1 - (attempt + 1)) + 1 := by
      have ordered := ended.ordered
      omega
    rw [length, List.range'_succ, List.map_cons, RetryRun.attempted, ended.sent]
  again other above below := by
    rcases Nat.eq_or_lt_of_le above with same | later
    · rwa [← same]
    · exact ended.again other later below
  stopped := ended.stopped
  response := ended.response
  err := ended.err
  drained other above below answered := by
    rcases Nat.eq_or_lt_of_le above with same | later
    · subst same
      exact List.mem_append_left _ (member.mpr answered)
    · exact List.mem_append_right _ (ended.drained other later below answered)
  finalDrained := by
    rw [← ended.finalDrained, RetryRun.attempted, List.mem_append]
    refine or_iff_right ?_
    intro early
    have bound := within final early
    have ordered := ended.ordered
    omega

/-- Run lemma: the loop ends with the first attempt that does not continue. -/
theorem exists_ended (remaining : Nat) {attempt : Nat} {last : LastOutcome}
    (total : (attempt : Int) + remaining + 1 = cfg.maxAttempts)
    (ready : attemptBody request attempt = some request.body)
    (prior : ∀ response, last.lastResp = some response → response < attempt) :
    ∃ final, Ended cfg request world attempt final
      (retryLoop cfg request world (remaining + 1) attempt last) := by
  induction remaining generalizing attempt last with
  | zero =>
      obtain ⟨drained, within, ⟨paused, _, _⟩ | ⟨stays, kept, run⟩⟩ :=
        retryLoop_attempt cfg world 0 last ready prior
      · have left := paused.left
        omega
      · rw [run]
        exact ⟨attempt, .final (fun again => stays again.toPaused) (by simp [kept, stays])⟩
  | succ remaining ih =>
      obtain ⟨drained, within, ⟨paused, member, run⟩ | ⟨stays, kept, run⟩⟩ :=
        retryLoop_attempt cfg world (remaining + 1) last ready prior
      · rw [run]
        by_cases replayable : Replayable request (attempt + 1)
        · have below : ∀ response,
              (LastOutcome.after attempt (world.outcome attempt)).lastResp = some response →
                response < attempt + 1 := by
            intro response found
            cases outcome : world.outcome attempt <;> rw [outcome] at found <;> cases found
            exact Nat.lt_succ_self attempt
          obtain ⟨final, ended⟩ := ih (by push_cast; omega)
            (attemptBody_succ_of_replayable replayable) below
          exact ⟨final, ended.attempted ⟨paused, replayable⟩ member within⟩
        · rw [retryLoop_of_not_replayable remaining _ replayable]
          refine ⟨attempt, .final (fun again => replayable again.replayable) ?_⟩
          rw [member]
          exact (and_iff_left paused).symm
      · rw [run]
        exact ⟨attempt, .final (fun again => stays again.toPaused) (by simp [kept, stays])⟩

/-- A call with a retryable method ends with an attempt that does not continue. -/
theorem roundTrip_ended (world : CallWorld) (positive : 0 < cfg.maxAttempts)
    (retryable : isRetryableMethod request.method cfg.retryNonIdempotent = true) :
    ∃ final, Ended cfg request world 0 final (roundTrip cfg request world) := by
  obtain ⟨remaining, total⟩ := Int.eq_ofNat_of_zero_le (Int.le_sub_one_of_lt positive)
  have attempts : cfg.maxAttempts.toNat = remaining + 1 := by omega
  rw [roundTrip, if_pos retryable, attempts]
  exact exists_ended remaining (by omega) (if_pos rfl) nofun

/-- A call with another method is a single attempt. -/
theorem roundTrip_of_not_retryable
    (fixed : isRetryableMethod request.method cfg.retryNonIdempotent = false) :
    roundTrip cfg request world =
      (RetryRun.stop (LastOutcome.after 0 (world.outcome 0)).lastResp
        (LastOutcome.after 0 (world.outcome 0)).lastErr).attempted 0 request.body [] := by
  rw [roundTrip, fixed]
  cases world.outcome 0 <;> rfl

/-- A call that ended with an attempt has made it and those before it. -/
theorem Ended.length_sent {final : Nat} {run : RetryRun}
    (ended : Ended cfg request world 0 final run) : run.sent.length = final + 1 := by
  rw [ended.sent, List.length_map, List.length_range', Nat.sub_zero]

/-- What is returned is the outcome of one attempt. -/
theorem after_eq (attempt : Nat) (outcome : Outcome) :
    (outcome = .error ∧ (LastOutcome.after attempt outcome).lastResp = none ∧
        (LastOutcome.after attempt outcome).lastErr = some attempt) ∨
      (Answered outcome ∧ (LastOutcome.after attempt outcome).lastResp = some attempt ∧
        (LastOutcome.after attempt outcome).lastErr = none) := by
  cases outcome with
  | error => exact .inl ⟨rfl, rfl, rfl⟩
  | response status => exact .inr ⟨⟨status, rfl⟩, rfl, rfl⟩

/-- A call that ended has met the policy. -/
theorem Ended.meetsPolicy {final : Nat} {run : RetryRun}
    (ended : Ended cfg request world 0 final run) (positive : 0 < cfg.maxAttempts)
    (retryable : isRetryableMethod request.method cfg.retryNonIdempotent = true) :
    MeetsPolicy cfg request world run where
  sent := by
    rw [ended.length_sent, ended.sent, Nat.sub_zero, List.range_eq_range']
  once fixed := by
    rw [retryable] at fixed
    cases fixed
  atMost := by
    rw [ended.length_sent]
    cases final with
    | zero => exact_mod_cast positive
    | succ previous =>
        have left := (ended.again previous (Nat.zero_le _) (Nat.lt_succ_self _)).left
        push_cast
        omega
  again attempt below := by
    rw [ended.length_sent] at below
    exact ended.again attempt (Nat.zero_le _) (by omega)
  stopped _ attempt last := by
    rw [ended.length_sent] at last
    rw [Nat.succ_injective last]
    exact ended.stopped
  result := by
    refine ⟨final, ended.length_sent, ?_⟩
    rw [ended.response, ended.err]
    exact after_eq final (world.outcome final)

/-- `retryTripper.RoundTrip` meets its policy. -/
theorem roundTrip_meetsPolicy (cfg : RetryConfig) (request : RetryRequest) (world : CallWorld) :
    MeetsPolicy (applyRetryDefaults cfg) request world
      (roundTrip (applyRetryDefaults cfg) request world) := by
  have positive := applyRetryDefaults_maxAttempts_pos cfg
  cases retryable : isRetryableMethod request.method (applyRetryDefaults cfg).retryNonIdempotent with
  | true =>
      obtain ⟨final, ended⟩ := roundTrip_ended world positive retryable
      exact ended.meetsPolicy positive retryable
  | false =>
      rw [roundTrip_of_not_retryable retryable]
      refine ⟨rfl, fun _ => rfl, ?_, ?_, ?_, 0, rfl, after_eq 0 (world.outcome 0)⟩
      · exact_mod_cast positive
      · intro attempt below
        exact absurd below (by simp [RetryRun.attempted, RetryRun.stop])
      · intro retried
        rw [retryable] at retried
        cases retried

end Restitch.Upstream
