import Mathlib.Order.Monotone.Basic
import Restitch.Upstream.RetryAfter
import Restitch.Upstream.RetryBodies

/-!
# Whose retry block counts (`internal/upstream/retry.go`, `internal/composition`)

A step and its upstream can both have a `retry` block. The upstream's goes into the chain
of RoundTrippers that `Build` makes; `WithRetryOverride` would carry the step's into a call.
A policy also decides how long a call pauses, and with it how many attempts a step makes
before its context is done.
-/

namespace Restitch.Upstream

/-- The retry settings of a step, and the method and the body it sends. -/
structure RetriedStep where
  method : String
  body : Option (List UInt8)
  retry : Option RetryConfig
  upstreamRetry : Option RetryConfig

/-- The value that a request's context has for `retryOverrideKey`. -/
structure CallContext where
  retryOverride : Option RetryConfig
deriving DecidableEq

/-- `WithRetryOverride`. -/
def CallContext.withRetryOverride (ctx : CallContext) (cfg : RetryConfig) : CallContext :=
  { ctx with retryOverride := some cfg }

/-- `effectiveConfig` of a retryTripper that was made with this configuration. -/
def effectiveConfig (own : RetryConfig) (ctx : CallContext) : RetryConfig :=
  match ctx.retryOverride with
  | some override => applyRetryDefaults override
  | none => applyRetryDefaults own

/-! ### What a step meets -/

/-- How the attempts of a step end and how long each of them takes, the Retry-After headers
of the responses (the empty string without one), what the random factors make of a backoff,
and when the context of the step is done: at its timeout or when the client leaves, if ever.
Times are in nanoseconds. -/
structure StepWorld where
  outcome : Nat → Outcome
  latency : Nat → Nat
  retryAfter : Nat → String
  jitter : Nat → Int → Int
  done : Option Nat

/-- The response that `shouldRetry` is given, by its Retry-After header. -/
def retryAfterOf (value : String) : Outcome → Option String
  | .error => none
  | .response _ => some value

/-- How long a timer of `sleepDur` runs. With a negative duration it fires at once. -/
def pauseLength (cfg : RetryConfig) (attempt : Nat) (jitter : Int → Int)
    (resp : Option String) : Nat :=
  (sleepDur cfg attempt jitter resp).toNat

/-- The pause behind an attempt under a policy. -/
def StepWorld.pauseAfter (world : StepWorld) (cfg : RetryConfig) (attempt : Nat) : Nat :=
  pauseLength cfg attempt (world.jitter attempt)
    (retryAfterOf (world.retryAfter attempt) (world.outcome attempt))

/-- When the timer behind an attempt fires, from the start of the call on. -/
def StepWorld.firesAt (world : StepWorld) (cfg : RetryConfig) : Nat → Nat
  | 0 => world.latency 0 + world.pauseAfter cfg 0
  | attempt + 1 =>
      world.firesAt cfg attempt + world.latency (attempt + 1) + world.pauseAfter cfg (attempt + 1)

/-- What a call meets under a policy. The `select` of `shouldRetry` ends with the timer if
that fires before the context is done. -/
def StepWorld.under (world : StepWorld) (cfg : RetryConfig) : CallWorld where
  outcome := world.outcome
  pause attempt := world.done.all fun done => world.firesAt cfg attempt < done

/-! ### The attempts of a step -/

/-- One attempt, without a retryTripper in the chain. -/
def singleAttempt (request : RetryRequest) (outcome : Outcome) : RetryRun :=
  (RetryRun.stop (LastOutcome.after 0 outcome).lastResp
    (LastOutcome.after 0 outcome).lastErr).attempted 0 request.body []

/-- A call of the client that `Build` makes. -/
def clientRoundTrip (retry : Option RetryConfig) (ctx : CallContext) (request : RetryRequest)
    (world : StepWorld) : RetryRun :=
  match retry with
  | some own =>
      let cfg := effectiveConfig own ctx
      roundTrip cfg request (world.under cfg)
  | none => singleAttempt request (world.outcome 0)

/-- The request of a step: its bytes can be read any number of times. -/
def RetriedStep.request (step : RetriedStep) : RetryRequest where
  method := step.method
  body := step.body
  getBody := step.body.map fun bytes _ => some bytes
  copies get attempt copy gets copied := by
    obtain ⟨bytes, body, rfl⟩ := Option.map_eq_some_iff.mp gets
    rw [body, ← copied]

/-- What `Execute` hands to the client: its context as it came, which has no override. -/
def RetriedStep.context (_step : RetriedStep) : CallContext := ⟨none⟩

/-- The attempts that `Execute` makes for a step. -/
def RetriedStep.attempts (step : RetriedStep) (world : StepWorld) : Nat :=
  (clientRoundTrip step.upstreamRetry step.context step.request world).sent.length

/-- The attempts under a policy, a single one without. -/
def policyAttempts (retry : Option RetryConfig) (request : RetryRequest) (world : StepWorld) :
    Nat :=
  match retry with
  | some own =>
      let cfg := applyRetryDefaults own
      (roundTrip cfg request (world.under cfg)).sent.length
  | none => 1

/-- The policy a step is promised: its own, or else its upstream's. -/
def RetriedStep.promised (step : RetriedStep) : Option RetryConfig :=
  step.retry <|> step.upstreamRetry

/-! ### When two policies are one -/

/-- The statuses that a call can be answered with, and the random factors that can be drawn. -/
structure Possible where
  status : Int → Prop
  jitter : (Int → Int) → Prop
  drawn : ∃ factor, jitter factor

/-- An attempt can fail, and be answered with the possible statuses. -/
def Possible.Allows (possible : Possible) : Outcome → Prop
  | .error => True
  | .response status => possible.status status

/-- What a step meets is possible. -/
structure StepWorld.Within (possible : Possible) (world : StepWorld) : Prop where
  outcome : ∀ attempt, possible.Allows (world.outcome attempt)
  jitter : ∀ attempt, possible.jitter (world.jitter attempt)

/-- A policy that makes more than one attempt for some outcomes. -/
def Repeats (method : String) (retry : Option RetryConfig) : Prop :=
  ∃ cfg, retry = some cfg ∧
    isRetryableMethod method (applyRetryDefaults cfg).retryNonIdempotent = true ∧
    1 < (applyRetryDefaults cfg).maxAttempts

/-- Two policies agree on the number of attempts, on the outcomes to try again, and on the
pauses between two attempts. -/
structure SameTries (possible : Possible) (first second : RetryConfig) : Prop where
  maxAttempts : (applyRetryDefaults first).maxAttempts = (applyRetryDefaults second).maxAttempts
  retried : ∀ outcome, possible.Allows outcome →
    (Retried (applyRetryDefaults first) outcome ↔ Retried (applyRetryDefaults second) outcome)
  pauses : ∀ (attempt : Nat) (jitter : Int → Int) (outcome : Outcome) (value : String),
    (attempt : Int) + 1 < (applyRetryDefaults first).maxAttempts → possible.jitter jitter →
    possible.Allows outcome → Retried (applyRetryDefaults first) outcome →
    pauseLength (applyRetryDefaults first) attempt jitter (retryAfterOf value outcome) =
      pauseLength (applyRetryDefaults second) attempt jitter (retryAfterOf value outcome)

/-- Two policies that make the same attempts: none repeats a call, or both do and agree. -/
def SamePolicy (possible : Possible) (method : String) (first second : Option RetryConfig) :
    Prop :=
  (¬ Repeats method first ∧ ¬ Repeats method second) ∨
    (Repeats method first ∧ Repeats method second ∧
      ∀ cfg cfg', first = some cfg → second = some cfg' → SameTries possible cfg cfg')

variable {cfg cfg' : RetryConfig} {request : RetryRequest} {world : StepWorld}
  {possible : Possible}

/-- `Execute` makes the attempts of the upstream's policy. -/
theorem RetriedStep.attempts_eq (step : RetriedStep) (world : StepWorld) :
    step.attempts world = policyAttempts step.upstreamRetry step.request world := by
  rw [attempts]
  cases step.upstreamRetry <;> rfl

/-- A call with the override would make the attempts of the override, at an upstream that
has a retry block. -/
theorem clientRoundTrip_withRetryOverride (own : RetryConfig) (ctx : CallContext)
    (request : RetryRequest) (world : StepWorld) :
    (clientRoundTrip (some own) (ctx.withRetryOverride cfg) request world).sent.length =
      policyAttempts (some cfg) request world := rfl

/-- The bytes of a step can always be sent again. -/
theorem RetriedStep.replayable (step : RetriedStep) (attempt : Nat) :
    Replayable step.request attempt := by
  obtain ⟨method, body, retry, upstreamRetry⟩ := step
  cases body with
  | none => exact (rfl : (none : Option (List UInt8)) = none)
  | some bytes => exact (rfl : (some bytes).isSome = true)

/-- A policy that never repeats a call makes one attempt. -/
theorem policyAttempts_of_not_repeats {retry : Option RetryConfig}
    (never : ¬ Repeats request.method retry) : policyAttempts retry request world = 1 := by
  cases retry with
  | none => rfl
  | some cfg =>
      rw [policyAttempts]
      have meets := roundTrip_meetsPolicy cfg request (world.under (applyRetryDefaults cfg))
      obtain ⟨final, length, _⟩ := meets.result
      cases retryable :
          isRetryableMethod request.method (applyRetryDefaults cfg).retryNonIdempotent with
      | false => exact meets.once retryable
      | true =>
          have few : (applyRetryDefaults cfg).maxAttempts ≤ 1 := by
            by_contra more
            exact never ⟨cfg, rfl, retryable, Int.not_le.mp more⟩
          have bound := meets.atMost
          omega

section Length

variable {callWorld : CallWorld}

/-- The attempts of a call are those up to the first one that does not continue. -/
theorem length_sent_eq (final : Nat)
    (retryable : isRetryableMethod request.method (applyRetryDefaults cfg).retryNonIdempotent = true)
    (again : ∀ earlier < final, Continues (applyRetryDefaults cfg) request callWorld earlier)
    (stopped : ¬ Continues (applyRetryDefaults cfg) request callWorld final) :
    (roundTrip (applyRetryDefaults cfg) request callWorld).sent.length = final + 1 := by
  obtain ⟨found, ended⟩ :=
    roundTrip_ended callWorld (applyRetryDefaults_maxAttempts_pos cfg) retryable
  rw [ended.length_sent, ended.final_eq again stopped]

/-- A call that continues behind some attempt makes another one. -/
theorem lt_length_sent {attempt : Nat}
    (retryable : isRetryableMethod request.method (applyRetryDefaults cfg).retryNonIdempotent = true)
    (again : ∀ earlier ≤ attempt, Continues (applyRetryDefaults cfg) request callWorld earlier) :
    attempt + 1 < (roundTrip (applyRetryDefaults cfg) request callWorld).sent.length := by
  obtain ⟨final, ended⟩ :=
    roundTrip_ended callWorld (applyRetryDefaults_maxAttempts_pos cfg) retryable
  rw [ended.length_sent]
  by_contra short
  exact ended.stopped (again final (by omega))

end Length

/-! ### Policies that agree -/

/-- Timers fire at the same times under policies with the same pauses. -/
theorem StepWorld.firesAt_congr (world : StepWorld) {attempt : Nat}
    (pauses : ∀ earlier ≤ attempt, world.pauseAfter cfg earlier = world.pauseAfter cfg' earlier) :
    world.firesAt cfg attempt = world.firesAt cfg' attempt := by
  induction attempt with
  | zero => rw [firesAt, firesAt, pauses 0 (Nat.le_refl 0)]
  | succ attempt ih =>
      rw [firesAt, firesAt, ih fun earlier below => pauses earlier (Nat.le_succ_of_le below),
        pauses (attempt + 1) (Nat.le_refl _)]

/-- The first pause that is shorter under one of two policies ends earlier under it. -/
theorem StepWorld.firesAt_lt (world : StepWorld) {attempt : Nat}
    (before : ∀ earlier < attempt, world.pauseAfter cfg earlier = world.pauseAfter cfg' earlier)
    (shorter : world.pauseAfter cfg attempt < world.pauseAfter cfg' attempt) :
    world.firesAt cfg attempt < world.firesAt cfg' attempt := by
  cases attempt with
  | zero => exact Nat.add_lt_add_left shorter _
  | succ attempt =>
      have start : world.firesAt cfg attempt = world.firesAt cfg' attempt :=
        world.firesAt_congr fun earlier within => before earlier (Nat.lt_succ_of_le within)
      rw [firesAt, firesAt, start]
      exact Nat.add_lt_add_left shorter _

/-- A later timer fires later. -/
theorem StepWorld.firesAt_mono (world : StepWorld) (cfg : RetryConfig) :
    Monotone (world.firesAt cfg) := by
  refine monotone_nat_of_le_succ fun attempt => ?_
  rw [firesAt, Nat.add_assoc]
  exact Nat.le_add_right _ _

/-- Under policies that agree, a call gets behind the same attempts. -/
theorem SameTries.continues_iff (same : SameTries possible cfg cfg')
    (within : world.Within possible) {attempt : Nat}
    (earlier : ∀ before < attempt, Retried (applyRetryDefaults cfg) (world.outcome before)) :
    Continues (applyRetryDefaults cfg) request (world.under (applyRetryDefaults cfg)) attempt ↔
      Continues (applyRetryDefaults cfg') request (world.under (applyRetryDefaults cfg'))
        attempt := by
  have retried := same.retried _ (within.outcome attempt)
  by_cases paused : Retried (applyRetryDefaults cfg) (world.outcome attempt) ∧
      (attempt : Int) + 1 < (applyRetryDefaults cfg).maxAttempts
  · obtain ⟨again, left⟩ := paused
    have fires : world.firesAt (applyRetryDefaults cfg) attempt =
        world.firesAt (applyRetryDefaults cfg') attempt := by
      refine world.firesAt_congr fun before below => ?_
      refine same.pauses before _ _ _ (by omega) (within.jitter before) (within.outcome before) ?_
      rcases Nat.lt_or_eq_of_le below with less | rfl
      · exact earlier before less
      · exact again
    have pause : (world.under (applyRetryDefaults cfg)).pause attempt =
        (world.under (applyRetryDefaults cfg')).pause attempt := by
      rw [StepWorld.under, StepWorld.under]
      dsimp only
      rw [fires]
    exact ⟨fun continues => ⟨⟨retried.mp again, same.maxAttempts ▸ left, pause ▸ continues.pause⟩,
        continues.replayable⟩,
      fun continues => ⟨⟨again, left, pause ▸ continues.pause⟩, continues.replayable⟩⟩
  · refine iff_of_false ?_ ?_
    · exact fun continues => paused ⟨continues.retried, continues.left⟩
    · exact fun continues => paused
        ⟨retried.mpr continues.retried, same.maxAttempts ▸ continues.left⟩

/-- Policies that agree make the same attempts, whatever a step meets. -/
theorem length_sent_congr
    (retryable : isRetryableMethod request.method (applyRetryDefaults cfg).retryNonIdempotent = true)
    (retryable' :
      isRetryableMethod request.method (applyRetryDefaults cfg').retryNonIdempotent = true)
    (same : SameTries possible cfg cfg') (within : world.Within possible) :
    policyAttempts (some cfg) request world = policyAttempts (some cfg') request world := by
  rw [policyAttempts, policyAttempts]
  obtain ⟨final, ended⟩ := roundTrip_ended (world.under (applyRetryDefaults cfg))
    (applyRetryDefaults_maxAttempts_pos cfg) retryable
  have again : ∀ earlier < final, Continues (applyRetryDefaults cfg) request
      (world.under (applyRetryDefaults cfg)) earlier :=
    fun earlier below => ended.again earlier (Nat.zero_le _) below
  rw [ended.length_sent]
  refine (length_sent_eq final retryable' ?_ ?_).symm
  · intro earlier below
    refine (same.continues_iff within fun before less => ?_).mp (again earlier below)
    exact (again before (less.trans below)).retried
  · intro continues
    exact ended.stopped ((same.continues_iff within fun before less =>
      (again before less).retried).mpr continues)

/-! ### Policies that make the same attempts -/

/-- The same outcome, header and random factor for every attempt. The attempts take no time. -/
def StepWorld.constant (outcome : Outcome) (value : String) (jitter : Int → Int)
    (done : Option Nat) : StepWorld where
  outcome _ := outcome
  latency _ := 0
  retryAfter _ := value
  jitter _ := jitter
  done := done

/-- What happens at every attempt is possible if it is once. -/
theorem StepWorld.within_constant {outcome : Outcome} {value : String} {jitter : Int → Int}
    {done : Option Nat} (allowed : possible.Allows outcome) (drawn : possible.jitter jitter) :
    (StepWorld.constant outcome value jitter done).Within possible :=
  ⟨fun _ => allowed, fun _ => drawn⟩

section Constant

variable {outcome : Outcome} {value : String} {jitter : Int → Int}

/-- When a timer fires does not depend on when the context is done. -/
theorem StepWorld.firesAt_constant (done : Option Nat) (cfg : RetryConfig) (attempt : Nat) :
    (StepWorld.constant outcome value jitter done).firesAt cfg attempt =
      (StepWorld.constant outcome value jitter none).firesAt cfg attempt := by
  induction attempt with
  | zero => rfl
  | succ attempt ih =>
      rw [firesAt, ih]
      rfl

variable (value jitter) in
/-- An outcome to be tried again uses up all attempts if the context is never done. -/
theorem length_sent_of_retried (step : RetriedStep)
    (retryable : isRetryableMethod step.method (applyRetryDefaults cfg).retryNonIdempotent = true)
    (retried : Retried (applyRetryDefaults cfg) outcome) :
    (policyAttempts (some cfg) step.request (.constant outcome value jitter none) : Int) =
      (applyRetryDefaults cfg).maxAttempts := by
  have positive := applyRetryDefaults_maxAttempts_pos cfg
  rw [policyAttempts, length_sent_eq ((applyRetryDefaults cfg).maxAttempts.toNat - 1) retryable]
  · omega
  · intro earlier below
    exact ⟨⟨retried, by omega, rfl⟩, step.replayable _⟩
  · intro again
    have left := again.left
    omega

/-- Another outcome ends the call at once. -/
theorem length_sent_of_not_retried {done : Option Nat}
    (retryable : isRetryableMethod request.method (applyRetryDefaults cfg).retryNonIdempotent = true)
    (other : ¬ Retried (applyRetryDefaults cfg) outcome) :
    policyAttempts (some cfg) request (.constant outcome value jitter done) = 1 := by
  rw [policyAttempts]
  exact length_sent_eq 0 retryable nofun fun again => other again.retried

variable (value jitter) in
/-- A policy that repeats calls makes a single attempt at an outcome exactly if that is not
to be tried again. -/
theorem policyAttempts_eq_one_iff (step : RetriedStep) (repeats : Repeats step.method (some cfg)) :
    policyAttempts (some cfg) step.request (.constant outcome value jitter none) = 1 ↔
      ¬ Retried (applyRetryDefaults cfg) outcome := by
  obtain ⟨_, same, retryable, more⟩ := repeats
  cases same
  refine ⟨fun once retried => ?_, fun other => length_sent_of_not_retried retryable other⟩
  have attempts := length_sent_of_retried value jitter step retryable retried
  omega

/-- A context that is done between the ends of two pauses lets one of two policies make
another attempt and the other one not. -/
theorem policyAttempts_lt_of_pause_lt (step : RetriedStep) {attempt : Nat}
    (repeats : Repeats step.method (some cfg)) (repeats' : Repeats step.method (some cfg'))
    (retried : Retried (applyRetryDefaults cfg) outcome)
    (retried' : Retried (applyRetryDefaults cfg') outcome)
    (left : (attempt : Int) + 1 < (applyRetryDefaults cfg).maxAttempts)
    (left' : (attempt : Int) + 1 < (applyRetryDefaults cfg').maxAttempts)
    (before : ∀ earlier < attempt,
      pauseLength (applyRetryDefaults cfg) earlier jitter (retryAfterOf value outcome) =
        pauseLength (applyRetryDefaults cfg') earlier jitter (retryAfterOf value outcome))
    (shorter : pauseLength (applyRetryDefaults cfg) attempt jitter (retryAfterOf value outcome) <
      pauseLength (applyRetryDefaults cfg') attempt jitter (retryAfterOf value outcome)) :
    ∃ done, policyAttempts (some cfg') step.request (.constant outcome value jitter done) <
      policyAttempts (some cfg) step.request (.constant outcome value jitter done) := by
  obtain ⟨_, same, retryable, _⟩ := repeats
  cases same
  obtain ⟨_, same, retryable', _⟩ := repeats'
  cases same
  let world := StepWorld.constant outcome value jitter none
  have sameTime : ∀ earlier < attempt, world.firesAt (applyRetryDefaults cfg) earlier =
      world.firesAt (applyRetryDefaults cfg') earlier :=
    fun earlier below => world.firesAt_congr fun first within =>
      before first (Nat.lt_of_le_of_lt within below)
  have later : world.firesAt (applyRetryDefaults cfg) attempt <
      world.firesAt (applyRetryDefaults cfg') attempt := world.firesAt_lt before shorter
  let done := world.firesAt (applyRetryDefaults cfg) attempt + 1
  refine ⟨some done, ?_⟩
  have stopped : policyAttempts (some cfg') step.request
      (.constant outcome value jitter (some done)) = attempt + 1 := by
    rw [policyAttempts]
    refine length_sent_eq attempt retryable' (fun earlier below => ?_) fun again => ?_
    · refine ⟨⟨retried', by omega, decide_eq_true ?_⟩, step.replayable _⟩
      rw [StepWorld.firesAt_constant, ← sameTime earlier below]
      exact Nat.lt_succ_of_le (world.firesAt_mono _ below.le)
    · have within := of_decide_eq_true again.pause
      rw [StepWorld.firesAt_constant] at within
      exact absurd later (Nat.not_lt_of_le (Nat.le_of_lt_succ within))
  have continued : attempt + 1 < policyAttempts (some cfg) step.request
      (.constant outcome value jitter (some done)) := by
    rw [policyAttempts]
    refine lt_length_sent retryable fun earlier below => ?_
    refine ⟨⟨retried, by omega, decide_eq_true ?_⟩, step.replayable _⟩
    rw [StepWorld.firesAt_constant]
    exact Nat.lt_succ_of_le (world.firesAt_mono _ below)
  rw [stopped]
  exact continued

end Constant

section Attempts

variable (step : RetriedStep) (repeats : Repeats step.method (some cfg))
  (repeats' : Repeats step.method (some cfg'))
  (equal : ∀ world : StepWorld, world.Within possible →
    policyAttempts (some cfg) step.request world = policyAttempts (some cfg') step.request world)

include repeats repeats' equal

/-- Two policies that make the same attempts use up the same number of attempts. -/
theorem maxAttempts_of_attempts :
    (applyRetryDefaults cfg).maxAttempts = (applyRetryDefaults cfg').maxAttempts := by
  obtain ⟨factor, drawn⟩ := possible.drawn
  obtain ⟨_, same, retryable, _⟩ := id repeats
  cases same
  obtain ⟨_, same, retryable', _⟩ := id repeats'
  cases same
  have error : ∀ cfg, Retried cfg .error := fun _ => trivial
  have attempts := length_sent_of_retried "" factor step retryable (error _)
  have attempts' := length_sent_of_retried "" factor step retryable' (error _)
  have errors : (StepWorld.constant .error "" factor none).Within possible :=
    StepWorld.within_constant trivial drawn
  rw [← attempts, ← attempts', equal _ errors]

/-- Two policies that make the same attempts try the same outcomes again. -/
theorem retried_of_attempts {outcome : Outcome} (allowed : possible.Allows outcome) :
    Retried (applyRetryDefaults cfg) outcome ↔ Retried (applyRetryDefaults cfg') outcome := by
  obtain ⟨factor, drawn⟩ := possible.drawn
  rw [← not_iff_not, ← policyAttempts_eq_one_iff "" factor step repeats,
    ← policyAttempts_eq_one_iff "" factor step repeats',
    equal _ (StepWorld.within_constant allowed drawn)]

/-- Two policies that repeat calls and make the same attempts whatever happens agree. -/
theorem sameTries_of_attempts : SameTries possible cfg cfg' := by
  have most := maxAttempts_of_attempts step repeats repeats' equal
  refine ⟨most, fun outcome => retried_of_attempts step repeats repeats' equal, ?_⟩
  intro attempt jitter outcome value left possibleJitter allowed again
  have again' := (retried_of_attempts step repeats repeats' equal allowed).mp again
  have left' : (attempt : Int) + 1 < (applyRetryDefaults cfg').maxAttempts := most ▸ left
  -- The first pause that differs would show in the attempts.
  induction attempt using Nat.strong_induction_on with
  | _ attempt ih =>
      have before : ∀ earlier < attempt,
          pauseLength (applyRetryDefaults cfg) earlier jitter (retryAfterOf value outcome) =
            pauseLength (applyRetryDefaults cfg') earlier jitter (retryAfterOf value outcome) :=
        fun earlier below => ih earlier below (by omega) (by omega)
      rcases Nat.lt_trichotomy
        (pauseLength (applyRetryDefaults cfg) attempt jitter (retryAfterOf value outcome))
        (pauseLength (applyRetryDefaults cfg') attempt jitter (retryAfterOf value outcome)) with
        shorter | same | longer
      · obtain ⟨done, differ⟩ := policyAttempts_lt_of_pause_lt step repeats repeats' again again' left
          left' before shorter
        exact absurd (equal _ (StepWorld.within_constant allowed possibleJitter)) differ.ne'
      · exact same
      · obtain ⟨done, differ⟩ := policyAttempts_lt_of_pause_lt step repeats' repeats again' again left'
          left (fun earlier below => (before earlier below).symm) longer
        exact absurd (equal _ (StepWorld.within_constant allowed possibleJitter)) differ.ne

end Attempts

/-- Policies that make the same attempts whatever happens are the same policy. -/
theorem samePolicy_of_attempts (step : RetriedStep) (possible : Possible)
    {first second : Option RetryConfig}
    (equal : ∀ world : StepWorld, world.Within possible →
      policyAttempts first step.request world = policyAttempts second step.request world) :
    SamePolicy possible step.method first second := by
  obtain ⟨factor, drawn⟩ := possible.drawn
  have within : (StepWorld.constant .error "" factor none).Within possible :=
    StepWorld.within_constant trivial drawn
  have errors := equal _ within
  by_cases repeats : Repeats step.method first
  · by_cases repeats' : Repeats step.method second
    · refine .inr ⟨repeats, repeats', ?_⟩
      rintro cfg cfg' rfl rfl
      exact sameTries_of_attempts step repeats repeats' equal
    · obtain ⟨cfg, rfl, _, _⟩ := id repeats
      have alone : policyAttempts _ step.request (.constant .error "" factor none) = 1 :=
        policyAttempts_of_not_repeats repeats'
      rw [alone] at errors
      exact absurd trivial ((policyAttempts_eq_one_iff "" factor step repeats).mp errors)
  · by_cases repeats' : Repeats step.method second
    · obtain ⟨cfg, rfl, _, _⟩ := id repeats'
      have alone : policyAttempts _ step.request (.constant .error "" factor none) = 1 :=
        policyAttempts_of_not_repeats repeats
      rw [alone] at errors
      exact absurd trivial ((policyAttempts_eq_one_iff "" factor step repeats').mp errors.symm)
    · exact .inl ⟨repeats, repeats'⟩

/-- The same policy makes the same attempts. -/
theorem policyAttempts_of_samePolicy {first second : Option RetryConfig}
    (same : SamePolicy possible request.method first second) (within : world.Within possible) :
    policyAttempts first request world = policyAttempts second request world := by
  rcases same with ⟨never, never'⟩ | ⟨repeats, repeats', agree⟩
  · rw [policyAttempts_of_not_repeats never, policyAttempts_of_not_repeats never']
  · obtain ⟨cfg, rfl, retryable, _⟩ := repeats
    obtain ⟨cfg', rfl, retryable', _⟩ := repeats'
    exact length_sent_congr retryable retryable' (agree cfg cfg' rfl rfl) within

/-- A step is tried as it is promised, whatever it meets, exactly if it has no retry block of
its own or this block is the same policy as its upstream's. -/
theorem attempts_as_promised_iff (possible : Possible) (step : RetriedStep) :
    (∀ world : StepWorld, world.Within possible →
        step.attempts world = policyAttempts step.promised step.request world) ↔
      step.retry = none ∨ SamePolicy possible step.method step.retry step.upstreamRetry := by
  cases own : step.retry with
  | none =>
      refine iff_of_true ?_ (.inl rfl)
      intro world _
      rw [step.attempts_eq, RetriedStep.promised, own]
      rfl
  | some cfg =>
      have promised : step.promised = some cfg := by
        rw [RetriedStep.promised, own]
        rfl
      rw [promised, or_iff_right (by simp)]
      refine ⟨fun equal => ?_, fun same world within => ?_⟩
      · refine samePolicy_of_attempts step possible fun world within => ?_
        rw [← equal world within, step.attempts_eq]
      · rw [step.attempts_eq]
        exact (policyAttempts_of_samePolicy same within).symm

-- Within a second, a pause of a millisecond ends and the upstream's of five seconds does not.
example :
    let step : RetriedStep :=
      ⟨"GET", none, some ⟨3, 1000000, 0, [], [], false⟩, some ⟨3, 5000000000, 0, [], [], false⟩⟩
    let world := StepWorld.constant (.response 503) "" id (some 1000000000)
    step.attempts world = 1 ∧ policyAttempts step.promised step.request world = 3 := by
  decide

/-- A step that asks for two attempts, at an upstream without a retry block. -/
def twiceStep : RetriedStep where
  method := "GET"
  body := none
  retry := some ⟨2, 0, 0, [], [], false⟩
  upstreamRetry := none

/-- This step is tried once although both attempts were to be made. -/
theorem twiceStep_attempts :
    twiceStep.attempts (.constant (.response 503) "" id none) = 1 ∧
      policyAttempts twiceStep.promised twiceStep.request
        (.constant (.response 503) "" id none) = 2 := by
  decide

end Restitch.Upstream
