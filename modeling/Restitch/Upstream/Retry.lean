import Mathlib.Data.List.Range

/-!
# Retries (`internal/upstream/retry.go`)

`retryTripper.RoundTrip` around any inner RoundTripper. What the attempts end in, and
whether the pause behind each of them ends before the context does, are the inputs of a
call. A response is known by the number of its attempt.
-/

namespace Restitch.Upstream

/-- `RetryConfig`. Durations are in nanoseconds. -/
structure RetryConfig where
  maxAttempts : Int
  interval : Int
  maxBackoff : Int
  backoffOn : List Int
  dropOn : List Int
  retryNonIdempotent : Bool
deriving DecidableEq

/-- `applyRetryDefaults`. -/
def applyRetryDefaults (cfg : RetryConfig) : RetryConfig where
  maxAttempts := if cfg.maxAttempts ≤ 0 then 3 else cfg.maxAttempts
  interval := if cfg.interval ≤ 0 then 250000000 else cfg.interval
  maxBackoff := if cfg.maxBackoff ≤ 0 then 5000000000 else cfg.maxBackoff
  backoffOn := if cfg.backoffOn = [] then [429, 502, 503, 504] else cfg.backoffOn
  dropOn := cfg.dropOn
  retryNonIdempotent := cfg.retryNonIdempotent

/-- `isRetryableMethod`. -/
def isRetryableMethod (method : String) (retryNonIdempotent : Bool) : Bool :=
  retryNonIdempotent || method ∈ ["GET", "HEAD", "OPTIONS", "PUT", "DELETE"]

/-- What an attempt ends in: an error, or a response with this status. -/
inductive Outcome where
  | error
  | response (status : Int)
deriving DecidableEq

/-- A request to the RoundTripper: `none` for a nil `Body` or `GetBody`, and for a call
of `GetBody` that fails. Every copy is the whole body. -/
structure RetryRequest where
  method : String
  body : Option (List UInt8)
  getBody : Option (Nat → Option (List UInt8))
  copies : ∀ get attempt copy, getBody = some get → get attempt = some copy → body = some copy

/-- What a call meets. -/
structure CallWorld where
  outcome : Nat → Outcome
  /-- The pause behind an attempt ends before the context is done. -/
  pause : Nat → Bool

/-- What a call does: the attempts with the bodies they send, the responses it drains and
closes, and the response and the error that it returns. -/
structure RetryRun where
  sent : List (Nat × Option (List UInt8))
  drained : List Nat
  response : Option Nat
  err : Option Nat
deriving DecidableEq

/-- The variables of the loop. -/
structure LastOutcome where
  lastResp : Option Nat
  lastErr : Option Nat

section Loop

variable (cfg : RetryConfig) (request : RetryRequest) (world : CallWorld)

/-- `shouldRetry`. -/
def shouldRetry (attempt : Nat) : Bool :=
  (attempt : Int) + 1 < cfg.maxAttempts && world.pause attempt

/-- A return without another attempt. -/
def RetryRun.stop (response err : Option Nat) : RetryRun := ⟨[], [], response, err⟩

/-- One more attempt before the rest of a call. -/
def RetryRun.attempted (attempt : Nat) (body : Option (List UInt8)) (drained : List Nat)
    (rest : RetryRun) : RetryRun :=
  { rest with sent := (attempt, body) :: rest.sent, drained := drained ++ rest.drained }

/-- The body of an attempt, `none` if there is nothing to send again. -/
def attemptBody (attempt : Nat) : Option (Option (List UInt8)) :=
  if attempt = 0 then some request.body
  else
    match request.getBody with
    | some get => (get attempt).map some
    | none => if request.body.isSome then none else some none

/-- The loop of `RoundTrip` with this many attempts left. Both returns for want of a body
give the last outcome. -/
def retryLoop : (remaining attempt : Nat) → LastOutcome → RetryRun
  | 0, _, last =>
      match last.lastResp with
      | some response => .stop (some response) none
      | none => .stop none last.lastErr
  | remaining + 1, attempt, last =>
      match attemptBody request attempt with
      | none => .stop last.lastResp last.lastErr
      | some body =>
          match world.outcome attempt with
          | .error =>
              if shouldRetry cfg world attempt then
                (retryLoop remaining (attempt + 1) ⟨none, some attempt⟩).attempted attempt body []
              else (RetryRun.stop none (some attempt)).attempted attempt body []
          | .response status =>
              if status ∈ cfg.dropOn then
                (RetryRun.stop (some attempt) none).attempted attempt body []
              else if status ∈ cfg.backoffOn then
                if shouldRetry cfg world attempt then
                  (retryLoop remaining (attempt + 1) ⟨some attempt, none⟩).attempted attempt body
                    (last.lastResp.toList ++ [attempt])
                else
                  (RetryRun.stop (some attempt) none).attempted attempt body last.lastResp.toList
              else (RetryRun.stop (some attempt) none).attempted attempt body []

end Loop

/-- `retryTripper.RoundTrip` under the effective configuration. -/
def roundTrip (cfg : RetryConfig) (request : RetryRequest) (world : CallWorld) : RetryRun :=
  if isRetryableMethod request.method cfg.retryNonIdempotent then
    retryLoop cfg request world cfg.maxAttempts.toNat 0 ⟨none, none⟩
  else
    match world.outcome 0 with
    | .error => (RetryRun.stop none (some 0)).attempted 0 request.body []
    | .response _ => (RetryRun.stop (some 0) none).attempted 0 request.body []

end Restitch.Upstream
