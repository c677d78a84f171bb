import Restitch.Semantics.Transition
import Restitch.Upstream.RequestKey

/-!
# The circuit breaker (`internal/upstream/breaker.go`)

`breakerTripper` around the auth RoundTripper of an upstream around its transport. The
breaker itself is a library: its states and its two steps are a parameter here, and what
is documented of them are laws.
-/

namespace Restitch.Upstream

/-- `BreakerConfig`. Durations are in nanoseconds. -/
structure BreakerConfig where
  maxFailures : Int
  interval : Int
  timeout : Int

/-- The states of a circuit breaker. -/
inductive BreakerPhase where
  | closed
  | opened
  | halfOpen
deriving DecidableEq

/-- `gobreaker.CircuitBreaker`: what it does before and after a request, at a time. A
request that is refused is not made. -/
structure Gobreaker (Breaker : Type) where
  new : Breaker
  phase : Breaker → BreakerPhase
  consecutiveFailures : Breaker → Nat
  /-- The interval of the closed state is over at that time. -/
  expired : Breaker → Int → Bool
  beforeRequest : Breaker → Int → Breaker × Bool
  afterRequest : Breaker → Int → (success : Bool) → Breaker

/-- What is documented of the closed state. The end of an interval and a change of the
state clear the counts, which are 32 bits wide. -/
structure Gobreaker.Lawful {Breaker : Type} (library : Gobreaker Breaker)
    (readyToTrip : Nat → Bool) : Prop where
  new : library.phase library.new = .closed ∧ library.consecutiveFailures library.new = 0
  admits : ∀ breaker now, library.phase breaker = .closed →
    (library.beforeRequest breaker now).2 = true ∧
      library.phase (library.beforeRequest breaker now).1 = .closed ∧
      library.consecutiveFailures (library.beforeRequest breaker now).1 =
        if library.expired breaker now then 0 else library.consecutiveFailures breaker
  expires : ∀ breaker now success, library.phase breaker = .closed →
    library.expired breaker now = true →
      library.phase (library.afterRequest breaker now success) = .closed ∧
        library.consecutiveFailures (library.afterRequest breaker now success) = 0
  succeeds : ∀ breaker now, library.phase breaker = .closed →
    library.expired breaker now = false →
      library.phase (library.afterRequest breaker now true) = .closed ∧
        library.consecutiveFailures (library.afterRequest breaker now true) = 0
  trips : ∀ breaker now, library.phase breaker = .closed →
    library.expired breaker now = false →
    readyToTrip (library.consecutiveFailures breaker + 1) = true →
      library.phase (library.afterRequest breaker now false) = .opened
  counts : ∀ breaker now, library.phase breaker = .closed →
    library.expired breaker now = false →
    library.consecutiveFailures breaker + 1 < 4294967296 →
    readyToTrip (library.consecutiveFailures breaker + 1) = false →
      library.phase (library.afterRequest breaker now false) = .closed ∧
        library.consecutiveFailures (library.afterRequest breaker now false) =
          library.consecutiveFailures breaker + 1
  staysApart : ∀ breaker now, library.phase breaker ≠ .closed →
    library.phase (library.beforeRequest breaker now).1 ≠ .closed
  closes : ∀ breaker now success, library.phase breaker ≠ .closed →
    library.phase (library.afterRequest breaker now success) = .closed →
      library.consecutiveFailures (library.afterRequest breaker now success) = 0

/-- A response of the transport. -/
structure UpstreamResponse where
  statusCode : Int
  body : List UInt8
deriving DecidableEq

/-- What the transport does with a request: a response, or an error that is
`context.Canceled` or another one. -/
inductive TransportOutcome where
  | response (resp : UpstreamResponse)
  | failed (canceled : Bool)
deriving DecidableEq

/-- Why a call has no response. -/
inductive CallError where
  | unsent (error : AuthError) (canceled : Bool)
  | transport (canceled : Bool)
  | circuitOpen
deriving DecidableEq

/-- One call: the execution that makes it, whether its token source fails with
`context.Canceled` if it fails, what the transport does if the request reaches it, and when
the call begins and ends. -/
structure UpstreamCall where
  execution : StepExecution
  tokenCanceled : Bool
  outcome : TransportOutcome
  start : Int
  stop : Int

/-- `errors.Is(err, context.Canceled)`. -/
def CallError.isCanceled : CallError → Bool
  | .unsent _ canceled => canceled
  | .transport canceled => canceled
  | .circuitOpen => false

/-- The auth RoundTripper around the transport. -/
def authRoundTrip (call : UpstreamCall) : Except CallError UpstreamResponse :=
  match credential call.execution with
  | .error .missingAuthHeader => .error (.unsent .missingAuthHeader false)
  | .error .tokenRefreshFailed => .error (.unsent .tokenRefreshFailed call.tokenCanceled)
  | .ok _ =>
      match call.outcome with
      | .response resp => .ok resp
      | .failed canceled => .error (.transport canceled)

/-- An error inside of the breaker: a `breakerNonFailure`, `errBreakerCountedStatus`, or
the error of the call. -/
inductive InnerError where
  | nonFailure (err : CallError)
  | countedStatus
  | other (err : CallError)
deriving DecidableEq

/-- The function that the breaker runs. -/
def innerRoundTrip (call : UpstreamCall) : Option UpstreamResponse × Option InnerError :=
  match authRoundTrip call with
  | .error err =>
      if err.isCanceled then (none, some (.nonFailure err)) else (none, some (.other err))
  | .ok resp =>
      if 500 ≤ resp.statusCode then (some resp, some .countedStatus) else (some resp, none)

/-- `IsSuccessful`. -/
def isSuccessful (err : Option InnerError) : Bool := err.isNone

/-- `ReadyToTrip`: the bound is converted to `uint32`. -/
def readyToTrip (cfg : BreakerConfig) (consecutiveFailures : Nat) : Bool :=
  cfg.maxFailures % 4294967296 ≤ (consecutiveFailures : Int)

/-- What `RoundTrip` makes of the result of the breaker. -/
def unwrapResult (resp : Option UpstreamResponse) :
    Option InnerError → Option UpstreamResponse × Option CallError
  | some (.nonFailure err) => (none, some err)
  | some .countedStatus => (resp, none)
  | some (.other err) => (none, some err)
  | none => (resp, none)

/-- `breakerTripper.RoundTrip`. -/
def breakerRoundTrip {Breaker : Type} (library : Gobreaker Breaker) (breaker : Breaker)
    (call : UpstreamCall) : Breaker × Option UpstreamResponse × Option CallError :=
  let before := library.beforeRequest breaker call.start
  if before.2 then
    let inner := innerRoundTrip call
    (library.afterRequest before.1 call.stop (isSuccessful inner.2),
      unwrapResult inner.1 inner.2)
  else (before.1, none, some .circuitOpen)

end Restitch.Upstream
