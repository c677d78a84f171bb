import Restitch.Upstream.Breaker
import Restitch.Upstream.KeySoundness

/-!
# What a breaker counts

A run is a sequence of calls through one breaker. Beside the breaker it keeps the count
that the calls are worth: one more for a failure of the upstream, the same for a call that
says nothing about it, none after any other response.
-/

namespace Restitch.Upstream

open Restitch.Semantics

/-- What a call says about the upstream. -/
inductive CallWorth where
  | failure
  | nothing
  | success
deriving DecidableEq

/-- A 5xx status. -/
def ServerError (status : Int) : Prop := 500 ≤ status ∧ status ≤ 599

instance (status : Int) : Decidable (ServerError status) :=
  inferInstanceAs (Decidable (_ ∧ _))

/-- The worth of a call: nothing if it was never sent, or if the client canceled it. -/
def CallWorth.of (call : UpstreamCall) : CallWorth :=
  match credential call.execution with
  | .error _ => .nothing
  | .ok _ =>
      match call.outcome with
      | .failed canceled => if canceled then .nothing else .failure
      | .response resp => if ServerError resp.statusCode then .failure else .success

/-- The count after a call. -/
def CallWorth.count (before : Nat) : CallWorth → Nat
  | .failure => before + 1
  | .nothing => before
  | .success => 0

/-- A breaker, and the count that the calls of its interval are worth. -/
structure WatchedBreaker (Breaker : Type) where
  breaker : Breaker
  count : Nat

section

variable {Breaker : Type} (library : Gobreaker Breaker)

/-- The interval ends while the call runs. -/
def EndsDuring (breaker : Breaker) (call : UpstreamCall) : Prop :=
  library.expired (library.beforeRequest breaker call.start).1 call.stop = true

instance (breaker : Breaker) (call : UpstreamCall) :
    Decidable (EndsDuring library breaker call) :=
  inferInstanceAs (Decidable (_ = true))

/-- The count after a call of a closed breaker: every interval counts from 0. -/
def worthAfter (watched : WatchedBreaker Breaker) (call : UpstreamCall) : Nat :=
  if EndsDuring library watched.breaker call then 0
  else (CallWorth.of call).count
    (if library.expired watched.breaker call.start then 0 else watched.count)

/-- One call. -/
def WatchedBreaker.call (watched : WatchedBreaker Breaker) (call : UpstreamCall) :
    WatchedBreaker Breaker where
  breaker := (breakerRoundTrip library watched.breaker call).1
  count := if library.phase watched.breaker = .closed then worthAfter library watched call else 0

/-- The calls through the breaker of an upstream with this auth. -/
def breakerCalls (auth : AuthStrategy) : System (WatchedBreaker Breaker) UpstreamCall where
  Initial watched := watched = ⟨library.new, 0⟩
  Step watched call next := call.execution.auth = auth ∧ next = watched.call library call

/-- A closed breaker has this count, and it opens with the call that brings the count to
`MaxFailures`. A 5xx response of a call that is made is returned. -/
structure CountsFailures (cfg : BreakerConfig) (watched : WatchedBreaker Breaker)
    (call : UpstreamCall) : Prop where
  count : library.phase watched.breaker = .closed →
    library.consecutiveFailures watched.breaker = watched.count
  opens : library.phase watched.breaker = .closed →
    (library.phase (watched.call library call).breaker = .opened ↔
      (watched.call library call).count = cfg.maxFailures)
  counts : library.phase watched.breaker = .closed →
    library.phase (watched.call library call).breaker ≠ .opened →
      library.phase (watched.call library call).breaker = .closed ∧
      library.consecutiveFailures (watched.call library call).breaker =
        (watched.call library call).count
  returned : ∀ resp, authRoundTrip call = .ok resp → ServerError resp.statusCode →
    (library.beforeRequest watched.breaker call.start).2 = true →
      (breakerRoundTrip library watched.breaker call).2 = (some resp, none)

/-- What a call of a closed breaker has to be: the interval ends during the call, or the
call is sent, it is not canceled, and no status is above 599. -/
def Conclusive (watched : WatchedBreaker Breaker) (call : UpstreamCall) : Prop :=
  library.phase watched.breaker = .closed → EndsDuring library watched.breaker call ∨
    ∃ added, credential call.execution = .ok added ∧ call.outcome ≠ .failed true ∧
      ∀ resp, call.outcome = .response resp → resp.statusCode ≤ 599

end

section Counting

variable {Breaker : Type} {library : Gobreaker Breaker} {cfg : BreakerConfig}

/-- A conclusive call is a failure or a success, and the breaker takes it as such. -/
theorem isSuccessful_innerRoundTrip {call : UpstreamCall} {added : Option (String × List UInt8)}
    (sent : credential call.execution = .ok added) (stayed : call.outcome ≠ .failed true)
    (bounded : ∀ resp, call.outcome = .response resp → resp.statusCode ≤ 599) :
    (CallWorth.of call = .failure ∧ isSuccessful (innerRoundTrip call).2 = false) ∨
      (CallWorth.of call = .success ∧ isSuccessful (innerRoundTrip call).2 = true) := by
  rw [CallWorth.of, innerRoundTrip, authRoundTrip, sent]
  cases outcome : call.outcome with
  | failed canceled =>
      cases canceled with
      | true => exact absurd outcome stayed
      | false => exact .inl ⟨rfl, rfl⟩
  | response resp =>
      have small := bounded resp outcome
      dsimp only
      by_cases server : 500 ≤ resp.statusCode
      · rw [if_pos server, if_pos (show ServerError resp.statusCode from ⟨server, small⟩)]
        exact .inl ⟨rfl, rfl⟩
      · rw [if_neg server, if_neg (fun bad : ServerError resp.statusCode => server bad.1)]
        exact .inr ⟨rfl, rfl⟩

/-- The breaker trips at the configured count. -/
theorem readyToTrip_eq (positive : 1 ≤ cfg.maxFailures) (small : cfg.maxFailures < 4294967296)
    (count : Nat) : readyToTrip cfg count = decide (cfg.maxFailures ≤ (count : Int)) := by
  rw [readyToTrip, Int.emod_eq_of_lt (by omega) small]

/-- The count of a closed breaker is right and below the bound. -/
structure RightCount (library : Gobreaker Breaker) (cfg : BreakerConfig)
    (watched : WatchedBreaker Breaker) : Prop where
  count : library.phase watched.breaker = .closed →
    library.consecutiveFailures watched.breaker = watched.count
  below : library.phase watched.breaker = .closed → (watched.count : Int) < cfg.maxFailures

/-- Step lemma for a closed breaker: it opens with the last failure it can take, or it is
closed with the right count. -/
theorem RightCount.call_closed {watched : WatchedBreaker Breaker} {call : UpstreamCall}
    (lawful : library.Lawful (readyToTrip cfg)) (positive : 1 ≤ cfg.maxFailures)
    (small : cfg.maxFailures < 4294967296) (right : RightCount library cfg watched)
    (closed : library.phase watched.breaker = .closed)
    (conclusive : Conclusive library watched call) :
    (library.phase (watched.call library call).breaker = .opened ∧
        ((watched.call library call).count : Int) = cfg.maxFailures) ∨
      (library.phase (watched.call library call).breaker = .closed ∧
        library.consecutiveFailures (watched.call library call).breaker =
          (watched.call library call).count ∧
        ((watched.call library call).count : Int) < cfg.maxFailures) := by
  obtain ⟨admitted, stillClosed, counted⟩ := lawful.admits watched.breaker call.start closed
  have below := right.below closed
  rw [right.count closed] at counted
  generalize earlier : (if library.expired watched.breaker call.start then 0 else watched.count) =
    before at counted
  have beforeBelow : (before : Int) < cfg.maxFailures := by
    rw [← earlier]
    split <;> omega
  have after : (watched.call library call).breaker =
      library.afterRequest (library.beforeRequest watched.breaker call.start).1 call.stop
        (isSuccessful (innerRoundTrip call).2) := by
    rw [WatchedBreaker.call, breakerRoundTrip, admitted]
    rfl
  have count : (watched.call library call).count =
      if EndsDuring library watched.breaker call then 0 else (CallWorth.of call).count before := by
    rw [WatchedBreaker.call, ← earlier]
    exact if_pos closed
  rw [after, count]
  by_cases ends : EndsDuring library watched.breaker call
  · obtain ⟨closedAfter, cleared⟩ :=
      lawful.expires _ call.stop (isSuccessful (innerRoundTrip call).2) stillClosed ends
    rw [if_pos ends]
    exact .inr ⟨closedAfter, cleared, by omega⟩
  · have running : library.expired (library.beforeRequest watched.breaker call.start).1 call.stop =
        false := Bool.eq_false_iff.mpr ends
    rw [if_neg ends]
    obtain ⟨added, sent, stayed, bounded⟩ := (conclusive closed).resolve_left ends
    rcases isSuccessful_innerRoundTrip sent stayed bounded with ⟨worth, result⟩ | ⟨worth, result⟩
    · rw [worth, result, CallWorth.count]
      by_cases last : cfg.maxFailures ≤ ((before + 1 : Nat) : Int)
      · refine .inl ⟨lawful.trips _ _ stillClosed running ?_, by omega⟩
        rw [counted, readyToTrip_eq positive small, decide_eq_true last]
      · have untripped := lawful.counts _ _ stillClosed running (by omega) (by
          rw [counted, readyToTrip_eq positive small, decide_eq_false last])
        exact .inr ⟨untripped.1, by rw [untripped.2, counted], Int.not_le.mp last⟩
    · rw [worth, result, CallWorth.count]
      obtain ⟨closedAfter, cleared⟩ := lawful.succeeds _ _ stillClosed running
      exact .inr ⟨closedAfter, cleared, by omega⟩

/-- Step lemma for a breaker that is not closed: when it closes, its count is 0. -/
theorem call_apart {watched : WatchedBreaker Breaker} {call : UpstreamCall}
    {ready : Nat → Bool} (lawful : library.Lawful ready)
    (apart : library.phase watched.breaker ≠ .closed)
    (closes : library.phase (watched.call library call).breaker = .closed) :
    library.consecutiveFailures (watched.call library call).breaker = 0 ∧
      (watched.call library call).count = 0 := by
  refine ⟨?_, if_neg apart⟩
  have stays := lawful.staysApart watched.breaker call.start apart
  rw [WatchedBreaker.call, breakerRoundTrip] at closes ⊢
  cases admitted : (library.beforeRequest watched.breaker call.start).2 with
  | false =>
      rw [admitted] at closes
      exact absurd closes stays
  | true =>
      rw [admitted] at closes
      exact lawful.closes _ _ _ stays closes

/-- Run lemma: the count is right as long as the calls are conclusive. -/
theorem rightCount_of_reachable {auth : AuthStrategy}
    (lawful : library.Lawful (readyToTrip cfg)) (positive : 1 ≤ cfg.maxFailures)
    (small : cfg.maxFailures < 4294967296) {watched : WatchedBreaker Breaker}
    (reached : ((breakerCalls library auth).restrict (Conclusive library)).Reachable watched) :
    RightCount library cfg watched := by
  refine reached.induction (RightCount library cfg) ?_ ?_
  · rintro _ rfl
    exact ⟨fun _ => lawful.new.2, fun _ => by exact_mod_cast positive⟩
  · rintro state call _ _ right ⟨⟨_, rfl⟩, conclusive⟩
    by_cases closed : library.phase state.breaker = .closed
    · rcases right.call_closed lawful positive small closed conclusive with
        ⟨opened, _⟩ | ⟨_, count, below⟩
      · refine ⟨fun closes => ?_, fun closes => ?_⟩ <;> rw [opened] at closes <;> cases closes
      · exact ⟨fun _ => count, fun _ => below⟩
    · refine ⟨fun closes => ?_, fun closes => ?_⟩
      · obtain ⟨cleared, none⟩ := call_apart lawful closed closes
        rw [cleared, none]
      · rw [(call_apart lawful closed closes).2]
        exact_mod_cast positive

/-- A 5xx response goes through the breaker as it is. -/
theorem breakerRoundTrip_serverError {breaker : Breaker} {call : UpstreamCall}
    {resp : UpstreamResponse} (answered : authRoundTrip call = .ok resp)
    (server : ServerError resp.statusCode)
    (admitted : (library.beforeRequest breaker call.start).2 = true) :
    (breakerRoundTrip library breaker call).2 = (some resp, none) := by
  rw [breakerRoundTrip, innerRoundTrip, answered]
  dsimp only
  rw [if_pos server.1, if_pos admitted]
  rfl

/-- In every run of conclusive calls, the breaker counts the failures of the upstream. -/
theorem countsFailures_of_reachable (library : Gobreaker Breaker) (cfg : BreakerConfig)
    (auth : AuthStrategy) (lawful : library.Lawful (readyToTrip cfg))
    (positive : 1 ≤ cfg.maxFailures) (small : cfg.maxFailures < 4294967296)
    (watched : WatchedBreaker Breaker) (call : UpstreamCall)
    (reached : ((breakerCalls library auth).restrict (Conclusive library)).Reachable watched)
    (conclusive : Conclusive library watched call) :
    CountsFailures library cfg watched call := by
  have right : RightCount library cfg watched := rightCount_of_reachable lawful positive small reached
  refine ⟨right.count, ?_, ?_, fun resp => breakerRoundTrip_serverError⟩
  · intro closed
    rcases right.call_closed lawful positive small closed conclusive with
      ⟨opened, count⟩ | ⟨stays, _, below⟩
    · exact iff_of_true opened count
    · refine iff_of_false ?_ (by omega)
      rw [stays]
      nofun
  · intro closed unopened
    rcases right.call_closed lawful positive small closed conclusive with
      ⟨opened, _⟩ | ⟨stays, count, _⟩
    · exact absurd opened unopened
    · exact ⟨stays, count⟩

end Counting

/-- A breaker as it is documented, without overlapping requests: the end of the interval or
of the timeout, if there is one, and the counts. -/
structure DocumentedBreaker where
  phase : BreakerPhase
  consecutiveFailures : Nat
  expiry : Option Int
deriving DecidableEq

namespace DocumentedBreaker

variable (cfg : BreakerConfig)

def isExpired (breaker : DocumentedBreaker) (now : Int) : Bool :=
  match breaker.expiry with
  | some expiry => expiry < now
  | none => false

/-- A closed breaker with a new interval. An interval of 0 has no end. -/
def close (now : Int) : DocumentedBreaker :=
  ⟨.closed, 0, if cfg.interval ≤ 0 then none else some (now + cfg.interval)⟩

/-- An open breaker with a new timeout, of 60 seconds if none is set. -/
def trip (now : Int) : DocumentedBreaker :=
  ⟨.opened, 0, some (now + if cfg.timeout ≤ 0 then 60000000000 else cfg.timeout)⟩

def before (breaker : DocumentedBreaker) (now : Int) : DocumentedBreaker × Bool :=
  match breaker.phase with
  | .closed => (if breaker.isExpired now then close cfg now else breaker, true)
  | .opened => if breaker.isExpired now then (⟨.halfOpen, 0, none⟩, true) else (breaker, false)
  | .halfOpen => (breaker, true)

def after (breaker : DocumentedBreaker) (now : Int) (success : Bool) : DocumentedBreaker :=
  match breaker.phase with
  | .closed =>
      if breaker.isExpired now then close cfg now
      else if success then { breaker with consecutiveFailures := 0 }
      else if readyToTrip cfg (breaker.consecutiveFailures + 1) then trip cfg now
      else { breaker with consecutiveFailures := breaker.consecutiveFailures + 1 }
  | .opened => breaker
  | .halfOpen => if success then close cfg now else trip cfg now

/-- The library with this breaker, created at time 0. -/
def library : Gobreaker DocumentedBreaker where
  new := close cfg 0
  phase := phase
  consecutiveFailures := consecutiveFailures
  expired := isExpired
  beforeRequest := before cfg
  afterRequest := after cfg

/-- The documented breaker meets the laws of the library. -/
theorem lawful : (library cfg).Lawful (readyToTrip cfg) where
  new := ⟨rfl, rfl⟩
  admits breaker now closed := by
    change breaker.phase = .closed at closed
    refine ⟨?_, ?_, ?_⟩ <;> dsimp only [library] <;> rw [before, closed]
    · dsimp only
      split
      · rfl
      · exact closed
    · dsimp only
      rw [apply_ite consecutiveFailures]
      rfl
  expires breaker now success closed expired := by
    change breaker.phase = .closed at closed
    change breaker.isExpired now = true at expired
    dsimp only [library]
    rw [after, closed]
    dsimp only
    rw [if_pos expired]
    exact ⟨rfl, rfl⟩
  succeeds breaker now closed running := by
    change breaker.phase = .closed at closed
    change breaker.isExpired now = false at running
    dsimp only [library]
    rw [after, closed, running]
    exact ⟨rfl, rfl⟩
  trips breaker now closed running ready := by
    change breaker.phase = .closed at closed
    change breaker.isExpired now = false at running
    change readyToTrip cfg (breaker.consecutiveFailures + 1) = true at ready
    dsimp only [library]
    rw [after, closed, running, ready]
    rfl
  counts breaker now closed running _ ready := by
    change breaker.phase = .closed at closed
    change breaker.isExpired now = false at running
    change readyToTrip cfg (breaker.consecutiveFailures + 1) = false at ready
    dsimp only [library]
    rw [after, closed, running, ready]
    exact ⟨rfl, rfl⟩
  staysApart breaker now apart := by
    change breaker.phase ≠ .closed at apart
    dsimp only [library]
    rw [before]
    cases phase : breaker.phase with
    | closed => exact absurd phase apart
    | opened =>
        dsimp only
        split
        · nofun
        · exact apart
    | halfOpen => exact apart
  closes breaker now success apart closes := by
    change breaker.phase ≠ .closed at apart
    dsimp only [library] at closes ⊢
    rw [after] at closes ⊢
    cases phase : breaker.phase with
    | closed => exact absurd phase apart
    | opened =>
        rw [phase] at closes
        exact absurd closes apart
    | halfOpen =>
        rw [phase] at closes
        cases success with
        | true => rfl
        | false => cases closes

end DocumentedBreaker

/-- A call for the users, answered with 503, from a client that gave no Authorization. -/
def unavailableCall (auth : AuthStrategy) : UpstreamCall where
  execution := { usersCall auth with clientAuthorization := [], sized := by decide }
  tokenCanceled := false
  outcome := .response ⟨503, []⟩
  start := 0
  stop := 1

/-- One failure opens this breaker. -/
def strictBreaker : BreakerConfig := ⟨1, 60000000000, 10000000000⟩

/-- An answer 503 is counted. -/
theorem countsFailures_unavailable :
    CountsFailures (DocumentedBreaker.library strictBreaker) strictBreaker
      ⟨DocumentedBreaker.close strictBreaker 0, 0⟩ (unavailableCall .none) :=
  countsFailures_of_reachable (DocumentedBreaker.library strictBreaker) strictBreaker .none
    (DocumentedBreaker.lawful strictBreaker) (by decide) (by decide)
    ⟨DocumentedBreaker.close strictBreaker 0, 0⟩ (unavailableCall .none) (.initial rfl)
    fun _ => .inr ⟨none, rfl, nofun, fun resp given => by cases given; decide⟩

/-- At a passthrough upstream, one call without Authorization opens the breaker: it is not
sent, but counted. -/
theorem not_countsFailures_unsent :
    (breakerCalls (DocumentedBreaker.library strictBreaker) .passthrough).Reachable
        ⟨DocumentedBreaker.close strictBreaker 0, 0⟩ ∧
      ¬ CountsFailures (DocumentedBreaker.library strictBreaker) strictBreaker
        ⟨DocumentedBreaker.close strictBreaker 0, 0⟩ (unavailableCall .passthrough) := by
  refine ⟨.initial rfl, fun counts => ?_⟩
  exact absurd ((counts.opens rfl).mp rfl) (by decide)

end Restitch.Upstream
