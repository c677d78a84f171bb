import Restitch.Composition.CallPhases

/-!
# Clients that go away (`executor.go`, `step.go`, `coalesce.go`)

A flight runs under the request context and the step timeout of its leader, and its
error is handed to every caller that joined it. Here every step execution has a client,
which may cancel at any time, and a timeout, and every failure of a step is recorded
with its cause.
-/

namespace Restitch.Composition

open Restitch.Semantics

variable {Value : Type}

/-- The client of one request. -/
abbrev ClientId := Nat

/-- For whom a step is executed, its timeout, and since when it sends or waits. -/
structure Task where
  client : ClientId
  timeout : Nat
  began : Nat

/-- When the timeout of the step is over. -/
def Task.deadline (task : Task) : Nat := task.began + task.timeout

inductive FailureCause where
  | upstream
  | cancelled
  | timedOut
deriving DecidableEq

/-- How an exchange ends: by the upstream, by the request context or by the timeout,
while the request is sent or while the body is read. -/
inductive ExchangeEnd where
  | upstream (exchange : Except SendError UpstreamResponse)
  | cancelled (reading : Bool)
  | timedOut (reading : Bool)

def ExchangeEnd.exchange : ExchangeEnd → Except SendError UpstreamResponse
  | .upstream exchange => exchange
  | .cancelled false => .error .requestFailed
  | .timedOut false => .error .timeout
  | .cancelled true | .timedOut true => .error .bodyUnread

def ExchangeEnd.cause : ExchangeEnd → FailureCause
  | .upstream _ => .upstream
  | .cancelled _ => .cancelled
  | .timedOut _ => .timedOut

/-- A step that failed: why, and whether its own client was gone or its own timeout over. -/
structure FailedStep where
  cause : FailureCause
  clientGone : Bool
  timeUp : Bool
deriving DecidableEq

structure ClientState (Value : Type) where
  shared : SharedState Value
  cancelled : ClientId → Bool
  tasks : CallId → Task
  /-- How the exchange of a call ended. -/
  causes : CallId → FailureCause
  failures : List FailedStep

inductive ClientEvent (Value : Type) where
  | cancel (client : ClientId)
  | start (call : CallId) (client : ClientId) (settings : StepSettings Value) (key : String)
      (timeout : Nat)
  | exchange (call : CallId) (ended : ExchangeEnd)
  /-- Any other event of the executor. -/
  | exec (event : SharedEvent Value)

/-- An exchange is cut off only by its own context and timeout. -/
def ExchangeEnd.possible (state : ClientState Value) (call : CallId) : ExchangeEnd → Bool
  | .upstream _ => true
  | .cancelled _ => state.cancelled (state.tasks call).client
  | .timedOut _ => (state.tasks call).deadline ≤ state.shared.now

/-- The failure of a call that has just returned with an error. -/
def newFailures (state : ClientState Value) (shared : SharedState Value) (call : CallId)
    (cause : FailureCause) : List FailedStep :=
  match (shared.calls call).map StepCall.phase with
  | some (.returned _ (.error _)) =>
      [⟨cause, state.cancelled (state.tasks call).client,
        (state.tasks call).deadline ≤ state.shared.now⟩]
  | _ => []

/-- A caller that joined a flight fails as its leader did. -/
def receivedFailures (state : ClientState Value) (shared : SharedState Value) :
    SharedEvent Value → List FailedStep
  | .receive call =>
      match (state.shared.calls call).map StepCall.phase with
      | some (.joined leader) => newFailures state shared call (state.causes leader)
      | _ => []
  | _ => []

/-- A step begins to send or to wait; one that refuses the value of a flight begins again. -/
def tasksAfter (state : ClientState Value) : SharedEvent Value → CallId → Task
  | .proceed call | .receive call =>
      Function.update state.tasks call { state.tasks call with began := state.shared.now }
  | _ => state.tasks

def clientStep (decoder : BodyDecoder Value) (state : ClientState Value) :
    ClientEvent Value → Option (ClientState Value)
  | .cancel client => some { state with
      cancelled := Function.update state.cancelled client true }
  | .start call client settings key timeout =>
      (sharedStep decoder state.shared (.start call settings key)).map fun shared =>
        { state with
          shared
          tasks := Function.update state.tasks call ⟨client, timeout, state.shared.now⟩ }
  | .exchange call ended =>
      if ended.possible state call then
        (sharedStep decoder state.shared (.respond call ended.exchange)).map fun shared =>
          { state with
            shared
            causes := Function.update state.causes call ended.cause
            failures := state.failures ++ newFailures state shared call ended.cause }
      else none
  | .exec (.start _ _ _) | .exec (.respond _ _) => none
  | .exec event =>
      (sharedStep decoder state.shared event).map fun shared =>
        { state with
          shared
          tasks := tasksAfter state event
          failures := state.failures ++ receivedFailures state shared event }

/-- Any number of step executions whose clients may go away. -/
def clientSystem (decoder : BodyDecoder Value) :
    System (ClientState Value) (ClientEvent Value) :=
  .ofStep (· = ⟨newExecutor, fun _ => false, fun _ => ⟨0, 0, 0⟩, fun _ => .upstream, []⟩)
    (clientStep decoder)

/-- A step execution waits for the flight of another one. -/
def Waits (state : SharedState Value) (call leader : CallId) : Prop :=
  ∃ step, state.calls call = some step ∧ step.phase = .joined leader

/-- A step execution runs a flight. -/
def Leads (state : SharedState Value) (leader : CallId) : Prop :=
  ∃ lead, state.calls leader = some lead ∧ lead.phase = .leading

/-- The client of a flight's leader cancels only when every caller that waits for it is of
the same client or of one that is gone too, and a caller joins a flight only if its leader's
client is not gone before its own and its leader's timeout is not over before its own. -/
def JoinsSafely (state : ClientState Value) : ClientEvent Value → Prop
  | .cancel client => ∀ call leader, Waits state.shared call leader →
      Leads state.shared leader → (state.tasks leader).client = client →
      (state.tasks call).client = client ∨ state.cancelled (state.tasks call).client = true
  | .exec (.proceed call) => ∀ step leader, state.shared.calls call = some step →
      step.settings.coalesce ∧ step.settings.method = "GET" →
      state.shared.flights step.key = some leader →
      (state.cancelled (state.tasks leader).client = true →
        state.cancelled (state.tasks call).client = true) ∧
      state.shared.now + (state.tasks call).timeout ≤ (state.tasks leader).deadline
  | _ => True

/-- The step failed because of the upstream, its own client or its own timeout. -/
def FailedStep.Own (failure : FailedStep) : Prop :=
  failure.cause = .upstream ∨ failure.clientGone = true ∨ failure.timeUp = true

/-- Who waits for a flight, and what its leader can hand on. -/
structure WaitInvariant (state : ClientState Value) : Prop where
  flights : FlightInvariant state.shared
  failures : ∀ failure ∈ state.failures, failure.Own
  leading : ∀ call leader, Waits state.shared call leader → Leads state.shared leader →
    (state.cancelled (state.tasks leader).client = true →
      state.cancelled (state.tasks call).client = true) ∧
    (state.tasks call).deadline ≤ (state.tasks leader).deadline
  returned : ∀ call leader error, Waits state.shared call leader →
    flightValue state.shared leader = some (.error error) →
    state.causes leader = .upstream ∨ state.cancelled (state.tasks call).client = true ∨
      (state.tasks call).deadline ≤ state.shared.now

section Move

variable {decoder : BodyDecoder Value} {state next : SharedState Value}
  {event : SharedEvent Value} {call leader : CallId}
  {value : Except SendError (StepResult Value)}

/-- A caller that waits has waited before, or has just joined an open flight. -/
theorem SharedMove.waits_before (move : SharedMove decoder state next event)
    (waits : Waits next call leader) :
    (Waits state call leader ∧ event.subject ≠ some call) ∨
      ∃ step, event = .proceed call ∧ state.calls call = some step ∧ step.phase = .missed ∧
        (step.settings.coalesce ∧ step.settings.method = "GET") ∧
        state.flights step.key = some leader := by
  obtain ⟨step, present, at_⟩ := waits
  by_cases about : event.subject = some call
  · obtain ⟨prior, phase, found, moves, moved⟩ := move.moves_subject about
    have reached : phase = .joined leader := by
      rw [present] at moved
      cases moved
      exact at_
    subst reached
    generalize target : StepPhase.joined leader = phase at moves
    cases moves with
    | join missed coalesce flight =>
        cases target
        exact .inr ⟨prior, rfl, found, missed, coalesce, flight⟩
    | hit | miss | lead | send | exchange | receive | refuse | finish => cases target
  · rcases move.before present with old | ⟨settings, key, -, rfl⟩ | ⟨prior, found, -, moves⟩
    · exact .inl ⟨⟨step, old, at_⟩, about⟩
    · cases at_
    · exact absurd moves.subject about

/-- A leader with waiting callers that still leads has led before, and nothing was about it. -/
theorem SharedMove.leads_before (move : SharedMove decoder state next event)
    (invariant : FlightInvariant state) (waits : Waits state call leader)
    (leads : Leads next leader) : Leads state leader ∧ event.subject ≠ some leader := by
  obtain ⟨step, present, at_⟩ := waits
  obtain ⟨prior, found, phase⟩ := invariant.joined call step leader present at_
  obtain ⟨lead, isLead, leading⟩ := leads
  have notAbout : event.subject ≠ some leader := by
    intro about
    obtain ⟨_, moved, same, moves, after⟩ := move.moves_subject about
    rw [found] at same
    cases same
    rw [isLead] at after
    cases after
    obtain ⟨outcome, ended⟩ := moves.of_leader phase
    rcases ended with ended | ended <;> rw [ended] at leading <;> cases leading
  rcases move.after found with kept | ⟨moved, -, moves⟩
  · rw [isLead] at kept
    cases kept
    exact ⟨⟨prior, found, leading⟩, notAbout⟩
  · exact absurd moves.subject notAbout

/-- The value of a flight that callers wait for has been there before, or has just come. -/
theorem SharedMove.flightValue_before (move : SharedMove decoder state next event)
    (invariant : FlightInvariant state) (waits : Waits state call leader)
    (arrived : flightValue next leader = some value) :
    (flightValue state leader = some value ∧ ∀ outcome, event ≠ .respond leader outcome) ∨
      (Leads state leader ∧ ∃ outcome, event = .respond leader outcome) := by
  obtain ⟨step, present, at_⟩ := waits
  obtain ⟨lead, found, phase⟩ := invariant.joined call step leader present at_
  rw [flightValue] at arrived ⊢
  rw [found]
  rcases move.after found with kept | ⟨moved, after, moves⟩
  · rw [kept] at arrived
    refine .inl ⟨arrived, ?_⟩
    rintro outcome rfl
    have about : (SharedEvent.respond leader outcome : SharedEvent Value).subject =
      some leader := rfl
    obtain ⟨_, _, same, moves, after⟩ := move.moves_subject about
    rw [found] at same
    cases same
    rw [kept] at after
    have settled := congrArg StepCall.phase (Option.some.inj after)
    cases moves with
    | exchange _ sends => rcases sends with sends | sends <;> rw [sends] at settled <;> cases settled
  · rw [after] at arrived
    cases moves with
    | exchange outcome at_ =>
        rcases at_ with leading | sending
        · exact .inr ⟨⟨lead, found, leading⟩, outcome, rfl⟩
        · rcases phase with phase | ⟨_, phase | phase⟩ <;> rw [sending] at phase <;> cases phase
    | finish returned =>
        simp only [Option.map_some, returned] at arrived ⊢
        refine .inl ⟨arrived, ?_⟩
        intro outcome same
        cases same
    | hit missing | miss missing | join missing | lead missing | send missing
    | receive missing | refuse missing =>
        rcases phase with phase | ⟨_, phase | phase⟩ <;> rw [missing] at phase <;> cases phase

/-- The leader of the flight that a caller joins is another one and has no value yet. -/
theorem SharedMove.leader_of_join (move : SharedMove decoder state next (.proceed call))
    (invariant : FlightInvariant state) {step : StepCall Value}
    (present : state.calls call = some step) (missed : step.phase = .missed)
    (flight : state.flights step.key = some leader) :
    leader ≠ call ∧ flightValue next leader = none := by
  obtain ⟨lead, found, -, leading⟩ := invariant.open_ _ _ flight
  have different : leader ≠ call := by
    rintro rfl
    rw [present] at found
    cases found
    rw [missed] at leading
    cases leading
  refine ⟨different, ?_⟩
  rcases move.after found with kept | ⟨_, -, moves⟩
  · rw [flightValue, kept, Option.map_some, leading]
  · exact absurd (Option.some.inj moves.subject).symm different

end Move

section Invariant

variable {decoder : BodyDecoder Value} {state : ClientState Value} {shared : SharedState Value}
  {event : SharedEvent Value} {call leader : CallId}

/-- An event leaves the tasks of other calls. -/
theorem tasksAfter_of_ne (different : event.subject ≠ some call) :
    tasksAfter state event call = state.tasks call := by
  cases event with
  | proceed other | receive other =>
      exact Function.update_of_ne (fun same => different (congrArg some same.symm)) _ _
  | start | lookup | respond | fill | tick | sweep => rfl

/-- A new failure with a cause that is the caller's own. -/
theorem own_of_newFailures {cause : FailureCause} {failure : FailedStep}
    (own : ∀ source error, (shared.calls call).map StepCall.phase =
        some (.returned source (.error error)) →
      cause = .upstream ∨ state.cancelled (state.tasks call).client = true ∨
        (state.tasks call).deadline ≤ state.shared.now)
    (member : failure ∈ newFailures state shared call cause) : failure.Own := by
  unfold newFailures at member
  split at member
  · rename_i source error failed
    cases List.mem_singleton.mp member
    rcases own source error failed with up | gone | ended
    · exact .inl up
    · exact .inr (.inl gone)
    · exact .inr (.inr (decide_eq_true ended))
  · cases member

/-- What a caller receives from a flight that failed, it would have failed with itself. -/
theorem WaitInvariant.own_of_received (invariant : WaitInvariant state)
    (move : SharedMove decoder state.shared shared event) {failure : FailedStep}
    (member : failure ∈ receivedFailures state shared event) : failure.Own := by
  unfold receivedFailures at member
  split at member
  · rename_i call
    split at member
    · rename_i leader joined
      obtain ⟨step, present, at_⟩ := Option.map_eq_some_iff.mp joined
      refine own_of_newFailures ?_ member
      intro source error failed
      have about : (SharedEvent.receive call : SharedEvent Value).subject = some call := rfl
      obtain ⟨_, phase, found, moves, moved⟩ := move.moves_subject about
      rw [present] at found
      cases found
      rw [moved, Option.map_some] at failed
      cases failed
      generalize target : StepPhase.returned source (.error error) = phase at moves
      cases moves with
      | receive waiting arrived =>
          cases target
          rw [waiting] at at_
          cases at_
          exact invariant.returned call leader error ⟨step, present, waiting⟩ arrived
      | refuse => cases target
    · cases member
  · cases member

/-- A timeout that is over stays so. -/
theorem WaitInvariant.returned_later (invariant : WaitInvariant state) {error : SendError}
    (waits : Waits state.shared call leader)
    (arrived : flightValue state.shared leader = some (.error error)) {now : Nat}
    (later : state.shared.now ≤ now) :
    state.causes leader = .upstream ∨ state.cancelled (state.tasks call).client = true ∨
      (state.tasks call).deadline ≤ now := by
  rcases invariant.returned call leader error waits arrived with up | gone | ended
  · exact .inl up
  · exact .inr (.inl gone)
  · exact .inr (.inr (ended.trans later))

/-- A client that cancels safely keeps the invariant. -/
theorem WaitInvariant.cancel (invariant : WaitInvariant state) {client : ClientId}
    (safely : JoinsSafely state (.cancel client)) :
    WaitInvariant { state with cancelled := Function.update state.cancelled client true } := by
  have gone (other : ClientId) (before : state.cancelled other = true) :
      Function.update state.cancelled client true other = true := by
    by_cases same : other = client
    · rw [same, Function.update_self]
    · rw [Function.update_of_ne same, before]
  refine ⟨invariant.flights, invariant.failures, ?_, ?_⟩
  · intro call leader waits leads
    obtain ⟨follows, deadlines⟩ := invariant.leading call leader waits leads
    refine ⟨fun leaderGone => ?_, deadlines⟩
    dsimp only at leaderGone ⊢
    by_cases same : (state.tasks leader).client = client
    · rcases safely call leader waits leads same with own | before
      · rw [own, Function.update_self]
      · exact gone _ before
    · rw [Function.update_of_ne same] at leaderGone
      exact gone _ (follows leaderGone)
  · intro call leader error waits arrived
    rcases invariant.returned call leader error waits arrived with up | before | ended
    · exact .inl up
    · exact .inr (.inl (gone _ before))
    · exact .inr (.inr ended)

/-- A step execution that starts waits for nobody, and nobody waits for it. -/
theorem WaitInvariant.start (invariant : WaitInvariant state) {task : Task}
    {settings : StepSettings Value} {key : String}
    (stepped : sharedStep decoder state.shared (.start call settings key) = some shared) :
    WaitInvariant { state with shared, tasks := Function.update state.tasks call task } := by
  have move := sharedStep_move stepped
  have absent : state.shared.calls call = none := by
    simp only [sharedStep] at stepped
    split at stepped
    · assumption
    · cases stepped
  have old {other : CallId} {step : StepCall Value}
      (present : state.shared.calls other = some step) :
      Function.update state.tasks call task other = state.tasks other := by
    refine Function.update_of_ne ?_ _ _
    rintro rfl
    rw [absent] at present
    cases present
  have waited {other leader : CallId} (waits : Waits shared other leader) :
      Waits state.shared other leader := by
    rcases move.waits_before waits with ⟨before, -⟩ | ⟨_, isProceed, -⟩
    · exact before
    · cases isProceed
  refine ⟨invariant.flights.move move, invariant.failures, ?_, ?_⟩
  · intro other leader waits leads
    have before := waited waits
    obtain ⟨led, -⟩ := move.leads_before invariant.flights before leads
    have facts := invariant.leading other leader before led
    obtain ⟨step, present, -⟩ := before
    obtain ⟨lead, found, -⟩ := led
    dsimp only
    rw [old present, old found]
    exact facts
  · intro other leader error waits arrived
    have before := waited waits
    rcases move.flightValue_before invariant.flights before arrived with
      ⟨there, -⟩ | ⟨-, _, isRespond⟩
    · have facts := invariant.returned_later before there move.now_le
      obtain ⟨step, present, -⟩ := before
      dsimp only
      rwa [old present]
    · cases isRespond

/-- The end of an exchange: a leader that is cut off by its own context or timeout is cut
off no earlier than those who wait for it. -/
theorem WaitInvariant.exchange (invariant : WaitInvariant state) {ended : ExchangeEnd}
    (possible : ended.possible state call = true)
    (move : SharedMove decoder state.shared shared (.respond call ended.exchange)) :
    WaitInvariant { state with
      shared
      causes := Function.update state.causes call ended.cause
      failures := state.failures ++ newFailures state shared call ended.cause } := by
  have waited {other leader : CallId} (waits : Waits shared other leader) :
      Waits state.shared other leader := by
    rcases move.waits_before waits with ⟨before, -⟩ | ⟨_, isProceed, -⟩
    · exact before
    · cases isProceed
  refine ⟨invariant.flights.move move, ?_, ?_, ?_⟩
  · intro failure member
    rcases List.mem_append.mp member with before | new
    · exact invariant.failures failure before
    · refine own_of_newFailures (fun _ _ _ => ?_) new
      cases ended with
      | upstream => exact .inl rfl
      | cancelled => exact .inr (.inl possible)
      | timedOut => exact .inr (.inr (of_decide_eq_true possible))
  · intro other leader waits leads
    obtain ⟨led, -⟩ := move.leads_before invariant.flights (waited waits) leads
    exact invariant.leading other leader (waited waits) led
  · intro other leader error waits arrived
    have before := waited waits
    dsimp only
    rcases move.flightValue_before invariant.flights before arrived with
      ⟨there, notNow⟩ | ⟨led, _, isRespond⟩
    · have different : leader ≠ call := by
        rintro rfl
        exact notNow _ rfl
      rw [Function.update_of_ne different]
      exact invariant.returned_later before there move.now_le
    · cases isRespond
      rw [Function.update_self]
      obtain ⟨follows, deadlines⟩ := invariant.leading other call before led
      cases ended with
      | upstream => exact .inl rfl
      | cancelled => exact .inr (.inl (follows possible))
      | timedOut =>
          exact .inr (.inr (deadlines.trans ((of_decide_eq_true possible).trans move.now_le)))

/-- Any other event of the executor: a caller may join a flight. -/
theorem WaitInvariant.exec (invariant : WaitInvariant state)
    (move : SharedMove decoder state.shared shared event)
    (notRespond : ∀ call outcome, event ≠ .respond call outcome)
    (safely : ∀ call, event = .proceed call → JoinsSafely state (.exec (.proceed call))) :
    WaitInvariant { state with
      shared
      tasks := tasksAfter state event
      failures := state.failures ++ receivedFailures state shared event } := by
  refine ⟨invariant.flights.move move, ?_, ?_, ?_⟩
  · intro failure member
    rcases List.mem_append.mp member with before | new
    · exact invariant.failures failure before
    · exact invariant.own_of_received move new
  · intro call leader waits leads
    dsimp only
    rcases move.waits_before waits with ⟨before, notCall⟩ | ⟨step, rfl, present, missed, coalesce, flight⟩
    · obtain ⟨led, notLeader⟩ := move.leads_before invariant.flights before leads
      rw [tasksAfter_of_ne notCall, tasksAfter_of_ne notLeader]
      exact invariant.leading call leader before led
    · obtain ⟨follows, deadlines⟩ := safely call rfl step leader present coalesce flight
      obtain ⟨different, -⟩ := move.leader_of_join invariant.flights present missed flight
      rw [tasksAfter, Function.update_self, Function.update_of_ne different]
      exact ⟨follows, deadlines⟩
  · intro call leader error waits arrived
    dsimp only
    rcases move.waits_before waits with ⟨before, notCall⟩ | ⟨step, rfl, present, missed, coalesce, flight⟩
    · rw [tasksAfter_of_ne notCall]
      rcases move.flightValue_before invariant.flights before arrived with
        ⟨there, -⟩ | ⟨-, outcome, isRespond⟩
      · exact invariant.returned_later before there move.now_le
      · exact absurd isRespond (notRespond leader outcome)
    · obtain ⟨-, nothing⟩ := move.leader_of_join invariant.flights present missed flight
      rw [nothing] at arrived
      cases arrived

/-- Every event that joins safely keeps the invariant. -/
theorem clientStep_preserves {event : ClientEvent Value} {next : ClientState Value}
    (invariant : WaitInvariant state) (safely : JoinsSafely state event)
    (stepped : clientStep decoder state event = some next) : WaitInvariant next := by
  cases event with
  | cancel client =>
      cases stepped
      exact invariant.cancel safely
  | start call client settings key timeout =>
      obtain ⟨shared, started, rfl⟩ := Option.map_eq_some_iff.mp stepped
      exact invariant.start started
  | exchange call ended =>
      obtain ⟨possible, taken⟩ := (Option.ite_none_right_eq_some ..).mp stepped
      obtain ⟨shared, responded, rfl⟩ := Option.map_eq_some_iff.mp taken
      exact invariant.exchange possible (sharedStep_move responded)
  | exec event =>
      cases event with
      | start | respond => cases stepped
      | proceed call =>
          obtain ⟨shared, moved, rfl⟩ := Option.map_eq_some_iff.mp stepped
          refine invariant.exec (sharedStep_move moved) nofun ?_
          rintro _ ⟨⟩
          exact safely
      | lookup | receive | fill | tick | sweep =>
          simp only [clientStep] at stepped
          obtain ⟨shared, moved, rfl⟩ := Option.map_eq_some_iff.mp stepped
          exact invariant.exec (sharedStep_move moved) nofun nofun

end Invariant

/-- In every run in which callers join flights safely, no step fails because another
client went away or another step's timeout was over: for any interleaving of any number of
step executions and any moments at which clients cancel. -/
theorem joined_failures_own (decoder : BodyDecoder Value) (state : ClientState Value)
    (reached : ((clientSystem decoder).restrict JoinsSafely).Reachable state) :
    ∀ failure ∈ state.failures, failure.Own := by
  suffices WaitInvariant state from this.failures
  refine System.Reachable.induction WaitInvariant ?_ ?_ reached
  · intro state valid
    cases valid
    refine ⟨flightInvariant_newExecutor, nofun, ?_, ?_⟩
    · rintro call leader ⟨step, present, -⟩
      cases present
    · rintro call leader error ⟨step, present, -⟩
      cases present
  · rintro state event next - invariant ⟨stepped, safely⟩
    exact clientStep_preserves invariant safely stepped

/-- No step executions and no clients yet. -/
def noClients : ClientState Unit :=
  ⟨newExecutor, fun _ => false, fun _ => ⟨0, 0, 0⟩, fun _ => .upstream, []⟩

/-- The step of client 1 joins the flight of client 0; then some events cut off the leader. -/
def joinThen (leaderTimeout timeout : Nat) (events : List (ClientEvent Unit)) :
    List (ClientEvent Unit) :=
  let settings : StepSettings Unit := ⟨"GET", none, true, [], 0⟩
  [.start 0 0 settings "key" leaderTimeout, .start 1 1 settings "key" timeout,
   .exec (.lookup 0), .exec (.lookup 1), .exec (.proceed 0), .exec (.proceed 1)] ++ events ++
  [.exec (.receive 1)]

/-- A condition that can be tested, and implies `JoinsSafely`. -/
def joinsSafely (state : ClientState Unit) : ClientEvent Unit → Bool
  | .cancel _ => false
  | .exec (.proceed call) =>
      match (state.shared.calls call).bind fun step => state.shared.flights step.key with
      | some leader => !state.cancelled (state.tasks leader).client &&
          state.shared.now + (state.tasks call).timeout ≤ (state.tasks leader).deadline
      | none => true
  | _ => true

/-- The timeout of the caller that joined is over first, and it fails with the leader's. -/
theorem joined_failures_own_of_later_leader :
    ∃ state : ClientState Unit,
      state.failures = [⟨.timedOut, false, true⟩, ⟨.timedOut, false, true⟩] ∧
      ∀ failure ∈ state.failures, failure.Own := by
  have weakens : ∀ state event, joinsSafely state event = true → JoinsSafely state event := by
    intro state event met
    unfold JoinsSafely
    split
    · cases met
    · intro step leader present _ flight
      simp only [joinsSafely, present, Option.bind_some, flight, Bool.and_eq_true, Bool.not_eq_true',
        decide_eq_true_eq] at met
      refine ⟨fun gone => ?_, met.2⟩
      rw [met.1] at gone
      cases gone
    · trivial
  have ends : (System.replay (System.guarded (clientStep unitDecoder) fun state event =>
      joinsSafely state event = true) noClients (joinThen 3 2
        [.exec .tick, .exec .tick, .exec .tick, .exchange 0 (.timedOut false)])).map
          ClientState.failures =
      some [⟨.timedOut, false, true⟩, ⟨.timedOut, false, true⟩] := by
    decide +kernel
  obtain ⟨final, replayed, failures⟩ := Option.map_eq_some_iff.mp ends
  have reached : ((clientSystem unitDecoder).restrict fun state event =>
      joinsSafely state event = true).Reachable final :=
    System.reachable_of_guarded _ (.initial rfl) replayed
  exact ⟨final, failures, joined_failures_own unitDecoder final (reached.restrict_mono weakens)⟩

/-- The leader's client cancels, and the step of the other one fails with it. -/
theorem joined_step_fails_with_leader :
    ∃ state, (clientSystem unitDecoder).Reachable state ∧
      (⟨.cancelled, false, false⟩ : FailedStep) ∈ state.failures := by
  have ends : (System.replay (clientStep unitDecoder) noClients (joinThen 10 10
      [.cancel 0, .exchange 0 (.cancelled false)])).map ClientState.failures =
      some [⟨.cancelled, true, false⟩, ⟨.cancelled, false, false⟩] := by
    decide +kernel
  obtain ⟨final, replayed, failures⟩ := Option.map_eq_some_iff.mp ends
  refine ⟨final, System.reachable_of_replay _ (.initial rfl) replayed, ?_⟩
  rw [failures]
  exact List.mem_cons_of_mem _ (List.mem_singleton_self _)

end Restitch.Composition
