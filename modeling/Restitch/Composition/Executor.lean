import Restitch.Composition.CallPhases
import Restitch.Composition.Execute
import Restitch.Semantics.Quiescence

/-!
# One executor and its requests (`internal/composition/executor.go`)

All requests to a gateway run on one `Executor`: every call of `Execute` goes through its
waves, and the steps of all of them share the cache and the flights. A goroutine whose
request is built starts a step execution, which becomes the outcome of the exchange once it
has finished. `failure` says how a failed exchange of a step execution reads as an error.
-/

namespace Restitch.Composition

open Restitch.Semantics Restitch.Std

variable {Request Value : Type}

/-- What one request asks of the executor: `build` gives the request of a step, and
`settings` and `key` are those of its execution. -/
structure ExecutorJob (Request Value : Type) where
  steps : GoMap String StepInfo
  plan : ExecutionPlan
  upstreams : List String
  build : String → Results Value → Except StepFailure Request
  settings : String → StepSettings Value
  key : String → Request → String

/-- The composition of a job, with the outcomes of its exchanges. -/
def ExecutorJob.run (job : ExecutorJob Request Value)
    (send : String → Request → Except StepFailure (StepResult Value)) :
    CompositionRun Request Value :=
  ⟨job.steps, job.plan, job.upstreams, job.build, send⟩

/-- One call of `Execute`, and the step executions that its goroutines have started. -/
structure ExecutorRequest (Request Value : Type) where
  job : ExecutorJob Request Value
  exec : ExecState Request Value
  calls : String → Option CallId

/-- The executor; step executions are numbered as they start. -/
structure ExecutorState (Request Value : Type) where
  shared : SharedState Value
  nextCall : CallId
  requests : List (ExecutorRequest Request Value)

inductive ExecutorEvent (Request Value : Type) where
  /-- A request arrives. -/
  | arrive (job : ExecutorJob Request Value)
  /-- An event of one call of `Execute`, other than an exchange. -/
  | exec (request : Nat) (event : ExecEvent)
  /-- A goroutine starts the execution of its step. -/
  | start (request : Nat) (step : String)
  /-- A goroutine has the outcome of the execution of its step. -/
  | collect (request : Nat) (step : String)
  /-- An event of the step executions, of the clock or of the janitor. -/
  | shared (event : SharedEvent Value)

/-- The outcome of a step execution that has finished. -/
def finishedOutcome (shared : SharedState Value) (call : CallId) :
    Option (Except SendError (StepResult Value)) :=
  match (shared.calls call).map StepCall.phase with
  | some (.finished _ outcome) => some outcome
  | _ => none

section

variable (decoder : BodyDecoder Value) (failure : CallId → SendError → StepFailure)

/-- The outcome of a step, as far as there is one. -/
def ExecutorRequest.send (request : ExecutorRequest Request Value) (shared : SharedState Value)
    (step : String) (_ : Request) : Except StepFailure (StepResult Value) :=
  match request.calls step with
  | none => .error (failure 0 .requestFailed)
  | some call =>
      match finishedOutcome shared call with
      | none => .error (failure call .requestFailed)
      | some (.ok result) => .ok result
      | some (.error error) => .error (failure call error)

/-- The composition of a request with the outcomes that its steps have. -/
def ExecutorRequest.run (request : ExecutorRequest Request Value) (shared : SharedState Value) :
    CompositionRun Request Value :=
  request.job.run (request.send failure shared)

/-- Some event of the call of `Execute` of a request. -/
def ExecutorState.execute (state : ExecutorState Request Value) (index : Nat)
    (event : ExecEvent) : Option (ExecutorState Request Value) :=
  (state.requests[index]?).bind fun request =>
    (execStep (request.run failure state.shared) request.exec event).map fun exec =>
      { state with requests := state.requests.set index { request with exec } }

/-- The execution of a step starts. -/
def ExecutorState.startCall (state : ExecutorState Request Value) (index : Nat) (step : String) :
    Option (ExecutorState Request Value) :=
  (state.requests[index]?).bind fun request =>
    match request.exec.goroutines step, request.calls step with
    | .built (.ok built), none =>
        (sharedStep decoder state.shared
          (.start state.nextCall (request.job.settings step) (request.job.key step built))).map
          fun shared =>
            { shared
              nextCall := state.nextCall + 1
              requests := state.requests.set index { request with
                calls := Function.update request.calls step (some state.nextCall) } }
    | _, _ => none

/-- One event of the executor. -/
def executorStep (state : ExecutorState Request Value) :
    ExecutorEvent Request Value → Option (ExecutorState Request Value)
  | .arrive job => some { state with
      requests := state.requests ++ [⟨job, startExecute (job.run fun _ _ =>
        .error (failure 0 .requestFailed)), fun _ => none⟩] }
  | .exec _ (.send _) => none
  | .exec index event => state.execute failure index event
  | .start index step => state.startCall decoder index step
  | .collect index step =>
      (state.requests[index]?).bind fun request =>
        match (request.calls step).bind (finishedOutcome state.shared) with
        | some _ => state.execute failure index (.send step)
        | none => none
  | .shared (.start _ _ _) => none
  | .shared event =>
      (sharedStep decoder state.shared event).map fun shared => { state with shared }

/-- Any number of requests on one executor. -/
def executor : System (ExecutorState Request Value) (ExecutorEvent Request Value) :=
  .ofStep (· = ⟨newExecutor, 0, []⟩) (executorStep decoder failure)

end

/-- What the executor does once requests have arrived. -/
def ExecutorEvent.own : ExecutorEvent Request Value → Prop
  | .arrive _ | .shared .tick | .shared .sweep => False
  | _ => True

end Restitch.Composition
