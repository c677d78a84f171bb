import Mathlib.Logic.Function.Basic
import Restitch.Composition.Plan
import Restitch.Composition.StepErrors
import Restitch.Semantics.Transition

/-!
# Running a composition (`internal/composition/executor.go`)

`Executor.Execute` runs the waves of a plan one after the other and starts one
goroutine for every step of a wave. An event is one access of a goroutine to the
results map or the wave's errors under their mutexes, the exchange with its
upstream, or the end of a wave in the main goroutine. Cache and coalescing are
off here; `Restitch.Composition.Sharing` models them.
-/

namespace Restitch.Composition

open Restitch.Semantics Restitch.Std

variable {Request Value : Type}

/-- What the executor reads of a step. -/
structure StepInfo where
  upstream : String
  optional : Bool
deriving DecidableEq

/-- The results map: a step is absent, nil, or has a result. -/
abbrev Results (Value : Type) := String → Option (Option (StepResult Value))

/-- A compiled composition, the upstreams of its config, and how its steps
behave for one request: `build` is `buildRequestEnv` and `buildStepRequest` on
the results so far, `send` is `sendStepRequest`. -/
structure CompositionRun (Request Value : Type) where
  steps : GoMap String StepInfo
  plan : ExecutionPlan
  upstreams : List String
  build : String → Results Value → Except StepFailure Request
  send : String → Request → Except StepFailure (StepResult Value)

/-- The dependencies the plan lists for a step. -/
def CompositionRun.deps (run : CompositionRun Request Value) (step : String) : List String :=
  run.plan.deps.getD step []

/-- `checkDependenciesFailed`. -/
def checkDependenciesFailed (deps : List String) (results : Results Value) : Bool :=
  deps.any fun dep => (results dep).join.isNone

/-- Where the goroutine of a step is. -/
inductive Goroutine (Request Value : Type) where
  | ready
  /-- Has checked its dependencies. -/
  | checked (depFailed : Bool)
  /-- Has built its request. -/
  | built (request : Except StepFailure Request)
  /-- Has sent it. -/
  | sent (outcome : Except StepFailure (StepResult Value))
  /-- Has written its result; reports its error next, if it has one. -/
  | stored (error : Option StepError)
  | done

/-- `RequiredStepError`. -/
structure RequiredStepError where
  step : String
  err : StepErr

/-- `CompositionResult`, less the timings. -/
structure CompositionResult (Value : Type) where
  steps : Results Value
  stepErrors : List StepErrorDetail
  isPartial : Bool

/-- One call of `Execute`. The last two fields list the requests built and sent;
no transition reads them. -/
structure ExecState (Request Value : Type) where
  /-- The running wave and the waves after it. -/
  waves : List (List String)
  goroutines : String → Goroutine Request Value
  results : Results Value
  waveErrors : List StepError
  allErrors : List StepError
  returned : Option (Except RequiredStepError (CompositionResult Value))
  builtLog : List String
  sentLog : List String

inductive ExecEvent where
  | check (step : String)
  | build (step : String)
  | send (step : String)
  | store (step : String)
  | report (step : String)
  /-- `wg.Wait` returns, and the wave's errors are looked at. -/
  | endWave
  /-- `Execute` returns the results. -/
  | finish
deriving DecidableEq

section

variable (run : CompositionRun Request Value)

/-- The error a step reports with its result. -/
def resultError (step : String) (result : StepResult Value) : Option StepError :=
  if result.errorRuleMatched then some ⟨step, .ruleMatched result.status, true⟩ else none

/-- `results[stepName] = result`, under the mutex. -/
def ExecState.store (state : ExecState Request Value) (step : String)
    (result : Option (StepResult Value)) (error : Option StepError) :
    ExecState Request Value :=
  { state with
    results := Function.update state.results step (some result)
    goroutines := Function.update state.goroutines step (.stored error) }

/-- One access of the goroutine of `step`. -/
def goroutineStep (state : ExecState Request Value) (step : String) (info : StepInfo) :
    ExecEvent → Goroutine Request Value → Option (ExecState Request Value)
  | .check _, .ready => some { state with
      goroutines := Function.update state.goroutines step
        (.checked (checkDependenciesFailed (run.deps step) state.results)) }
  | .store _, .checked true => some (state.store step none (some ⟨step, .dependencyFailed, true⟩))
  | .build _, .checked false =>
      if info.upstream ∈ run.upstreams then
        some { state with
          goroutines := Function.update state.goroutines step (.built (run.build step state.results))
          builtLog := step :: state.builtLog }
      else
        -- The only path that leaves no entry in the results map.
        some { state with
          goroutines := Function.update state.goroutines step
            (.stored (some ⟨step, .upstreamNotFound, info.optional⟩)) }
  | .send _, .built (.ok request) => some { state with
      goroutines := Function.update state.goroutines step (.sent (run.send step request))
      sentLog := step :: state.sentLog }
  | .store _, .built (.error failure) =>
      some (state.store step none (some ⟨step, .failed failure, info.optional⟩))
  | .store _, .sent (.error failure) =>
      some (state.store step none (some ⟨step, .failed failure, info.optional⟩))
  | .store _, .sent (.ok result) => some (state.store step (some result) (resultError step result))
  | .report _, .stored error => some { state with
      goroutines := Function.update state.goroutines step .done
      waveErrors := state.waveErrors ++ error.toList }
  | _, _ => none

/-- The goroutine of a step that the composition does not have. -/
def missingStep (state : ExecState Request Value) (step : String) :
    ExecEvent → Goroutine Request Value → Option (ExecState Request Value)
  | .check _, .ready => some { state with
      goroutines := Function.update state.goroutines step
        (.stored (some ⟨step, .stepNotFound, false⟩)) }
  | .report _, .stored error => some { state with
      goroutines := Function.update state.goroutines step .done
      waveErrors := state.waveErrors ++ error.toList }
  | _, _ => none

/-- The end of a wave: a failed required step ends the call, with the first such
error in the order the goroutines reported them. -/
def endWave (state : ExecState Request Value) (later : List (List String)) :
    ExecState Request Value :=
  if hasRequiredFailure state.waveErrors then
    { state with
      returned := (state.waveErrors.find? fun error => !error.optional).map fun error =>
        .error ⟨error.stepName, error.err⟩ }
  else
    { state with
      waves := later
      waveErrors := []
      allErrors := state.allErrors ++ state.waveErrors }

def Goroutine.isDone : Goroutine Request Value → Bool
  | .done => true
  | _ => false

/-- The step whose goroutine an event belongs to. -/
def ExecEvent.step? : ExecEvent → Option String
  | .check step | .build step | .send step | .store step | .report step => some step
  | .endWave | .finish => none

/-- One event of `Execute`. -/
def execStep (state : ExecState Request Value) (event : ExecEvent) :
    Option (ExecState Request Value) :=
  if state.returned.isSome then none
  else
    match state.waves, event with
    | [], .finish => some { state with returned := some (.ok
        ⟨state.results, buildErrorsArray state.allErrors, !state.allErrors.isEmpty⟩) }
    | wave :: later, .endWave =>
        if wave.all fun step => (state.goroutines step).isDone then some (endWave state later)
        else none
    | wave :: _, event =>
        match event.step? with
        | some step =>
            if step ∈ wave then
              match run.steps.lookup step with
              | some info => goroutineStep run state step info event (state.goroutines step)
              | none => missingStep state step event (state.goroutines step)
            else none
        | none => none
    | _, _ => none

/-- `Execute` before its first wave. -/
def startExecute : ExecState Request Value where
  waves := run.plan.waves
  goroutines := fun _ => .ready
  results := fun _ => none
  waveErrors := []
  allErrors := []
  returned := none
  builtLog := []
  sentLog := []

/-- Every interleaving of one call of `Execute`. -/
def executeSystem : System (ExecState Request Value) ExecEvent :=
  .ofStep (· = startExecute run) (execStep run)

end

end Restitch.Composition
