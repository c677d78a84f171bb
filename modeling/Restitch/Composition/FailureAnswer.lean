import Restitch.Composition.ExecuteCorrect
import Restitch.Composition.Serve

/-!
# The answer to a failing request

`Execute` returns the first required error in the order in which the goroutines
of the failing wave report. Every required step that fails in that wave can be
the first, so the answer is the same in every interleaving only if all of them
lead to the same one.
-/

namespace Restitch.Composition

open Restitch.Semantics Restitch.Std

variable {Request Value : Type} {run : CompositionRun Request Value}

/-- The step fails, is required, and no required step fails in an earlier wave. -/
def FirstFailure (run : CompositionRun Request Value) (step : String) : Prop :=
  RequiredFailure run step ∧ ∃ index, run.plan.InWave index step ∧
    ∀ other otherIndex, RequiredFailure run other → run.plan.InWave otherIndex other →
      index ≤ otherIndex

/-! ### What one event does -/

/-- A goroutine leaves the wave's errors alone until it ends, and then appends its
own. -/
theorem goroutineStep_reports {state next : ExecState Request Value} {step : String}
    {info : StepInfo} {event : ExecEvent} {goroutine : Goroutine Request Value}
    (stepped : goroutineStep run state step info event goroutine = some next) :
    ∃ moved, next.goroutines = Function.update state.goroutines step moved ∧
      next.waves = state.waves ∧ next.returned = state.returned ∧
      ((moved.isDone = false ∧ next.waveErrors = state.waveErrors) ∨
        ∃ name error, event = .report name ∧ goroutine = .stored error ∧ moved = .done ∧
          next.waveErrors = state.waveErrors ++ error.toList) := by
  unfold goroutineStep at stepped
  split at stepped
  · cases stepped
    exact ⟨_, rfl, rfl, rfl, .inl ⟨rfl, rfl⟩⟩
  · cases stepped
    exact ⟨_, rfl, rfl, rfl, .inl ⟨rfl, rfl⟩⟩
  · split at stepped
    · cases stepped
      exact ⟨_, rfl, rfl, rfl, .inl ⟨rfl, rfl⟩⟩
    · cases stepped
      exact ⟨_, rfl, rfl, rfl, .inl ⟨rfl, rfl⟩⟩
  · cases stepped
    exact ⟨_, rfl, rfl, rfl, .inl ⟨rfl, rfl⟩⟩
  · cases stepped
    exact ⟨_, rfl, rfl, rfl, .inl ⟨rfl, rfl⟩⟩
  · cases stepped
    exact ⟨_, rfl, rfl, rfl, .inl ⟨rfl, rfl⟩⟩
  · cases stepped
    exact ⟨_, rfl, rfl, rfl, .inl ⟨rfl, rfl⟩⟩
  · cases stepped
    exact ⟨_, rfl, rfl, rfl, .inr ⟨_, _, rfl, rfl, rfl, rfl⟩⟩
  · cases stepped

/-! ### Every first failure can be the one that is returned -/

/-- In its wave, nobody reports before `step` has reported. -/
def letsReportFirst (step : String) (state : ExecState Request Value) : ExecEvent → Prop
  | .report other =>
      other = step ∨ step ∉ state.waves.headD [] ∨ (state.goroutines step).isDone = true
  | _ => True

/-- The invariant of a run that lets `step` report first. -/
structure ReportsFirst (step : String) (error : StepError) (state : ExecState Request Value) :
    Prop where
  before : step ∈ state.waves.headD [] → (state.goroutines step).isDone = false →
    state.waveErrors = []
  after : step ∈ state.waves.headD [] → (state.goroutines step).isDone = true →
    state.waveErrors.head? = some error
  returned : ∀ failure, state.returned = some (.error failure) →
    failure = ⟨error.stepName, error.err⟩

section Favoured

variable {step : String} {info : StepInfo} {error : StepError} {finished : List (List String)}
  {state next : ExecState Request Value}

/-- A wave that ends with a required failure is the wave of the first failure. -/
theorem FirstFailure.mem_wave (accepted : Accepted run) (failure : FirstFailure run step)
    (found : run.steps.lookup step = some info) (reported : run.reported step info = some error)
    (required : error.optional = false) (invariant : ExecInvariant run finished state)
    {wave : List String} {later : List (List String)} (at_ : state.waves = wave :: later)
    {other : StepError} (member : other ∈ state.waveErrors) (fails : other.optional = false) :
    step ∈ wave := by
  obtain ⟨name, nameInfo, nameFound, ⟨inWave, -⟩, nameReported⟩ :=
    (invariant.waveErrors.2 other).mp member
  rw [at_] at inWave
  have nameFailure := (accepted.requiredFailure_of_reported nameFound nameReported).mp fails
  obtain ⟨-, index, ⟨stepWave, listed, inStepWave⟩, least⟩ := failure
  have below := least name finished.length nameFailure
    ⟨wave, by simp [invariant.split, at_], inWave⟩
  rcases Nat.lt_or_eq_of_le below with earlier | same
  · -- A wave that is finished has no required failure.
    rw [invariant.split, List.getElem?_append_left earlier] at listed
    have recorded := (invariant.allErrors.2 error).mpr ⟨step, info, found,
      List.mem_flatten.mpr ⟨stepWave, List.mem_of_getElem? listed, inStepWave⟩, reported⟩
    rw [invariant.optional error recorded] at required
    cases required
  · rw [invariant.split, same, at_, List.getElem?_append_right (Nat.le_refl _),
      Nat.sub_self] at listed
    cases listed
    exact inStepWave

/-- The end of a wave with the failure returns it. -/
theorem ReportsFirst.endWave (accepted : Accepted run) (failure : FirstFailure run step)
    (found : run.steps.lookup step = some info) (reported : run.reported step info = some error)
    (required : error.optional = false) (invariant : ExecInvariant run finished state)
    (first : ReportsFirst step error state) (running : state.returned = none)
    {wave : List String} {later : List (List String)} (at_ : state.waves = wave :: later)
    (done : ∀ step ∈ wave, state.goroutines step = .done) :
    ReportsFirst step error (endWave state later) := by
  unfold Composition.endWave
  split
  · rename_i fails
    refine ⟨first.before, first.after, ?_⟩
    obtain ⟨other, member, otherRequired⟩ := List.any_eq_true.mp fails
    have inWave := failure.mem_wave accepted found reported required invariant at_ member
      (by simpa using otherRequired)
    have head := first.after (by rw [at_]; exact inWave) (by rw [done step inWave]; rfl)
    intro returned isReturned
    cases errors : state.waveErrors with
    | nil =>
        rw [errors] at head
        cases head
    | cons earliest rest =>
        rw [errors] at head
        cases head
        simp only [errors, List.find?_cons, required, Bool.not_false, Option.map_some] at isReturned
        cases isReturned
        rfl
  · refine ⟨fun _ _ => rfl, ?_, ?_⟩
    · intro next isDone
      have ready := invariant.laterReady step (by
        rw [at_]
        cases later with
        | nil => cases next
        | cons wave rest => exact List.mem_append_left _ next)
      simp only [ready] at isDone
      cases isDone
    · intro failure returned
      simp only [running] at returned
      cases returned

/-- A move of a goroutine of the running wave keeps the order. -/
theorem ReportsFirst.move (invariant : ExecInvariant run finished state)
    (found : run.steps.lookup step = some info) (reported : run.reported step info = some error)
    (first : ReportsFirst step error state) {event : ExecEvent}
    (allowed : letsReportFirst step state event) {name : String} {nameInfo : StepInfo}
    (isName : event.step? = some name) (nameFound : run.steps.lookup name = some nameInfo)
    (stepped : goroutineStep run state name nameInfo event (state.goroutines name) = some next) :
    ReportsFirst step error next := by
  obtain ⟨moved, goroutines, waves, returned,
    ⟨notDone, errors⟩ | ⟨_, own, rfl, isStored, rfl, errors⟩⟩ := goroutineStep_reports stepped
  · have same : (next.goroutines step).isDone = (state.goroutines step).isDone := by
      rw [goroutines]
      by_cases its : step = name
      · subst its
        obtain ⟨_, _, lower, _⟩ := goroutineStep_moves stepped
        rw [Function.update_self, notDone]
        cases here : state.goroutines step with
        | done =>
            rw [here] at lower
            exact absurd lower (Nat.not_lt_zero _)
        | ready | checked | built | sent | stored => rfl
      · rw [Function.update_of_ne its]
    refine ⟨?_, ?_, ?_⟩
    · rw [waves, same, errors]
      exact first.before
    · rw [waves, same, errors]
      exact first.after
    · rw [returned]
      exact first.returned
  · cases isName
    refine ⟨?_, ?_, ?_⟩
    · rw [waves, goroutines, errors]
      intro inWave notDone
      by_cases its : step = name
      · rw [its, Function.update_self] at notDone
        cases notDone
      · rw [Function.update_of_ne its] at notDone
        rcases allowed with same | outside | done
        · exact absurd same.symm its
        · exact absurd inWave outside
        · rw [notDone] at done
          cases done
    · rw [waves, goroutines, errors]
      intro inWave done
      by_cases its : step = name
      · subst its
        have ok := invariant.ok step info found
        rw [ExecState.Ok, isStored] at ok
        rw [first.before inWave (by rw [isStored]; rfl), ok.2, reported]
        rfl
      · rw [Function.update_of_ne its] at done
        rw [List.head?_append, first.after inWave done]
        rfl
    · rw [returned]
      exact first.returned

/-- Some run returns the error of any given first failure. -/
theorem FirstFailure.exists_returned (accepted : Accepted run) (failure : FirstFailure run step) :
    ∃ state cause, (executeSystem run).Reachable state ∧
      run.outcome run.resolution step = .error cause ∧
      state.returned = some (.error ⟨step, .failed cause⟩) := by
  obtain ⟨info, found, required, notSkipped, cause, failed⟩ :=
    accepted.requiredFailure_iff.mp failure.1
  have reported : run.reported step info = some ⟨step, .failed cause, info.optional⟩ := by
    rw [CompositionRun.reported, notSkipped, failed]
    rfl
  let favoured := (executeSystem run).restrict (letsReportFirst step)
  have ordered : ∀ {state}, favoured.Reachable state →
      ReportsFirst step ⟨step, .failed cause, info.optional⟩ state := by
    intro state reached
    refine System.Reachable.induction _ ?_ ?_ reached
    · intro state valid
      cases valid
      refine ⟨fun _ _ => rfl, ?_, ?_⟩
      · intro _ done
        cases done
      · intro _ returned
        cases returned
    · intro state event next prior first transition
      obtain ⟨finished, invariant⟩ := execInvariant accepted prior.of_restrict
      obtain ⟨running, move⟩ := execMove_of_step transition.1
      cases move with
      | finish =>
          refine ⟨first.before, first.after, ?_⟩
          intro _ returned
          cases returned
      | endWave at_ done =>
          exact first.endWave accepted failure found reported required invariant running at_ done
      | goroutine _ _ isName nameFound moved =>
          exact first.move invariant found reported transition.2 isName nameFound moved
      | missing at_ member absent =>
          obtain ⟨info, isInfo⟩ := invariant.exists_info accepted at_ member
          cases absent.symm.trans isInfo
  have progress : ∀ {state}, favoured.Reachable state → ¬ state.returned ≠ none →
      ∃ event next, favoured.Step state event next := by
    intro state reached notReturned
    have running := not_not.mp notReturned
    obtain ⟨finished, invariant⟩ := execInvariant accepted reached.of_restrict
    by_cases waits : step ∈ state.waves.headD [] ∧ (state.goroutines step).isDone = false
    · obtain ⟨inWave, notDone⟩ := waits
      cases at_ : state.waves with
      | nil =>
          rw [at_] at inWave
          cases inWave
      | cons wave later =>
          rw [at_] at inWave
          obtain ⟨event, next, its, stepped⟩ := exists_execStep_of_wave accepted invariant running
            at_ inWave notDone
          refine ⟨event, next, stepped, ?_⟩
          cases event with
          | report => exact .inl (Option.some.inj its)
          | check | build | send | store | endWave | finish => trivial
    · obtain ⟨event, next, stepped⟩ := exists_execStep accepted reached.of_restrict running
      refine ⟨event, next, stepped, ?_⟩
      cases event with
      | report other =>
          right
          by_cases inWave : step ∈ state.waves.headD []
          · refine .inr ?_
            by_contra notDone
            exact waits ⟨inWave, Bool.eq_false_iff.mpr notDone⟩
          · exact .inl inWave
      | check | build | send | store | endWave | finish => trivial
  have lowered : ∀ {state event next}, favoured.Step state event next →
      next.remaining < state.remaining :=
    fun transition => remaining_lt_of_execStep transition.1
  have start : favoured.Reachable (startExecute run) := .initial rfl
  obtain ⟨state, reached, ended⟩ := start.exists_final (fun state => state.returned ≠ none)
    ExecState.remaining lowered progress
  refine ⟨state, cause, reached.of_restrict, failed, ?_⟩
  obtain ⟨finished, invariant⟩ := execInvariant accepted reached.of_restrict
  cases returned : state.returned with
  | none => exact absurd returned ended
  | some result =>
      cases result with
      | ok result => exact absurd failure.1 ((invariant.completed accepted returned).noFailure step)
      | error returnedFailure => rw [(ordered reached).returned _ returned]

end Favoured

/-! ### The answer -/

/-- The error that `Execute` returned, as `serveComposition` looks at it;
`missingAuth` tells the steps whose error wraps `ErrMissingAuthHeader`. -/
def executeFailure (missingAuth : String → Bool) (failure : RequiredStepError) : ExecuteFailure where
  required := some failure
  missingAuth := missingAuth failure.step

/-- Status and body of what `serveComposition` writes when `Execute` fails. -/
def failureReply (runtime : ServeRuntime Value) (comp : CompositionConfig) (hasRecorder : Bool)
    (call : CompositionCall Value) (failure : ExecuteFailure) : Option (Int × ReplyBody Value) :=
  (serveComposition { runtime with execute := fun _ => .error failure } comp hasRecorder
    call).written.map fun response => (response.status, response.body)

/-- The body of the request is accepted, so `Execute` is called. -/
def ReachesExecute (runtime : ServeRuntime Value) (comp : CompositionConfig)
    (call : CompositionCall Value) : Prop :=
  ∃ body, readBody runtime comp call.request = .ok body ∧
    (runtime.schema.bind fun validate => validate body) = none

/-- All first failures have one answer: there is only one of them, or all of them
are for a missing `Authorization` header. -/
def OneAnswer (run : CompositionRun Request Value) (missingAuth : String → Bool) : Prop :=
  ∀ step other, FirstFailure run step → FirstFailure run other →
    step = other ∨ missingAuth step = true ∧ missingAuth other = true

/-- A failed run is answered with what is written for its failure. -/
theorem failureReply_eq {runtime : ServeRuntime Value} {comp : CompositionConfig}
    {hasRecorder : Bool} {call : CompositionCall Value} (reaches : ReachesExecute runtime comp call)
    (failure : ExecuteFailure) :
    failureReply runtime comp hasRecorder call failure =
      (answerFailure runtime failure).written.map fun response =>
        (response.status, response.body) := by
  obtain ⟨body, read, valid⟩ := reaches
  have same : readBody { runtime with execute := fun _ => .error failure } comp call.request =
      .ok body := read
  unfold failureReply serveComposition
  rw [same]
  dsimp only
  rw [valid]
  rfl

/-- A returned error is that of a first failure. -/
theorem firstFailure_of_returned (accepted : Accepted run) {state : ExecState Request Value}
    {failure : RequiredStepError} (reached : (executeSystem run).Reachable state)
    (returned : state.returned = some (.error failure)) :
    FirstFailure run failure.step ∧ ∃ cause,
      run.outcome run.resolution failure.step = .error cause ∧
      failure = ⟨failure.step, .failed cause⟩ := by
  obtain ⟨finished, invariant⟩ := execInvariant accepted reached
  refine ⟨invariant.namesFirstFailure accepted returned, ?_⟩
  obtain ⟨wave, later, error, -, -, member, required, rfl⟩ := invariant.returned _ returned
  obtain ⟨step, info, found, -, reported⟩ := (invariant.waveErrors.2 error).mp member
  rcases reported_cases reported with ⟨-, rfl⟩ | ⟨-, cause, failed, rfl⟩ | ⟨-, _, -, rfl⟩
  · cases required
  · exact ⟨cause, failed, rfl⟩
  · cases required

/-- Two errors of different steps, not both for a missing header, are answered
differently. -/
theorem eq_of_sameReply {runtime : ServeRuntime Value} (present : runtime.clientGone = false)
    {missingAuth : String → Bool} {failure other : RequiredStepError}
    (same : ((answerFailure runtime (executeFailure missingAuth failure)).written.map
        fun response => (response.status, response.body)) =
      (answerFailure runtime (executeFailure missingAuth other)).written.map
        fun response => (response.status, response.body)) :
    failure.step = other.step ∨
      missingAuth failure.step = true ∧ missingAuth other.step = true := by
  simp only [answerFailure, executeFailure, present, Bool.false_eq_true, if_false] at same
  cases first : missingAuth failure.step with
  | true =>
      cases second : missingAuth other.step with
      | true => exact .inr ⟨rfl, rfl⟩
      | false =>
          simp only [first, second, if_true, Bool.false_eq_true, if_false] at same
          split at same <;> simp [writeJSON] at same
  | false =>
      cases second : missingAuth other.step with
      | true =>
          simp only [first, second, if_true, Bool.false_eq_true, if_false] at same
          split at same <;> simp [writeJSON] at same
      | false =>
          simp only [first, second, Bool.false_eq_true, if_false] at same
          left
          split at same <;> split at same <;> simp [writeJSON] at same <;> exact same

/-- The answer to a failing request is the same in every interleaving exactly when
the client is gone or all first failures have one answer. -/
theorem failureReply_agrees_iff (run : CompositionRun Request Value) (accepted : Accepted run)
    (missingAuth : String → Bool) (runtime : ServeRuntime Value) (comp : CompositionConfig)
    (hasRecorder : Bool) (call : CompositionCall Value)
    (reaches : ReachesExecute runtime comp call) :
    (∀ state state' failure failure', (executeSystem run).Reachable state →
      (executeSystem run).Reachable state' → state.returned = some (.error failure) →
      state'.returned = some (.error failure') →
      failureReply runtime comp hasRecorder call (executeFailure missingAuth failure) =
        failureReply runtime comp hasRecorder call (executeFailure missingAuth failure')) ↔
      runtime.clientGone = true ∨ OneAnswer run missingAuth := by
  constructor
  · intro agree
    cases gone : runtime.clientGone with
    | true => exact .inl rfl
    | false =>
        refine .inr fun step other first second => ?_
        obtain ⟨state, cause, reached, -, returned⟩ := first.exists_returned accepted
        obtain ⟨state', cause', reached', -, returned'⟩ := second.exists_returned accepted
        have same := agree _ _ _ _ reached reached' returned returned'
        rw [failureReply_eq reaches, failureReply_eq reaches] at same
        exact eq_of_sameReply gone same
  · intro condition state state' failure failure' reached reached' returned returned'
    rw [failureReply_eq reaches, failureReply_eq reaches]
    rcases condition with gone | oneAnswer
    · simp only [answerFailure, gone, if_true]
    · obtain ⟨first, cause, failed, isFailure⟩ :=
        firstFailure_of_returned accepted reached returned
      obtain ⟨second, cause', failed', isFailure'⟩ :=
        firstFailure_of_returned accepted reached' returned'
      rcases oneAnswer _ _ first second with same | ⟨missing, missing'⟩
      · -- One step has one outcome, so the two errors are equal.
        rw [same] at failed isFailure
        cases failed.symm.trans failed'
        rw [isFailure, isFailure']
      · simp only [answerFailure, executeFailure, missing, missing', if_true]

/-! ### A wave with two failures -/

/-- `account` and `orders` are required and run in one wave. -/
def twoSteps (outcome : String → Except StepFailure (StepResult Unit)) :
    CompositionRun Unit Unit where
  steps := AList.insert "account" ⟨"api", false⟩ (AList.singleton "orders" ⟨"api", false⟩)
  plan :=
    { waves := [["account", "orders"]]
      deps := AList.insert "account" [] (AList.singleton "orders" []) }
  upstreams := ["api"]
  build := fun _ _ => .ok ()
  send := fun step _ => outcome step

theorem accepted_twoSteps (outcome : String → Except StepFailure (StepResult Unit)) :
    Accepted (twoSteps outcome) := by
  refine ⟨⟨(twoSteps outcome).plan.deps, .listed _, .refl _, by rfl⟩, ?_, fun _ _ _ _ => rfl⟩
  intro step info found
  have all : ∀ entry ∈ (twoSteps outcome).steps.entries,
      entry.2.upstream ∈ (twoSteps outcome).upstreams := by
    change ∀ entry ∈ (twoSteps fun _ => .error (.build .path "")).steps.entries,
      entry.2.upstream ∈ ["api"]
    decide
  exact all ⟨step, info⟩ (GoMap.mem_entries_iff.mpr found)

/-- The upstream of `account` forwards the `Authorization` header of the client,
which is missing; `orders` does not answer in time. -/
def missingAndLate (step : String) : Except StepFailure (StepResult Unit) :=
  if step = "account" then
    .error (.send .requestFailed "passthrough auth requires Authorization header from client" false)
  else .error (.send .timeout "30s" true)

/-- `orders` does not answer in time, the other steps succeed. -/
def onlyLate (step : String) : Except StepFailure (StepResult Unit) :=
  if step = "orders" then .error (.send .timeout "30s" true) else .ok ⟨200, ∅, (), [], false⟩

def isAccount (step : String) : Bool := step = "account"

/-- The events of a step up to its report. -/
def reportEvents (step : String) : List ExecEvent :=
  [.check step, .build step, .send step, .store step, .report step]

def connectedRuntime : ServeRuntime Unit where
  nil := ()
  parseMediaType := fun _ => none
  unmarshal := fun _ => none
  schema := none
  execute := fun _ => .error ⟨none, false⟩
  clientGone := false
  buildResponse := fun _ _ => none
  encode := fun _ => true
  start := 0
  duration := 0
  traceID := ""
  parseHost := fun _ => none

def twoStepsConfig : CompositionConfig :=
  ⟨"/overview", "GET", true, [], ⟨.null, "", .null⟩, 0, none, none⟩

def getOverview : CompositionCall Unit :=
  ⟨"overview", ∅, ⟨"GET", "/overview", ∅, ∅, "203.0.113.1", .absent⟩, ⟨none, none⟩⟩

theorem reachesExecute_getOverview :
    ReachesExecute connectedRuntime twoStepsConfig getOverview := ⟨(), rfl, rfl⟩

/-- The two orders in which the goroutines report lead to a 401 without a step
and to a 504 that names `orders`. -/
theorem failing_wave_answers_differ :
    ∃ state state' failure failure', (executeSystem (twoSteps missingAndLate)).Reachable state ∧
      (executeSystem (twoSteps missingAndLate)).Reachable state' ∧
      state.returned = some (.error failure) ∧ state'.returned = some (.error failure') ∧
      failureReply connectedRuntime twoStepsConfig false getOverview
        (executeFailure isAccount failure) = some (401, .error "authorization header required") ∧
      failureReply connectedRuntime twoStepsConfig false getOverview
        (executeFailure isAccount failure') = some (504, .stepError "upstream timeout" "orders") := by
  have first : ((System.replay (execStep (twoSteps missingAndLate))
      (startExecute (twoSteps missingAndLate))
      (reportEvents "account" ++ reportEvents "orders" ++ [.endWave])).isSome) = true := by rfl
  have second : ((System.replay (execStep (twoSteps missingAndLate))
      (startExecute (twoSteps missingAndLate))
      (reportEvents "orders" ++ reportEvents "account" ++ [.endWave])).isSome) = true := by rfl
  exact ⟨_, _, _, _,
    System.reachable_of_replay _ (.initial rfl) (Option.some_get first).symm,
    System.reachable_of_replay _ (.initial rfl) (Option.some_get second).symm, rfl, rfl, rfl, rfl⟩

/-- With one failing step all interleavings lead to the same answer. -/
theorem failureReply_agrees_of_one_failure :
    ReachesExecute connectedRuntime twoStepsConfig getOverview ∧
      ∀ state state' failure failure', (executeSystem (twoSteps onlyLate)).Reachable state →
        (executeSystem (twoSteps onlyLate)).Reachable state' →
        state.returned = some (.error failure) → state'.returned = some (.error failure') →
        failureReply connectedRuntime twoStepsConfig false getOverview
            (executeFailure isAccount failure) =
          failureReply connectedRuntime twoStepsConfig false getOverview
            (executeFailure isAccount failure') := by
  refine ⟨reachesExecute_getOverview, (failureReply_agrees_iff _ (accepted_twoSteps onlyLate) _ _ _ _ _
    reachesExecute_getOverview).mpr (.inr ?_)⟩
  have only : ∀ step, FirstFailure (twoSteps onlyLate) step → step = "orders" := by
    rintro step ⟨⟨info, -, -, -, cause, failed⟩, -⟩
    by_contra other
    change onlyLate step = .error cause at failed
    rw [onlyLate, if_neg other] at failed
    cases failed
  intro step other first second
  exact .inl ((only step first).trans (only other second).symm)

end Restitch.Composition
