import Restitch.Composition.Resolution

/-!
# The invariant of a running composition

Steps of earlier waves have their result, steps of later waves have not begun,
and a step of the running wave is exactly as far as its goroutine. A goroutine
writes only its own entry, and reads only entries of earlier waves, so whatever
the interleaving the entries are those of the resolution.
-/

namespace Restitch.Composition

open Restitch.Std Restitch.Semantics

variable {Request Value : Type} {run : CompositionRun Request Value}

/-- The request of a step, or why there is none. -/
def CompositionRun.builtRequest (run : CompositionRun Request Value) (step : String) :
    Except StepFailure Request :=
  run.build step fun dep => some (run.resolution dep)

/-- The error a step reports. -/
def CompositionRun.reported (run : CompositionRun Request Value) (step : String)
    (info : StepInfo) : Option StepError :=
  if run.depNil step then some ⟨step, .dependencyFailed, true⟩
  else
    match run.outcome run.resolution step with
    | .error failure => some ⟨step, .failed failure, info.optional⟩
    | .ok result => resultError step result

/-- What a step leaves behind: its entry, and whether its request was built and sent. -/
structure Settled (run : CompositionRun Request Value) (step : String)
    (entry : Option (Option (StepResult Value))) (isBuilt isSent : Bool) : Prop where
  entry : entry = some (run.resolution step)
  isBuilt : isBuilt = !run.depNil step
  isSent : isSent = (!run.depNil step && (run.builtRequest step).isOk)

/-- What the goroutine of a step knows and has left behind. -/
def GoroutineOk (run : CompositionRun Request Value) (step : String) (info : StepInfo)
    (entry : Option (Option (StepResult Value))) (isBuilt isSent : Bool) :
    Goroutine Request Value → Prop
  | .ready => entry = none ∧ isBuilt = false ∧ isSent = false
  | .checked depFailed =>
      entry = none ∧ isBuilt = false ∧ isSent = false ∧ depFailed = run.depNil step
  | .built request => entry = none ∧ isBuilt = true ∧ isSent = false ∧
      run.depNil step = false ∧ request = run.builtRequest step
  | .sent outcome => entry = none ∧ isBuilt = true ∧ isSent = true ∧ run.depNil step = false ∧
      ∃ request, run.builtRequest step = .ok request ∧ outcome = run.send step request
  | .stored error => Settled run step entry isBuilt isSent ∧ error = run.reported step info
  | .done => Settled run step entry isBuilt isSent

/-- `GoroutineOk` in a state. -/
def ExecState.Ok (state : ExecState Request Value) (run : CompositionRun Request Value)
    (step : String) (info : StepInfo) : Prop :=
  GoroutineOk run step info (state.results step) (decide (step ∈ state.builtLog))
    (decide (step ∈ state.sentLog)) (state.goroutines step)

/-- The errors are those of some steps, one for each step that reports one. -/
def Reports (run : CompositionRun Request Value) (errors : List StepError)
    (among : String → Prop) : Prop :=
  (errors.map (·.stepName)).Nodup ∧ ∀ error, error ∈ errors ↔
    ∃ step info, run.steps.lookup step = some info ∧ among step ∧
      run.reported step info = some error

/-- What `Execute` returns, and when. -/
def ReturnOk (state : ExecState Request Value) :
    Except RequiredStepError (CompositionResult Value) → Prop
  | .ok result => state.waves = [] ∧
      result = ⟨state.results, buildErrorsArray state.allErrors, !state.allErrors.isEmpty⟩
  | .error failure => ∃ wave later error, state.waves = wave :: later ∧
      (∀ step ∈ wave, state.goroutines step = .done) ∧
      error ∈ state.waveErrors ∧ error.optional = false ∧ failure = ⟨error.stepName, error.err⟩

/-- The invariant, with the waves that are finished. -/
structure ExecInvariant (run : CompositionRun Request Value) (finished : List (List String))
    (state : ExecState Request Value) : Prop where
  split : run.plan.waves = finished ++ state.waves
  ok : ∀ step info, run.steps.lookup step = some info → state.Ok run step info
  finishedDone : ∀ step ∈ finished.flatten, state.goroutines step = .done
  laterReady : ∀ step ∈ state.waves.tail.flatten, state.goroutines step = .ready
  absent : ∀ step, run.steps.lookup step = none →
    state.results step = none ∧ step ∉ state.builtLog ∧ step ∉ state.sentLog
  logs : state.builtLog.Nodup ∧ state.sentLog.Nodup
  waveErrors : Reports run state.waveErrors fun step =>
    step ∈ state.waves.headD [] ∧ state.goroutines step = .done
  allErrors : Reports run state.allErrors fun step => step ∈ finished.flatten
  optional : ∀ error ∈ state.allErrors, error.optional = true
  returned : ∀ result, state.returned = some result → ReturnOk state result

/-- One step's goroutine touches nothing of the others. -/
structure SameElsewhere (step : String) (state next : ExecState Request Value) : Prop where
  results : ∀ other, other ≠ step → next.results other = state.results other
  built : ∀ other, other ≠ step → (other ∈ next.builtLog ↔ other ∈ state.builtLog)
  sent : ∀ other, other ≠ step → (other ∈ next.sentLog ↔ other ∈ state.sentLog)
  goroutines : ∀ other, other ≠ step → next.goroutines other = state.goroutines other

/-- What a step can report: a nil dependency, its own failure, or an error rule. -/
theorem reported_cases {step : String} {info : StepInfo} {error : StepError}
    (reported : run.reported step info = some error) :
    (run.depNil step = true ∧ error = ⟨step, .dependencyFailed, true⟩) ∨
    (run.depNil step = false ∧ ∃ failure, run.outcome run.resolution step = .error failure ∧
      error = ⟨step, .failed failure, info.optional⟩) ∨
    (run.depNil step = false ∧ ∃ result, run.outcome run.resolution step = .ok result ∧
      error = ⟨step, .ruleMatched result.status, true⟩) := by
  unfold CompositionRun.reported at reported
  cases skipped : run.depNil step with
  | true =>
      rw [skipped] at reported
      cases reported
      exact .inl ⟨rfl, rfl⟩
  | false =>
      rw [skipped] at reported
      cases outcome : run.outcome run.resolution step with
      | error failure =>
          rw [outcome] at reported
          cases reported
          exact .inr (.inl ⟨rfl, failure, rfl, rfl⟩)
      | ok result =>
          simp only [outcome, Bool.false_eq_true, if_false, resultError] at reported
          split at reported
          · cases reported
            exact .inr (.inr ⟨rfl, result, rfl, rfl⟩)
          · cases reported

/-- A step reports in its own name. -/
theorem stepName_of_reported {step : String} {info : StepInfo} {error : StepError}
    (reported : run.reported step info = some error) : error.stepName = step := by
  rcases reported_cases reported with ⟨-, rfl⟩ | ⟨-, _, -, rfl⟩ | ⟨-, _, -, rfl⟩
  · rfl
  · rfl
  · rfl

/-- What is reported depends on the steps of the run among those asked for. -/
theorem Reports.congr {errors : List StepError} {among among' : String → Prop}
    (reports : Reports run errors among)
    (same : ∀ step info, run.steps.lookup step = some info → (among step ↔ among' step)) :
    Reports run errors among' := by
  refine ⟨reports.1, fun error => (reports.2 error).trans ?_⟩
  refine exists_congr fun step => exists_congr fun info => and_congr_right fun found => ?_
  rw [same step info found]

/-- The error of one step. -/
theorem reports_single {step : String} {info : StepInfo}
    (found : run.steps.lookup step = some info) :
    Reports run (run.reported step info).toList (fun other => other = step) := by
  refine ⟨?_, ?_⟩
  · cases run.reported step info <;> simp
  · intro error
    rw [Option.mem_toList]
    constructor
    · intro own
      exact ⟨step, info, found, rfl, own⟩
    · rintro ⟨_, otherInfo, otherFound, rfl, reported⟩
      cases found.symm.trans otherFound
      exact reported

/-- Errors of two disjoint groups of steps. -/
theorem Reports.append {errors errors' : List StepError} {among among' : String → Prop}
    (reports : Reports run errors among) (reports' : Reports run errors' among')
    (apart : ∀ step, among step → among' step → False) :
    Reports run (errors ++ errors') (fun step => among step ∨ among' step) := by
  refine ⟨?_, ?_⟩
  · rw [List.map_append, List.nodup_append]
    refine ⟨reports.1, reports'.1, ?_⟩
    rintro name listed _ listed' rfl
    obtain ⟨error, member, rfl⟩ := List.mem_map.mp listed
    obtain ⟨error', member', equal⟩ := List.mem_map.mp listed'
    obtain ⟨step, info, _, counted, reported⟩ := (reports.2 error).mp member
    obtain ⟨step', info', _, counted', reported'⟩ := (reports'.2 error').mp member'
    have same : step' = step := by
      rw [← stepName_of_reported reported, ← stepName_of_reported reported', equal]
    exact apart step counted (same ▸ counted')
  · intro error
    rw [List.mem_append, reports.2 error, reports'.2 error]
    constructor
    · rintro (⟨step, info, found, counted, reported⟩ | ⟨step, info, found, counted, reported⟩)
      · exact ⟨step, info, found, .inl counted, reported⟩
      · exact ⟨step, info, found, .inr counted, reported⟩
    · rintro ⟨step, info, found, counted | counted, reported⟩
      · exact .inl ⟨step, info, found, counted, reported⟩
      · exact .inr ⟨step, info, found, counted, reported⟩

section Goroutines

variable {finished later : List (List String)} {wave : List String} {step : String}
  {info : StepInfo} {state next : ExecState Request Value}

/-- A step of the running wave is in no other wave. -/
theorem ExecInvariant.apart (accepted : Accepted run) (invariant : ExecInvariant run finished state)
    (at_ : state.waves = wave :: later) (member : step ∈ wave) :
    step ∉ finished.flatten ∧ step ∉ later.flatten := by
  have nodup := accepted.nodup
  rw [invariant.split, at_, List.flatten_append, List.flatten_cons, List.nodup_append] at nodup
  obtain ⟨-, rest, disjoint⟩ := nodup
  refine ⟨fun before => disjoint step before step (List.mem_append_left _ member) rfl, ?_⟩
  exact fun after => (List.nodup_append.mp rest).2.2 step member step after rfl

/-- The entries of the dependencies of a running step are final. -/
theorem ExecInvariant.dep_results (accepted : Accepted run)
    (invariant : ExecInvariant run finished state) (at_ : state.waves = wave :: later)
    (member : step ∈ wave) {dep : String} (needs : dep ∈ run.deps step) :
    state.results dep = some (run.resolution dep) := by
  have split := invariant.split
  rw [at_] at split
  have before := accepted.deps_mem split member needs
  have listed : dep ∈ run.plan.waves.flatten := by
    rw [split, List.flatten_append]
    exact List.mem_append_left _ before
  obtain ⟨depInfo, found⟩ := accepted.mem_waves.mp listed
  have ok := invariant.ok dep depInfo found
  rw [ExecState.Ok, invariant.finishedDone dep before] at ok
  exact ok.entry

/-- The check of the dependencies is that of the resolution. -/
theorem ExecInvariant.checkDependenciesFailed_eq (accepted : Accepted run)
    (invariant : ExecInvariant run finished state) (at_ : state.waves = wave :: later)
    (member : step ∈ wave) :
    checkDependenciesFailed (run.deps step) state.results = run.depNil step := by
  rw [checkDependenciesFailed, CompositionRun.depNil, Bool.eq_iff_iff, List.any_eq_true,
    List.any_eq_true]
  refine exists_congr fun dep => and_congr_right fun needs => ?_
  rw [invariant.dep_results accepted at_ member needs]
  rfl

/-- The request a goroutine builds is that of the resolution. -/
theorem ExecInvariant.build_eq (accepted : Accepted run)
    (invariant : ExecInvariant run finished state) (at_ : state.waves = wave :: later)
    (member : step ∈ wave) : run.build step state.results = run.builtRequest step :=
  accepted.reads step _ _ fun _ needs =>
    ⟨_, invariant.dep_results accepted at_ member needs, rfl⟩

/-- An event of one goroutine keeps the invariant when it keeps that goroutine's
own part of it. -/
theorem ExecInvariant.local (accepted : Accepted run)
    (invariant : ExecInvariant run finished state) (at_ : state.waves = wave :: later)
    (member : step ∈ wave) (found : run.steps.lookup step = some info)
    (same : SameElsewhere step state next) (waves : next.waves = state.waves)
    (allErrors : next.allErrors = state.allErrors) (running : next.returned = none)
    (ok : next.Ok run step info) (logs : next.builtLog.Nodup ∧ next.sentLog.Nodup)
    (errors : Reports run next.waveErrors fun other =>
      other ∈ wave ∧ next.goroutines other = .done) :
    ExecInvariant run finished next := by
  obtain ⟨notBefore, notAfter⟩ := invariant.apart accepted at_ member
  refine ⟨by rw [waves, invariant.split], ?_, ?_, ?_, ?_, logs, ?_, ?_, ?_, ?_⟩
  · intro other otherInfo otherFound
    by_cases equal : other = step
    · subst equal
      cases found.symm.trans otherFound
      exact ok
    · have before := invariant.ok other otherInfo otherFound
      unfold ExecState.Ok at before ⊢
      rw [same.results other equal, same.goroutines other equal,
        decide_eq_decide.mpr (same.built other equal), decide_eq_decide.mpr (same.sent other equal)]
      exact before
  · intro other before
    rw [same.goroutines other (fun equal => notBefore (equal ▸ before))]
    exact invariant.finishedDone other before
  · intro other after
    rw [waves] at after
    have notStep : other ≠ step := by
      rintro rfl
      rw [at_] at after
      exact notAfter after
    rw [same.goroutines other notStep]
    exact invariant.laterReady other after
  · intro other missing
    have notStep : other ≠ step := by
      rintro rfl
      cases found.symm.trans missing
    rw [same.results other notStep, same.built other notStep, same.sent other notStep]
    exact invariant.absent other missing
  · rw [waves, at_]
    exact errors
  · rw [allErrors]
    exact invariant.allErrors
  · rw [allErrors]
    exact invariant.optional
  · intro result returned
    rw [running] at returned
    cases returned

/-- As long as a goroutine does not report, the errors stay those of the others. -/
theorem ExecInvariant.silent (invariant : ExecInvariant run finished state)
    (at_ : state.waves = wave :: later) (same : SameElsewhere step state next)
    (errors : next.waveErrors = state.waveErrors) (before : state.goroutines step ≠ .done)
    (after : next.goroutines step ≠ .done) :
    Reports run next.waveErrors fun other => other ∈ wave ∧ next.goroutines other = .done := by
  have reports := invariant.waveErrors
  rw [at_] at reports
  rw [errors]
  refine reports.congr fun other _ _ => and_congr_right fun _ => ?_
  by_cases equal : other = step
  · subst equal
    exact iff_of_false before after
  · rw [same.goroutines other equal]

/-- Moving a goroutine on, and noting in the logs at most what that step did. -/
theorem sameElsewhere_of_move (goroutine : Goroutine Request Value)
    (built : next.builtLog = state.builtLog ∨ next.builtLog = step :: state.builtLog)
    (sent : next.sentLog = state.sentLog ∨ next.sentLog = step :: state.sentLog)
    (results : ∀ other, other ≠ step → next.results other = state.results other)
    (moved : next.goroutines = Function.update state.goroutines step goroutine) :
    SameElsewhere step state next := by
  have log {old new : List String} (grown : new = old ∨ new = step :: old) :
      ∀ other, other ≠ step → (other ∈ new ↔ other ∈ old) := by
    intro other different
    rcases grown with rfl | rfl
    · rfl
    · simp [different]
  refine ⟨results, log built, log sent, ?_⟩
  intro other different
  rw [moved, Function.update_of_ne different]

/-- The entry that a goroutine stores settles its step. -/
theorem ExecInvariant.store (accepted : Accepted run)
    (invariant : ExecInvariant run finished state) (at_ : state.waves = wave :: later)
    (member : step ∈ wave) (found : run.steps.lookup step = some info)
    (running : state.returned = none) (before : state.goroutines step ≠ .done)
    {result : Option (StepResult Value)} {error : Option StepError}
    (resolved : result = run.resolution step) (reported : error = run.reported step info)
    (built : decide (step ∈ state.builtLog) = !run.depNil step)
    (sent : decide (step ∈ state.sentLog) =
      (!run.depNil step && (run.builtRequest step).isOk)) :
    ExecInvariant run finished (state.store step result error) := by
  have same : SameElsewhere step state (state.store step result error) :=
    sameElsewhere_of_move (.stored error) (.inl rfl) (.inl rfl)
      (fun other different => Function.update_of_ne different ..) rfl
  have stored : (state.store step result error).goroutines step = .stored error :=
    Function.update_self ..
  refine invariant.local accepted at_ member found same rfl rfl running ?_ invariant.logs
    (invariant.silent at_ same rfl before (by rw [stored]; simp))
  rw [ExecState.Ok, stored]
  refine ⟨⟨?_, built, sent⟩, reported⟩
  rw [← resolved]
  exact Function.update_self ..

/-- A goroutine that moves on without storing or reporting. -/
theorem ExecInvariant.move (accepted : Accepted run)
    (invariant : ExecInvariant run finished state) (at_ : state.waves = wave :: later)
    (member : step ∈ wave) (found : run.steps.lookup step = some info)
    (before : state.goroutines step ≠ .done) {goroutine : Goroutine Request Value}
    (after : goroutine ≠ .done)
    (built : next.builtLog = state.builtLog ∨
      step ∉ state.builtLog ∧ next.builtLog = step :: state.builtLog)
    (sent : next.sentLog = state.sentLog ∨
      step ∉ state.sentLog ∧ next.sentLog = step :: state.sentLog)
    (results : next.results = state.results)
    (moved : next.goroutines = Function.update state.goroutines step goroutine)
    (waves : next.waves = state.waves) (allErrors : next.allErrors = state.allErrors)
    (waveErrors : next.waveErrors = state.waveErrors) (running : next.returned = none)
    (ok : GoroutineOk run step info (state.results step) (decide (step ∈ next.builtLog))
      (decide (step ∈ next.sentLog)) goroutine) :
    ExecInvariant run finished next := by
  have same : SameElsewhere step state next :=
    sameElsewhere_of_move goroutine (built.imp_right And.right) (sent.imp_right And.right)
      (fun other _ => by rw [results]) moved
  have here : next.goroutines step = goroutine := by
    rw [moved, Function.update_self]
  refine invariant.local accepted at_ member found same waves allErrors running ?_ ?_
    (invariant.silent at_ same waveErrors before (by rw [here]; exact after))
  · rw [ExecState.Ok, here, results]
    exact ok
  · refine ⟨?_, ?_⟩
    · rcases built with equal | ⟨fresh, equal⟩
      · rw [equal]
        exact invariant.logs.1
      · rw [equal]
        exact List.nodup_cons.mpr ⟨fresh, invariant.logs.1⟩
    · rcases sent with equal | ⟨fresh, equal⟩
      · rw [equal]
        exact invariant.logs.2
      · rw [equal]
        exact List.nodup_cons.mpr ⟨fresh, invariant.logs.2⟩

/-- A step whose request is built has the outcome of its call. -/
theorem outcome_of_built {request : Request} (built : run.builtRequest step = .ok request) :
    run.outcome run.resolution step = run.send step request := by
  change (run.builtRequest step).bind (run.send step) = _
  rw [built]
  rfl

/-- A step whose request is not built fails with that. -/
theorem outcome_of_unbuilt {failure : StepFailure}
    (failed : run.builtRequest step = .error failure) :
    run.outcome run.resolution step = .error failure := by
  change (run.builtRequest step).bind (run.send step) = _
  rw [failed]
  rfl

/-- A step that was skipped or whose outcome is known is settled by it. -/
theorem Accepted.settled (accepted : Accepted run) (found : run.steps.lookup step = some info) :
    (run.depNil step = true → run.resolution step = none ∧
      run.reported step info = some ⟨step, .dependencyFailed, true⟩) ∧
    (run.depNil step = false → ∀ outcome, run.outcome run.resolution step = outcome →
      run.resolution step = outcome.toOption ∧ run.reported step info =
        match outcome with
        | .error failure => some ⟨step, .failed failure, info.optional⟩
        | .ok result => resultError step result) := by
  have resolved := accepted.resolution_eq (accepted.mem_waves.mpr ⟨info, found⟩)
  rw [CompositionRun.resolveStep, ← CompositionRun.depNil] at resolved
  refine ⟨?_, ?_⟩
  · intro skipped
    rw [resolved, CompositionRun.reported, skipped]
    exact ⟨rfl, rfl⟩
  · rintro reached outcome rfl
    rw [resolved, CompositionRun.reported, reached]
    exact ⟨rfl, rfl⟩

/-- A goroutine that reports adds the error of its step. -/
theorem ExecInvariant.report (accepted : Accepted run)
    (invariant : ExecInvariant run finished state) (at_ : state.waves = wave :: later)
    (member : step ∈ wave) (found : run.steps.lookup step = some info)
    (running : state.returned = none) {error : Option StepError}
    (here : state.goroutines step = .stored error) :
    ExecInvariant run finished { state with
      goroutines := Function.update state.goroutines step .done
      waveErrors := state.waveErrors ++ error.toList } := by
  have ok := invariant.ok step info found
  rw [ExecState.Ok, here] at ok
  obtain ⟨settled, rfl⟩ := ok
  have reports := invariant.waveErrors
  rw [at_] at reports
  have notDone : ¬ (step ∈ wave ∧ state.goroutines step = .done) := by
    simp [here]
  have grown := reports.append (reports_single found) (by
    rintro other counted rfl
    exact notDone counted)
  refine invariant.local accepted at_ member found
    (sameElsewhere_of_move .done (.inl rfl) (.inl rfl) (fun _ _ => rfl) rfl) rfl rfl running
    ?_ invariant.logs (grown.congr ?_)
  · simp only [ExecState.Ok, Function.update_self]
    exact settled
  · intro other _ _
    by_cases equal : other = step
    · subst equal
      simp [member]
    · simp [equal]

/-- Every access of a goroutine keeps the invariant. -/
theorem ExecInvariant.goroutineStep (accepted : Accepted run)
    (invariant : ExecInvariant run finished state) (at_ : state.waves = wave :: later)
    (member : step ∈ wave) (found : run.steps.lookup step = some info)
    (running : state.returned = none) {event : ExecEvent} {goroutine : Goroutine Request Value}
    (here : state.goroutines step = goroutine)
    (stepped : goroutineStep run state step info event goroutine = some next) :
    ExecInvariant run finished next := by
  have ok := invariant.ok step info found
  rw [ExecState.Ok, here] at ok
  obtain ⟨skipped, reached⟩ := accepted.settled found
  unfold Composition.goroutineStep at stepped
  split at stepped
  · -- the check of the dependencies
    cases stepped
    obtain ⟨entry, built, sent⟩ := ok
    exact invariant.move accepted at_ member found (by simp [here]) (by simp) (.inl rfl) (.inl rfl)
      rfl rfl rfl rfl rfl running
      ⟨entry, built, sent, invariant.checkDependenciesFailed_eq accepted at_ member⟩
  · -- a skipped step
    cases stepped
    obtain ⟨entry, built, sent, failed⟩ := ok
    obtain ⟨resolution, reported⟩ := skipped failed.symm
    exact invariant.store accepted at_ member found running (by simp [here]) resolution.symm
      reported.symm (by rw [built, ← failed]; rfl) (by rw [sent, ← failed]; rfl)
  · -- the request
    obtain ⟨entry, built, sent, reachable⟩ := ok
    rw [if_pos (accepted.upstreams step info found)] at stepped
    cases stepped
    exact invariant.move accepted at_ member found (by simp [here]) (by simp)
      (.inr ⟨of_decide_eq_false built, rfl⟩) (.inl rfl) rfl rfl rfl rfl rfl running
      ⟨entry, by simp, sent, reachable.symm, invariant.build_eq accepted at_ member⟩
  · -- the exchange
    rename_i request
    cases stepped
    obtain ⟨entry, built, sent, reachable, isRequest⟩ := ok
    exact invariant.move accepted at_ member found (by simp [here]) (by simp) (.inl rfl)
      (.inr ⟨of_decide_eq_false sent, rfl⟩) rfl rfl rfl rfl rfl running
      ⟨entry, built, by simp, reachable, request, isRequest.symm, rfl⟩
  · -- no request
    rename_i failure
    cases stepped
    obtain ⟨entry, built, sent, reachable, isRequest⟩ := ok
    obtain ⟨resolution, reported⟩ := reached reachable _ (outcome_of_unbuilt isRequest.symm)
    exact invariant.store accepted at_ member found running (by simp [here]) resolution.symm
      reported.symm (by rw [built, reachable]; rfl) (by rw [sent, reachable, ← isRequest]; rfl)
  · -- a failed exchange
    rename_i failure
    cases stepped
    obtain ⟨entry, built, sent, reachable, request, isRequest, isOutcome⟩ := ok
    obtain ⟨resolution, reported⟩ := reached reachable _ (outcome_of_built isRequest)
    rw [← isOutcome] at resolution reported
    exact invariant.store accepted at_ member found running (by simp [here]) resolution.symm
      reported.symm (by rw [built, reachable]; rfl) (by rw [sent, reachable, isRequest]; rfl)
  · -- a result
    rename_i result
    cases stepped
    obtain ⟨entry, built, sent, reachable, request, isRequest, isOutcome⟩ := ok
    obtain ⟨resolution, reported⟩ := reached reachable _ (outcome_of_built isRequest)
    rw [← isOutcome] at resolution reported
    exact invariant.store accepted at_ member found running (by simp [here]) resolution.symm
      reported.symm (by rw [built, reachable]; rfl) (by rw [sent, reachable, isRequest]; rfl)
  · -- the report
    cases stepped
    exact invariant.report accepted at_ member found running here
  · cases stepped

end Goroutines

section Waves

variable {finished later : List (List String)} {wave : List String}
  {state next : ExecState Request Value}

/-- A wave that ends with a failed required step ends the call. -/
theorem ExecInvariant.fail (invariant : ExecInvariant run finished state)
    (at_ : state.waves = wave :: later) (done : ∀ step ∈ wave, state.goroutines step = .done)
    {error : StepError} (member : error ∈ state.waveErrors) (required : error.optional = false) :
    ExecInvariant run finished
      { state with returned := some (.error ⟨error.stepName, error.err⟩) } := by
  refine ⟨invariant.split, invariant.ok, invariant.finishedDone, invariant.laterReady,
    invariant.absent, invariant.logs, invariant.waveErrors, invariant.allErrors,
    invariant.optional, ?_⟩
  intro result returned
  cases returned
  exact ⟨wave, later, error, at_, done, member, required, rfl⟩

/-- A wave that ends without one is finished. -/
theorem ExecInvariant.advance (accepted : Accepted run)
    (invariant : ExecInvariant run finished state) (at_ : state.waves = wave :: later)
    (running : state.returned = none) (done : ∀ step ∈ wave, state.goroutines step = .done)
    (optional : ∀ error ∈ state.waveErrors, error.optional = true) :
    ExecInvariant run (finished ++ [wave])
      { state with
        waves := later
        waveErrors := []
        allErrors := state.allErrors ++ state.waveErrors } := by
  have reports := invariant.waveErrors
  rw [at_] at reports
  have disjoint : ∀ step, step ∈ finished.flatten →
      step ∈ wave ∧ state.goroutines step = .done → False :=
    fun step before counted => (invariant.apart accepted at_ counted.1).1 before
  have laterReady := invariant.laterReady
  rw [at_] at laterReady
  refine ⟨?_, invariant.ok, ?_, ?_, invariant.absent, invariant.logs, ?_, ?_, ?_, ?_⟩
  · rw [invariant.split, at_]
    simp
  · intro step member
    rw [List.flatten_append, List.mem_append, List.flatten_singleton] at member
    rcases member with before | here
    · exact invariant.finishedDone step before
    · exact done step here
  · intro step member
    refine laterReady step ?_
    cases later with
    | nil => cases member
    | cons head tail => exact List.mem_append_right _ member
  · refine ⟨List.nodup_nil, ?_⟩
    intro error
    refine iff_of_false List.not_mem_nil ?_
    rintro ⟨step, info, found, ⟨member, isDone⟩, -⟩
    cases later with
    | nil => cases member
    | cons head tail =>
        rw [laterReady step (List.mem_append_left _ member)] at isDone
        cases isDone
  · refine (invariant.allErrors.append reports disjoint).congr ?_
    intro step info found
    rw [List.flatten_append, List.mem_append, List.flatten_singleton]
    exact or_congr_right ⟨And.left, fun here => ⟨here, done step here⟩⟩
  · intro error member
    rcases List.mem_append.mp member with before | here
    · exact invariant.optional error before
    · exact optional error here
  · intro result returned
    rw [running] at returned
    cases returned

/-- A goroutine that is done is in its last phase. -/
theorem Goroutine.eq_done_of_isDone {goroutine : Goroutine Request Value}
    (done : goroutine.isDone = true) : goroutine = .done := by
  cases goroutine with
  | done => rfl
  | ready | checked | built | sent | stored => cases done

/-- What an event of `Execute` does: it returns the results, ends a wave, or moves a goroutine of
the running wave. -/
inductive ExecMove (run : CompositionRun Request Value) (state : ExecState Request Value)
    (event : ExecEvent) : ExecState Request Value → Prop where
  | finish (at_ : state.waves = []) :
      ExecMove run state event { state with returned := some (.ok
        ⟨state.results, buildErrorsArray state.allErrors, !state.allErrors.isEmpty⟩) }
  | endWave {wave : List String} {later : List (List String)} (at_ : state.waves = wave :: later)
      (done : ∀ step ∈ wave, state.goroutines step = .done) :
      ExecMove run state event (endWave state later)
  | goroutine {wave : List String} {later : List (List String)} {step : String} {info : StepInfo}
      {next : ExecState Request Value} (at_ : state.waves = wave :: later) (member : step ∈ wave)
      (isStep : event.step? = some step) (found : run.steps.lookup step = some info)
      (moved : goroutineStep run state step info event (state.goroutines step) = some next) :
      ExecMove run state event next
  | missing {wave : List String} {later : List (List String)} {step : String}
      {next : ExecState Request Value} (at_ : state.waves = wave :: later) (member : step ∈ wave)
      (absent : run.steps.lookup step = none)
      (moved : missingStep state step event (state.goroutines step) = some next) :
      ExecMove run state event next

/-- Before the return the step function does no other events. -/
theorem execMove_of_step {event : ExecEvent} (stepped : execStep run state event = some next) :
    state.returned = none ∧ ExecMove run state event next := by
  unfold execStep at stepped
  split at stepped
  · cases stepped
  · rename_i notReturned
    refine ⟨Option.not_isSome_iff_eq_none.mp notReturned, ?_⟩
    split at stepped
    · rename_i at_
      cases stepped
      exact .finish at_
    · rename_i wave later at_
      split at stepped
      · rename_i allDone
        cases stepped
        exact .endWave at_ fun step member =>
          Goroutine.eq_done_of_isDone (List.all_eq_true.mp allDone step member)
      · cases stepped
    · rename_i wave later event at_ _
      split at stepped
      · rename_i step isStep
        split at stepped
        · rename_i member
          split at stepped
          · rename_i info found
            exact .goroutine at_ member isStep found stepped
          · rename_i absent
            exact .missing at_ member absent stepped
        · cases stepped
      · cases stepped
    · cases stepped

/-- The end of a wave keeps the invariant. -/
theorem ExecInvariant.endWave (accepted : Accepted run) (invariant : ExecInvariant run finished state)
    (at_ : state.waves = wave :: later) (running : state.returned = none)
    (done : ∀ step ∈ wave, state.goroutines step = .done) :
    ∃ finished, ExecInvariant run finished (endWave state later) := by
  unfold Composition.endWave
  split
  · rename_i failure
    obtain ⟨error, member, required⟩ := List.any_eq_true.mp failure
    cases first : state.waveErrors.find? fun error => !error.optional with
    | none =>
        rw [List.find?_eq_none] at first
        exact absurd required (first error member)
    | some error =>
        refine ⟨finished, invariant.fail at_ done (List.mem_of_find?_eq_some first) ?_⟩
        simpa using List.find?_some first
  · rename_i noFailure
    refine ⟨finished ++ [wave], invariant.advance accepted at_ running done ?_⟩
    intro error member
    by_contra required
    refine noFailure (List.any_eq_true.mpr ⟨error, member, ?_⟩)
    simpa using required

/-- A step of the running wave is a step of the composition. -/
theorem ExecInvariant.exists_info (accepted : Accepted run)
    (invariant : ExecInvariant run finished state) (at_ : state.waves = wave :: later)
    {step : String} (member : step ∈ wave) : ∃ info, run.steps.lookup step = some info := by
  refine accepted.mem_waves.mp ?_
  rw [invariant.split, at_]
  simp [member]

/-- Every event of `Execute` keeps the invariant. -/
theorem ExecInvariant.step (accepted : Accepted run) {event : ExecEvent}
    (invariant : ∃ finished, ExecInvariant run finished state)
    (stepped : execStep run state event = some next) :
    ∃ finished, ExecInvariant run finished next := by
  obtain ⟨finished, invariant⟩ := invariant
  obtain ⟨running, move⟩ := execMove_of_step stepped
  cases move with
  | finish at_ =>
      refine ⟨finished, invariant.split, invariant.ok, invariant.finishedDone,
        invariant.laterReady, invariant.absent, invariant.logs, invariant.waveErrors,
        invariant.allErrors, invariant.optional, ?_⟩
      intro result returned
      cases returned
      exact ⟨at_, rfl⟩
  | endWave at_ done => exact invariant.endWave accepted at_ running done
  | goroutine at_ member _ found moved =>
      exact ⟨finished, invariant.goroutineStep accepted at_ member found running rfl moved⟩
  | missing at_ member absent =>
      obtain ⟨info, found⟩ := invariant.exists_info accepted at_ member
      cases absent.symm.trans found

end Waves

/-- The invariant holds in every reachable state of every interleaving. -/
theorem execInvariant (accepted : Accepted run) {state : ExecState Request Value}
    (reached : (executeSystem run).Reachable state) :
    ∃ finished, ExecInvariant run finished state := by
  refine System.Reachable.induction (fun state => ∃ finished, ExecInvariant run finished state)
    ?_ ?_ reached
  · intro state valid
    cases valid
    refine ⟨[], rfl, ?_, ?_, fun _ _ => rfl, ?_, ⟨List.nodup_nil, List.nodup_nil⟩, ?_, ?_, ?_, ?_⟩
    · intro step info found
      exact ⟨rfl, rfl, rfl⟩
    · intro step member
      cases member
    · intro step missing
      exact ⟨rfl, List.not_mem_nil, List.not_mem_nil⟩
    · refine ⟨List.nodup_nil, fun error => iff_of_false List.not_mem_nil ?_⟩
      rintro ⟨step, info, found, ⟨-, done⟩, -⟩
      cases done
    · refine ⟨List.nodup_nil, fun error => iff_of_false List.not_mem_nil ?_⟩
      rintro ⟨step, info, found, member, -⟩
      cases member
    · intro error member
      cases member
    · intro result returned
      cases returned
  · intro state event next _ invariant stepped
    exact ExecInvariant.step accepted invariant stepped

end Restitch.Composition
