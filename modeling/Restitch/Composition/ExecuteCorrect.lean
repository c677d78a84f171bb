import Mathlib.Algebra.Order.BigOperators.Group.List
import Restitch.Composition.ExecuteInvariant

/-!
# `Execute` is correct

Every interleaving of a call of `Execute` ends, and what it returns is decided by
the resolution of the composition alone.
-/

namespace Restitch.Composition

open Relation Restitch.Semantics Restitch.Std

variable {Request Value : Type} {run : CompositionRun Request Value}

section Termination

/-- The accesses a goroutine still has to make, at most. -/
def Goroutine.remaining : Goroutine Request Value → Nat
  | .ready => 5
  | .checked _ => 4
  | .built _ => 3
  | .sent _ => 2
  | .stored _ => 1
  | .done => 0

/-- The events a call still has to make, at most. -/
def ExecState.remaining (state : ExecState Request Value) : Nat :=
  (state.waves.flatten.map fun step => (state.goroutines step).remaining).sum +
    state.waves.length + if state.returned.isSome then 0 else 1

/-- An event of a goroutine brings it closer to its end. -/
theorem goroutineStep_moves {state next : ExecState Request Value} {step : String}
    {info : StepInfo} {event : ExecEvent} {goroutine : Goroutine Request Value}
    (stepped : goroutineStep run state step info event goroutine = some next) :
    ∃ moved, next.goroutines = Function.update state.goroutines step moved ∧
      moved.remaining < goroutine.remaining ∧ next.waves = state.waves ∧
      next.returned = state.returned := by
  unfold goroutineStep at stepped
  split at stepped
  · cases stepped
    exact ⟨_, rfl, by simp [Goroutine.remaining], rfl, rfl⟩
  · cases stepped
    exact ⟨_, rfl, by simp [Goroutine.remaining], rfl, rfl⟩
  · split at stepped
    · cases stepped
      exact ⟨_, rfl, by simp [Goroutine.remaining], rfl, rfl⟩
    · cases stepped
      exact ⟨_, rfl, by simp [Goroutine.remaining], rfl, rfl⟩
  · cases stepped
    exact ⟨_, rfl, by simp [Goroutine.remaining], rfl, rfl⟩
  · cases stepped
    exact ⟨_, rfl, by simp [Goroutine.remaining], rfl, rfl⟩
  · cases stepped
    exact ⟨_, rfl, by simp [Goroutine.remaining], rfl, rfl⟩
  · cases stepped
    exact ⟨_, rfl, by simp [Goroutine.remaining], rfl, rfl⟩
  · cases stepped
    exact ⟨_, rfl, by simp [Goroutine.remaining], rfl, rfl⟩
  · cases stepped

/-- A step without a definition moves its own goroutine on. -/
theorem missingStep_moves {state next : ExecState Request Value} {step : String}
    {event : ExecEvent} {goroutine : Goroutine Request Value}
    (stepped : missingStep state step event goroutine = some next) :
    ∃ moved, next.goroutines = Function.update state.goroutines step moved ∧
      moved.remaining < goroutine.remaining ∧ next.waves = state.waves ∧
      next.returned = state.returned := by
  unfold missingStep at stepped
  split at stepped
  · cases stepped
    exact ⟨_, rfl, by simp [Goroutine.remaining], rfl, rfl⟩
  · cases stepped
    exact ⟨_, rfl, by simp [Goroutine.remaining], rfl, rfl⟩
  · cases stepped

/-- A goroutine of a running wave that moves on lowers what remains. -/
theorem remaining_lt_of_move {state next : ExecState Request Value} {wave : List String}
    {later : List (List String)} {step : String} {moved : Goroutine Request Value}
    (at_ : state.waves = wave :: later) (member : step ∈ wave)
    (goroutines : next.goroutines = Function.update state.goroutines step moved)
    (lower : moved.remaining < (state.goroutines step).remaining)
    (waves : next.waves = state.waves) (returned : next.returned = state.returned) :
    next.remaining < state.remaining := by
  have sum : (state.waves.flatten.map fun step => (next.goroutines step).remaining).sum <
      (state.waves.flatten.map fun step => (state.goroutines step).remaining).sum := by
    refine List.sum_lt_sum _ _ ?_ ⟨step, ?_, ?_⟩
    · intro other _
      rw [goroutines]
      by_cases same : other = step
      · subst same
        rw [Function.update_self]
        exact lower.le
      · rw [Function.update_of_ne same]
    · rw [at_, List.flatten_cons]
      exact List.mem_append_left _ member
    · rw [goroutines, Function.update_self]
      exact lower
  unfold ExecState.remaining
  rw [waves, returned]
  omega

/-- The end of a wave lowers what remains. -/
theorem remaining_endWave_lt {state : ExecState Request Value} {wave : List String}
    {later : List (List String)} (at_ : state.waves = wave :: later)
    (running : state.returned = none) : (endWave state later).remaining < state.remaining := by
  unfold endWave
  split
  · rename_i failure
    obtain ⟨error, member, required⟩ := List.any_eq_true.mp failure
    have first : ((state.waveErrors.find? fun error => !error.optional)).isSome := by
      rw [List.find?_isSome]
      exact ⟨error, member, required⟩
    simp [ExecState.remaining, running, first]
  · simp only [ExecState.remaining, at_, List.flatten_cons, List.map_append,
      List.sum_append, List.length_cons]
    omega

/-- Every event lowers what remains. -/
theorem remaining_lt_of_execStep {state next : ExecState Request Value} {event : ExecEvent}
    (stepped : execStep run state event = some next) : next.remaining < state.remaining := by
  obtain ⟨running, move⟩ := execMove_of_step stepped
  cases move with
  | finish at_ => simp [ExecState.remaining, running]
  | endWave at_ => exact remaining_endWave_lt at_ running
  | goroutine at_ member _ _ moved =>
      obtain ⟨moved, goroutines, lower, waves, returned⟩ := goroutineStep_moves moved
      exact remaining_lt_of_move at_ member goroutines lower waves returned
  | missing at_ member _ moved =>
      obtain ⟨moved, goroutines, lower, waves, returned⟩ := missingStep_moves moved
      exact remaining_lt_of_move at_ member goroutines lower waves returned

/-- A goroutine of the running wave that has not ended can go on. -/
theorem exists_execStep_of_wave (accepted : Accepted run) {state : ExecState Request Value}
    {finished : List (List String)} (invariant : ExecInvariant run finished state)
    (running : state.returned = none) {wave : List String} {later : List (List String)}
    (at_ : state.waves = wave :: later) {step : String} (member : step ∈ wave)
    (notDone : (state.goroutines step).isDone = false) :
    ∃ event next, event.step? = some step ∧ execStep run state event = some next := by
  obtain ⟨info, found⟩ := invariant.exists_info accepted at_ member
  have moves (event : ExecEvent) (its : event.step? = some step)
      (next : ExecState Request Value)
      (stepped : goroutineStep run state step info event (state.goroutines step) = some next) :
      ∃ event next, event.step? = some step ∧ execStep run state event = some next := by
    refine ⟨event, next, its, ?_⟩
    cases event with
    | endWave | finish => cases its
    | check | build | send | store | report =>
        cases its
        simp only [execStep, running, at_, ExecEvent.step?, member, found]
        exact stepped
  cases here : state.goroutines step with
  | ready => exact moves (.check step) rfl _ (by rw [here]; rfl)
  | checked depFailed =>
      cases depFailed with
      | true => exact moves (.store step) rfl _ (by rw [here]; rfl)
      | false =>
          have known := accepted.upstreams step info found
          exact moves (.build step) rfl _ (by rw [here]; exact if_pos known)
  | built request =>
      cases request with
      | error failure => exact moves (.store step) rfl _ (by rw [here]; rfl)
      | ok request => exact moves (.send step) rfl _ (by rw [here]; rfl)
  | sent outcome =>
      cases outcome with
      | error failure => exact moves (.store step) rfl _ (by rw [here]; rfl)
      | ok result => exact moves (.store step) rfl _ (by rw [here]; rfl)
  | stored error => exact moves (.report step) rfl _ (by rw [here]; rfl)
  | done =>
      rw [here] at notDone
      cases notDone

/-- A call that has not returned can go on. -/
theorem exists_execStep (accepted : Accepted run) {state : ExecState Request Value}
    (reached : (executeSystem run).Reachable state) (running : state.returned = none) :
    ∃ event next, execStep run state event = some next := by
  obtain ⟨finished, invariant⟩ := execInvariant accepted reached
  cases at_ : state.waves with
  | nil => exact ⟨.finish, _, by simp only [execStep, running, at_]; rfl⟩
  | cons wave later =>
      by_cases allDone : (wave.all fun step => (state.goroutines step).isDone) = true
      · exact ⟨.endWave, _, by simp only [execStep, running, at_, allDone]; rfl⟩
      · simp only [List.all_eq_true, not_forall] at allDone
        obtain ⟨step, member, notDone⟩ := allDone
        obtain ⟨event, next, -, stepped⟩ := exists_execStep_of_wave accepted invariant running at_
          member (Bool.eq_false_iff.mpr notDone)
        exact ⟨event, next, stepped⟩

end Termination

section Outcome

/-- A required step fails although everything it depends on succeeded. -/
def RequiredFailure (run : CompositionRun Request Value) (step : String) : Prop :=
  ∃ info, run.steps.lookup step = some info ∧ info.optional = false ∧
    (∀ dep, TransGen run.Needs step dep → run.resolution dep ≠ none) ∧
    ∃ failure, run.outcome run.resolution step = .error failure

/-- The error `Execute` returns names a required failure of the earliest wave
that has one. -/
def NamesFirstFailure (run : CompositionRun Request Value) (failure : RequiredStepError) :
    Prop :=
  RequiredFailure run failure.step ∧ ∃ index, run.plan.InWave index failure.step ∧
    ∀ other otherIndex, RequiredFailure run other → run.plan.InWave otherIndex other →
      index ≤ otherIndex

/-- What `Execute` returns and has done when no required step fails. -/
structure Completed (run : CompositionRun Request Value) (state : ExecState Request Value)
    (result : CompositionResult Value) : Prop where
  noFailure : ∀ step, ¬ RequiredFailure run step
  /-- The keys are the step names. -/
  keys : ∀ step, result.steps step ≠ none ↔ ∃ info, run.steps.lookup step = some info
  /-- Nil are the steps that failed or depend on one that failed. -/
  nil : ∀ step info, run.steps.lookup step = some info →
    (result.steps step = some none ↔
      ∃ origin, ReflTransGen run.Needs step origin ∧ run.Fails origin)
  /-- A request is built, once, for the steps none of whose dependencies is nil. -/
  built : state.builtLog.Nodup ∧ ∀ step, step ∈ state.builtLog ↔
    (∃ info, run.steps.lookup step = some info) ∧
      ∀ dep ∈ run.deps step, result.steps dep ≠ some none
  /-- It is sent, once, if it builds. -/
  sent : state.sentLog.Nodup ∧ ∀ step, step ∈ state.sentLog ↔
    step ∈ state.builtLog ∧ ∃ request, run.builtRequest step = .ok request
  /-- One entry for each step that is nil or matched an error rule. -/
  errors : (result.stepErrors.map (·.step)).Nodup ∧ ∀ step,
    (∃ detail ∈ result.stepErrors, detail.step = step) ↔
      result.steps step = some none ∨
        ∃ own, result.steps step = some (some own) ∧ own.errorRuleMatched = true
  /-- It says "skipped" if a dependency is nil. -/
  skipped : ∀ detail ∈ result.stepErrors, detail.status = "skipped" ↔
    ∃ dep ∈ run.deps detail.step, result.steps dep = some none
  partial_ : result.isPartial = true ↔ result.stepErrors ≠ []

/-- No dependency is nil exactly if all of them have results. -/
theorem depNil_eq_false {step : String} :
    run.depNil step = false ↔ ∀ dep ∈ run.deps step, run.resolution dep ≠ none := by
  simp [CompositionRun.depNil]

/-- Required failures are the reached failures of required steps. -/
theorem Accepted.requiredFailure_iff (accepted : Accepted run) {step : String} :
    RequiredFailure run step ↔
      ∃ info, run.steps.lookup step = some info ∧ info.optional = false ∧ run.Fails step := by
  refine exists_congr fun info => and_congr_right fun found => and_congr_right fun _ => ?_
  have member := accepted.mem_waves.mpr ⟨info, found⟩
  rw [CompositionRun.Fails, depNil_eq_false]
  refine and_congr_left fun _ => ⟨fun all dep needs => all dep (.single needs), ?_⟩
  intro direct dep path
  -- Along a path every step has a result, so its own dependencies have one too.
  have both : run.resolution dep ≠ none ∧ dep ∈ run.plan.waves.flatten := by
    induction path with
    | single needs => exact ⟨direct _ needs, accepted.deps_mem_waves member needs⟩
    | @tail middle _ _ needs ih =>
        have reached : run.depNil middle = false := by
          by_contra skipped
          rw [Bool.not_eq_false] at skipped
          exact ih.1 ((accepted.resolution_eq_none ih.2).mpr (.inl skipped))
        exact ⟨depNil_eq_false.mp reached _ needs, accepted.deps_mem_waves ih.2 needs⟩
  exact both.1

/-- A required failure is what a step reports as not optional. -/
theorem Accepted.requiredFailure_of_reported (accepted : Accepted run) {step : String}
    {info : StepInfo} {error : StepError} (found : run.steps.lookup step = some info)
    (reported : run.reported step info = some error) :
    error.optional = false ↔ RequiredFailure run step := by
  rw [accepted.requiredFailure_iff]
  have same : (∃ info, run.steps.lookup step = some info ∧ info.optional = false ∧
      run.Fails step) ↔ info.optional = false ∧ run.Fails step := by
    constructor
    · rintro ⟨other, otherFound, rest⟩
      cases found.symm.trans otherFound
      exact rest
    · intro rest
      exact ⟨info, found, rest⟩
  rw [same, CompositionRun.Fails]
  rcases reported_cases reported with ⟨skipped, rfl⟩ | ⟨reached, failure, failed, rfl⟩ |
    ⟨reached, result, succeeded, rfl⟩
  · simp [skipped]
  · simp [reached, failed]
  · simp [succeeded]

/-- A required failure is reported. -/
theorem Accepted.exists_reported (accepted : Accepted run) {step : String}
    (failure : RequiredFailure run step) :
    ∃ info error, run.steps.lookup step = some info ∧ run.reported step info = some error ∧
      error.optional = false := by
  obtain ⟨info, found, required, reached, cause, failed⟩ := accepted.requiredFailure_iff.mp failure
  refine ⟨info, ⟨step, .failed cause, info.optional⟩, found, ?_, required⟩
  rw [CompositionRun.reported, reached, failed]
  rfl

/-- The steps with an error are those that are nil or matched an error rule. -/
theorem Accepted.reported_isSome_iff (accepted : Accepted run) {step : String} {info : StepInfo}
    (found : run.steps.lookup step = some info) :
    (run.reported step info).isSome ↔ run.resolution step = none ∨
      ∃ own, run.resolution step = some own ∧ own.errorRuleMatched = true := by
  obtain ⟨skipped, reached⟩ := accepted.settled found
  cases missing : run.depNil step with
  | true =>
      obtain ⟨resolution, reported⟩ := skipped missing
      simp [resolution, reported]
  | false =>
      obtain ⟨resolution, reported⟩ := reached missing _ rfl
      rw [resolution, reported]
      cases run.outcome run.resolution step with
      | error failure => simp [Except.toOption]
      | ok result =>
          cases matched : result.errorRuleMatched <;>
            simp [Except.toOption, resultError, matched]

/-- A reported error is that of a failed dependency exactly when one is nil. -/
theorem reported_skipped_iff {step : String} {info : StepInfo} {error : StepError}
    (reported : run.reported step info = some error) :
    error.err = .dependencyFailed ↔ run.depNil step = true := by
  rcases reported_cases reported with ⟨skipped, rfl⟩ | ⟨reached, failure, -, rfl⟩ |
    ⟨reached, result, -, rfl⟩
  · simp [skipped]
  · simp [reached]
  · simp [reached]

variable {state : ExecState Request Value} {finished : List (List String)}

/-- A returned error names the first required failure. -/
theorem ExecInvariant.namesFirstFailure (accepted : Accepted run)
    (invariant : ExecInvariant run finished state) {failure : RequiredStepError}
    (returned : state.returned = some (.error failure)) : NamesFirstFailure run failure := by
  obtain ⟨wave, later, error, at_, -, member, required, rfl⟩ := invariant.returned _ returned
  obtain ⟨step, info, found, ⟨inWave, -⟩, reported⟩ := (invariant.waveErrors.2 error).mp member
  rw [at_] at inWave
  have failure := (accepted.requiredFailure_of_reported found reported).mp required
  rw [NamesFirstFailure, stepName_of_reported reported]
  refine ⟨failure, finished.length, ⟨wave, by simp [invariant.split, at_], inWave⟩, ?_⟩
  rintro other otherIndex otherFailure ⟨otherWave, listed, inOther⟩
  by_contra earlier
  rw [invariant.split, List.getElem?_append_left (Nat.lt_of_not_le earlier)] at listed
  obtain ⟨otherInfo, otherError, otherFound, otherReported, otherRequired⟩ :=
    accepted.exists_reported otherFailure
  have recorded := (invariant.allErrors.2 otherError).mpr ⟨other, otherInfo, otherFound,
    List.mem_flatten.mpr ⟨otherWave, List.mem_of_getElem? listed, inOther⟩, otherReported⟩
  rw [invariant.optional otherError recorded] at otherRequired
  cases otherRequired

/-- Once all waves are finished every step is settled. -/
theorem ExecInvariant.settled (accepted : Accepted run)
    (invariant : ExecInvariant run finished state) (ended : state.waves = []) {step : String}
    {info : StepInfo} (found : run.steps.lookup step = some info) :
    step ∈ finished.flatten ∧ Settled run step (state.results step)
      (decide (step ∈ state.builtLog)) (decide (step ∈ state.sentLog)) := by
  have split := invariant.split
  rw [ended, List.append_nil] at split
  have member : step ∈ finished.flatten := split ▸ accepted.mem_waves.mpr ⟨info, found⟩
  have ok := invariant.ok step info found
  rw [ExecState.Ok, invariant.finishedDone step member] at ok
  exact ⟨member, ok⟩

/-- A returned result is that of the resolution. -/
theorem ExecInvariant.completed (accepted : Accepted run)
    (invariant : ExecInvariant run finished state) {result : CompositionResult Value}
    (returned : state.returned = some (.ok result)) : Completed run state result := by
  obtain ⟨ended, rfl⟩ := invariant.returned _ returned
  have settled {step : String} {info : StepInfo} (found : run.steps.lookup step = some info) :=
    invariant.settled accepted ended found
  have entry {step : String} {info : StepInfo} (found : run.steps.lookup step = some info) :
      state.results step = some (run.resolution step) := (settled found).2.entry
  -- A nil entry and a step without a result are the same thing.
  have nilEntry {step : String} (member : step ∈ run.plan.waves.flatten) :
      state.results step = some none ↔ run.resolution step = none := by
    obtain ⟨info, found⟩ := accepted.mem_waves.mp member
    rw [entry found, Option.some.injEq]
  have depNil {step : String} {info : StepInfo} (found : run.steps.lookup step = some info) :
      run.depNil step = false ↔ ∀ dep ∈ run.deps step, state.results dep ≠ some none := by
    rw [depNil_eq_false]
    refine forall_congr' fun dep => forall_congr' fun needs => not_congr ?_
    exact (nilEntry (accepted.deps_mem_waves (accepted.mem_waves.mpr ⟨info, found⟩) needs)).symm
  have recorded : ∀ error, error ∈ state.allErrors ↔ ∃ step info,
      run.steps.lookup step = some info ∧ run.reported step info = some error := by
    intro error
    rw [invariant.allErrors.2 error]
    refine exists_congr fun step => exists_congr fun info => and_congr_right fun found => ?_
    exact and_iff_right (settled found).1
  refine ⟨?_, ?_, ?_, ⟨invariant.logs.1, ?_⟩, ⟨invariant.logs.2, ?_⟩, ⟨?_, ?_⟩, ?_, ?_⟩
  · intro step failure
    obtain ⟨info, error, found, reported, required⟩ := accepted.exists_reported failure
    have optional := invariant.optional error ((recorded error).mpr ⟨step, info, found, reported⟩)
    rw [optional] at required
    cases required
  · intro step
    constructor
    · intro present
      by_contra missing
      refine present (invariant.absent step ?_).1
      simpa [Option.eq_none_iff_forall_ne_some] using missing
    · rintro ⟨info, found⟩
      simp [entry found]
  · intro step info found
    have member := accepted.mem_waves.mpr ⟨info, found⟩
    rw [nilEntry member, accepted.resolution_eq_none_iff member]
  · intro step
    cases found : run.steps.lookup step with
    | none => simp [(invariant.absent step found).2.1]
    | some info =>
        have logged := (settled found).2.isBuilt
        rw [← depNil found, ← Bool.not_eq_true', ← logged]
        simp
  · intro step
    cases found : run.steps.lookup step with
    | none => simp [(invariant.absent step found).2]
    | some info =>
        have built := (settled found).2.isBuilt
        have sent := (settled found).2.isSent
        rw [← built] at sent
        have isOk : (run.builtRequest step).isOk = true ↔
            ∃ request, run.builtRequest step = .ok request := by
          cases run.builtRequest step <;> simp [Except.isOk, Except.toBool]
        rw [Bool.eq_iff_iff, Bool.and_eq_true, decide_eq_true_iff, decide_eq_true_iff, isOk] at sent
        exact sent
  · have names : (buildErrorsArray state.allErrors).map (·.step) =
        state.allErrors.map (·.stepName) := by
      simp [buildErrorsArray, errorDetail, Function.comp_def]
    rw [names]
    exact invariant.allErrors.1
  · intro step
    have listed : (∃ detail ∈ buildErrorsArray state.allErrors, detail.step = step) ↔
        ∃ info, run.steps.lookup step = some info ∧ (run.reported step info).isSome := by
      constructor
      · rintro ⟨detail, member, rfl⟩
        obtain ⟨error, isError, rfl⟩ := List.mem_map.mp member
        obtain ⟨step, info, found, reported⟩ := (recorded error).mp isError
        refine ⟨info, ?_, ?_⟩
        · rw [← found, ← stepName_of_reported reported]
          rfl
        · change (run.reported error.stepName info).isSome = true
          rw [stepName_of_reported reported, reported]
          rfl
      · rintro ⟨info, found, reports⟩
        obtain ⟨error, reported⟩ := Option.isSome_iff_exists.mp reports
        exact ⟨errorDetail error,
          List.mem_map_of_mem ((recorded error).mpr ⟨step, info, found, reported⟩),
          stepName_of_reported reported⟩
    rw [listed]
    constructor
    · rintro ⟨info, found, reports⟩
      simp only [entry found, Option.some.injEq]
      exact (accepted.reported_isSome_iff found).mp reports
    · intro present
      cases found : run.steps.lookup step with
      | none => simp [(invariant.absent step found).1] at present
      | some info =>
          simp only [entry found, Option.some.injEq] at present
          exact ⟨info, rfl, (accepted.reported_isSome_iff found).mpr present⟩
  · intro detail member
    obtain ⟨error, isError, rfl⟩ := List.mem_map.mp member
    obtain ⟨step, info, found, reported⟩ := (recorded error).mp isError
    rw [errorDetail_skipped_iff, reported_skipped_iff reported]
    change _ ↔ ∃ dep ∈ run.deps error.stepName, _
    rw [stepName_of_reported reported, ← Bool.not_eq_false, depNil found]
    simp
  · cases state.allErrors with
    | nil => simp [buildErrorsArray]
    | cons error rest => simp [buildErrorsArray]

end Outcome

/-- A call makes at most five accesses for each step, one for each wave, and one
to return. -/
theorem remaining_startExecute (accepted : Accepted run) :
    (startExecute run).remaining = 5 * run.steps.keys.length + run.plan.waves.length + 1 := by
  have steps : run.plan.waves.flatten.length = run.steps.keys.length := accepted.perm.length_eq
  simp only [ExecState.remaining, startExecute, Goroutine.remaining, List.map_const',
    List.sum_replicate_nat, steps, Option.isSome_none, Bool.false_eq_true, if_false]
  omega

/-- `Execute` is correct for every accepted composition, every behaviour of its
steps and every interleaving: it always returns; it returns an error only for a
required failure, of the earliest wave that has one; and otherwise there is no
such failure, and the results, requests and errors are those of the resolution. -/
theorem execute_correct (run : CompositionRun Request Value) (accepted : Accepted run) :
    (∀ state events, (executeSystem run).Steps (startExecute run) events state →
      events.length ≤ 5 * run.steps.keys.length + run.plan.waves.length + 1) ∧
    (∀ state, (executeSystem run).Reachable state → state.returned = none →
      ∃ event next, execStep run state event = some next) ∧
    (∀ state failure, (executeSystem run).Reachable state →
      state.returned = some (.error failure) → NamesFirstFailure run failure) ∧
    ∀ state result, (executeSystem run).Reachable state →
      state.returned = some (.ok result) → Completed run state result := by
  refine ⟨?_, fun state reached running => exists_execStep accepted reached running, ?_, ?_⟩
  · intro state events steps
    have bound := steps.length_add_le ExecState.remaining remaining_lt_of_execStep
    rw [remaining_startExecute accepted] at bound
    omega
  · intro state failure reached returned
    obtain ⟨finished, invariant⟩ := execInvariant accepted reached
    exact invariant.namesFirstFailure accepted returned
  · intro state result reached returned
    obtain ⟨finished, invariant⟩ := execInvariant accepted reached
    exact invariant.completed accepted returned

/-- `profile` is optional and its request does not build, `orders` needs it, and
`news` needs nothing. -/
def partialRun : CompositionRun Unit Unit where
  steps := AList.insert "profile" ⟨"api", true⟩ (AList.insert "orders" ⟨"api", false⟩
    (AList.singleton "news" ⟨"api", false⟩))
  plan :=
    { waves := [["profile", "news"], ["orders"]]
      deps := AList.insert "profile" [] (AList.insert "orders" ["profile"]
        (AList.singleton "news" [])) }
  upstreams := ["api"]
  build := fun step _ => if step = "profile" then .error (.build .path "") else .ok ()
  send := fun _ _ => .ok ⟨200, ∅, (), [], false⟩

/-- One interleaving of that call. -/
def partialEvents : List ExecEvent :=
  [.check "news", .check "profile", .build "profile", .build "news", .store "profile",
   .send "news", .store "news", .report "news", .report "profile", .endWave,
   .check "orders", .store "orders", .report "orders", .endWave, .finish]

/-- The optional step fails, the required step behind it is skipped, and the call
returns a partial result. -/
theorem execute_correct_of_partial :
    Accepted partialRun ∧ ∃ state result,
      System.replay (execStep partialRun) (startExecute partialRun) partialEvents = some state ∧
      state.returned = some (.ok result) ∧ result.isPartial = true ∧
      Completed partialRun state result := by
  have accepted : Accepted partialRun := by
    refine ⟨⟨partialRun.plan.deps, .listed _, .refl _, by rfl⟩, ?_, fun _ _ _ _ => rfl⟩
    intro step info found
    have all : ∀ entry ∈ partialRun.steps.entries, entry.2.upstream ∈ partialRun.upstreams := by
      decide
    exact all ⟨step, info⟩ (GoMap.mem_entries_iff.mpr found)
  let state := (System.replay (execStep partialRun) (startExecute partialRun)
    partialEvents).get (by rfl)
  have ends : System.replay (execStep partialRun) (startExecute partialRun) partialEvents =
      some state := (Option.some_get _).symm
  have reached : (executeSystem partialRun).Reachable state :=
    System.reachable_of_replay partialEvents (.initial rfl) ends
  obtain ⟨-, -, -, completed⟩ := execute_correct partialRun accepted
  exact ⟨accepted, state, _, ends, rfl, rfl, completed state _ reached rfl⟩

end Restitch.Composition
