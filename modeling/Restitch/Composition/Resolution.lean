import Restitch.Composition.Execute
import Restitch.Composition.PlanCorrect

/-!
# What a composition resolves to

The specification of `Execute`: every step has a result or none, as its own
outcome and the results of its dependencies decide. It is computed wave by wave,
in no particular order inside a wave.
-/

namespace Restitch.Composition

open Relation Restitch.Std

variable {Request Value : Type} {run : CompositionRun Request Value}

/-- A composition as `compileComposition` accepts it, in a validated config: the
plan is built from the dependencies of its steps, every upstream exists, and the
request of a step depends on the results of its dependencies only. -/
structure Accepted (run : CompositionRun Request Value) : Prop where
  planned : ∃ deps order, deps.keys.Perm run.steps.keys ∧ buildDAG deps order = some (.ok run.plan)
  upstreams : ∀ step info, run.steps.lookup step = some info → info.upstream ∈ run.upstreams
  reads : ∀ step first second,
    (∀ dep ∈ run.deps step, ∃ entry, first dep = some entry ∧ second dep = some entry) →
    run.build step first = run.build step second

/-- The outcome of a step whose dependencies have the given results. -/
def CompositionRun.outcome (run : CompositionRun Request Value)
    (value : String → Option (StepResult Value)) (step : String) :
    Except StepFailure (StepResult Value) :=
  (run.build step fun dep => some (value dep)).bind (run.send step)

/-- The result of a step whose dependencies have the given results. -/
def CompositionRun.resolveStep (run : CompositionRun Request Value)
    (value : String → Option (StepResult Value)) (step : String) : Option (StepResult Value) :=
  if (run.deps step).any fun dep => (value dep).isNone then none
  else (run.outcome value step).toOption

/-- Add the results of some waves. -/
def CompositionRun.resolveWaves (run : CompositionRun Request Value)
    (value : String → Option (StepResult Value)) (waves : List (List String)) :
    String → Option (StepResult Value) :=
  waves.foldl (fun value wave step =>
    if step ∈ wave then run.resolveStep value step else value step) value

/-- The result of every step. -/
def CompositionRun.resolution (run : CompositionRun Request Value) :
    String → Option (StepResult Value) :=
  run.resolveWaves (fun _ => none) run.plan.waves

/-- A dependency of the step has no result. -/
def CompositionRun.depNil (run : CompositionRun Request Value) (step : String) : Bool :=
  (run.deps step).any fun dep => (run.resolution dep).isNone

/-- The step is reached and fails. -/
def CompositionRun.Fails (run : CompositionRun Request Value) (step : String) : Prop :=
  run.depNil step = false ∧ ∃ failure, run.outcome run.resolution step = .error failure

/-- The step depends on another one directly. -/
def CompositionRun.Needs (run : CompositionRun Request Value) (step dep : String) : Prop :=
  dep ∈ run.deps step

/-- The waves of an accepted job have all steps. -/
theorem Accepted.perm (accepted : Accepted run) : run.plan.waves.flatten.Perm run.steps.keys := by
  obtain ⟨deps, order, keys, built⟩ := accepted.planned
  obtain ⟨-, -, perm, -⟩ := plan_of_buildDAG built
  exact perm.trans keys

/-- The waves of an accepted job have every step once. -/
theorem Accepted.nodup (accepted : Accepted run) : run.plan.waves.flatten.Nodup :=
  accepted.perm.nodup_iff.mpr run.steps.keys_nodup

/-- The steps of the waves are the steps of the composition. -/
theorem Accepted.mem_waves (accepted : Accepted run) {step : String} :
    step ∈ run.plan.waves.flatten ↔ ∃ info, run.steps.lookup step = some info := by
  rw [accepted.perm.mem_iff, GoMap.mem_keys_iff]

/-- The dependencies of a step lie in the waves before its own. -/
theorem Accepted.deps_mem (accepted : Accepted run) {finished later : List (List String)}
    {wave : List String} (split : run.plan.waves = finished ++ wave :: later) {step dep : String}
    (member : step ∈ wave) (needs : dep ∈ run.deps step) : dep ∈ finished.flatten := by
  obtain ⟨deps, order, -, built⟩ := accepted.planned
  have plan := (plan_of_buildDAG built).1
  have inWave : run.plan.InWave finished.length step := ⟨wave, by simp [split], member⟩
  have depends : DependsOn deps step dep := by
    rw [CompositionRun.deps, plan] at needs
    exact needs
  obtain ⟨index, earlier, other, found, listed⟩ := earlier_of_dependsOn built inWave depends
  rw [split, List.getElem?_append_left earlier] at found
  exact List.mem_flatten.mpr ⟨other, List.mem_of_getElem? found, listed⟩

/-- The dependencies of a step are steps. -/
theorem Accepted.deps_mem_waves (accepted : Accepted run) {step dep : String}
    (member : step ∈ run.plan.waves.flatten) (needs : run.Needs step dep) :
    dep ∈ run.plan.waves.flatten := by
  obtain ⟨wave, listed, here⟩ := List.mem_flatten.mp member
  obtain ⟨finished, later, split⟩ := List.append_of_mem listed
  simp [split, accepted.deps_mem split here needs]

/-- Induction along the dependencies of an accepted composition. -/
theorem Accepted.induction (accepted : Accepted run) (holds : String → Prop)
    (next : ∀ step, step ∈ run.plan.waves.flatten →
      (∀ dep ∈ run.deps step, holds dep) → holds step)
    {step : String} (member : step ∈ run.plan.waves.flatten) : holds step := by
  have all : ∀ finished later, run.plan.waves = finished ++ later →
      ∀ step ∈ finished.flatten, holds step := by
    intro finished
    induction finished using List.reverseRecOn with
    | nil =>
        intro later split step member
        cases member
    | append_singleton earlier wave ih =>
        intro later split step member
        rw [List.append_assoc] at split
        have before := ih (wave :: later) split
        rw [List.flatten_append, List.mem_append] at member
        rcases member with early | here
        · exact before step early
        · rw [List.flatten_singleton] at here
          refine next step ?_ fun dep needs => before dep (accepted.deps_mem split here needs)
          simp [split, here]
  exact all run.plan.waves [] (by simp) step member

/-- Waves that do not list a step leave its result alone. -/
theorem resolveWaves_of_not_mem {value : String → Option (StepResult Value)}
    {waves : List (List String)} {step : String} (absent : step ∉ waves.flatten) :
    run.resolveWaves value waves step = value step := by
  induction waves generalizing value with
  | nil => rfl
  | cons wave later ih =>
      rw [List.flatten_cons, List.mem_append, not_or] at absent
      exact (ih absent.2).trans (if_neg absent.1)

/-- Waves are resolved one part after the other. -/
theorem resolveWaves_append (value : String → Option (StepResult Value))
    (first second : List (List String)) :
    run.resolveWaves value (first ++ second) =
      run.resolveWaves (run.resolveWaves value first) second :=
  List.foldl_append ..

/-- The result of a step reads the results of its dependencies only. -/
theorem Accepted.resolveStep_congr (accepted : Accepted run)
    {first second : String → Option (StepResult Value)} {step : String}
    (agree : ∀ dep ∈ run.deps step, first dep = second dep) :
    run.resolveStep first step = run.resolveStep second step := by
  have failed : ((run.deps step).any fun dep => (first dep).isNone) =
      (run.deps step).any fun dep => (second dep).isNone := by
    rw [Bool.eq_iff_iff, List.any_eq_true, List.any_eq_true]
    refine exists_congr fun dep => and_congr_right fun needs => ?_
    rw [agree dep needs]
  have built := accepted.reads step (fun dep => some (first dep)) (fun dep => some (second dep))
    fun dep needs => ⟨first dep, rfl, congrArg some (agree dep needs).symm⟩
  rw [CompositionRun.resolveStep, CompositionRun.resolveStep, CompositionRun.outcome,
    CompositionRun.outcome, failed, built]

/-- The resolution is a solution: every step has the result its dependencies give it. -/
theorem Accepted.resolution_eq (accepted : Accepted run) {step : String}
    (member : step ∈ run.plan.waves.flatten) :
    run.resolution step = run.resolveStep run.resolution step := by
  obtain ⟨wave, listed, here⟩ := List.mem_flatten.mp member
  obtain ⟨finished, later, split⟩ := List.append_of_mem listed
  have nodup := accepted.nodup
  rw [split, List.flatten_append, List.flatten_cons, List.nodup_append] at nodup
  obtain ⟨-, rest, apart⟩ := nodup
  have notLater : step ∉ later.flatten := fun again =>
    (List.nodup_append.mp rest).2.2 step here step again rfl
  have earlier : ∀ dep ∈ run.deps step,
      run.resolveWaves (fun _ => none) finished dep = run.resolution dep := by
    intro dep needs
    have before := accepted.deps_mem split here needs
    have notAfter : dep ∉ (wave :: later).flatten := by
      intro after
      rw [List.flatten_cons] at after
      exact apart dep before dep after rfl
    rw [CompositionRun.resolution, split, resolveWaves_append, resolveWaves_of_not_mem notAfter]
  calc run.resolution step
      = run.resolveWaves (run.resolveWaves (fun _ => none) finished) (wave :: later) step := by
        rw [CompositionRun.resolution, split, resolveWaves_append]
    _ = run.resolveStep (run.resolveWaves (fun _ => none) finished) step :=
        (resolveWaves_of_not_mem notLater).trans (if_pos here)
    _ = run.resolveStep run.resolution step := accepted.resolveStep_congr earlier

/-- A step without a result was skipped or failed itself. -/
theorem Accepted.resolution_eq_none (accepted : Accepted run) {step : String}
    (member : step ∈ run.plan.waves.flatten) :
    run.resolution step = none ↔ run.depNil step = true ∨ run.Fails step := by
  rw [accepted.resolution_eq member, CompositionRun.resolveStep, ← CompositionRun.depNil,
    CompositionRun.Fails]
  cases run.depNil step with
  | true => simp
  | false =>
      cases outcome : run.outcome run.resolution step with
      | error failure => simp [Except.toOption]
      | ok result => simp [Except.toOption]

/-- Exactly the steps that failed, or depend on a step that failed, have no result. -/
theorem Accepted.resolution_eq_none_iff (accepted : Accepted run) {step : String}
    (member : step ∈ run.plan.waves.flatten) :
    run.resolution step = none ↔ ∃ origin, ReflTransGen run.Needs step origin ∧
      run.Fails origin := by
  constructor
  · refine accepted.induction (fun step => run.resolution step = none → ∃ origin,
      ReflTransGen run.Needs step origin ∧ run.Fails origin) ?_ member
    intro step member ih missing
    rcases (accepted.resolution_eq_none member).mp missing with skipped | fails
    · obtain ⟨dep, needs, none_⟩ := List.any_eq_true.mp skipped
      obtain ⟨origin, path, rest⟩ := ih dep needs (Option.isNone_iff_eq_none.mp none_)
      exact ⟨origin, .head needs path, rest⟩
    · exact ⟨step, .refl, fails⟩
  · rintro ⟨origin, path, fails⟩
    induction path using ReflTransGen.head_induction_on with
    | refl => exact (accepted.resolution_eq_none member).mpr (.inr fails)
    | head needs _ ih =>
        refine (accepted.resolution_eq_none member).mpr (.inl (List.any_eq_true.mpr ⟨_, needs, ?_⟩))
        rw [ih (accepted.deps_mem_waves member needs)]
        rfl

end Restitch.Composition
