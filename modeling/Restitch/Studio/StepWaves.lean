import Restitch.Composition.PlanCorrect
import Restitch.Composition.StepIndependence
import Restitch.Studio.StepGraph

/-!
# Waves of the frontend and waves of the gateway

The gateway counts down degrees, the frontend filters a set of remaining steps.
Both put a step at the level of its longest dependency chain, and the reported
dependencies are those the gateway plans with.
-/

namespace Restitch.Studio

open Restitch.Composition Restitch.Std

/-! ### `uniqueSorted` -/

/-- The fold adds the names that are not to be skipped. -/
private theorem mem_foldl_uniqueNames {names skip out : List String} {name : String} :
    name ∈ names.foldl (fun out name => if name ∉ skip ∧ name ∉ out then out ++ [name] else out)
        out ↔
      name ∈ out ∨ name ∈ names ∧ name ∉ skip := by
  induction names generalizing out with
  | nil => simp
  | cons head rest ih =>
      rw [List.foldl_cons, ih]
      split
      · grind
      · grind

/-- The fold adds every name once. -/
private theorem nodup_foldl_uniqueNames {names skip out : List String} (distinct : out.Nodup) :
    (names.foldl (fun out name => if name ∉ skip ∧ name ∉ out then out ++ [name] else out)
      out).Nodup := by
  induction names generalizing out with
  | nil => exact distinct
  | cons head rest ih =>
      rw [List.foldl_cons]
      apply ih
      split
      · rename_i fresh
        exact List.nodup_append.mpr ⟨distinct, List.nodup_singleton head, by grind⟩
      · exact distinct

/-- The unique names are those that are not to be skipped. -/
theorem mem_uniqueNames {names skip : List String} {name : String} :
    name ∈ uniqueNames names skip ↔ name ∈ names ∧ name ∉ skip := by
  rw [uniqueNames, mem_foldl_uniqueNames]
  simp

/-- Every unique name is listed once. -/
theorem nodup_uniqueNames (names skip : List String) : (uniqueNames names skip).Nodup :=
  nodup_foldl_uniqueNames List.nodup_nil

/-- Sorting keeps the unique names. -/
theorem mem_uniqueSorted {names skip : List String} {name : String} :
    name ∈ uniqueSorted names skip ↔ name ∈ names ∧ name ∉ skip := by
  rw [uniqueSorted, (List.perm_insertionSort _ _).mem_iff, mem_uniqueNames]

/-- The set of names has these names. -/
theorem mem_setOf {names : List String} {name : String} : name ∈ setOf names ↔ name ∈ names := by
  rw [setOf, mem_uniqueNames]
  simp

/-- There are no more unique names than names. -/
theorem length_uniqueNames_le (names skip : List String) :
    (uniqueNames names skip).length ≤ names.length := by
  refine ((nodup_uniqueNames names skip).subperm ?_).length_le
  intro name member
  exact (mem_uniqueNames.mp member).1

/-! ### `computeWaves` ends -/

section Loop

variable (deps : GoMap String (List String))

/-- The next wave is taken of the remaining steps. -/
theorem nextWave_subset (remaining : List String) : nextWave deps remaining ⊆ remaining := by
  intro name member
  unfold nextWave at member
  dsimp only at member
  split at member
  · exact member
  · exact List.mem_of_mem_filter member

/-- There is a next wave while steps remain. -/
theorem nextWave_ne_nil {remaining : List String} (left : remaining ≠ []) :
    nextWave deps remaining ≠ [] := by
  unfold nextWave
  dsimp only
  split
  · exact left
  · assumption

/-- No step is twice in a wave. -/
theorem nodup_nextWave {remaining : List String} (distinct : remaining.Nodup) :
    (nextWave deps remaining).Nodup := by
  unfold nextWave
  dsimp only
  split
  · exact distinct
  · exact distinct.filter _

/-- Removing the next wave leaves fewer steps. -/
theorem length_filter_nextWave_lt {remaining : List String} (left : remaining ≠ []) :
    (remaining.filter (· ∉ nextWave deps remaining)).length < remaining.length := by
  obtain ⟨step, member⟩ := List.exists_mem_of_ne_nil _ (nextWave_ne_nil deps left)
  exact List.length_filter_lt_length_iff_exists.mpr
    ⟨step, nextWave_subset deps remaining member, by simpa using member⟩

/-- The waves so far and the remaining steps partition the names. -/
structure Partition (names remaining : List String) (waves : List (List String)) : Prop where
  once : (waves.flatten ++ remaining).Nodup
  all : ∀ name, name ∈ waves.flatten ++ remaining ↔ name ∈ names

/-- A round moves its wave from the remaining steps to the waves. -/
theorem Partition.round {names remaining : List String} {waves : List (List String)}
    (partition : Partition names remaining waves) :
    Partition names (remaining.filter (· ∉ nextWave deps remaining))
      (waves ++ [nextWave deps remaining]) := by
  have subset := nextWave_subset deps remaining
  obtain ⟨wavesOnce, remainingOnce, apart⟩ := List.nodup_append.mp partition.once
  constructor
  · rw [List.flatten_append, List.flatten_singleton, List.append_assoc]
    refine List.nodup_append.mpr ⟨wavesOnce, List.nodup_append.mpr
      ⟨nodup_nextWave deps remainingOnce, remainingOnce.filter _, ?_⟩, ?_⟩
    · intro name inNext other inRest same
      subst other
      exact (of_decide_eq_true (List.mem_filter.mp inRest).2) inNext
    · intro name inWaves other inRest
      refine apart name inWaves other ?_
      rcases List.mem_append.mp inRest with next | later
      · exact subset next
      · exact (List.mem_filter.mp later).1
  · intro name
    rw [← partition.all name, List.flatten_append, List.flatten_singleton]
    simp only [List.mem_append, List.mem_filter, decide_eq_true_eq]
    have inside := @subset name
    tauto

/-- The loop ends when the fuel covers the remaining steps, and keeps what every
round preserves. -/
theorem graphLoop_ends {Keeps : List String → List (List String) → Prop}
    (round : ∀ {remaining waves}, remaining ≠ [] → Keeps remaining waves →
      Keeps (remaining.filter (· ∉ nextWave deps remaining))
        (waves ++ [nextWave deps remaining]))
    {fuel : Nat} {remaining : List String} {waves : List (List String)}
    (holds : Keeps remaining waves) (enough : remaining.length ≤ fuel) :
    ∃ waves', graphLoop deps fuel remaining waves = some waves' ∧ Keeps [] waves' := by
  induction fuel generalizing remaining waves with
  | zero =>
      cases List.length_eq_zero_iff.mp (Nat.le_zero.mp enough)
      exact ⟨waves, rfl, holds⟩
  | succ fuel ih =>
      cases remaining with
      | nil => exact ⟨waves, rfl, holds⟩
      | cons step rest =>
          have left := List.cons_ne_nil step rest
          have shorter := length_filter_nextWave_lt deps left
          exact ih (round left holds) (by omega)

/-- Every list of steps has waves, and they hold every name once. -/
theorem exists_computeWaves (steps : List DagStep) :
    ∃ waves, computeWaves steps = some waves ∧ Partition (steps.map DagStep.name) [] waves := by
  refine graphLoop_ends _ (fun _ => Partition.round _) ⟨?_, ?_⟩ ?_
  · exact nodup_uniqueNames _ _
  · intro name
    exact mem_setOf
  · have short := length_uniqueNames_le (steps.map DagStep.name) []
    rwa [List.length_map] at short

end Loop

/-! ### The waves are the levels of the graph -/

/-- What holds at the head of the loop for a graph without cycles: the waves are
the first levels, none of them empty, and the rest is what has no level below. -/
structure GraphInvariant (depends : String → String → Prop) (names remaining : List String)
    (waves : List (List String)) : Prop where
  filled : ∀ wave ∈ waves, wave ≠ []
  waveLevel : ∀ level wave, waves[level]? = some wave →
    ∀ step, step ∈ wave ↔ step ∈ names ∧ IsLongestChain depends step level
  remainingLevel : ∀ step, step ∈ remaining ↔ step ∈ names ∧
    ∀ level, level < waves.length → ¬ IsLongestChain depends step level

section Levels

variable {deps : GoMap String (List String)} {names : List String}

/-- A step waits for nothing that remains exactly when its level is the next one. -/
theorem GraphInvariant.ready_iff {remaining : List String} {waves : List (List String)}
    (invariant : GraphInvariant (DependsOn deps) names remaining waves)
    (exist : ∀ step dep, DependsOn deps step dep → dep ∈ names) {step : String}
    (member : step ∈ remaining) :
    (∀ dep, DependsOn deps step dep → dep ∉ remaining) ↔
      IsLongestChain (DependsOn deps) step waves.length := by
  constructor
  · intro ready
    have bounded : ∀ length, HasChain (DependsOn deps) step length → length ≤ waves.length := by
      intro length chain
      cases chain with
      | nil => exact Nat.zero_le _
      | cons edge rest =>
          have done := ready _ edge
          rw [invariant.remainingLevel] at done
          push Not at done
          obtain ⟨level, below, at_⟩ := done (exist _ _ edge)
          have short := at_.2 _ rest
          omega
    obtain ⟨level, within, at_⟩ := exists_isLongestChain bounded
    rcases Nat.lt_or_eq_of_le within with below | rfl
    · exact absurd at_ (((invariant.remainingLevel step).mp member).2 level below)
    · exact at_
  · intro at_ dep depends left
    have none_ := ((invariant.remainingLevel dep).mp left).2
    generalize waves.length = count at at_ none_
    cases count with
    | zero => exact isLongestChain_zero_iff.mp at_ dep depends
    | succ count =>
        obtain ⟨lower, small, atLower⟩ := (isLongestChain_succ_iff.mp at_).1 dep depends
        exact none_ lower (by omega) atLower

/-- In a graph without cycles the next wave is the next level. -/
theorem GraphInvariant.mem_nextWave {remaining : List String} {waves : List (List String)}
    (invariant : GraphInvariant (DependsOn deps) names remaining waves)
    (exist : ∀ step dep, DependsOn deps step dep → dep ∈ names)
    (levelled : ∀ step ∈ names, ∃ level, IsLongestChain (DependsOn deps) step level)
    (left : remaining ≠ []) (step : String) :
    step ∈ nextWave deps remaining ↔
      step ∈ names ∧ IsLongestChain (DependsOn deps) step waves.length := by
  have filtered : ∀ name,
      name ∈ remaining.filter (fun name => (deps.getD name []).all (· ∉ remaining)) ↔
        name ∈ names ∧ IsLongestChain (DependsOn deps) name waves.length := by
    intro name
    rw [List.mem_filter]
    constructor
    · rintro ⟨member, ready⟩
      refine ⟨((invariant.remainingLevel name).mp member).1, ?_⟩
      rw [← invariant.ready_iff exist member]
      intro dep depends
      exact of_decide_eq_true (List.all_eq_true.mp ready dep depends)
    · rintro ⟨listed, at_⟩
      have member : name ∈ remaining := by
        rw [invariant.remainingLevel]
        refine ⟨listed, fun level below atLevel => ?_⟩
        have same := IsLongestChain.unique at_ atLevel
        omega
      refine ⟨member, List.all_eq_true.mpr fun dep depends => decide_eq_true ?_⟩
      exact (invariant.ready_iff exist member).mpr at_ dep depends
  have nonempty : remaining.filter (fun name => (deps.getD name []).all (· ∉ remaining)) ≠ [] := by
    obtain ⟨first, member⟩ := List.exists_mem_of_ne_nil _ left
    obtain ⟨listed, none_⟩ := (invariant.remainingLevel first).mp member
    obtain ⟨level, at_⟩ := levelled first listed
    -- Below the level of a remaining step every level is inhabited.
    have high : waves.length ≤ level := by
      by_contra low
      exact none_ level (by omega) at_
    obtain ⟨lowest, path, atLowest⟩ := at_.exists_below high
    have reached : lowest ∈ names := by
      rcases Relation.ReflTransGen.cases_tail path with same | ⟨_, _, edge⟩
      · rw [same]
        exact listed
      · exact exist _ _ edge
    exact List.ne_nil_of_mem ((filtered lowest).mpr ⟨reached, atLowest⟩)
  rw [nextWave, if_neg nonempty]
  exact filtered step

/-- A round takes the next level. -/
theorem GraphInvariant.round {remaining : List String} {waves : List (List String)}
    (invariant : GraphInvariant (DependsOn deps) names remaining waves)
    (exist : ∀ step dep, DependsOn deps step dep → dep ∈ names)
    (levelled : ∀ step ∈ names, ∃ level, IsLongestChain (DependsOn deps) step level)
    (left : remaining ≠ []) :
    GraphInvariant (DependsOn deps) names (remaining.filter (· ∉ nextWave deps remaining))
      (waves ++ [nextWave deps remaining]) := by
  have next := invariant.mem_nextWave exist levelled left
  constructor
  · intro wave listed
    rcases List.mem_append.mp listed with earlier | last
    · exact invariant.filled wave earlier
    · rw [List.mem_singleton.mp last]
      exact nextWave_ne_nil deps left
  · intro level wave found
    rcases Nat.lt_or_ge level waves.length with small | large
    · rw [List.getElem?_append_left small] at found
      exact invariant.waveLevel level wave found
    · obtain ⟨isLevel, isWave⟩ : level = waves.length ∧ nextWave deps remaining = wave := by
        rw [List.getElem?_append_right large, List.getElem?_singleton] at found
        split at found
        · rename_i zero
          exact ⟨by omega, Option.some.inj found⟩
        · cases found
      subst isLevel isWave
      exact next
  · intro step
    rw [List.mem_filter, decide_eq_true_eq, next, invariant.remainingLevel, List.length_append,
      List.length_singleton]
    constructor
    · rintro ⟨⟨listed, none_⟩, notNext⟩
      refine ⟨listed, fun level below at_ => ?_⟩
      rcases Nat.lt_or_eq_of_le (Nat.lt_succ_iff.mp below) with small | rfl
      · exact none_ level small at_
      · exact notNext ⟨listed, at_⟩
    · rintro ⟨listed, none_⟩
      exact ⟨⟨listed, fun level below => none_ level (by omega)⟩,
        fun at_ => none_ _ (Nat.lt_succ_self _) at_.2⟩

/-- A graph without cycles is shown level by level. -/
theorem computeWaves_levels (list : List DagStep)
    (exist : ∀ step dep, DependsOn (dependsOnMap list) step dep → dep ∈ list.map DagStep.name)
    (levelled : ∀ step ∈ list.map DagStep.name,
      ∃ level, IsLongestChain (DependsOn (dependsOnMap list)) step level) :
    ∃ waves, computeWaves list = some waves ∧
      GraphInvariant (DependsOn (dependsOnMap list)) (list.map DagStep.name) [] waves := by
  refine graphLoop_ends _ (fun left invariant => invariant.round exist levelled left)
    ⟨?_, ?_, ?_⟩ ?_
  · simp
  · simp
  · intro step
    rw [mem_setOf]
    simp
  · have short := length_uniqueNames_le (list.map DagStep.name) []
    rwa [List.length_map] at short

end Levels

/-- In waves that hold no name twice, a name is in one wave only. -/
theorem existsUnique_wave {waves : List (List String)} (once : waves.flatten.Nodup)
    {name : String} (member : name ∈ waves.flatten) :
    ∃! index : Nat, ∃ wave, waves[index]? = some wave ∧ name ∈ wave := by
  obtain ⟨wave, listed, inWave⟩ := List.mem_flatten.mp member
  obtain ⟨index, found⟩ := List.mem_iff_getElem?.mp listed
  refine ⟨index, ⟨wave, found, inWave⟩, ?_⟩
  rintro other ⟨wave', found', inWave'⟩
  obtain ⟨small, rfl⟩ := List.getElem?_eq_some_iff.mp found
  obtain ⟨small', rfl⟩ := List.getElem?_eq_some_iff.mp found'
  have apart := List.pairwise_iff_getElem.mp (List.nodup_flatten.mp once).2
  rcases Nat.lt_trichotomy index other with before | same | after
  · exact absurd inWave' (apart index other small small' before inWave)
  · exact same.symm
  · exact absurd inWave (apart other index small' small after inWave')

/-! ### Two lists of levels agree -/

/-- The two waves hold the same steps. -/
def SameSteps (shown planned : List String) : Prop :=
  ∀ step, step ∈ shown ↔ step ∈ planned

/-- Lists of waves without an empty one that put every step at the same index
agree wave by wave. -/
theorem forall₂_sameSteps {shown planned : List (List String)}
    (shownFilled : ∀ wave ∈ shown, wave ≠ []) (plannedFilled : ∀ wave ∈ planned, wave ≠ [])
    (same : ∀ (index : Nat) (step : String), (∃ wave, shown[index]? = some wave ∧ step ∈ wave) ↔
      ∃ wave, planned[index]? = some wave ∧ step ∈ wave) :
    List.Forall₂ SameSteps shown planned := by
  induction shown generalizing planned with
  | nil =>
      cases planned with
      | nil => exact .nil
      | cons wave later =>
          obtain ⟨step, member⟩ := List.exists_mem_of_ne_nil _
            (plannedFilled wave List.mem_cons_self)
          obtain ⟨_, found, _⟩ := (same 0 step).mpr ⟨wave, rfl, member⟩
          cases found
  | cons first rest ih =>
      cases planned with
      | nil =>
          obtain ⟨step, member⟩ := List.exists_mem_of_ne_nil _
            (shownFilled first List.mem_cons_self)
          obtain ⟨_, found, _⟩ := (same 0 step).mp ⟨first, rfl, member⟩
          cases found
      | cons wave later =>
          refine .cons ?_ (ih (fun _ listed => shownFilled _ (List.mem_cons_of_mem _ listed))
            (fun _ listed => plannedFilled _ (List.mem_cons_of_mem _ listed))
            fun index step => same (index + 1) step)
          intro step
          simpa using same 0 step

/-- Once no step remains, the waves hold every step at its level. -/
theorem GraphInvariant.inWave_iff {depends : String → String → Prop} {names : List String}
    {waves : List (List String)} (invariant : GraphInvariant depends names [] waves)
    (index : Nat) (step : String) :
    (∃ wave, waves[index]? = some wave ∧ step ∈ wave) ↔
      step ∈ names ∧ IsLongestChain depends step index := by
  constructor
  · rintro ⟨wave, found, member⟩
    exact (invariant.waveLevel index wave found step).mp member
  · rintro ⟨listed, at_⟩
    have placed : ¬ step ∈ ([] : List String) := List.not_mem_nil
    rw [invariant.remainingLevel] at placed
    push Not at placed
    obtain ⟨level, below, atLevel⟩ := placed listed
    obtain rfl := IsLongestChain.unique at_ atLevel
    have found := List.getElem?_eq_getElem below
    exact ⟨_, found, (invariant.waveLevel index _ found step).mpr ⟨listed, at_⟩⟩

/-! ### The reported dependencies are those of the plan -/

section Report

variable {compiler : ExprCompiler} {stepNames : List String}

/-- What the server reports of a compiled step. -/
def reported (compiled : CompiledStep) : StepDeps :=
  reportedDeps compiled.step.dependsOn compiled.templates

/-- The compiled map holds the compiled steps under their names. -/
theorem results_of_compileSteps {steps : List Step} {compiled : GoMap String CompiledStep}
    (done : compileSteps compiler stepNames steps = .ok compiled) :
    ∃ results : List CompiledStep,
      List.Forall₂ (fun step result => compileStep compiler stepNames step = .ok result)
        steps results ∧
      compiled = results.foldl (fun map result => map.insert result.step.name result) ∅ := by
  have general : ∀ (steps : List Step) (before : GoMap String CompiledStep),
      steps.foldlM (fun compiled step => do
        let next ← compileStep compiler stepNames step
        return compiled.insert step.name next) before = .ok compiled →
      ∃ results : List CompiledStep,
        List.Forall₂ (fun step result => compileStep compiler stepNames step = .ok result)
          steps results ∧
        compiled = results.foldl (fun map result => map.insert result.step.name result) before := by
    intro steps
    induction steps with
    | nil =>
        intro before done
        cases done
        exact ⟨[], .nil, rfl⟩
    | cons step rest ih =>
        intro before done
        rw [List.foldlM_cons] at done
        obtain ⟨after, inserted, done⟩ := Except.bind_eq_ok done
        obtain ⟨next, isNext, inserted⟩ := Except.bind_eq_ok inserted
        cases inserted
        obtain ⟨results, related, isCompiled⟩ := ih _ done
        refine ⟨next :: results, .cons isNext related, ?_⟩
        rw [List.foldl_cons, (stepCompiled_of_compileStep isNext).2]
        exact isCompiled
  exact general steps ∅ done

/-- Steps that all compile are all reported. -/
theorem foldl_addStepDeps {steps : List Step} {results : List CompiledStep}
    (related : List.Forall₂ (fun step result =>
      compileStep compiler stepNames step = .ok result) steps results)
    {state : StepDepsState} (clean : state.firstErr = none)
    (agree : ∀ name, state.out.lookup name = (state.compiled.lookup name).map reported) :
    let final := steps.foldl (addStepDeps compiler stepNames) state
    final.firstErr = none ∧
      final.compiled =
        results.foldl (fun map result => map.insert result.step.name result) state.compiled ∧
      ∀ name, final.out.lookup name = (final.compiled.lookup name).map reported := by
  induction related generalizing state with
  | nil => exact ⟨clean, rfl, agree⟩
  | @cons step result steps results compiled _ ih =>
      have isStep := (stepCompiled_of_compileStep compiled).2
      have next : addStepDeps compiler stepNames state step =
          { state with
            out := state.out.insert step.name (reported result)
            compiled := state.compiled.insert step.name result } := by
        rw [addStepDeps, compiled, reported, isStep]
      rw [List.foldl_cons, List.foldl_cons, next, isStep]
      refine ih clean fun name => ?_
      dsimp only
      by_cases same : name = step.name
      · subst same
        rw [AList.lookup_insert, AList.lookup_insert, Option.map_some]
      · rw [AList.lookup_insert_ne same, AList.lookup_insert_ne same]
        exact agree name

/-- A compiled step depends on what it names and on what its templates read. -/
theorem deps_of_compileStep {step : Step} {compiled : CompiledStep}
    (done : compileStep compiler stepNames step = .ok compiled) :
    compiled.deps = mergeDependencies step.dependsOn (templateDeps compiled.templates) := by
  obtain ⟨pathPart, -, done⟩ := Except.bind_eq_ok done
  obtain ⟨queryPart, -, done⟩ := Except.bind_eq_ok done
  obtain ⟨bodyTmpl, -, done⟩ := Except.bind_eq_ok done
  obtain ⟨headers, -, done⟩ := Except.bind_eq_ok done
  cases done
  rfl

variable {steps : List Step} {compiled : GoMap String CompiledStep}

/-- Under distinct names the compiled map holds exactly the compiled steps. -/
theorem lookup_of_compileSteps (done : compileSteps compiler stepNames steps = .ok compiled)
    (distinct : (steps.map Step.name).Nodup) :
    (∀ step ∈ steps, ∃ result, compileStep compiler stepNames step = .ok result ∧
      compiled.lookup step.name = some result) ∧
      ∀ name, name ∉ steps.map Step.name → compiled.lookup name = none := by
  obtain ⟨results, related, rfl⟩ := results_of_compileSteps done
  have names : results.map (fun result => result.step.name) = steps.map Step.name := by
    clear done distinct
    induction related with
    | nil => rfl
    | cons first _ ih =>
        rw [List.map_cons, List.map_cons, ih, (stepCompiled_of_compileStep first).2]
  constructor
  · intro step member
    obtain ⟨sameLength, each⟩ := List.forall₂_iff_get.mp related
    obtain ⟨index, rfl⟩ := List.mem_iff_get.mp member
    have isResult := each index index.isLt (sameLength ▸ index.isLt)
    have listed := List.get_mem results ⟨index, sameLength ▸ index.isLt⟩
    refine ⟨_, isResult, ?_⟩
    have found := GoMap.lookup_foldl_insert (fun result : CompiledStep => result.step.name) id ∅
      (names ▸ distinct) listed
    rwa [(stepCompiled_of_compileStep isResult).2] at found
  · intro name absent
    rw [← names] at absent
    exact GoMap.lookup_foldl_insert_of_notMem (fun result : CompiledStep => result.step.name) id ∅
      absent

/-- The plan is over the names of the steps. -/
theorem mem_keys_planned (done : compileSteps compiler stepNames steps = .ok compiled)
    (distinct : (steps.map Step.name).Nodup) {name : String} :
    name ∈ (Composition.stepDependencies compiled).keys ↔ name ∈ steps.map Step.name := by
  obtain ⟨found, absent⟩ := lookup_of_compileSteps done distinct
  rw [Composition.stepDependencies, GoMap.keys_mapValues, GoMap.mem_keys_iff]
  constructor
  · rintro ⟨result, isResult⟩
    by_contra other
    rw [absent name other] at isResult
    cases isResult
  · intro listed
    obtain ⟨step, member, rfl⟩ := List.mem_map.mp listed
    obtain ⟨result, _, isFound⟩ := found step member
    exact ⟨result, isFound⟩

/-- The steps that the gateway reads, as steps of a graph. -/
def dagSteps (steps : List Step) : List DagStep :=
  steps.map fun step => ⟨step.name, step.dependsOn⟩

/-- The steps of the graph have the names of the steps. -/
theorem names_dagSteps (steps : List Step) :
    (dagSteps steps).map DagStep.name = steps.map Step.name := by
  rw [dagSteps, List.map_map]
  rfl

/-- The steps that are shown have the names of the steps. -/
theorem names_shown (steps : List Step) (inferred : GoMap String (List String)) :
    (runtimeSteps (dagSteps steps) inferred).map DagStep.name = steps.map Step.name := by
  rw [runtimeSteps, List.map_map, ← names_dagSteps]
  rfl

/-- A step depends on those of its entries that are steps. -/
theorem getD_dependsOnMap {list : List DagStep} (distinct : (list.map DagStep.name).Nodup)
    {item : DagStep} (member : item ∈ list) :
    (dependsOnMap list).getD item.name [] =
      item.dependsOn.filter fun dep => dep ∈ list.map DagStep.name := by
  rw [GoMap.getD, dependsOnMap]
  rw [GoMap.lookup_foldl_insert DagStep.name _ ∅ distinct member, Option.getD_some]

/-- What is no step depends on nothing. -/
theorem getD_dependsOnMap_of_notMem {list : List DagStep} {name : String}
    (absent : name ∉ list.map DagStep.name) : (dependsOnMap list).getD name [] = [] := by
  rw [GoMap.getD, dependsOnMap]
  rw [GoMap.lookup_foldl_insert_of_notMem DagStep.name _ ∅ absent]
  rfl

/-- A step whose dependencies exist and do not hold the step itself waits in the
graph for the steps that it waits for in the gateway. -/
theorem mem_inferredFor_iff (step : DagStep) {templates : StepTemplates} {names : List String}
    {inferred : GoMap String (List String)} {dep : String}
    (isInferred : inferred.lookup step.name =
      some (reportedDeps step.dependsOn templates).inferred)
    (known : dep ∈ mergeDependencies step.dependsOn (templateDeps templates) →
      dep ∈ names ∧ dep ≠ step.name) :
    dep ∈ (step.dependsOn ++ inferredFor step inferred names).filter (· ∈ names) ↔
      dep ∈ mergeDependencies step.dependsOn (templateDeps templates) := by
  rw [mergeDependencies, List.mem_dedup, List.mem_append] at known ⊢
  rw [inferredFor, GoMap.getD, isInferred, Option.getD_some, reportedDeps]
  simp only [List.mem_filter, List.mem_append, mem_uniqueSorted, List.not_mem_nil,
    not_false_eq_true, and_true, decide_eq_true_eq]
  tauto

/-- The graph of the steps that the gateway reads is the graph that it plans. -/
theorem dependsOn_shown_iff (done : compileSteps compiler stepNames steps = .ok compiled)
    (distinct : (steps.map Step.name).Nodup) {report : GoMap String StepDeps}
    (isReport : ∀ name, report.lookup name = (compiled.lookup name).map reported)
    (exist : DependenciesExist (Composition.stepDependencies compiled))
    (acyclic : Acyclic (DependsOn (Composition.stepDependencies compiled))) (name dep : String) :
    DependsOn (dependsOnMap (runtimeSteps (dagSteps steps) (report.mapValues StepDeps.inferred)))
        name dep ↔
      DependsOn (Composition.stepDependencies compiled) name dep := by
  obtain ⟨found, -⟩ := lookup_of_compileSteps done distinct
  have names := names_shown steps (report.mapValues StepDeps.inferred)
  by_cases listed : name ∈ steps.map Step.name
  · obtain ⟨step, member, rfl⟩ := List.mem_map.mp listed
    obtain ⟨result, isResult, isFound⟩ := found step member
    have planned : (Composition.stepDependencies compiled).getD step.name [] = result.deps := by
      rw [Composition.stepDependencies, GoMap.getD, GoMap.lookup_mapValues, isFound]
      rfl
    have isInferred : (report.mapValues StepDeps.inferred).lookup step.name =
        some (reportedDeps step.dependsOn result.templates).inferred := by
      rw [GoMap.lookup_mapValues, isReport, isFound, Option.map_some, Option.map_some, reported,
        (stepCompiled_of_compileStep isResult).2]
    have drawn : ⟨step.name, step.dependsOn ++ inferredFor ⟨step.name, step.dependsOn⟩
        (report.mapValues StepDeps.inferred) (steps.map Step.name)⟩ ∈
          runtimeSteps (dagSteps steps) (report.mapValues StepDeps.inferred) := by
      rw [← names_dagSteps]
      exact List.mem_map_of_mem (List.mem_map_of_mem member)
    have shown := getD_dependsOnMap (names ▸ distinct) drawn
    dsimp only at shown
    rw [Composition.DependsOn, Composition.DependsOn, planned, shown, names,
      deps_of_compileStep isResult]
    refine mem_inferredFor_iff ⟨step.name, step.dependsOn⟩ isInferred fun merged => ?_
    have depends : DependsOn (Composition.stepDependencies compiled) step.name dep := by
      rw [Composition.DependsOn, planned, deps_of_compileStep isResult]
      exact merged
    refine ⟨(mem_keys_planned done distinct).mp (exist _ _ depends), fun self => ?_⟩
    cases self
    exact acyclic _ (.single depends)
  · constructor
    · intro depends
      rw [Composition.DependsOn, getD_dependsOnMap_of_notMem (names ▸ listed)] at depends
      cases depends
    · intro depends
      exact absurd ((mem_keys_planned done distinct).mp (DependsOn.mem_keys depends)) listed

/-- The report of steps that the gateway compiles and plans. -/
theorem stepDependencies_of_planned
    (done : compileSteps compiler (steps.map Step.name) steps = .ok compiled)
    {order : (deps : StepDependencies) → RangeOrder deps} {plan : ExecutionPlan}
    (planned : buildDAG (Composition.stepDependencies compiled) (order _) = some (.ok plan)) :
    ∃ report, stepDependencies compiler steps order = some (report, none) ∧
      ∀ name, report.lookup name = (compiled.lookup name).map reported := by
  obtain ⟨results, related, rfl⟩ := results_of_compileSteps done
  obtain ⟨clean, isCompiled, isReport⟩ := @foldl_addStepDeps compiler _ steps results related {} rfl
    (fun name => rfl)
  refine ⟨_, ?_, isCompiled ▸ isReport⟩
  unfold stepDependencies
  dsimp only
  rw [clean]
  dsimp only
  rw [isCompiled, planned]
  rfl

end Report

/-! ### The waves of the steps that the gateway reads -/

/-- For steps with distinct names that the gateway compiles and plans, the server reports every
step, and the waves of the frontend are those of the plan, whatever order the planner of the
server visits its maps in. -/
theorem waves_of_planned {compiler : ExprCompiler} {steps : List Step}
    {compiled : GoMap String CompiledStep} {plan : ExecutionPlan}
    (order : RangeOrder (Composition.stepDependencies compiled))
    (serverOrder : (deps : StepDependencies) → RangeOrder deps)
    (distinct : (steps.map Step.name).Nodup)
    (done : compileSteps compiler (steps.map Step.name) steps = .ok compiled)
    (planned : buildDAG (Composition.stepDependencies compiled) order = some (.ok plan)) :
    ∃ report waves, stepDependencies compiler steps serverOrder = some (report, none) ∧
      (∀ step ∈ steps, (report.lookup step.name).isSome) ∧
      computeWaves (runtimeSteps (dagSteps steps) (report.mapValues StepDeps.inferred)) =
        some waves ∧
      List.Forall₂ SameSteps waves plan.waves := by
  obtain ⟨_, acyclic, covers, levels⟩ := plan_of_buildDAG planned
  have exist := dependenciesExist_of_buildDAG planned
  obtain ⟨serverPlan, serverPlanned⟩ := exists_plan (serverOrder _) exist acyclic
  obtain ⟨report, isReport, reports⟩ := stepDependencies_of_planned done serverPlanned
  have sameRelation : DependsOn (dependsOnMap (runtimeSteps (dagSteps steps)
      (report.mapValues StepDeps.inferred))) =
        DependsOn (Composition.stepDependencies compiled) := by
    ext name dep
    exact dependsOn_shown_iff done distinct reports exist acyclic name dep
  have names := names_shown steps (report.mapValues StepDeps.inferred)
  obtain ⟨waves, isWaves, invariant⟩ := computeWaves_levels
    (runtimeSteps (dagSteps steps) (report.mapValues StepDeps.inferred))
    (by
      intro step dep depends
      rw [sameRelation] at depends
      rw [names]
      exact (mem_keys_planned done distinct).mp (exist step dep depends))
    (by
      intro step listed
      rw [names, ← mem_keys_planned done distinct, ← covers.mem_iff] at listed
      obtain ⟨wave, isWave, member⟩ := List.mem_flatten.mp listed
      obtain ⟨index, found⟩ := List.mem_iff_getElem?.mp isWave
      rw [sameRelation]
      exact ⟨index, ((levels index step).mp ⟨wave, found, member⟩).2⟩)
  refine ⟨report, waves, isReport, ?_, isWaves, ?_⟩
  · intro step member
    obtain ⟨result, _, isFound⟩ := (lookup_of_compileSteps done distinct).1 step member
    rw [reports, isFound]
    rfl
  · refine forall₂_sameSteps invariant.filled (wave_ne_nil_of_buildDAG planned) ?_
    intro index step
    rw [invariant.inWave_iff, sameRelation, names, ← mem_keys_planned done distinct]
    exact (levels index step).symm

end Restitch.Studio
