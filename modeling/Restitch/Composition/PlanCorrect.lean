import Mathlib.Data.Set.Finite.List
import Restitch.Composition.PlanLevels

/-!
# Correctness of `buildDAG`

A plan exists exactly when every dependency names a step and no step reaches a
cycle. Its waves are then the levels of the dependency graph, and otherwise the
cycle report holds exactly the steps that reach a cycle. The results quantify
over every `RangeOrder`, that is, every map iteration order.
-/

namespace Restitch.Composition

open Relation
open Restitch.Std

/-- `step` is in wave number `index` of the plan. -/
def ExecutionPlan.InWave (plan : ExecutionPlan) (index : Nat) (step : String) : Prop :=
  ∃ wave, plan.waves[index]? = some wave ∧ step ∈ wave

section LoopEnd

variable {deps : StepDependencies} {inDegree : String → Int} {waves : List (List String)}

/-- Transitive dependencies of a step are steps. -/
theorem DependenciesExist.mem_keys (exist : DependenciesExist deps) {step dep : String}
    (key : step ∈ deps.keys) (path : ReflTransGen (DependsOn deps) step dep) :
    dep ∈ deps.keys := by
  induction path with
  | refl => exact key
  | tail _ edge _ => exact exist _ _ edge

/-- Once nothing is queued, every step that has a level is processed: a missing
level would leave a gap below it. -/
theorem LoopInvariant.mem_processed_iff (invariant : LoopInvariant deps inDegree [] waves)
    (exist : DependenciesExist deps) (step : String) :
    step ∈ waves.flatten ↔ step ∈ deps.keys ∧ ∃ level, AtLevel deps step level := by
  rw [invariant.mem_processed step]
  refine and_congr_right fun key => ⟨fun ⟨level, _, at_⟩ => ⟨level, at_⟩, ?_⟩
  rintro ⟨level, at_⟩
  refine ⟨level, ?_, at_⟩
  by_contra large
  obtain ⟨gap, path, atGap⟩ := at_.exists_below (Nat.le_of_not_gt large)
  have queued := (invariant.queueLevel gap).mpr ⟨exist.mem_keys key path, atGap⟩
  exact List.not_mem_nil queued

/-- A step whose dependencies are all processed is processed. -/
theorem LoopInvariant.mem_processed_of_deps (invariant : LoopInvariant deps inDegree [] waves)
    (exist : DependenciesExist deps) {step : String} (key : step ∈ deps.keys)
    (done : ∀ dep, DependsOn deps step dep → dep ∈ waves.flatten) : step ∈ waves.flatten := by
  rw [invariant.mem_processed_iff exist]
  refine ⟨key, ?_⟩
  have bounded : ∀ length, HasChain (DependsOn deps) step length → length ≤ waves.length := by
    intro length chain
    cases chain with
    | nil => exact Nat.zero_le _
    | cons edge rest =>
        obtain ⟨_, level, small, at_⟩ := (invariant.mem_processed _).mp (done _ edge)
        have short := at_.2 _ rest
        omega
  obtain ⟨level, _, at_⟩ := exists_isLongestChain bounded
  exact ⟨level, at_⟩

/-- The loop leaves behind exactly the steps that reach a cycle. -/
theorem LoopInvariant.unprocessed_iff (invariant : LoopInvariant deps inDegree [] waves)
    (exist : DependenciesExist deps) {step : String} (key : step ∈ deps.keys) :
    step ∉ waves.flatten ↔ ReachesCycle (DependsOn deps) step := by
  constructor
  · intro left
    let stuck : Set String := {step | step ∈ deps.keys ∧ step ∉ waves.flatten}
    have finite : stuck.Finite :=
      deps.keys.finite_toSet.subset fun _ member => member.1
    refine reachesCycle_of_finite finite ?_ (a := step) ⟨key, left⟩
    rintro step ⟨key, left⟩
    by_contra none
    push Not at none
    refine left (invariant.mem_processed_of_deps exist key fun dep depends => ?_)
    by_contra waiting
    exact none dep ⟨exist step dep depends, waiting⟩ depends
  · intro reaches processed
    obtain ⟨_, level, at_⟩ := (invariant.mem_processed_iff exist step).mp processed
    exact at_.not_reachesCycle reaches

/-- The steps that are left are those with a positive degree. -/
theorem LoopInvariant.degree_pos_iff (invariant : LoopInvariant deps inDegree [] waves)
    (exist : DependenciesExist deps) {step : String} (key : step ∈ deps.keys) :
    0 < inDegree step ↔ step ∉ waves.flatten := by
  rw [invariant.degree step, Int.natCast_pos, List.countP_pos_iff]
  constructor
  · rintro ⟨dep, depends, waiting⟩ processed
    obtain ⟨_, level, small, at_⟩ := (invariant.mem_processed step).mp processed
    refine absurd ?_ (of_decide_eq_true waiting)
    rw [invariant.mem_processed_iff exist]
    refine ⟨exist step dep depends, ?_⟩
    cases level with
    | zero => exact absurd depends (isLongestChain_zero_iff.mp at_ dep)
    | succ level =>
        obtain ⟨below, _⟩ := isLongestChain_succ_iff.mp at_
        obtain ⟨lower, _, atLower⟩ := below dep depends
        exact ⟨lower, atLower⟩
  · intro left
    by_contra none
    push Not at none
    refine left (invariant.mem_processed_of_deps exist key fun dep depends => ?_)
    by_contra waiting
    exact absurd (decide_eq_true waiting) (none dep depends)

/-- The test `processed != len(inDegree)` detects exactly the graphs with a cycle. -/
theorem LoopInvariant.processed_all_iff (invariant : LoopInvariant deps inDegree [] waves)
    (exist : DependenciesExist deps) :
    waves.flatten.length = deps.keys.length ↔ Acyclic (DependsOn deps) := by
  have inside := List.subperm_of_subset invariant.processed_nodup invariant.processed_subset
  rw [acyclic_iff_forall_not_reachesCycle]
  constructor
  · intro full step reaches
    have all := inside.perm_of_length_le (by omega)
    have key : step ∈ deps.keys := by
      obtain ⟨target, path, cycle⟩ := reaches
      rcases ReflTransGen.cases_head path with rfl | ⟨next, edge, _⟩
      · obtain ⟨next, edge, _⟩ := TransGen.head'_iff.mp cycle
        exact DependsOn.mem_keys edge
      · exact DependsOn.mem_keys edge
    exact (invariant.unprocessed_iff exist key).mpr reaches (all.mem_iff.mpr key)
  · intro none
    have covers : deps.keys ⊆ waves.flatten := by
      intro step key
      by_contra left
      exact none step ((invariant.unprocessed_iff exist key).mp left)
    exact ((List.perm_ext_iff_of_nodup invariant.processed_nodup deps.keys_nodup).mpr
      fun step => ⟨fun member => invariant.processed_subset member,
        fun key => covers key⟩).length_eq

end LoopEnd

/-- With dependencies that exist, `buildExecutionPlan` ends, and its answer is
read off the state in which its loop ends. -/
theorem buildDAG_of_exist {deps : StepDependencies} (order : RangeOrder deps)
    (exist : DependenciesExist deps) :
    ∃ inDegree waves, LoopInvariant deps inDegree [] waves ∧
      buildDAG deps order = some (
        if waves.flatten.length ≠ deps.keys.length then
          .error (.circular ((order.report.filter fun step =>
            decide (0 < inDegree step)).insertionSort (· ≤ ·)))
        else .ok ⟨waves, deps⟩) := by
  obtain ⟨inDegree, waves, ends, invariant⟩ := waveLoop_ends order exist
    (loopInvariant_initial deps order) (Nat.le_add_right deps.keys.length _)
  refine ⟨inDegree, waves, invariant, ?_⟩
  simp only [buildDAG, (validateDependencies_eq_none_iff deps order).mpr exist,
    buildExecutionPlan, ends, Option.map_some]

/-- A plan can only come out when every dependency names a step. -/
theorem dependenciesExist_of_buildDAG {deps : StepDependencies} {order : RangeOrder deps}
    {plan : ExecutionPlan} (built : buildDAG deps order = some (.ok plan)) :
    DependenciesExist deps := by
  rw [← validateDependencies_eq_none_iff deps order]
  unfold buildDAG at built
  cases checked : validateDependencies deps order with
  | none => rfl
  | some error => simp [checked] at built

/-- What a built plan is: the levels of an acyclic graph, over all the steps. -/
theorem plan_of_buildDAG {deps : StepDependencies} {order : RangeOrder deps}
    {plan : ExecutionPlan} (built : buildDAG deps order = some (.ok plan)) :
    plan.deps = deps ∧ Acyclic (DependsOn deps) ∧ plan.waves.flatten.Perm deps.keys ∧
      ∀ index step, plan.InWave index step ↔ step ∈ deps.keys ∧ AtLevel deps step index := by
  have exist := dependenciesExist_of_buildDAG built
  obtain ⟨inDegree, waves, invariant, equation⟩ := buildDAG_of_exist order exist
  rw [equation] at built
  split at built
  · cases built
  · rename_i complete
    rw [not_not] at complete
    cases built
    have acyclic := (invariant.processed_all_iff exist).mp complete
    refine ⟨rfl, acyclic, ?_, ?_⟩
    · exact (List.subperm_of_subset invariant.processed_nodup
        invariant.processed_subset).perm_of_length_le (by omega)
    · intro index step
      constructor
      · rintro ⟨wave, found, member⟩
        exact (invariant.waveLevel index wave found step).mp member
      · rintro ⟨key, at_⟩
        have processed := (invariant.mem_processed_iff exist step).mpr ⟨key, index, at_⟩
        obtain ⟨_, level, small, atLevel⟩ := (invariant.mem_processed step).mp processed
        obtain rfl := IsLongestChain.unique at_ atLevel
        have found := List.getElem?_eq_getElem small
        exact ⟨_, found, (invariant.waveLevel index _ found step).mpr ⟨key, at_⟩⟩

/-- The loop never appends an empty wave. -/
theorem waveLoop_ne_nil {edges : String → List String} {fuel : Nat} {inDegree inDegree' : String → Int}
    {queue : List String} {waves waves' : List (List String)} (filled : ∀ wave ∈ waves, wave ≠ [])
    (ends : waveLoop edges fuel inDegree queue waves = some (inDegree', waves')) :
    ∀ wave ∈ waves', wave ≠ [] := by
  induction fuel generalizing inDegree queue waves with
  | zero =>
      cases queue with
      | nil =>
          cases ends
          exact filled
      | cons step rest => cases ends
  | succ fuel ih =>
      cases queue with
      | nil =>
          cases ends
          exact filled
      | cons step rest =>
          refine ih ?_ ends
          intro wave listed
          rcases List.mem_append.mp listed with earlier | last
          · exact filled wave earlier
          · rw [List.mem_singleton.mp last]
            exact List.cons_ne_nil step rest

/-- No wave of a built plan is empty. -/
theorem wave_ne_nil_of_buildDAG {deps : StepDependencies} {order : RangeOrder deps}
    {plan : ExecutionPlan} (built : buildDAG deps order = some (.ok plan)) :
    ∀ wave ∈ plan.waves, wave ≠ [] := by
  unfold buildDAG at built
  split at built
  · cases built
  · obtain ⟨⟨inDegree, waves⟩, ends, outcome⟩ := Option.map_eq_some_iff.mp built
    dsimp only at outcome
    split at outcome
    · cases outcome
    · cases outcome
      exact waveLoop_ne_nil (fun _ member => absurd member List.not_mem_nil) ends

/-- In a built plan every dependency lies in a strictly earlier wave. -/
theorem earlier_of_dependsOn {deps : StepDependencies} {order : RangeOrder deps}
    {plan : ExecutionPlan} (built : buildDAG deps order = some (.ok plan))
    {index : Nat} {step dep : String} (inWave : plan.InWave index step)
    (depends : DependsOn deps step dep) :
    ∃ earlier, earlier < index ∧ plan.InWave earlier dep := by
  obtain ⟨_, _, _, levels⟩ := plan_of_buildDAG built
  have exist := dependenciesExist_of_buildDAG built
  obtain ⟨_, at_⟩ := (levels index step).mp inWave
  cases index with
  | zero => exact absurd depends (isLongestChain_zero_iff.mp at_ dep)
  | succ index =>
      obtain ⟨below, _⟩ := isLongestChain_succ_iff.mp at_
      obtain ⟨lower, small, atLower⟩ := below dep depends
      exact ⟨lower, by omega, (levels lower dep).mpr ⟨exist step dep depends, atLower⟩⟩

/-- An acyclic graph of existing steps has a plan. -/
theorem exists_plan {deps : StepDependencies} (order : RangeOrder deps)
    (exist : DependenciesExist deps) (acyclic : Acyclic (DependsOn deps)) :
    ∃ plan, buildDAG deps order = some (.ok plan) := by
  obtain ⟨inDegree, waves, invariant, equation⟩ := buildDAG_of_exist order exist
  refine ⟨⟨waves, deps⟩, ?_⟩
  rw [equation, if_neg]
  exact not_not.mpr ((invariant.processed_all_iff exist).mpr acyclic)

/-- A cyclic graph of existing steps is reported by the steps that reach a cycle. -/
theorem cycle_report {deps : StepDependencies} (order : RangeOrder deps)
    (exist : DependenciesExist deps) (cyclic : ¬ Acyclic (DependsOn deps)) :
    ∃ cycleSteps, buildDAG deps order = some (.error (.circular cycleSteps)) ∧
      cycleSteps.Pairwise (· ≤ ·) ∧ cycleSteps.Nodup ∧
      ∀ step, step ∈ cycleSteps ↔ step ∈ deps.keys ∧ ReachesCycle (DependsOn deps) step := by
  obtain ⟨inDegree, waves, invariant, equation⟩ := buildDAG_of_exist order exist
  refine ⟨(order.report.filter fun step => decide (0 < inDegree step)).insertionSort (· ≤ ·),
    ?_, ?_, ?_, ?_⟩
  · rw [equation, if_pos]
    exact fun complete => cyclic ((invariant.processed_all_iff exist).mp complete)
  · exact List.pairwise_insertionSort (· ≤ ·) _
  · rw [(List.perm_insertionSort _ _).nodup_iff]
    exact (order.reportPerm.nodup_iff.mpr deps.keys_nodup).filter _
  · intro step
    rw [(List.perm_insertionSort _ _).mem_iff, List.mem_filter, order.reportPerm.mem_iff,
      decide_eq_true_eq]
    refine and_congr_right fun key => ?_
    rw [invariant.degree_pos_iff exist key, invariant.unprocessed_iff exist key]

/-- `BuildDAG` is correct in every map iteration order: it returns a plan
exactly for the acyclic graphs of existing steps; the waves of the plan hold
every step once, after its dependencies and at the level given by its longest
dependency chain; and a cycle is reported, in sorted order, by the steps that
reach it. -/
theorem buildDAG_correct (deps : StepDependencies) (order : RangeOrder deps) :
    ((∃ plan, buildDAG deps order = some (.ok plan)) ↔
      DependenciesExist deps ∧ Acyclic (DependsOn deps)) ∧
    (∀ plan, buildDAG deps order = some (.ok plan) →
      plan.deps = deps ∧ plan.waves.flatten.Nodup ∧
      (∀ step, step ∈ plan.waves.flatten ↔ step ∈ deps.keys) ∧
      (∀ index step dep, plan.InWave index step → DependsOn deps step dep →
        ∃ earlier, earlier < index ∧ plan.InWave earlier dep) ∧
      (∀ index step, plan.InWave index step →
        IsLongestChain (DependsOn deps) step index)) ∧
    (DependenciesExist deps → ¬ Acyclic (DependsOn deps) →
      ∃ cycleSteps, buildDAG deps order = some (.error (.circular cycleSteps)) ∧
        cycleSteps.Pairwise (· ≤ ·) ∧ cycleSteps.Nodup ∧
        ∀ step, step ∈ cycleSteps ↔
          step ∈ deps.keys ∧ ReachesCycle (DependsOn deps) step) := by
  refine ⟨⟨?_, ?_⟩, ?_, cycle_report order⟩
  · rintro ⟨plan, built⟩
    exact ⟨dependenciesExist_of_buildDAG built, (plan_of_buildDAG built).2.1⟩
  · rintro ⟨exist, acyclic⟩
    exact exists_plan order exist acyclic
  · intro plan built
    obtain ⟨sameDeps, _, covers, levels⟩ := plan_of_buildDAG built
    refine ⟨sameDeps, covers.nodup_iff.mpr deps.keys_nodup, fun step => covers.mem_iff, ?_, ?_⟩
    · intro index step dep inWave depends
      exact earlier_of_dependsOn built inWave depends
    · intro index step inWave
      exact ((levels index step).mp inWave).2

end Restitch.Composition
