import Restitch.Composition.Plan

/-!
# The waves of a plan are the levels of its dependency graph

The queue of `buildExecutionPlan` holds, at the start of round `k`, exactly the
steps whose longest dependency chain has length `k`. `LoopInvariant` states this
together with the meaning of `inDegree`; every fact about the plan and about the
cycle report is read off the invariant at the end of the loop.
-/

namespace Restitch.Composition

open Relation
open Restitch.Std

/-- `step` has `dep` among its resolved dependencies. -/
def DependsOn (deps : StepDependencies) (step dep : String) : Prop :=
  dep ∈ deps.getD step []

/-- Every dependency names a step. -/
def DependenciesExist (deps : StepDependencies) : Prop :=
  ∀ step dep, DependsOn deps step dep → dep ∈ deps.keys

/-- The longest dependency chain below `step` has length `level`. -/
def AtLevel (deps : StepDependencies) (step : String) (level : Nat) : Prop :=
  IsLongestChain (DependsOn deps) step level

/-- A step that depends on another one is a step. -/
theorem DependsOn.mem_keys {deps : StepDependencies} {step dep : String}
    (depends : DependsOn deps step dep) : step ∈ deps.keys := by
  unfold DependsOn GoMap.getD at depends
  cases found : deps.lookup step with
  | none => simp [found] at depends
  | some listed => exact GoMap.mem_keys_iff.mpr ⟨listed, found⟩

/-! ### `validateDependencies` -/

/-- The check passes exactly when every dependency names a step. -/
theorem validateDependencies_eq_none_iff (deps : StepDependencies) (order : RangeOrder deps) :
    validateDependencies deps order = none ↔ DependenciesExist deps := by
  unfold validateDependencies
  rw [List.findSome?_eq_none_iff]
  constructor
  · intro passes step dep depends
    unfold DependsOn GoMap.getD at depends
    cases found : deps.lookup step with
    | none => simp [found] at depends
    | some listed =>
        simp only [found, Option.getD_some] at depends
        have visited := order.validatePerm.mem_iff.mpr (GoMap.mem_entries_iff.mpr found)
        have entryPasses := passes _ visited
        simp only [Option.map_eq_none_iff, List.find?_eq_none] at entryPasses
        simpa using entryPasses dep depends
  · intro exist entry visited
    obtain ⟨step, listed⟩ := entry
    have found := GoMap.mem_entries_iff.mp (order.validatePerm.mem_iff.mp visited)
    simp only [Option.map_eq_none_iff, List.find?_eq_none]
    intro dep member
    have depends : DependsOn deps step dep := by
      simpa [DependsOn, GoMap.getD, found] using member
    simpa using exist step dep depends

/-! ### `edges` -/

/-- A step is appended once for each time it lists the dependency. -/
theorem foldl_appendDependent (listed : List String) (step dep : String)
    (edges : String → List String) :
    listed.foldl (fun edges d => Function.update edges d (edges d ++ [step])) edges dep =
      edges dep ++ List.replicate (listed.count dep) step := by
  induction listed generalizing edges with
  | nil => simp
  | cons head rest ih =>
      rw [List.foldl_cons, ih]
      by_cases same : dep = head
      · subst head
        simp [List.replicate_succ]
      · rw [Function.update_of_ne same, List.count_cons_of_ne (Ne.symm same)]

/-- The dependents are those of every step, in their order. -/
theorem foldl_appendDependents (order : List (GoEntry String (List String))) (dep : String)
    (edges : String → List String) :
    order.foldl appendDependent edges dep =
      edges dep ++ order.flatMap fun entry => List.replicate (entry.2.count dep) entry.1 := by
  induction order generalizing edges with
  | nil => simp
  | cons entry rest ih =>
      rw [List.foldl_cons, ih, appendDependent, foldl_appendDependent]
      simp

/-- A step is among the dependents as often as it lists the dependency. -/
private theorem count_dependents (entries : List (GoEntry String (List String)))
    (nodup : entries.NodupKeys) (step dep : String) :
    (entries.flatMap fun entry => List.replicate (entry.2.count dep) entry.1).count step =
      ((entries.dlookup step).getD []).count dep := by
  induction entries with
  | nil => simp
  | cons entry rest ih =>
      obtain ⟨entryStep, listed⟩ := entry
      obtain ⟨fresh, restNodup⟩ := List.nodupKeys_cons.mp nodup
      rw [List.flatMap_cons, List.count_append, ih restNodup]
      by_cases same : step = entryStep
      · subst entryStep
        rw [List.dlookup_eq_none.mpr fresh]
        simp
      · rw [List.dlookup_cons_ne _ _ same]
        simp [List.count_replicate, Ne.symm same]

/-- A step occurs among the dependents of `dep` as often as `dep` occurs among
its dependencies, in every iteration order. -/
theorem count_buildEdges (deps : StepDependencies) (order : RangeOrder deps)
    (step dep : String) :
    (buildEdges order.edges dep).count step = (deps.getD step []).count dep := by
  unfold buildEdges
  rw [foldl_appendDependents, List.nil_append,
    (order.edgesPerm.flatMap_right _).count_eq, count_dependents _ deps.nodupKeys]
  rfl

/-! ### One round of the loop -/

/-- The next queue counts the dependents of the queue down. -/
theorem nextQueue_eq_run (edges : String → List String) (inDegree : String → Int)
    (queue : List String) :
    nextQueue edges inDegree queue = Countdown.run (inDegree, []) (queue.flatMap edges) := by
  have general : ∀ state : Countdown.State String,
      queue.foldl (fun state step => Countdown.run state (edges step)) state =
        Countdown.run state (queue.flatMap edges) := by
    induction queue with
    | nil => intro state; rfl
    | cons step rest ih =>
        intro state
        rw [List.foldl_cons, ih, List.flatMap_cons, Countdown.run_append]
  exact general (inDegree, [])

/-- What is in a list is its head or in the rest. -/
private theorem countP_mem_cons (listed : List String) {head : String} {rest : List String}
    (absent : head ∉ rest) :
    listed.countP (· ∈ head :: rest) = listed.count head + listed.countP (· ∈ rest) := by
  induction listed with
  | nil => simp
  | cons item others ih =>
      rw [List.countP_cons, List.countP_cons, List.count_cons, ih]
      by_cases same : item = head
      · subst item
        simp [absent]
        omega
      · simp [same]
        omega

/-- The counts of the queue's steps are the entries in the queue. -/
private theorem sum_count_eq_countP (queue listed : List String) (nodup : queue.Nodup) :
    (queue.map fun dep => listed.count dep).sum = listed.countP (· ∈ queue) := by
  induction queue with
  | nil => simp
  | cons head rest ih =>
      obtain ⟨absent, restNodup⟩ := List.nodup_cons.mp nodup
      rw [List.map_cons, List.sum_cons, ih restNodup, countP_mem_cons listed absent]

/-- The entries not processed are those in the queue and those behind it. -/
private theorem countP_not_mem_split (listed : List String) {processed queue : List String}
    (disjoint : ∀ step ∈ queue, step ∉ processed) :
    listed.countP (· ∉ processed) =
      listed.countP (· ∈ queue) + listed.countP (· ∉ processed ++ queue) := by
  induction listed with
  | nil => simp
  | cons item others ih =>
      rw [List.countP_cons, List.countP_cons, List.countP_cons, ih]
      by_cases queued : item ∈ queue
      · simp [queued, disjoint item queued]
        omega
      · simp [queued]
        omega

/-- In one pass over the queue a step is visited once per dependency it has in
the queue. -/
theorem count_visits (deps : StepDependencies) (order : RangeOrder deps) {queue : List String}
    (nodup : queue.Nodup) (step : String) :
    (queue.flatMap (buildEdges order.edges)).count step =
      (deps.getD step []).countP (· ∈ queue) := by
  rw [List.count_flatMap, ← sum_count_eq_countP queue _ nodup]
  congr 1
  apply List.map_congr_left
  intro dep _
  exact count_buildEdges deps order step dep

/-- What holds whenever the loop condition is tested, with the waves so far:
waves and queue are the first levels, and a degree counts the dependencies that
are not processed yet. -/
structure LoopInvariant (deps : StepDependencies) (inDegree : String → Int)
    (queue : List String) (waves : List (List String)) : Prop where
  waveNodup : ∀ wave ∈ waves, wave.Nodup
  waveLevel : ∀ level wave, waves[level]? = some wave →
    ∀ step, step ∈ wave ↔ step ∈ deps.keys ∧ AtLevel deps step level
  queueNodup : queue.Nodup
  queueLevel : ∀ step, step ∈ queue ↔ step ∈ deps.keys ∧ AtLevel deps step waves.length
  degree : ∀ step, inDegree step = (deps.getD step []).countP (· ∉ waves.flatten)

namespace LoopInvariant

variable {deps : StepDependencies} {inDegree : String → Int} {queue : List String}
  {waves : List (List String)}

/-- The processed steps are those of the levels below the current one. -/
theorem mem_processed (invariant : LoopInvariant deps inDegree queue waves) (step : String) :
    step ∈ waves.flatten ↔
      step ∈ deps.keys ∧ ∃ level, level < waves.length ∧ AtLevel deps step level := by
  rw [List.mem_flatten]
  constructor
  · rintro ⟨wave, listed, member⟩
    obtain ⟨level, found⟩ := List.mem_iff_getElem?.mp listed
    obtain ⟨key, at_⟩ := (invariant.waveLevel level wave found step).mp member
    exact ⟨key, level, (List.getElem?_eq_some_iff.mp found).1, at_⟩
  · rintro ⟨key, level, small, at_⟩
    have found : waves[level]? = some waves[level] := List.getElem?_eq_getElem small
    exact ⟨_, List.getElem_mem small, (invariant.waveLevel level _ found step).mpr ⟨key, at_⟩⟩

/-- No step is processed twice. -/
theorem processed_nodup (invariant : LoopInvariant deps inDegree queue waves) :
    waves.flatten.Nodup := by
  rw [List.nodup_flatten]
  refine ⟨invariant.waveNodup, ?_⟩
  rw [List.pairwise_iff_getElem]
  intro i j smallI smallJ before step inI inJ
  have atI := (invariant.waveLevel i _ (List.getElem?_eq_getElem smallI) step).mp inI
  have atJ := (invariant.waveLevel j _ (List.getElem?_eq_getElem smallJ) step).mp inJ
  have same := IsLongestChain.unique atI.2 atJ.2
  omega

/-- Only steps are processed. -/
theorem processed_subset (invariant : LoopInvariant deps inDegree queue waves) :
    waves.flatten ⊆ deps.keys :=
  fun step member => ((invariant.mem_processed step).mp member).1

/-- The steps of the queue are not processed yet. -/
theorem queue_unprocessed (invariant : LoopInvariant deps inDegree queue waves) :
    ∀ step ∈ queue, step ∉ waves.flatten := by
  intro step queued processed
  obtain ⟨_, level, small, at_⟩ := (invariant.mem_processed step).mp processed
  have same := IsLongestChain.unique at_ ((invariant.queueLevel step).mp queued).2
  omega

end LoopInvariant

/-- The first queue holds the steps without dependencies. -/
theorem loopInvariant_initial (deps : StepDependencies) (order : RangeOrder deps) :
    LoopInvariant deps (initialInDegree deps)
      (order.ready.filter fun step => decide (initialInDegree deps step = 0)) [] where
  waveNodup := by simp
  waveLevel := by simp
  queueNodup := (order.readyPerm.nodup_iff.mpr deps.keys_nodup).filter _
  queueLevel := by
    intro step
    rw [List.mem_filter, order.readyPerm.mem_iff, AtLevel, List.length_nil,
      isLongestChain_zero_iff]
    refine and_congr_right fun _ => ?_
    rw [decide_eq_true_eq, initialInDegree, Int.natCast_eq_zero, List.length_eq_zero_iff,
      List.eq_nil_iff_forall_not_mem]
    rfl
  degree := by
    intro step
    simp [initialInDegree]

/-- One round moves the queue to the waves and queues the next level. -/
theorem LoopInvariant.round {deps : StepDependencies} {order : RangeOrder deps}
    {inDegree : String → Int} {queue : List String} {waves : List (List String)}
    (exist : DependenciesExist deps)
    (invariant : LoopInvariant deps inDegree queue waves) :
    LoopInvariant deps (nextQueue (buildEdges order.edges) inDegree queue).1
      (nextQueue (buildEdges order.edges) inDegree queue).2 (waves ++ [queue]) := by
  rw [nextQueue_eq_run]
  have visits := count_visits deps order invariant.queueNodup
  have splits : ∀ step, inDegree step = (deps.getD step []).countP (· ∈ queue) +
      (deps.getD step []).countP (· ∉ waves.flatten ++ queue) := by
    intro step
    rw [invariant.degree step, countP_not_mem_split _ invariant.queue_unprocessed]
    push_cast
    rfl
  have start : ∀ step, ((inDegree, []) : Countdown.State String).1 step = inDegree step :=
    fun _ => rfl
  obtain ⟨released, ends, once, member⟩ := Countdown.run_released (inDegree, [])
    (queue.flatMap (buildEdges order.edges)) (by
      intro step
      rw [visits step, start, splits step]
      omega)
  rw [List.nil_append] at ends
  rw [ends]
  refine ⟨?_, ?_, once, ?_, ?_⟩
  · intro wave listed
    rcases List.mem_append.mp listed with earlier | last
    · exact invariant.waveNodup wave earlier
    · rw [List.mem_singleton.mp last]
      exact invariant.queueNodup
  · intro level wave found
    rcases Nat.lt_or_ge level waves.length with small | large
    · rw [List.getElem?_append_left small] at found
      exact invariant.waveLevel level wave found
    · rw [List.getElem?_append_right large] at found
      obtain ⟨zero, rfl⟩ : level - waves.length = 0 ∧ queue = wave := by
        cases shift : level - waves.length with
        | zero => simpa [shift] using found
        | succ shift' => simp [shift] at found
      obtain rfl : level = waves.length := by omega
      exact invariant.queueLevel
  · intro step
    rw [member step, ← List.count_pos_iff, visits step, start, splits step, List.countP_pos_iff,
      List.length_append, List.length_singleton, AtLevel, isLongestChain_succ_iff]
    have exhausted : (((deps.getD step []).countP (· ∈ queue) : Int) +
        (deps.getD step []).countP (· ∉ waves.flatten ++ queue) =
          (deps.getD step []).countP (· ∈ queue)) ↔
        ∀ dep, DependsOn deps step dep → ∃ level, level ≤ waves.length ∧
          IsLongestChain (DependsOn deps) dep level := by
      rw [add_eq_left, Int.natCast_eq_zero, List.countP_eq_zero]
      refine forall_congr' fun dep => imp_congr_right fun depends => ?_
      have key := exist step dep depends
      simp only [decide_eq_true_eq, not_not, List.mem_append]
      rw [invariant.mem_processed dep, invariant.queueLevel dep]
      constructor
      · rintro (⟨_, level, small, at_⟩ | ⟨_, at_⟩)
        · exact ⟨level, by omega, at_⟩
        · exact ⟨waves.length, Nat.le_refl _, at_⟩
      · rintro ⟨level, small, at_⟩
        rcases Nat.lt_or_eq_of_le small with below | rfl
        · exact .inl ⟨key, level, below, at_⟩
        · exact .inr ⟨key, at_⟩
    rw [exhausted]
    constructor
    · rintro ⟨⟨dep, depends, queued⟩, below⟩
      have queued' := (invariant.queueLevel dep).mp (by simpa using queued)
      exact ⟨DependsOn.mem_keys depends, below, dep, depends, queued'.2⟩
    · rintro ⟨_, below, dep, depends, at_⟩
      refine ⟨⟨dep, depends, ?_⟩, below⟩
      simpa using (invariant.queueLevel dep).mpr ⟨exist step dep depends, at_⟩
  · intro step
    rw [Countdown.run_counter, visits step, start, splits step, List.flatten_append,
      List.flatten_singleton]
    omega

/-- The loop ends with the fuel it is given, in a state where the invariant
holds and nothing is queued. -/
theorem waveLoop_ends {deps : StepDependencies} (order : RangeOrder deps)
    (exist : DependenciesExist deps) {fuel : Nat} {inDegree : String → Int}
    {queue : List String} {waves : List (List String)}
    (invariant : LoopInvariant deps inDegree queue waves)
    (enough : deps.keys.length ≤ fuel + waves.flatten.length) :
    ∃ inDegree' waves', waveLoop (buildEdges order.edges) fuel inDegree queue waves =
      some (inDegree', waves') ∧ LoopInvariant deps inDegree' [] waves' := by
  induction fuel generalizing inDegree queue waves with
  | zero =>
      cases queue with
      | nil => exact ⟨inDegree, waves, rfl, invariant⟩
      | cons step rest =>
          -- All steps are processed already, so nothing can be queued.
          have full := (List.subperm_of_subset invariant.processed_nodup
            invariant.processed_subset).perm_of_length_le (by omega)
          have key := ((invariant.queueLevel step).mp List.mem_cons_self).1
          exact absurd (full.mem_iff.mpr key)
            (invariant.queue_unprocessed step List.mem_cons_self)
  | succ fuel ih =>
      cases queue with
      | nil => exact ⟨inDegree, waves, rfl, invariant⟩
      | cons step rest =>
          refine ih (invariant.round exist) ?_
          rw [List.flatten_append, List.length_append]
          simp only [List.flatten_singleton, List.length_cons]
          omega

end Restitch.Composition
