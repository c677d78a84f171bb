import Restitch.Composition.Compile

/-!
# The step graph (`internal/composition/stepdeps.go`, `studio/src/lib/dag.ts`)

Studio draws the steps of a composition wave by wave. The server compiles the
steps and reports which steps the templates of each one reference; the frontend
adds these to `depends_on` and computes the waves itself.
-/

namespace Restitch.Studio

open Restitch.Composition Restitch.Std

/-! ### The report of the server -/

/-- `StepDeps`. -/
structure StepDeps where
  explicit : List String
  inferred : List String

/-- The names once each, without those in `skip`, in the order of their first
occurrence. -/
def uniqueNames (names skip : List String) : List String :=
  names.foldl (fun out name => if name ∉ skip ∧ name ∉ out then out ++ [name] else out) []

/-- `uniqueSorted`. -/
def uniqueSorted (names skip : List String) : List String :=
  (uniqueNames names skip).insertionSort (· ≤ ·)

/-- Why the gateway would refuse the steps. -/
inductive StepDepsError where
  /-- `step %s: %w` -/
  | compile (error : CompileError)
  /-- The error of `BuildDAG`, as it is. -/
  | plan (error : PlanError)

/-- The variables of the loop of `StepDependencies`. -/
structure StepDepsState where
  out : GoMap String StepDeps := ∅
  compiled : GoMap String CompiledStep := ∅
  firstErr : Option CompileError := none

/-- What is reported of a compiled step. -/
def reportedDeps (dependsOn : List String) (templates : StepTemplates) : StepDeps :=
  let explicit := uniqueSorted dependsOn []
  ⟨explicit, uniqueSorted (templateDeps templates) explicit⟩

section

variable (compiler : ExprCompiler)

/-- One round of the loop of `StepDependencies`. -/
def addStepDeps (stepNames : List String) (state : StepDepsState) (step : Step) : StepDepsState :=
  match compileStep compiler stepNames step with
  | .error error =>
      { state with
        out := state.out.insert step.name ⟨uniqueSorted step.dependsOn [], []⟩
        firstErr := state.firstErr <|> some error }
  | .ok compiled =>
      { state with
        out := state.out.insert step.name (reportedDeps step.dependsOn compiled.templates)
        compiled := state.compiled.insert step.name compiled }

/-- `StepDependencies`, with `none` for a planner that has not ended. -/
def stepDependencies (steps : List Step) (order : (deps : StepDependencies) → RangeOrder deps) :
    Option (GoMap String StepDeps × Option StepDepsError) :=
  let state := steps.foldl (addStepDeps compiler (steps.map Step.name)) {}
  match state.firstErr with
  | some error => some (state.out, some (.compile error))
  | none =>
      (buildDAG (Composition.stepDependencies state.compiled) (order _)).map fun planned =>
        match planned with
        | .error error => (state.out, some (.plan error))
        | .ok _ => (state.out, none)

end

/-! ### The waves of the frontend -/

/-- `DagStep`, and `Named`. -/
structure DagStep where
  name : String
  dependsOn : List String

/-- `inferredFor`. -/
def inferredFor (step : DagStep) (inferred : GoMap String (List String)) (names : List String) :
    List String :=
  (inferred.getD step.name []).filter fun dep =>
    dep ≠ step.name ∧ dep ∈ names ∧ dep ∉ step.dependsOn

/-- `runtime`: what each step waits for, template references included. -/
def runtimeSteps (list : List DagStep) (inferred : GoMap String (List String)) : List DagStep :=
  list.map fun step =>
    ⟨step.name, step.dependsOn ++ inferredFor step inferred (list.map DagStep.name)⟩

/-- `dependsOnMap`. -/
def dependsOnMap (steps : List DagStep) : GoMap String (List String) :=
  steps.foldl (fun deps step => deps.insert step.name
    (step.dependsOn.filter fun dep => dep ∈ steps.map DagStep.name)) ∅

/-- `new Set(names)`, in the order of insertion. -/
def setOf (names : List String) : List String := uniqueNames names []

/-- The steps of the next wave. Steps caught in a cycle go together. -/
def nextWave (deps : GoMap String (List String)) (remaining : List String) : List String :=
  let wave := remaining.filter fun name => (deps.getD name []).all (· ∉ remaining)
  if wave = [] then remaining else wave

/-- The loop `while (remaining.size > 0)`, with the waves so far. It stops
without a result only when `fuel` runs out before the steps do. -/
def graphLoop (deps : GoMap String (List String)) :
    Nat → List String → List (List String) → Option (List (List String))
  | _, [], waves => some waves
  | 0, _ :: _, _ => none
  | fuel + 1, step :: rest, waves =>
      let next := nextWave deps (step :: rest)
      graphLoop deps fuel ((step :: rest).filter (· ∉ next)) (waves ++ [next])

/-- `computeWaves`. -/
def computeWaves (steps : List DagStep) : Option (List (List String)) :=
  graphLoop (dependsOnMap steps) steps.length (setOf (steps.map DagStep.name)) []

end Restitch.Studio
