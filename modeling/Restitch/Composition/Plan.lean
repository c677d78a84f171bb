import Mathlib.Data.List.Sort
import Mathlib.Data.String.Basic
import Restitch.Std.Chain
import Restitch.Std.Countdown
import Restitch.Std.GoMap

/-!
# Execution plans (`internal/composition/dag.go`)

`buildDAG` turns the resolved dependencies of the steps into waves: a wave holds
the steps whose dependencies all lie in earlier waves. The source ranges over
maps five times; `RangeOrder` picks the order of each of these loops, so a
theorem over all its values holds for every map iteration order.
-/

namespace Restitch.Composition

open Relation
open Restitch.Std

/-- The resolved dependencies of every step (`map[string][]string`). -/
abbrev StepDependencies := GoMap String (List String)

/-- The order in which steps should execute. -/
structure ExecutionPlan where
  waves : List (List String)
  deps : StepDependencies

/-- Why a composition has no plan. -/
inductive PlanError where
  /-- `step %s references non-existent step %q` -/
  | nonExistentStep (stepName dep : String)
  /-- `circular dependency detected involving steps: %v` -/
  | circular (cycleSteps : List String)
deriving DecidableEq

/-- One choice of the order of each `range` over a map in `BuildDAG`. -/
structure RangeOrder (deps : StepDependencies) where
  /-- `validateDependencies`: `range deps`. -/
  validate : List (GoEntry String (List String))
  /-- `buildExecutionPlan`: `range deps`, filling `edges`. -/
  edges : List (GoEntry String (List String))
  /-- `buildExecutionPlan`: `range inDegree`, filling the first queue. -/
  ready : List String
  /-- `buildExecutionPlan`: `range inDegree`, collecting `cycleSteps`. -/
  report : List String
  validatePerm : deps.RangesIn validate
  edgesPerm : deps.RangesIn edges
  readyPerm : ready.Perm deps.keys
  reportPerm : report.Perm deps.keys

/-- The order in which the entries are listed, taken for every loop. -/
def RangeOrder.listed (deps : StepDependencies) : RangeOrder deps where
  validate := deps.entries
  edges := deps.entries
  ready := deps.keys
  report := deps.keys
  validatePerm := .refl _
  edgesPerm := .refl _
  readyPerm := .refl _
  reportPerm := .refl _

/-- The first dependency, in the order of the loop, that names no step. -/
def validateDependencies (deps : StepDependencies) (order : RangeOrder deps) :
    Option PlanError :=
  order.validate.findSome? fun entry =>
    (entry.2.find? fun dep => decide (dep ∉ deps.keys)).map (.nonExistentStep entry.1)

/-- `edges[dep] = append(edges[dep], step)` for every dependency of one step. -/
def appendDependent (edges : String → List String) (entry : GoEntry String (List String)) :
    String → List String :=
  entry.2.foldl (fun edges dep => Function.update edges dep (edges dep ++ [entry.1])) edges

/-- The steps that wait for each step. -/
def buildEdges (order : List (GoEntry String (List String))) : String → List String :=
  order.foldl appendDependent fun _ => []

/-- `inDegree[step] = len(dependencies)`. -/
def initialInDegree (deps : StepDependencies) (step : String) : Int :=
  (deps.getD step []).length

/-- One pass over the queue: `inDegree[dependent]--` for every dependent of a
queued step, which joins the next queue when its degree reaches zero. -/
def nextQueue (edges : String → List String) (inDegree : String → Int)
    (queue : List String) : Countdown.State String :=
  queue.foldl (fun state step => Countdown.run state (edges step)) (inDegree, [])

/-- The loop `for len(queue) > 0`, with the waves so far. It stops without a
result only when `fuel` runs out before the queue does. -/
def waveLoop (edges : String → List String) :
    Nat → (String → Int) → List String → List (List String) →
      Option ((String → Int) × List (List String))
  | _, inDegree, [], waves => some (inDegree, waves)
  | 0, _, _ :: _, _ => none
  | fuel + 1, inDegree, step :: rest, waves =>
      let next := nextQueue edges inDegree (step :: rest)
      waveLoop edges fuel next.1 next.2 (waves ++ [step :: rest])

/-- `none` stands for a loop that has not ended. -/
def buildExecutionPlan (deps : StepDependencies) (order : RangeOrder deps) :
    Option (Except PlanError ExecutionPlan) :=
  let queue := order.ready.filter fun step => decide (initialInDegree deps step = 0)
  (waveLoop (buildEdges order.edges) deps.keys.length (initialInDegree deps) queue []).map
    fun (inDegree, waves) =>
      if waves.flatten.length ≠ deps.keys.length then
        let cycleSteps := order.report.filter fun step => decide (0 < inDegree step)
        .error (.circular (cycleSteps.insertionSort (· ≤ ·)))
      else
        .ok ⟨waves, deps⟩

/-- Analyze the dependencies of a composition and produce an execution plan. -/
def buildDAG (deps : StepDependencies) (order : RangeOrder deps) :
    Option (Except PlanError ExecutionPlan) :=
  match validateDependencies deps order with
  | some error => some (.error error)
  | none => buildExecutionPlan deps order

end Restitch.Composition
