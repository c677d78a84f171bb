import Restitch.Composition.Config
import Restitch.Composition.Plan
import Restitch.Composition.StepRequest

/-!
# Compilation (`internal/composition/parser.go`)

`compileComposition` compiles the templates of a composition against the
environment of its steps and plans the steps. Warnings about unknown step names
only reach the log and are left out.
-/

namespace Restitch.Composition

open Restitch.Std

/-- Why a composition does not compile. -/
inductive CompileError where
  /-- `step %s: path: %w` -/
  | stepPath (step : String) (error : TemplateError)
  /-- `step %s: query: %w` -/
  | stepQuery (step : String) (error : TemplateError)
  /-- `step %s: body: %w` -/
  | stepBody (step : String) (error : TemplateError)
  /-- `step %s: header %s: %w` -/
  | stepHeader (step header : String) (error : TemplateError)
  /-- `response: status: %w` -/
  | statusTemplate (error : TemplateError)
  /-- `response: status: %q must be an integer or a template expression` -/
  | statusText (text : String)
  /-- `response: status: %d is outside the valid range 100-599` -/
  | statusRange (status : Int)
  /-- `response: status: unsupported type %T (want int or template)` -/
  | statusType
  /-- `response: body: ...` with the fields and indices on the way, outermost first. -/
  | body (at_ : List String) (error : TemplateError)
  /-- `request_schema: %w` -/
  | requestSchema (detail : String)
  /-- `invalid composition structure: %w` -/
  | structure_ (error : PlanError)

/-- `CompiledStep`. -/
structure CompiledStep where
  step : Step
  templates : StepTemplates
  deps : List String

/-- `CompiledBodyNode`. -/
inductive BodyNode where
  | tmpl (template : Template)
  | literal (value : Yaml)
  | map (fields : List (String × BodyNode))
  | list (items : List BodyNode)

/-- `StatusTmpl` and `StaticStatus`. -/
inductive StatusSource where
  /-- No status is configured. -/
  | unset
  | static (status : Nat)
  | tmpl (template : Template)

/-- `CompiledResponse`. -/
structure CompiledResponse where
  status : StatusSource
  body : BodyNode
  contentType : String

structure CompiledComposition where
  steps : GoMap String CompiledStep
  response : CompiledResponse
  plan : ExecutionPlan

section

variable (compiler : ExprCompiler) (stepNames : List String)

/-- Compile a template under the name of the place it stands in. -/
def compileAt (place : TemplateError → CompileError) (raw : String) :
    Except CompileError Template :=
  (compileTemplate compiler stepNames raw).mapError place

/-- A template that an empty text leaves out. -/
def compileOptional (place : TemplateError → CompileError) (raw : String) :
    Except CompileError (Option Template) :=
  if raw = "" then .ok none else (compileAt compiler stepNames place raw).map some

/-- `templateDeps`. -/
def templateDeps (templates : StepTemplates) : List String :=
  templates.pathPart.deps ++ (templates.queryPart.map Template.deps).getD [] ++
    (templates.bodyTmpl.map Template.deps).getD [] ++
    templates.headers.entries.flatMap fun entry => entry.2.deps

/-- `MergeDependencies`, in the order of the two lists. -/
def mergeDependencies (explicit inferred : List String) : List String :=
  (explicit ++ inferred).dedup

/-- The path template up to its first `?`, and the text behind it. -/
def splitQuery (path : String) : String × String :=
  (.ofList (path.toList.takeWhile (· ≠ '?')), .ofList (path.toList.dropWhile (· ≠ '?')).tail)

/-- `compileStep`. -/
def compileStep (step : Step) : Except CompileError CompiledStep := do
  let (pathRaw, queryRaw) := splitQuery step.path
  let pathPart ← compileAt compiler stepNames (.stepPath step.name) pathRaw
  let queryPart ← compileOptional compiler stepNames (.stepQuery step.name) queryRaw
  let bodyTmpl ← compileOptional compiler stepNames (.stepBody step.name) step.body
  let headers ← GoMap.traverse
    (fun key value => compileAt compiler stepNames (.stepHeader step.name key) value) step.headers
  let templates := ⟨step.method, pathPart, queryPart, bodyTmpl, headers⟩
  return ⟨step, templates, mergeDependencies step.dependsOn (templateDeps templates)⟩

/-- Compile the steps into the map of a composition. -/
def compileSteps (steps : List Step) : Except CompileError (GoMap String CompiledStep) :=
  steps.foldlM (fun compiled step => do
    let next ← compileStep compiler stepNames step
    return compiled.insert step.name next) ∅

/-- The status of a response. -/
def compileStatus : Yaml → Except CompileError StatusSource
  | .string text =>
      if isExpression text then
        (compileAt compiler stepNames .statusTemplate text).map .tmpl
      else .error (.statusText text)
  | .int status =>
      if status < 100 ∨ 599 < status then .error (.statusRange status)
      else .ok (.static status.toNat)
  | .null => .ok .unset
  | _ => .error .statusType

mutual

/-- `compileBodyNode`; `at_` is the way to the node. -/
def compileBodyNode (at_ : List String) : Yaml → Except CompileError BodyNode
  | .string text =>
      if isExpression text then (compileAt compiler stepNames (.body at_) text).map .tmpl
      else .ok (.literal (.string text))
  | .map fields => (compileFields at_ fields).map .map
  | .list items => (compileItems at_ 0 items).map .list
  | value => .ok (.literal value)

def compileFields (at_ : List String) :
    List (String × Yaml) → Except CompileError (List (String × BodyNode))
  | [] => .ok []
  | (key, value) :: rest => do
      let node ← compileBodyNode (at_ ++ [key]) value
      let later ← compileFields at_ rest
      return (key, node) :: later

def compileItems (at_ : List String) (index : Nat) :
    List Yaml → Except CompileError (List BodyNode)
  | [] => .ok []
  | value :: rest => do
      let node ← compileBodyNode (at_ ++ [toString index]) value
      let later ← compileItems at_ (index + 1) rest
      return node :: later

end

/-- `compileResponse`. -/
def compileResponse (response : ResponseTemplate) : Except CompileError CompiledResponse := do
  let status ← compileStatus compiler stepNames response.status
  let body ← compileBodyNode compiler stepNames [] response.body
  return ⟨status, body, response.contentType⟩

end

/-- The dependencies that `BuildDAG` reads. -/
def stepDependencies (steps : GoMap String CompiledStep) : StepDependencies :=
  steps.mapValues CompiledStep.deps

section

-- `checkSchema` compiles a request schema and returns its error.
variable (compiler : ExprCompiler) (checkSchema : Yaml → Option String) (comp : CompositionConfig)

/-- The part of `compileComposition` before the plan. -/
def compileParts : Except CompileError (GoMap String CompiledStep × CompiledResponse) := do
  let stepNames := comp.steps.map Step.name
  let steps ← compileSteps compiler stepNames comp.steps
  let response ← compileResponse compiler stepNames comp.response
  match comp.requestSchema.bind checkSchema with
  | some detail => .error (.requestSchema detail)
  | none => return (steps, response)

/-- `compileComposition`. `order` picks the iteration orders of the planner, and
`none` stands for a planner that has not ended. -/
def compileComposition (order : (deps : StepDependencies) → RangeOrder deps) :
    Option (Except CompileError CompiledComposition) :=
  match compileParts compiler checkSchema comp with
  | .error error => some (.error error)
  | .ok (steps, response) =>
      (buildDAG (stepDependencies steps) (order _)).map fun planned =>
        match planned with
        | .error error => .error (.structure_ error)
        | .ok plan => .ok ⟨steps, response, plan⟩

end

end Restitch.Composition
