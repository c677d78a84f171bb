import Restitch.Composition.Compile
import Restitch.Std.ObjectHeap

/-!
# The response of a composition (`internal/composition/response.go`, `env.go`)

`BuildResponse` over a store of JSON objects: the body template may evaluate to a
new object or to one that exists already, and `_errors` is written into whichever
it is. The array that request `rid` writes is the mark `rid`.
-/

namespace Restitch.Composition

open Restitch.Expr Restitch.Http Restitch.Std Restitch.Std.ObjectHeap

/-- Identifies one request to the gateway. -/
abbrev RequestId := Nat

/-- Values without a reference to a `map[string]any` or `[]any`. -/
inductive Leaf where
  | null
  | bool (value : Bool)
  | int (value : Int)
  | float (text : String)
  | text (value : String)
  /-- A `map[string]string` or `map[string][]string`. -/
  | texts (fields : List (String × List String))
  /-- A value of any other type. -/
  | other (description : String)
deriving DecidableEq

/-- A value of an expression. -/
abbrev Val := Datum Leaf RequestId

abbrev Store := ObjectHeap Leaf RequestId

/-- The evaluator of the expression language on a store: `run` returns the value of
a program and the cells it builds. It writes no existing cell, and what it returns
is reached from the environment or new. -/
structure ExprRuntime (Error : Type) where
  run : Node → List (String × Val) → Store → Except Error (Val × Store)
  /-- `fmt.Sprintf("%v", ...)` -/
  sprint : Store → Val → String
  /-- `int(v)` of a `float64` -/
  truncate : String → Int
  confined : ∀ node env store value built, run node env store = .ok (value, built) →
    ∀ v ∈ value :: built.flatMap Cell.data,
      (∃ root ∈ env, Reach store root.2 v) ∨ (∃ leaf, v = .scalar leaf) ∨ Fresh store built v

/-- What `buildRequestEnv` reads of a request: method, path, params, query, headers
as they are, its body and the claims of its caller. -/
structure InboundRequest where
  leaves : List (String × Leaf)
  body : Val
  auth : Val

/-- The results of the steps, in the iteration order of the map. -/
abbrev StepResults := List (String × Option (StepResult Val))

/-- The entry of a step that has a result. -/
def stepCell (result : StepResult Val) : Cell Leaf RequestId :=
  .object [("status", .scalar (.int result.status)),
    ("headers", .scalar (.texts (result.headers.entries.map fun entry => (entry.1, entry.2)))),
    ("body", result.body)]

/-- The entries of `steps`. -/
def allocSteps : StepResults → Store → List (String × Val) × Store
  | [], store => ([], store)
  | (name, none) :: rest, store =>
      let (fields, grown) := allocSteps rest store
      ((name, .scalar .null) :: fields, grown)
  | (name, some result) :: rest, store =>
      let (fields, grown) := allocSteps rest (store ++ [stepCell result])
      ((name, .ref store.length) :: fields, grown)

/-- `reqData`. -/
def reqCell (request : InboundRequest) : Cell Leaf RequestId :=
  .object (request.leaves.map (fun leaf => (leaf.1, .scalar leaf.2)) ++
    [("body", request.body), ("auth", request.auth)])

/-- `buildRequestEnv`. -/
def allocRequestEnv (request : InboundRequest) (results : StepResults) (store : Store) :
    List (String × Val) × Store :=
  let (fields, grown) := allocSteps results (store ++ [reqCell request])
  let req := [("req", .ref store.length), ("request", .ref store.length)]
  if results = [] then (req, grown)
  else (req ++ [("steps", .ref grown.length)], grown ++ [.object fields])

inductive ResponseError (Error : Type) where
  /-- `failed to evaluate status expression: %w` -/
  | status (error : EvalError Error)
  /-- `status expression returned non-numeric value: %T` -/
  | statusType
  /-- `failed to evaluate response body: ...`, with the fields and indices on the way. -/
  | body (at_ : List String) (error : EvalError Error)

section Evaluate

variable {Error : Type} (runtime : ExprRuntime Error) (env : List (String × Val))

/-- `expr.Run`. -/
def runOn (expr : String) (node : Node) (store : Store) :
    Except (EvalError Error) (Val × Store) :=
  match runtime.run node env store with
  | .ok (value, built) => .ok (value, store ++ built)
  | .error error => .error (.run expr error)

/-- `EvalString` without escaping. -/
def evalTextOn : List Segment → Store → Except (EvalError Error) (String × Store)
  | [], store => .ok ("", store)
  | .literal text :: rest, store =>
      (evalTextOn rest store).map fun later => (text ++ later.1, later.2)
  | .program expr node :: rest, store =>
      match runOn runtime env expr node store with
      | .error error => .error error
      | .ok (value, grown) =>
          (evalTextOn rest grown).map fun later => (runtime.sprint grown value ++ later.1, later.2)

/-- `EvalValue`. -/
def evalValueOn (template : Template) (store : Store) : Except (EvalError Error) (Val × Store) :=
  match (if template.isSingle then template.program? else none) with
  | some (expr, node) => runOn runtime env expr node store
  | none => (evalTextOn runtime env template.segments store).map fun result =>
      (.scalar (.text result.1), result.2)

/-- A literal of the body. -/
def literalLeaf : Yaml → Leaf
  | .null => .null
  | .bool value => .bool value
  | .int value => .int value
  | .float text => .float text
  | .string text => .text text
  | .list _ | .map _ | .anyMap _ => .other "literal"

variable (failedSteps : List String)

/-- `hasFailedDep`. -/
def hasFailedDep (deps : List String) : Bool :=
  deps.any (· ∈ failedSteps)

mutual

/-- `evaluateBodyNode`. -/
def evaluateBodyNode (at_ : List String) :
    BodyNode → Store → Except (ResponseError Error) (Val × Store)
  | .tmpl template, store =>
      match evalValueOn runtime env template store with
      | .ok result => .ok result
      | .error error =>
          if hasFailedDep failedSteps template.deps then
            .ok (.scalar (if template.isSingle then .null else .text ""), store)
          else .error (.body at_ error)
  | .map fields, store =>
      match evaluateFields at_ fields store with
      | .ok (values, grown) => .ok (.ref grown.length, grown ++ [.object values])
      | .error error => .error error
  | .list items, store =>
      match evaluateItems at_ 0 items store with
      | .ok (values, grown) => .ok (.ref grown.length, grown ++ [.array values])
      | .error error => .error error
  | .literal value, store => .ok (.scalar (literalLeaf value), store)

def evaluateFields (at_ : List String) : List (String × BodyNode) → Store →
    Except (ResponseError Error) (List (String × Val) × Store)
  | [], store => .ok ([], store)
  | (key, node) :: rest, store =>
      match evaluateBodyNode (at_ ++ [key]) node store with
      | .error error => .error error
      | .ok (value, grown) =>
          match evaluateFields at_ rest grown with
          | .error error => .error error
          | .ok (values, grown) => .ok ((key, value) :: values, grown)

def evaluateItems (at_ : List String) (index : Nat) : List BodyNode → Store →
    Except (ResponseError Error) (List Val × Store)
  | [], store => .ok ([], store)
  | node :: rest, store =>
      match evaluateBodyNode (at_ ++ [toString index]) node store with
      | .error error => .error error
      | .ok (value, grown) =>
          match evaluateItems at_ (index + 1) rest grown with
          | .error error => .error error
          | .ok (values, grown) => .ok (value :: values, grown)

end

/-- The status of a response. -/
def evalStatus (source : StatusSource) (store : Store) :
    Except (ResponseError Error) (Int × Store) :=
  match source with
  | .unset => .ok (200, store)
  | .static status => .ok (status, store)
  | .tmpl template =>
      match evalValueOn runtime env template store with
      | .error error => .error (.status error)
      | .ok (.scalar (.int status), grown) => .ok (status, grown)
      | .ok (.scalar (.float text), grown) => .ok (runtime.truncate text, grown)
      | .ok _ => .error .statusType

end Evaluate

/-- `CompositionResponse`. -/
structure CompositionResponse where
  status : Int
  contentType : String
  body : Val

section Build

variable {Error : Type} (runtime : ExprRuntime Error) (template : CompiledResponse)
  (request : InboundRequest) (results : StepResults) (failedSteps : List String)

/-- `BuildResponse` up to the errors. -/
def evaluateResponse (store : Store) :
    Except (ResponseError Error) (CompositionResponse × Store) :=
  let (env, store) := allocRequestEnv request results store
  match evalStatus runtime env template.status store with
  | .error error => .error error
  | .ok (status, store) =>
      match evaluateBodyNode runtime env failedSteps [] template.body store with
      | .error error => .error error
      | .ok (body, store) => .ok (⟨status, template.contentType, body⟩, store)

/-- `bodyMap["_errors"] = stepErrors`, if there are errors and the body is a map. -/
def writeErrors (rid : RequestId) (stepErrors : List StepErrorDetail) (body : Val)
    (store : Store) : Store :=
  if stepErrors = [] then store
  else
    match body with
    | .ref address => writeMark store address "_errors" rid
    | _ => store

/-- `BuildResponse`. -/
def buildResponse (rid : RequestId) (stepErrors : List StepErrorDetail) (store : Store) :
    Except (ResponseError Error) (CompositionResponse × Store) :=
  (evaluateResponse runtime template request results failedSteps store).map
    fun (response, grown) => (response, writeErrors rid stepErrors response.body grown)

end Build

end Restitch.Composition
