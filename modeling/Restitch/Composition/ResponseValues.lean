import Restitch.Composition.Response

/-!
# The response template on values (`internal/composition/response.go`)

`BuildResponse` once more, without the store: a response body is a tree, and what the
templates evaluate to on the environment of the request is an input.
-/

namespace Restitch.Composition

/-- What an `any` of a response holds. `Double` is the type of a `float64`. -/
inductive GoValue (Double : Type) where
  | null
  | bool (value : Bool)
  | int (value : Int)
  | float (value : Double)
  | string (text : String)
  | list (items : List (GoValue Double))
  /-- A `map[string]any`. -/
  | map (fields : List (String × GoValue Double))
  /-- A map with other keys. -/
  | anyMap (fields : List (Yaml × GoValue Double))
  /-- The `[]StepErrorDetail` that `BuildResponse` writes. -/
  | stepErrors (details : List StepErrorDetail)
  /-- A value of any other type. -/
  | other (description : String)

variable {Double Error : Type}

/-- The evaluation of templates on one environment, `int(v)` of a `float64`, and the
`float64` that YAML reads from a text. -/
structure ResponseEvaluator (Double Error : Type) where
  evalValue : Template → Except (EvalError Error) (GoValue Double)
  truncate : Double → Int
  ofText : String → Double

section Literal

variable (ofText : String → Double)

mutual

/-- A decoded YAML value as it is. -/
def GoValue.ofYaml : Yaml → GoValue Double
  | .null => .null
  | .bool value => .bool value
  | .int value => .int value
  | .float text => .float (ofText text)
  | .string text => .string text
  | .list items => .list (ofYamlItems items)
  | .map fields => .map (ofYamlFields fields)
  | .anyMap fields => .anyMap (ofYamlEntries fields)

def GoValue.ofYamlItems : List Yaml → List (GoValue Double)
  | [] => []
  | item :: rest => ofYaml item :: ofYamlItems rest

def GoValue.ofYamlFields : List (String × Yaml) → List (String × GoValue Double)
  | [] => []
  | (key, value) :: rest => (key, ofYaml value) :: ofYamlFields rest

def GoValue.ofYamlEntries : List (Yaml × Yaml) → List (Yaml × GoValue Double)
  | [] => []
  | (key, value) :: rest => (key, ofYaml value) :: ofYamlEntries rest

end

end Literal

namespace Values

section Build

variable (evaluator : ResponseEvaluator Double Error) (failedSteps : List String)

/-- What stands for a template that fails because of a failed step. -/
def nilSafe (template : Template) : GoValue Double :=
  if template.isSingle then .null else .string ""

mutual

/-- `evaluateBodyNode`. -/
def evaluateBodyNode (at_ : List String) :
    BodyNode → Except (ResponseError Error) (GoValue Double)
  | .tmpl template =>
      match evaluator.evalValue template with
      | .ok value => .ok value
      | .error error =>
          if hasFailedDep failedSteps template.deps then .ok (nilSafe template)
          else .error (.body at_ error)
  | .map fields =>
      match evaluateFields at_ fields with
      | .ok values => .ok (.map values)
      | .error error => .error error
  | .list items =>
      match evaluateItems at_ 0 items with
      | .ok values => .ok (.list values)
      | .error error => .error error
  | .literal value => .ok (.ofYaml evaluator.ofText value)

def evaluateFields (at_ : List String) :
    List (String × BodyNode) → Except (ResponseError Error) (List (String × GoValue Double))
  | [] => .ok []
  | (key, node) :: rest =>
      match evaluateBodyNode (at_ ++ [key]) node with
      | .error error => .error error
      | .ok value =>
          match evaluateFields at_ rest with
          | .error error => .error error
          | .ok values => .ok ((key, value) :: values)

def evaluateItems (at_ : List String) (index : Nat) :
    List BodyNode → Except (ResponseError Error) (List (GoValue Double))
  | [] => .ok []
  | node :: rest =>
      match evaluateBodyNode (at_ ++ [toString index]) node with
      | .error error => .error error
      | .ok value =>
          match evaluateItems at_ (index + 1) rest with
          | .error error => .error error
          | .ok values => .ok (value :: values)

end

/-- The status of a response. -/
def evalStatus : StatusSource → Except (ResponseError Error) Int
  | .unset => .ok 200
  | .static status => .ok status
  | .tmpl template =>
      match evaluator.evalValue template with
      | .error error => .error (.status error)
      | .ok (.int status) => .ok status
      | .ok (.float status) => .ok (evaluator.truncate status)
      | .ok _ => .error .statusType

/-- An entry of a map is written. -/
def setField (fields : List (String × GoValue Double)) (key : String) (value : GoValue Double) :
    List (String × GoValue Double) :=
  match fields with
  | [] => [(key, value)]
  | (other, old) :: rest =>
      if other = key then (key, value) :: rest else (other, old) :: setField rest key value

/-- `bodyMap["_errors"] = stepErrors`, if there are errors and the body is a map. -/
def writeErrors (stepErrors : List StepErrorDetail) (body : GoValue Double) : GoValue Double :=
  if stepErrors = [] then body
  else
    match body with
    | .map fields => .map (setField fields "_errors" (.stepErrors stepErrors))
    | body => body

/-- `CompositionResponse`. -/
structure Response (Double : Type) where
  status : Int
  contentType : String
  body : GoValue Double

/-- `BuildResponse`. -/
def buildResponse (template : CompiledResponse) (stepErrors : List StepErrorDetail) :
    Except (ResponseError Error) (Response Double) :=
  match evalStatus evaluator template.status with
  | .error error => .error error
  | .ok status =>
      match evaluateBodyNode evaluator failedSteps [] template.body with
      | .error error => .error error
      | .ok body => .ok ⟨status, template.contentType, writeErrors stepErrors body⟩

end Build

end Values

end Restitch.Composition
