import Restitch.Composition.StepErrors
import Restitch.Composition.Template

/-!
# The request of a step (`internal/composition/env.go`, `step.go`)

`buildRequestEnv` makes the environment of one request from the results so far,
and `buildStepRequest` evaluates the templates of a step in it.
-/

namespace Restitch.Composition

open Restitch.Expr Restitch.Http Restitch.Std

variable {Value Error Scope : Type}

/-- `RequestData`, with the claims that the context of the request carries. -/
structure RequestData (Value : Type) where
  method : String
  path : String
  params : GoMap String String
  query : GoMap String (List String)
  headers : Header
  body : Value
  claims : Option (GoMap String Value)

section Environment

variable (values : Values Value)

/-- A map of the given entries. -/
def record (entries : List (String × Value)) : Value :=
  values.object fun key => entries.lookup key

/-- A map with the first value of each entry that has one. -/
def firstValues (fields : GoMap String (List String)) : Value :=
  values.object fun key => ((fields.lookup key).bind List.head?).map values.text

/-- `reqData`. -/
def reqData (data : RequestData Value) : Value :=
  record values [
    ("method", values.text data.method),
    ("path", values.text data.path),
    ("params", values.object fun key => (data.params.lookup key).map values.text),
    ("query", firstValues values data.query),
    ("query_all", values.object fun key =>
      (data.query.lookup key).map fun all => values.list (all.map values.text)),
    ("headers", firstValues values data.headers),
    ("body", data.body),
    ("auth", match data.claims with
      | some claims => values.object fun key => claims.lookup key
      | none => values.nil)]

/-- The entry of one step under `steps`. -/
def stepValue : Option (StepResult Value) → Value
  | none => values.nil
  | some result => record values [
      ("status", values.number result.status),
      ("headers", firstValues values result.headers),
      ("body", result.body)]

/-- The value of `steps`. -/
def stepsValue (results : GoMap String (Option (StepResult Value))) : Value :=
  values.object fun step => (results.lookup step).map (stepValue values)

/-- `buildRequestEnv`. There is no `steps` before the first result. -/
def buildRequestEnv (data : RequestData Value)
    (results : GoMap String (Option (StepResult Value))) : Env Value := fun name =>
  if name = "req" ∨ name = "request" then some (reqData values data)
  else if name = "steps" ∧ results.entries ≠ [] then some (stepsValue values results)
  else none

end Environment

/-- What `buildStepRequest` reads of a `CompiledStep`. -/
structure StepTemplates where
  method : String
  pathPart : Template
  queryPart : Option Template
  bodyTmpl : Option Template
  headers : GoMap String Template

/-- What surrounds one call: the texts of evaluation errors, the error of
`http.NewRequestWithContext`, the id of `uuid.New`, what the tracer injects, and
the iteration order of the step's headers. -/
structure BuildContext (Error : Type) where
  errorText : EvalError Error → String
  newRequest : String → String → Option String
  requestID : String
  inject : Header → Header
  order : (headers : GoMap String Template) → { order // headers.RangesIn order }

/-- The outgoing request. -/
structure StepRequest where
  method : String
  url : String
  header : Header
  body : Option String

/-- `strings.TrimRight(base, "/") + "/" + strings.TrimLeft(path, "/")`. -/
def fullURL (base path : String) : String :=
  .ofList (base.toList.rdropWhile (· = '/') ++ '/' :: path.toList.dropWhile (· = '/'))

/-- `containsControl`. -/
def containsControl (text : String) : Bool :=
  text.toList.any fun c => c.toNat < 0x20 || c.toNat = 0x7f

/-- The header that `propagateHeaders` copies under a name: an exact match first,
then one that differs in case. Header names are ASCII. -/
def incomingHeader (headers : Header) (name : String) : String :=
  let exactly := ((headers.lookup name).bind List.head?).getD ""
  if exactly ≠ "" then exactly
  else
    ((headers.entries.find? fun entry =>
        GoStrings.toLower entry.1.toList = GoStrings.toLower name.toList ∧ entry.2 ≠ []).bind
      fun entry => entry.2.head?).getD ""

/-- `propagateHeaders`. -/
def propagateHeaders (requestID : String) (incoming header : Header) : Header :=
  let copied := ["X-Request-ID", "X-Correlation-ID", "traceparent", "Accept",
      "Accept-Language"].foldl (fun header name =>
    let value := incomingHeader incoming name
    if value ≠ "" then header.set name value else header) header
  if copied.get "X-Request-ID" = "" then copied.set "X-Request-ID" requestID else copied

section Build

variable (operators : Operators Value Error Scope) (printer : Printer Value)
  (context : BuildContext Error) (env : Env Value)

/-- Wrap the error of an evaluation. -/
def wrapEval {α : Type} (error : BuildError) :
    Except (EvalError Error) α → Except StepFailure α
  | .ok value => .ok value
  | .error cause => .error (.build error (context.errorText cause))

/-- The path with its query. -/
def evalPath (step : StepTemplates) : Except StepFailure String := do
  let path ← wrapEval context .path (step.pathPart.evalString operators printer env .path)
  match step.queryPart with
  | none => return path
  | some query =>
      let text ← wrapEval context .query (query.evalString operators printer env .query)
      return path ++ "?" ++ text

/-- The body. -/
def evalBody (step : StepTemplates) : Except StepFailure (Option String) :=
  match step.bodyTmpl with
  | none => return none
  | some template =>
      if template.isSingle then do
        let value ← wrapEval context .body (template.evalValue operators printer env)
        match printer.marshal value with
        | .ok text => return some text
        | .error detail => .error (.build .marshal detail)
      else do
        let text ← wrapEval context .body (template.evalString operators printer env .json)
        return some text

/-- Set one header of the step. -/
def setHeader (header : Header) (entry : GoEntry String Template) : Except StepFailure Header := do
  let value ← wrapEval context (.header entry.1)
    (entry.2.evalString operators printer env .none)
  if containsControl value then .error (.build (.controlCharacters entry.1) "")
  else return header.set entry.1 value

/-- `buildStepRequest`. -/
def buildStepRequest (baseURL : String) (data : RequestData Value) (step : StepTemplates) :
    Except StepFailure StepRequest := do
  let path ← evalPath operators printer context env step
  let url := fullURL baseURL path
  let body ← evalBody operators printer context env step
  match context.newRequest step.method url with
  | some detail => .error (.build .request detail)
  | none =>
      let header : Header :=
        if body.isSome then Header.set ∅ "Content-Type" "application/json" else ∅
      let header ← (context.order step.headers).val.foldlM
        (setHeader operators printer context env)
        (context.inject (propagateHeaders context.requestID data.headers header))
      return ⟨step.method, url, header, body⟩

end Build

end Restitch.Composition
