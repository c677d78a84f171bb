import Restitch.Composition.RouteParams

/-!
# Importing an OpenAPI document (`cmd/restitch/importcmd.go`)

The artifact that `restitch import openapi` prints for a document, as the gateway decodes it
once the variable of the API key is expanded. The document is what `openapi3` loads, and both
of its maps are visited in any order. The gateway would read a `$` in any other text as the start
of a variable, too: the artifact is as it is here for a document without one.
-/

namespace Restitch.Import

open Restitch.Composition Restitch.Std

/-- The value of a parameter. -/
structure Parameter where
  name : String
  /-- `In` -/
  location : String
  required : Bool

/-- `openapi3.Operation`. A reference that is not resolved has no value. -/
structure Operation where
  operationID : String
  parameters : List (Option Parameter)

/-- The servers of an `openapi3.T`, and its operations by path and method. -/
structure Document where
  servers : List String
  paths : GoMap String (GoMap String Operation)

/-- The flags of the command. -/
structure ImportFlags where
  upstream : String
  baseURL : String
  ops : String

/-- The URL of the upstream. -/
def base (flags : ImportFlags) (doc : Document) : String :=
  let base := if flags.baseURL = "" then doc.servers.headD "" else flags.baseURL
  if base = "" then "http://localhost:8080" else base

/-- The operations that are named; none for all. -/
def opsFilter (ops : String) : List String :=
  if ops = "" then []
  else (ops.toList.splitOn ',').map fun op => .ofList (GoStrings.trimSpace op)

/-- An operation with its place in the document. -/
structure PlacedOperation where
  path : String
  method : String
  operation : Operation

/-- The operations of a document. -/
def Document.operations (doc : Document) : List PlacedOperation :=
  doc.paths.entries.flatMap fun path =>
    path.2.entries.map fun entry => ⟨path.1, entry.1, entry.2⟩

/-- An operation that is imported. -/
def PlacedOperation.selected (flags : ImportFlags) (placed : PlacedOperation) : Bool :=
  placed.operation.operationID ≠ "" &&
    ((opsFilter flags.ops).isEmpty || placed.operation.operationID ∈ opsFilter flags.ops)

/-- `toKebab`. -/
def toKebab (id : String) : String :=
  let lowered (c : Char) (before : List Char) : List Char :=
    if 'A' ≤ c ∧ c ≤ 'Z' then before ++ [Char.ofNat (c.toNat + 32)] else [c]
  match id.toList with
  | [] => ""
  | first :: rest => .ofList (lowered first [] ++ rest.flatMap (lowered · ['-']))

/-- The name of the composition of an operation. -/
def PlacedOperation.name (placed : PlacedOperation) : String := toKebab placed.operation.operationID

/-- `\{\{ req.params.name \}\}`, or of the query. -/
def reference (field name : List Char) : List Char :=
  ['{', '{', ' ', 'r', 'e', 'q', '.'] ++ field ++ '.' :: name ++ [' ', '}', '}']

/-- The path of the step, without a query. -/
def pathTemplate (path : String) : List Char :=
  paramPattern.replaceAll (fun captures => reference "params".toList (groupOf captures)) path.toList

/-- The query parameters that a request must have. -/
def Operation.requiredQuery (operation : Operation) : List String :=
  operation.parameters.filterMap fun parameter =>
    parameter.bind fun value =>
      if value.location = "query" ∧ value.required then some value.name else none

/-- `queryParts`. -/
def Operation.queryParts (operation : Operation) : List (List Char) :=
  operation.requiredQuery.map fun name =>
    name.toList ++ '=' :: reference "query".toList name.toList

/-- `stepPath`. -/
def PlacedOperation.stepPath (placed : PlacedOperation) : String :=
  let path := pathTemplate placed.path
  if placed.operation.queryParts = [] then .ofList path
  else .ofList (path ++ '?' :: ['&'].intercalate placed.operation.queryParts)

/-- The step of a composition. Methods are ASCII. -/
def PlacedOperation.step (upstream : String) (placed : PlacedOperation) : Step where
  name := "main"
  upstream := upstream
  path := placed.stepPath
  method := placed.method.toUpper
  headers := ∅
  body := ""
  dependsOn := []
  optional := false
  errorRules := []
  cache := none
  coalesce := false

/-- `compDef`. -/
def PlacedOperation.composition (upstream : String) (placed : PlacedOperation) :
    CompositionConfig where
  path := placed.path
  method := placed.method.toUpper
  isPublic := false
  steps := [placed.step upstream]
  response :=
    { status := .int 200
      contentType := ""
      body := .map [("result", .string "\x7b\x7b steps.main.body \x7d\x7d")] }
  maxRequestBytes := 0
  requestSchema := none
  rateLimit := none

/-- One turn of the loop over the operations. -/
def addOperation (flags : ImportFlags) (compositions : GoMap String CompositionConfig)
    (placed : PlacedOperation) : GoMap String CompositionConfig :=
  if placed.selected flags then compositions.insert placed.name (placed.composition flags.upstream)
  else compositions

/-- The compositions, when the operations are visited in this order. -/
def importCompositions (flags : ImportFlags) (order : List PlacedOperation) :
    GoMap String CompositionConfig :=
  order.foldl (addOperation flags) ∅

/-- The artifact. `apiKey` is what the value of `GATEWAY_API_KEY` is decoded to. -/
def importConfig (flags : ImportFlags) (doc : Document) (order : List PlacedOperation)
    (apiKey : String) : Config where
  auth := some ⟨[apiKey], none⟩
  rateLimit := none
  blockPrivateUpstreams := false
  upstreams := (∅ : GoMap String Upstream).insert flags.upstream ⟨base flags doc, 0⟩
  compositions := importCompositions flags order

end Restitch.Import
