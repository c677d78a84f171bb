import Restitch.Composition.Routes
import Restitch.Composition.StepRequest

/-!
# Routes and their middleware (`handler.go`, `run.go`, `observability/requestid.go`)

What a request passes on its way to `serveComposition`: the request id, the limit of the
gateway, the multiplexer, the limit of the composition and its authentication. The logging
and recovery middleware pass a request on as it is.
-/

namespace Restitch.Composition

open Restitch.Expr Restitch.Http Restitch.Inbound Restitch.Ratelimit Restitch.Std

variable {Value : Type}

/-- One call of `serveComposition`. -/
structure CompositionCall (Value : Type) where
  composition : String
  params : GoMap String String
  request : HttpRequest
  context : Context Value

/-- What is decided outside the gateway's code for one request: the time, the id that
`NewRequestID` makes, the tokens left in the buckets of the limiters, the composition whose
route the multiplexer picks (none for a probe or no route), and the wildcards of the route. -/
structure Arrival where
  now : Nat
  newRequestID : String
  /-- Of the limiter of a composition, or of the gateway. -/
  allow : Option String → String → Bool
  route : HttpRequest → Option String
  pathValue : HttpRequest → String → String

/-- What the innermost handler does. -/
inductive Served (Value : Type) where
  | composition (call : CompositionCall Value)
  /-- A probe, or a reply of the multiplexer. -/
  | other

/-- The name of a parameter, if a text starts with it and a closing brace. -/
def paramAt (text : List Char) : Option String :=
  let name := text.takeWhile fun c => c.isAlphanum || c = '_'
  match name, text.dropWhile (fun c => c.isAlphanum || c = '_') with
  | first :: _, '}' :: _ => if first.isDigit then none else some (.ofList name)
  | _, _ => none

/-- The names that `paramPattern` finds. -/
def paramNames : List Char → List String
  | [] => []
  | c :: rest => (if c = '{' then (paramAt rest).toList else []) ++ paramNames rest

/-- The `params` of a request. -/
def pathParams (arrival : Arrival) (path : String) (request : HttpRequest) :
    GoMap String String :=
  (paramNames path.toList).foldl (fun params name =>
    params.insert name (arrival.pathValue request name)) ∅

/-- The reply of a route whose authentication is not there. -/
def authUnavailable : ErrorReply :=
  ⟨503, [("Content-Type", "application/json")], "authentication is not available"⟩

section Chain

variable {library : JWTLibrary Value} (authenticator : Option (Authenticator library))
  (arrival : Arrival)

/-- The innermost handler of a route. -/
def serveHandler (name : String) (comp : CompositionConfig) : Handler Value (Served Value) :=
  fun request context =>
    .served (.composition ⟨name, pathParams arrival comp.path request, request, context⟩)

/-- The route with its authentication. A route that is not public and has no authenticator
fails closed. -/
def checkedHandler (name : String) (comp : CompositionConfig) : Handler Value (Served Value) :=
  if comp.isPublic then serveHandler arrival name comp
  else
    match authenticator with
    | some authenticator => authenticator.middleware arrival.now (serveHandler arrival name comp)
    | none => fun _ _ => .replied authUnavailable

/-- The handler that `RegisterRoutes` registers for one composition. -/
def routeHandler (name : String) (comp : CompositionConfig) : Handler Value (Served Value) :=
  limited comp.rateLimit (arrival.allow (some name)) (checkedHandler authenticator arrival name comp)

/-- The multiplexer with the handlers of a config. -/
def routerHandler (config : Config) : Handler Value (Served Value) := fun request context =>
  match (arrival.route request).bind fun name =>
      (config.compositions.lookup name).map fun comp => (name, comp) with
  | some (name, comp) => routeHandler authenticator arrival name comp request context
  | none => .served .other

/-- The handler of a pipeline, with `pipelineRateLimit`. -/
def pipelineHandler (config : Config) : Handler Value (Served Value) :=
  limited config.rateLimit (arrival.allow none) (routerHandler authenticator arrival config)

/-- The id of a request: the client's, or a new one. -/
def requestIDOf (request : HttpRequest) : String :=
  let requestID := request.header.get "X-Request-ID"
  if requestID = "" then arrival.newRequestID else requestID

/-- `RequestIDMiddleware`. -/
def requestIDMiddleware (next : Handler Value (Served Value)) : Handler Value (Served Value) :=
  fun request context =>
    next request { context with requestID := some (requestIDOf arrival request) }

/-- The handler of the server. -/
def gatewayHandler (config : Config) : Handler Value (Served Value) :=
  requestIDMiddleware arrival (pipelineHandler authenticator arrival config)

end Chain

/-- The authenticator that `reloadFromBytes` makes for a config. -/
def loadAuthenticator (library : JWTLibrary Value) (config : Config) :
    Except String (Option (Authenticator library)) :=
  match config.auth with
  | none => .ok none
  | some auth => (newAuthenticator library auth).map some

/-- `NewRequestData`, with the claims that `buildRequestEnv` finds in the context. -/
def CompositionCall.requestData (call : CompositionCall Value) (body : Value) :
    RequestData Value where
  method := call.request.method
  path := call.request.path
  params := call.params
  query := call.request.query
  headers := call.request.header
  body := body
  claims := getClaims call.context

end Restitch.Composition
