import Restitch.Composition.Execute
import Restitch.Composition.Handler
import Restitch.Composition.Response
import Restitch.Reqlog.Record

/-!
# Answering a request (`internal/composition/handler.go`)

`serveComposition` with all of its exits. It writes at most one response, and what it
counts and records comes after the last of them.
-/

namespace Restitch.Composition

open Restitch.Http Restitch.Reqlog Restitch.Std

variable {Value : Type}

/-- `StepTiming`. -/
structure StepTiming where
  name : String
  wave : Nat
  duration : Nat
  status : String
  optional : Bool
  upstream : String
  url : String
  startOffset : Nat
  bodySize : Nat
  error : String
  cached : Bool
  retries : Nat
deriving DecidableEq

/-- What a client gets as the body of a response. -/
inductive ReplyBody (Value : Type) where
  /-- `{"error": ...}` -/
  | error (message : String)
  /-- `{"error": ..., "step": ...}` -/
  | stepError (message step : String)
  /-- `{"error": ..., "details": [...]}` -/
  | details (message : String) (details : List String)
  | value (value : Value)
  | empty

/-- A response as the client gets it. -/
structure WrittenResponse (Value : Type) where
  status : Int
  header : List (String × String)
  body : ReplyBody Value

/-- The labels of one increment of `RequestsTotal`. -/
structure RequestsTotal where
  composition : String
  method : String
  status : String
deriving DecidableEq

/-- What `serveComposition` does: the response it writes, if any, the increments of
`RequestsTotal`, and the records it hands to the recorder. -/
structure ServeEffects (Value : Type) where
  written : Option (WrittenResponse Value)
  requestsTotal : List RequestsTotal
  records : List Record

/-- A response written by `writeJSON` before a return. -/
def writeJSON (status : Int) (body : ReplyBody Value) (header : List (String × String)) :
    ServeEffects Value :=
  ⟨some ⟨status, header ++ [("Content-Type", "application/json")], body⟩, [], []⟩

/-- How `Execute` failed. -/
structure ExecuteFailure where
  /-- The `RequiredStepError`, if it is one. -/
  required : Option RequiredStepError
  /-- `auth.IsMissingAuthHeaderError` -/
  missingAuth : Bool

/-- What `serveComposition` reads of the result of `Execute`: the status of each step that
has a result, the failed ones, and the timings. -/
structure ServedResult where
  httpStatus : String → Option Nat
  isPartial : Bool
  stepTimings : List StepTiming

/-- The response that `BuildResponse` returns. -/
structure BuiltResponse (Value : Type) where
  status : Int
  contentType : String
  body : Value

/-- The code around one call: the media type of a `Content-Type`, `json.Unmarshal`, the
request schema of the composition, what the executor and the response template make of the
request, and what the encoder and the connection do with the response. -/
structure ServeRuntime (Value : Type) where
  nil : Value
  parseMediaType : String → Option String
  unmarshal : List UInt8 → Option Value
  /-- The schema, with the details of what it refuses. -/
  schema : Option (Value → Option (List String))
  execute : RequestData Value → Except ExecuteFailure ServedResult
  /-- `r.Context().Err() != nil` after a failed `Execute` -/
  clientGone : Bool
  buildResponse : RequestData Value → ServedResult → Option (BuiltResponse Value)
  /-- Whether `json.Encoder` can encode the body and the connection takes it. -/
  encode : Value → Bool
  /-- The start, the duration and the trace of this call. -/
  start : Nat
  duration : Nat
  traceID : String
  parseHost : List Char → Option (List Char)

/-- `isJSONMediaType`. -/
def isJSONMediaType (runtime : ServeRuntime Value) (contentType : String) : Bool :=
  match runtime.parseMediaType contentType with
  | none => false
  | some mediaType => mediaType = "application/json" || "+json".toList.isSuffixOf mediaType.toList

/-- Why a body is refused: the status and the error text. -/
inductive BodyError where
  | tooLarge
  | unread
  | invalidJSON
  | unsupportedMediaType
deriving DecidableEq

def BodyError.status : BodyError → Int
  | .tooLarge => 413
  | .unread | .invalidJSON => 400
  | .unsupportedMediaType => 415

def BodyError.message : BodyError → String
  | .tooLarge => "request body too large"
  | .unread => "invalid request body"
  | .invalidJSON => "invalid JSON body"
  | .unsupportedMediaType => "unsupported media type"

/-- The largest request body in bytes: 1 MiB unless the composition says otherwise. -/
def maxRequestBytes (comp : CompositionConfig) : Nat :=
  if 0 < comp.maxRequestBytes then comp.maxRequestBytes.toNat else 1048576

/-- The body of a request, read and parsed. -/
def readBody (runtime : ServeRuntime Value) (comp : CompositionConfig) (request : HttpRequest) :
    Except BodyError Value :=
  match request.body with
  | .absent => .ok runtime.nil
  | .bytes bytes complete =>
      if maxRequestBytes comp < bytes.length then .error .tooLarge
      else if !complete then .error .unread
      else if bytes = [] then .ok runtime.nil
      else if isJSONMediaType runtime (request.header.get "Content-Type") then
        match runtime.unmarshal bytes with
        | some value => .ok value
        | none => .error .invalidJSON
      else if runtime.schema.isSome then .error .unsupportedMediaType
      else .ok runtime.nil

/-- The answer to a request whose `Execute` failed. -/
def answerFailure (runtime : ServeRuntime Value) (failure : ExecuteFailure) : ServeEffects Value :=
  if runtime.clientGone then ⟨none, [], []⟩
  else if failure.missingAuth then
    writeJSON 401 (.error "authorization header required") [("WWW-Authenticate", "Bearer")]
  else
    match failure.required with
    | some required =>
        if required.err.isDeadlineExceeded then
          writeJSON 504 (.stepError "upstream timeout" required.step) []
        else writeJSON 502 (.stepError "upstream error" required.step) []
    | none => writeJSON 502 (.error "upstream error") []

/-- The headers of an evaluated response. -/
def responseHeader (contentType : String) (isPartial : Bool) : List (String × String) :=
  ("Content-Type", contentType) ::
    if isPartial then [("X-Restitch-Complete", "false"), ("X-Partial-Response", "true")]
    else [("X-Restitch-Complete", "true")]

/-- `WriteHeader` panics for these statuses. -/
def invalidStatus (status : Int) : Bool := status < 100 || 999 < status

/-- `WriteHeader` sends these ahead of the response, whose status is then 200. -/
def informational (status : Int) : Bool := 100 ≤ status && status ≤ 199 && status ≠ 101

/-- `Write` refuses a body under these statuses. -/
def bodyNotAllowed (status : Int) : Bool := status = 101 || status = 204 || status = 304

/-- The record of one step. -/
def stepRecord (runtime : ServeRuntime Value) (result : ServedResult) (timing : StepTiming) :
    StepRecord where
  name := timing.name
  status := timing.status
  wave := timing.wave
  duration := timing.duration
  httpStatus := (result.httpStatus timing.name).getD 0
  upstream := timing.upstream
  url := redactURL runtime.parseHost timing.url
  startOffset := timing.startOffset
  bodySize := timing.bodySize
  error := timing.error
  cached := timing.cached
  retries := timing.retries

/-- The record of a request. -/
def requestRecord (runtime : ServeRuntime Value) (call : CompositionCall Value)
    (result : ServedResult) (status : Int) : Record where
  id := call.context.requestID.getD ""
  traceID := runtime.traceID
  time := runtime.start
  composition := call.composition
  method := call.request.method
  path := call.request.path
  status := status
  duration := runtime.duration
  isPartial := result.isPartial
  headers := redactHeaders call.request.header
  steps := result.stepTimings.map (stepRecord runtime result)

/-- Send an evaluated response, then count and record the request. The recovery middleware
answers a panic with a plain 500. -/
def finishResponse (runtime : ServeRuntime Value) (hasRecorder : Bool)
    (call : CompositionCall Value) (result : ServedResult) (response : BuiltResponse Value) :
    ServeEffects Value :=
  let header := responseHeader response.contentType result.isPartial
  if invalidStatus response.status then ⟨some ⟨500, header, .empty⟩, [], []⟩
  else
    let status := if informational response.status then 200 else response.status
    if bodyNotAllowed response.status || !runtime.encode response.body then
      ⟨some ⟨status, header, .empty⟩, [], []⟩
    else
      ⟨some ⟨status, header, .value response.body⟩,
        [⟨call.composition, call.request.method, toString response.status⟩],
        if hasRecorder then [requestRecord runtime call result response.status] else []⟩

/-- `serveComposition`. `DefaultMetrics` is set before the server starts. -/
def serveComposition (runtime : ServeRuntime Value) (comp : CompositionConfig)
    (hasRecorder : Bool) (call : CompositionCall Value) : ServeEffects Value :=
  match readBody runtime comp call.request with
  | .error error => writeJSON error.status (.error error.message) []
  | .ok body =>
      match runtime.schema.bind fun validate => validate body with
      | some details => writeJSON 400 (.details "request validation failed" details) []
      | none =>
          let data := call.requestData body
          match runtime.execute data with
          | .error failure => answerFailure runtime failure
          | .ok result =>
              match runtime.buildResponse data result with
              | none => writeJSON 500 (.error "internal error") []
              | some response => finishResponse runtime hasRecorder call result response

end Restitch.Composition
