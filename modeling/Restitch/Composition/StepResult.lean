import Restitch.Http.Header

/-!
# Step results (`internal/composition/step.go`, `executor.go`)

What a step makes of one upstream response, and which responses may be shared
between requests.
-/

namespace Restitch.Composition

open Restitch.Std Restitch.Http

/-- A response as the transport delivers it: the header field lines in order,
and the body. -/
structure UpstreamResponse where
  status : Nat
  lines : List (String × String)
  body : List UInt8

/-- `resp.Header`. -/
def UpstreamResponse.header (response : UpstreamResponse) : Header :=
  .ofLines response.lines

/-- How a body becomes a value of the expression language: `json.Unmarshal`, the
string of its bytes, and whether a value is nil, as JSON `null` is. -/
structure BodyDecoder (Value : Type) where
  unmarshal : List UInt8 → Option Value
  text : List UInt8 → Value
  isNil : Value → Bool

variable {Value : Type}

/-- `ErrorRule`: for these statuses the body is replaced. -/
structure ErrorRule (Value : Type) where
  statuses : List Nat
  body : Value
deriving DecidableEq

/-- The settings of a step and its upstream that decide how it is sent, shared
and read. -/
structure StepSettings (Value : Type) where
  method : String
  cacheTTL : Option Nat
  coalesce : Bool
  errorRules : List (ErrorRule Value)
  maxResponseBytes : Nat
deriving DecidableEq

/-- `StepResult`. -/
structure StepResult (Value : Type) where
  status : Nat
  headers : Header
  body : Value
  rawBody : List UInt8
  errorRuleMatched : Bool

/-- Why `sendStepRequest` failed. -/
inductive SendError where
  /-- `timeout after ...` -/
  | timeout
  /-- `request failed: ...` -/
  | requestFailed
  /-- `failed to read response body: ...` -/
  | bodyUnread
  /-- `response exceeds ... bytes` -/
  | tooLarge
deriving DecidableEq

/-- `matchErrorRule`: the body of the first rule that lists the status. -/
def matchErrorRule (status : Nat) (rules : List (ErrorRule Value)) : Option Value :=
  (rules.find? fun rule => rule.statuses.contains status).map (·.body)

/-- `strings.Contains(strings.ToLower(contentType), "json")`. -/
def isJSONContentType (contentType : String) : Bool :=
  (GoStrings.toLower contentType.toList).tails.any fun rest => "json".toList.isPrefixOf rest

/-- `parseJSONBody`. -/
def parseJSONBody (decoder : BodyDecoder Value) (body : List UInt8) (contentType : String) :
    Option Value :=
  if isJSONContentType contentType ∧ body ≠ [] then decoder.unmarshal body else none

/-- The part of `sendStepRequest` after the exchange: `exchange` is the response,
or why there is none. -/
def sendStepRequest (decoder : BodyDecoder Value) (settings : StepSettings Value)
    (exchange : Except SendError UpstreamResponse) : Except SendError (StepResult Value) :=
  match exchange with
  | .error error => .error error
  | .ok response =>
      if settings.maxResponseBytes < response.body.length then .error .tooLarge
      else
        let parsed := (parseJSONBody decoder response.body
          (response.header.get "Content-Type")).getD (decoder.text response.body)
        match matchErrorRule response.status settings.errorRules with
        | some replacement =>
            .ok ⟨response.status, response.header, replacement, response.body, true⟩
        | none => .ok ⟨response.status, response.header, parsed, response.body, false⟩

/-- A part of a `Cache-Control` value that `isCacheable` takes for a private or
no-store directive. -/
def isPrivatePart (part : List Char) : Bool :=
  GoStrings.toLower (GoStrings.trimSpace part) ∈ ["private".toList, "no-store".toList]

/-- `isCacheable`. The source returns early for a nil map, which holds no field
either. -/
def isCacheable (headers : Header) : Bool :=
  if headers.get "Set-Cookie" ≠ "" then false
  else !((headers.get "Cache-Control").toList.splitOn ',').any isPrivatePart

end Restitch.Composition
