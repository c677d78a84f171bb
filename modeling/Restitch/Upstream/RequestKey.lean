import Mathlib.Data.String.Basic
import Restitch.Http.Header
import Restitch.Std.Framing

/-!
# Cache and coalesce keys (`internal/upstream/coalesce.go`, `internal/auth`)

`RequestKey` hashes the request as `buildStepRequest` returns it. The upstream's
auth RoundTripper adds the credentials later, when the request is sent. Field
values are arbitrary bytes; a field name is text.
-/

namespace Restitch.Upstream

open Restitch.Http Restitch.Std Restitch.Std.Framing

/-- The names of `perRequestHeaders`. -/
def perRequestHeaders : List String :=
  ["X-Request-Id", "X-Correlation-Id", "Traceparent", "Tracestate", "Baggage"]

/-- The bytes of a text. -/
def textBytes (text : String) : List UInt8 :=
  text.toByteArray.data.toList

/-- A header map of an outgoing request. `Header.Set` writes canonical names
only, and no length exceeds an `int`. -/
structure OutgoingHeader where
  fields : GoMap String (List (List UInt8))
  canonical : ∀ name ∈ fields.keys, canonicalHeaderKey name = name
  sized : Sized fields.keys
  fieldsSized : ∀ name values, fields.lookup name = some values →
    Sized (textBytes name) ∧ Sized values ∧ ∀ value ∈ values, Sized value

/-- A request as `buildStepRequest` returns it. -/
structure OutgoingRequest where
  method : List UInt8
  url : List UInt8
  header : OutgoingHeader
  body : List UInt8
  sized : Sized method ∧ Sized url ∧ Sized body

/-- An upstream's `auth` configuration. -/
inductive AuthStrategy where
  | none
  | header (name : String) (value : List UInt8)
  | basic (username password : List UInt8)
  | passthrough
  | oauth2

/-- An OAuth2 token: `token.Type()` and `token.AccessToken`. -/
structure Token where
  type : List UInt8
  accessToken : List UInt8

/-- One execution of one step: the request it built, the inbound Authorization
in its context, and the auth of its upstream with the token that its source
returns when the request is sent. -/
structure StepExecution where
  request : OutgoingRequest
  clientAuthorization : List UInt8
  auth : AuthStrategy
  token : Option Token
  sized : Sized clientAuthorization

/-- Why no request reaches the wire. -/
inductive AuthError where
  /-- `ErrMissingAuthHeader` -/
  | missingAuthHeader
  /-- `oauth2 token refresh failed` -/
  | tokenRefreshFailed
deriving DecidableEq

/-- The 64 characters of standard base64. -/
def base64Alphabet : List Char :=
  "ABCDEFGHIJKLMNOPQRSTUVWXYZabcdefghijklmnopqrstuvwxyz0123456789+/".toList

def base64Char (n : Nat) : UInt8 :=
  UInt8.ofNat ((base64Alphabet.getD (n % 64) '=').toNat)

/-- `base64.StdEncoding.EncodeToString`. -/
def base64 : List UInt8 → List UInt8
  | a :: b :: c :: rest =>
      let n := a.toNat * 65536 + b.toNat * 256 + c.toNat
      base64Char (n / 262144) :: base64Char (n / 4096) :: base64Char (n / 64) :: base64Char n ::
        base64 rest
  | [a, b] =>
      let n := a.toNat * 65536 + b.toNat * 256
      [base64Char (n / 262144), base64Char (n / 4096), base64Char (n / 64), '='.toUInt8]
  | [a] =>
      let n := a.toNat * 65536
      [base64Char (n / 262144), base64Char (n / 4096), '='.toUInt8, '='.toUInt8]
  | [] => []

/-- The field that the auth RoundTripper sets on the request. -/
def credential (execution : StepExecution) : Except AuthError (Option (String × List UInt8)) :=
  match execution.auth with
  | .none => .ok none
  | .header name value => .ok (some (canonicalHeaderKey name, value))
  | .basic username password =>
      .ok (some ("Authorization",
        textBytes "Basic " ++ base64 (username ++ textBytes ":" ++ password)))
  | .passthrough =>
      if execution.clientAuthorization = [] then .error .missingAuthHeader
      else .ok (some ("Authorization", execution.clientAuthorization))
  | .oauth2 =>
      match execution.token with
      | some token => .ok (some ("Authorization", token.type ++ textBytes " " ++ token.accessToken))
      | none => .error .tokenRefreshFailed

/-- A request on the wire; a field that is not there has no values. -/
structure WireRequest where
  method : List UInt8
  url : List UInt8
  header : String → List (List UInt8)
  body : List UInt8

/-- The values of a header map. -/
def OutgoingHeader.values (header : OutgoingHeader) (name : String) : List (List UInt8) :=
  GoMap.getD header.fields name []

section

-- The Authorization that `http.Client` derives from the userinfo of a URL.
variable (userinfo : List UInt8 → Option (List UInt8))

/-- The header that `http.Client` hands to the RoundTrippers. -/
def clientHeader (request : OutgoingRequest) : String → List (List UInt8) :=
  if (request.header.values "Authorization").headD [] = [] then
    match userinfo request.url with
    | some value => Function.update request.header.values "Authorization" [value]
    | none => request.header.values
  else request.header.values

/-- The header after the auth RoundTripper. -/
def withCredential (header : String → List (List UInt8)) :
    Option (String × List UInt8) → String → List (List UInt8)
  | some (name, value) => Function.update header name [value]
  | none => header

/-- The request that reaches the wire. -/
def wireRequest (execution : StepExecution) : Except AuthError WireRequest :=
  (credential execution).map fun added =>
    { method := execution.request.method
      url := execution.request.url
      header := withCredential (clientHeader userinfo execution.request) added
      body := execution.request.body }

end

/-- The names that enter the key, sorted. `order` is the iteration order of the
header map. -/
def keyNames (order : List String) : List String :=
  (order.filter fun name => canonicalHeaderKey name ∉ perRequestHeaders).mergeSort
    fun first second => canonicalHeaderKey first ≤ canonicalHeaderKey second

/-- One field of the header in the key: its canonical name, and its values with
their count. -/
def writeHeaderField (field : List UInt8 × List (List UInt8)) : List UInt8 :=
  writeField field.1 ++ writeList writeField field.2

/-- A field of the header map as the key sees it. -/
def headerField (header : OutgoingHeader) (name : String) : List UInt8 × List (List UInt8) :=
  (textBytes (canonicalHeaderKey name), header.values name)

/-- What `RequestKey` writes into the hash. -/
def requestKeyInput (execution : StepExecution) (order : List String) : List UInt8 :=
  writeField execution.request.method ++
    (writeField execution.request.url ++
      (writeList writeHeaderField
          ((keyNames order).map (headerField execution.request.header)) ++
        (writeField execution.request.body ++ writeField execution.clientAuthorization)))

/-- `RequestKey`; `digest` is SHA-256 in hexadecimal. -/
def requestKey {Digest : Type} (digest : List UInt8 → Digest) (execution : StepExecution)
    (order : List String) : Digest :=
  digest (requestKeyInput execution order)

end Restitch.Upstream
