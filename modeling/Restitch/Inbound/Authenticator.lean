import Restitch.Http.Handler

/-!
# Inbound authentication (`internal/inbound/inbound.go`)

The authenticator of an artifact and the middleware that lets a request pass with an
API key or a bearer token. The verification of tokens is a parameter.
-/

namespace Restitch.Inbound

open Restitch.Http Restitch.Std

/-- `JWTConfig`. -/
structure JWTConfig where
  jwksURL : String
  issuer : String
  audience : String
deriving DecidableEq

/-- `InboundAuthConfig`. -/
structure InboundAuthConfig where
  apiKeys : List String
  jwt : Option JWTConfig
deriving DecidableEq

/-- `jwt.MapClaims`; `none` is a nil map. -/
abbrev MapClaims (Value : Type) := Option (GoMap String Value)

/-- The options that `validateJWT` passes to `jwt.Parse`. -/
structure ParserOptions where
  validMethods : List String
  issuer : Option String
  audience : Option String
deriving DecidableEq

/-- `jwt.Token`, with its claims if they are a map. -/
structure Token (Value : Type) where
  valid : Bool
  claims : Option (MapClaims Value)

/-- The libraries that verify tokens: `keyfunc.NewDefaultOverrideCtx` for a JWKS URL, and
`jwt.Parse` under the keys that it has at some time. -/
structure JWTLibrary (Value : Type) where
  Keys : Type
  keyfunc : String → Except String Keys
  parse : Nat → Keys → ParserOptions → String → Except String (Token Value)

variable {Value Served : Type}

/-- `Authenticator`, with the keyfunc and the `jwt` block it was made for. -/
structure Authenticator (library : JWTLibrary Value) where
  apiKeys : List String
  jwt : Option (library.Keys × JWTConfig)

/-- `WithClaims`. -/
def withClaims (context : Context Value) (claims : MapClaims Value) : Context Value :=
  { context with claims := some claims }

/-- `GetClaims`. -/
def getClaims (context : Context Value) : MapClaims Value :=
  context.claims.getD none

section

variable (library : JWTLibrary Value)

/-- `New`. -/
def newAuthenticator (config : InboundAuthConfig) : Except String (Authenticator library) :=
  match config.jwt with
  | none => .ok ⟨config.apiKeys, none⟩
  | some jwt =>
      match library.keyfunc jwt.jwksURL with
      | .error detail => .error detail
      | .ok keys => .ok ⟨config.apiKeys, some (keys, jwt)⟩

variable {library}

/-- `checkAPIKey`. -/
def Authenticator.checkAPIKey (authenticator : Authenticator library) (key : String) : Bool :=
  authenticator.apiKeys.any (key == ·)

/-- The options for one `jwt` block: an empty issuer or audience is not checked. -/
def parserOptions (config : JWTConfig) : ParserOptions where
  validMethods := ["RS256", "RS384", "RS512", "ES256", "ES384", "ES512"]
  issuer := if config.issuer ≠ "" then some config.issuer else none
  audience := if config.audience ≠ "" then some config.audience else none

/-- `validateJWT`. -/
def Authenticator.validateJWT (authenticator : Authenticator library) (now : Nat)
    (token : String) : Option (MapClaims Value) :=
  match authenticator.jwt with
  | none => none
  | some (keys, config) =>
      match library.parse now keys (parserOptions config) token with
      | .error _ => none
      | .ok parsed => if parsed.valid then parsed.claims else none

end

/-- The token of an `Authorization` header with the bearer scheme. No letter of
`Bearer` has a case variant outside ASCII, so `strings.EqualFold` compares lower case. -/
def bearerToken (header : Header) : Option String :=
  match GoStrings.cut ' ' (header.get "Authorization").toList with
  | (scheme, some token) =>
      if scheme.map Char.toLower = "bearer".toList then some (.ofList token) else none
  | (_, none) => none

/-- The reply to a request without credentials. -/
def unauthorized : ErrorReply :=
  ⟨401, [("WWW-Authenticate", "Bearer"), ("Content-Type", "application/json")], "unauthorized"⟩

/-- `Middleware`: first the API key, then the bearer token. -/
def Authenticator.middleware {library : JWTLibrary Value} (authenticator : Authenticator library)
    (now : Nat) (next : Handler Value Served) : Handler Value Served := fun request context =>
  let apiKey := request.header.get "X-API-Key"
  if apiKey ≠ "" ∧ authenticator.checkAPIKey apiKey then next request context
  else
    match (bearerToken request.header).bind (authenticator.validateJWT now) with
    | some claims => next request (withClaims context claims)
    | none => .replied unauthorized

end Restitch.Inbound
