import Restitch.Composition.Handler

/-!
# Who reaches a composition

A request reaches `serveComposition` in one of three ways: on a public route, with an API
key, or with a bearer token that was validated. Only the last one puts claims into the
context, and nothing but the claims of the context is `req.auth`.
-/

namespace Restitch.Composition

open Restitch.Expr Restitch.Http Restitch.Inbound Restitch.Ratelimit Restitch.Std

variable {Value : Type}

/-- The request carries one of the API keys, and not an empty one. -/
def HasAPIKey (auth : InboundAuthConfig) (request : HttpRequest) : Prop :=
  request.header.get "X-API-Key" ≠ "" ∧ request.header.get "X-API-Key" ∈ auth.apiKeys

/-- The request carries a bearer token that `jwt.Parse` validated under the key set, the
issuer and the audience of the policy, with these claims. -/
def HasToken (library : JWTLibrary Value) (auth : InboundAuthConfig) (now : Nat)
    (request : HttpRequest) (claims : MapClaims Value) : Prop :=
  ∃ token jwt keys parsed, bearerToken request.header = some token ∧ auth.jwt = some jwt ∧
    library.keyfunc jwt.jwksURL = .ok keys ∧
    library.parse now keys (parserOptions jwt) token = .ok parsed ∧
    parsed.valid = true ∧ parsed.claims = some claims

section Authenticator

variable {Served : Type} {library : JWTLibrary Value} {auth : InboundAuthConfig}
  {authenticator : Authenticator library} {now : Nat} {request : HttpRequest}
  {context : Context Value}

/-- What an authenticator keeps of its policy. -/
theorem newAuthenticator_ok (built : newAuthenticator library auth = .ok authenticator) :
    authenticator.apiKeys = auth.apiKeys ∧
      ∀ keys jwt, authenticator.jwt = some (keys, jwt) →
        auth.jwt = some jwt ∧ library.keyfunc jwt.jwksURL = .ok keys := by
  unfold newAuthenticator at built
  split at built
  · cases built
    exact ⟨rfl, nofun⟩
  · rename_i jwt isJWT
    split at built
    · cases built
    · rename_i keys made
      cases built
      refine ⟨rfl, ?_⟩
      rintro _ _ ⟨⟩
      exact ⟨isJWT, made⟩

/-- A key is accepted exactly if it is a configured one and not empty. -/
theorem checkAPIKey_iff (built : newAuthenticator library auth = .ok authenticator) :
    request.header.get "X-API-Key" ≠ "" ∧
        authenticator.checkAPIKey (request.header.get "X-API-Key") = true ↔
      HasAPIKey auth request := by
  rw [Authenticator.checkAPIKey, (newAuthenticator_ok built).1, HasAPIKey]
  simp

/-- Whoever is let through has a key, or a token whose claims are then in the context. -/
theorem middleware_served (built : newAuthenticator library auth = .ok authenticator)
    {next : Handler Value Served} {served : Served}
    (passed : authenticator.middleware now next request context = .served served) :
    (HasAPIKey auth request ∧ next request context = .served served) ∨
      (¬ HasAPIKey auth request ∧ ∃ claims, HasToken library auth now request claims ∧
        next request (withClaims context claims) = .served served) := by
  rw [Authenticator.middleware] at passed
  split at passed
  · rename_i key
    exact .inl ⟨(checkAPIKey_iff built).mp key, passed⟩
  · rename_i noKey
    split at passed
    · rename_i claims validated
      obtain ⟨token, isToken, accepted⟩ := Option.bind_eq_some_iff.mp validated
      refine .inr ⟨fun key => noKey ((checkAPIKey_iff built).mpr key), claims, ?_, passed⟩
      unfold Authenticator.validateJWT at accepted
      split at accepted
      · cases accepted
      · rename_i keys jwt isJWT
        obtain ⟨isConfig, made⟩ := (newAuthenticator_ok built).2 keys jwt isJWT
        split at accepted
        · cases accepted
        · rename_i parsed isParsed
          obtain ⟨valid, isClaims⟩ := (Option.ite_none_right_eq_some ..).mp accepted
          exact ⟨token, jwt, keys, parsed, isToken, isConfig, made, isParsed, valid, isClaims⟩
    · cases passed

end Authenticator

/-- How a request came to a composition, and in which context. -/
inductive Passage (library : JWTLibrary Value) (config : Config) (now : Nat)
    (comp : CompositionConfig) (request : HttpRequest) (context : Context Value) :
    Context Value → Prop where
  | onPublic (isPublic : comp.isPublic = true) :
      Passage library config now comp request context context
  | withKey {auth} (notPublic : comp.isPublic = false) (policy : config.auth = some auth)
      (key : HasAPIKey auth request) : Passage library config now comp request context context
  | withToken {auth claims} (notPublic : comp.isPublic = false) (policy : config.auth = some auth)
      (noKey : ¬ HasAPIKey auth request) (token : HasToken library auth now request claims) :
      Passage library config now comp request context (withClaims context claims)

section Chain

variable {library : JWTLibrary Value} {config : Config}
  {authenticator : Option (Authenticator library)} {arrival : Arrival} {request : HttpRequest}
  {context : Context Value} {call : CompositionCall Value}

/-- The authenticator is made of the configured policy. -/
theorem loadAuthenticator_ok (loaded : loadAuthenticator library config = .ok authenticator)
    {made : Authenticator library} (isMade : authenticator = some made) :
    ∃ auth, config.auth = some auth ∧ newAuthenticator library auth = .ok made := by
  unfold loadAuthenticator at loaded
  split at loaded
  · cases loaded
    cases isMade
  · rename_i auth policy
    obtain ⟨_, built, same⟩ := Except.map_eq_ok loaded
    rw [isMade] at same
    cases same
    exact ⟨auth, policy, built⟩

/-- A route is passed in one of the three ways. -/
theorem routeHandler_served (loaded : loadAuthenticator library config = .ok authenticator)
    {name : String} {comp : CompositionConfig}
    (passed : routeHandler authenticator arrival name comp request context =
      .served (.composition call)) :
    call.composition = name ∧ call.request = request ∧
      Passage library config arrival.now comp request context call.context := by
  have checked := limited_served passed
  unfold checkedHandler at checked
  split at checked
  · rename_i isPublic
    cases checked
    exact ⟨rfl, rfl, .onPublic isPublic⟩
  · rename_i notPublic
    have isPrivate := eq_false_of_ne_true notPublic
    cases authenticator with
    | none => cases checked
    | some made =>
        obtain ⟨auth, policy, built⟩ := loadAuthenticator_ok loaded rfl
        rcases middleware_served built checked with ⟨key, served⟩ | ⟨noKey, claims, token, served⟩
        · cases served
          exact ⟨rfl, rfl, .withKey isPrivate policy key⟩
        · cases served
          exact ⟨rfl, rfl, .withToken isPrivate policy noKey token⟩

/-- Whatever the multiplexer picks and the limiters let through, the composition is one of
the config, and its route was passed. -/
theorem gatewayHandler_served (loaded : loadAuthenticator library config = .ok authenticator)
    (passed : gatewayHandler authenticator arrival config request context =
      .served (.composition call)) :
    call.request = request ∧ ∃ comp, config.compositions.lookup call.composition = some comp ∧
      Passage library config arrival.now comp request
        { context with requestID := some (requestIDOf arrival request) } call.context := by
  rw [gatewayHandler, requestIDMiddleware] at passed
  have routed := limited_served passed
  unfold routerHandler at routed
  split at routed
  · rename_i name comp picked
    obtain ⟨_, -, found⟩ := Option.bind_eq_some_iff.mp picked
    obtain ⟨_, found, same⟩ := Option.map_eq_some_iff.mp found
    cases same
    obtain ⟨rfl, isRequest, passage⟩ := routeHandler_served loaded routed
    exact ⟨isRequest, comp, found, passage⟩
  · cases routed

end Chain

/-- The value of `req.auth`, also under the name `request.auth`. -/
theorem auth_of_buildRequestEnv (values : Values Value) (data : RequestData Value)
    (results : GoMap String (Option (StepResult Value))) {name : String}
    (isReq : name = "req" ∨ name = "request") :
    ∃ fields, buildRequestEnv values data results name = some (values.object fields) ∧
      fields "auth" = some (match data.claims with
        | some claims => values.object fun key => claims.lookup key
        | none => values.nil) := by
  rw [buildRequestEnv, if_pos isReq]
  exact ⟨_, rfl, rfl⟩

/-- A parsed config was validated. -/
theorem validated_of_parseConfig {checks : ArtifactChecks} {document : String} {config : Config}
    (parsed : parseConfig checks document = .ok config) :
    ∃ raw, validateAndApplyDefaults checks.net raw = .ok config := by
  unfold parseConfig at parsed
  split at parsed
  · cases parsed
  · rename_i raw decoded
    cases valid : validateAndApplyDefaults checks.net raw with
    | error error =>
        rw [valid] at parsed
        cases parsed
    | ok checked =>
        rw [valid] at parsed
        cases parsed
        exact ⟨raw, valid⟩

/-- A composition that is not public runs only for a request with a configured, non-empty
API key or a validated bearer token. In every environment of a request, `req.auth` is nil or
the claims of a token that this request carries and that was validated for it; it is nil for
requests with an API key and on public routes. This holds for every accepted artifact, every
request, every choice of the multiplexer and every state of the limiters. -/
theorem served_requests_authenticated {library : JWTLibrary Value} {checks : ArtifactChecks}
    {document : String} {config : Config} (parsed : parseConfig checks document = .ok config)
    {authenticator : Option (Authenticator library)}
    (loaded : loadAuthenticator library config = .ok authenticator) (arrival : Arrival)
    (request : HttpRequest) {call : CompositionCall Value}
    (served : gatewayHandler authenticator arrival config request .background =
      .served (.composition call)) :
    ∃ comp, config.compositions.lookup call.composition = some comp ∧
      (comp.isPublic = false → ∃ auth, config.auth = some auth ∧
        (HasAPIKey auth request ∨ ∃ claims, HasToken library auth arrival.now request claims)) ∧
      ∀ values body results name, name = "req" ∨ name = "request" →
        ∃ fields value,
          buildRequestEnv values (call.requestData body) results name =
            some (values.object fields) ∧
          fields "auth" = some value ∧
          (value = values.nil ∨ ∃ auth claims, config.auth = some auth ∧
            HasToken library auth arrival.now request (some claims) ∧
            value = values.object fun key => claims.lookup key) ∧
          (comp.isPublic = true ∨ (∃ auth, config.auth = some auth ∧ HasAPIKey auth request) →
            value = values.nil) := by
  obtain ⟨raw, valid⟩ := validated_of_parseConfig parsed
  obtain ⟨-, comp, found, passage⟩ := gatewayHandler_served loaded served
  refine ⟨comp, found, ?_, ?_⟩
  · intro notPublic
    obtain ⟨auth, policy⟩ := auth_of_validate valid found notPublic
    refine ⟨auth, policy, ?_⟩
    generalize call.context = context at passage
    cases passage with
    | onPublic isPublic =>
        rw [isPublic] at notPublic
        cases notPublic
    | withKey _ same key =>
        cases policy.symm.trans same
        exact .inl key
    | @withToken _ claims _ same _ token =>
        cases policy.symm.trans same
        exact .inr ⟨claims, token⟩
  · intro values body results name isReq
    obtain ⟨fields, isEnv, isAuth⟩ := auth_of_buildRequestEnv values (call.requestData body)
      results isReq
    refine ⟨fields, _, isEnv, isAuth, ?_⟩
    simp only [CompositionCall.requestData, getClaims]
    generalize call.context = context at passage
    cases passage with
    | onPublic | withKey => exact ⟨.inl rfl, fun _ => rfl⟩
    | @withToken auth claims notPublic policy noKey token =>
        constructor
        · cases claims with
          | none => exact .inl rfl
          | some claims => exact .inr ⟨auth, claims, policy, token, rfl⟩
        · rintro (isPublic | ⟨other, same, key⟩)
          · rw [isPublic] at notPublic
            cases notPublic
          · cases policy.symm.trans same
            exact absurd key noKey

/-- A policy with an API key and with a key set, an issuer and an audience. -/
def accountAuth : InboundAuthConfig :=
  ⟨["k1"], some ⟨"https://id/jwks", "https://id", "gateway"⟩⟩

/-- One composition that is not public. -/
def accountConfig : Config where
  auth := some accountAuth
  rateLimit := none
  blockPrivateUpstreams := false
  upstreams := ∅
  compositions := AList.singleton "account"
    ⟨"/account", "GET", false, [], ⟨.null, "application/json", .null⟩, 0, none, none⟩

def accountDocument : String :=
  "auth:\n  api_keys: [k1]\n  jwt: \x7bjwks_url: 'https://id/jwks', issuer: 'https://id', " ++
    "audience: gateway\x7d\ncompositions:\n  account: \x7bpath: /account\x7d\n"

/-- The library knows one token, for the right issuer and audience. -/
def oneToken : JWTLibrary String where
  Keys := Unit
  keyfunc := fun url => if url = "https://id/jwks" then .ok () else .error "unreachable"
  parse := fun _ _ options token =>
    if token = "good" ∧ options.issuer = some "https://id" ∧ options.audience = some "gateway" then
      .ok ⟨true, some (some (AList.singleton "sub" "alice"))⟩
    else .error "token is malformed"

/-- All limiters let requests pass, and the multiplexer picks the composition. -/
def accountArrival : Arrival :=
  ⟨0, "01J", fun _ _ => true, fun _ => some "account", fun _ _ => ""⟩

def bearerRequest : HttpRequest :=
  ⟨"GET", "/account", ∅, .ofLines [("Authorization", "bearer good")], "10.0.0.1", .absent⟩

/-- The request with that token is served, and only such ones. -/
theorem served_requests_authenticated_of_token :
    ∃ auth : InboundAuthConfig, accountConfig.auth = some auth ∧ (HasAPIKey auth bearerRequest ∨
      ∃ claims, HasToken oneToken auth accountArrival.now bearerRequest claims) := by
  have decoded : (checksFor accountDocument accountConfig).decode accountDocument =
      .ok accountConfig := by
    simp only [checksFor, if_true]
  have parsed : parseConfig (checksFor accountDocument accountConfig) accountDocument =
      .ok accountConfig := by
    rw [parseConfig, decoded]
    rfl
  have loaded : loadAuthenticator oneToken accountConfig =
      .ok (some ⟨["k1"], some ((), ⟨"https://id/jwks", "https://id", "gateway"⟩)⟩) := by
    rfl
  obtain ⟨comp, found, authenticated, -⟩ :=
    served_requests_authenticated parsed loaded accountArrival bearerRequest rfl
  refine authenticated ?_
  cases found
  rfl

end Restitch.Composition
