import Restitch.Composition.StepResult
import Restitch.Inbound.Authenticator
import Restitch.Ratelimit.Limiter
import Restitch.Std.Results

/-!
# Configuration (`internal/composition/config.go`, `parser.go`)

The decoded artifact and its validation. `validateAndApplyDefaults` ranges over
the maps of the artifact and stops at the first error; which error that is depends
on the iteration order, whether there is one does not.
-/

namespace Restitch.Composition

open Restitch.Inbound Restitch.Ratelimit Restitch.Std

/-- A decoded YAML value. Only a map whose keys are all texts becomes a
`map[string]any`; `anyMap` is every other one. -/
inductive Yaml where
  | null
  | bool (value : Bool)
  | int (value : Int)
  | float (text : String)
  | string (text : String)
  | list (items : List Yaml)
  | map (fields : List (String × Yaml))
  | anyMap (fields : List (Yaml × Yaml))

/-- `Step`, less its timeout and retry. -/
structure Step where
  name : String
  upstream : String
  path : String
  method : String
  headers : GoMap String String
  body : String
  dependsOn : List String
  optional : Bool
  errorRules : List (ErrorRule Yaml)
  cache : Option Nat
  coalesce : Bool

/-- `ResponseTemplate`. -/
structure ResponseTemplate where
  status : Yaml
  contentType : String
  body : Yaml

/-- `Composition`. -/
structure CompositionConfig where
  path : String
  method : String
  isPublic : Bool
  steps : List Step
  response : ResponseTemplate
  maxRequestBytes : Int
  requestSchema : Option Yaml
  rateLimit : Option RateLimitConfig

/-- What the validation reads of an `Upstream`. -/
structure Upstream where
  url : String
  maxResponseBytes : Int

structure Config where
  auth : Option InboundAuthConfig
  rateLimit : Option RateLimitConfig
  blockPrivateUpstreams : Bool
  upstreams : GoMap String Upstream
  compositions : GoMap String CompositionConfig

/-- What the validation reads of a parsed URL. -/
structure ParsedURL where
  scheme : String
  hostname : String

/-- An IP address by the classes that `isPrivateUpstreamHost` asks for. -/
structure IPClass where
  isLoopback : Bool
  isPrivate : Bool
  isLinkLocalUnicast : Bool
  isLinkLocalMulticast : Bool
  isUnspecified : Bool

/-- `url.Parse` and `net.ParseIP`. -/
structure NetParser where
  parseURL : String → Except String ParsedURL
  parseIP : String → Option IPClass

inductive ValidationError where
  /-- `auth.jwt.jwks_url is required when jwt is configured` -/
  | jwksURLRequired
  /-- `auth: set api_keys, jwt, or both` -/
  | authEmpty
  /-- `upstream %s: url is required` -/
  | urlRequired (upstream : String)
  /-- `upstream %s: invalid url %q: %w` -/
  | invalidURL (upstream url detail : String)
  /-- `upstream %s: url scheme must be http or https, got %q` -/
  | urlScheme (upstream scheme : String)
  /-- `upstream %s: url %q points at a private or loopback address` -/
  | privateURL (upstream url : String)
  /-- `composition %s: path %s is reserved for the gateway probes` -/
  | reservedPath (composition path : String)
  /-- `composition %s is not public and the artifact has no auth policy` -/
  | noAuthPolicy (composition : String)
  /-- `composition %s: max_request_bytes must not be negative (got %d)` -/
  | maxRequestBytes (composition : String) (value : Int)
  /-- `composition %s: step %d has no name` -/
  | stepWithoutName (composition : String) (index : Nat)
  /-- `composition %s: duplicate step name %q` -/
  | duplicateStep (composition step : String)
  /-- `composition %s, step %s: upstream is required` -/
  | upstreamRequired (composition step : String)
  /-- `composition %s, step %s: upstream %q not found` -/
  | upstreamNotFound (composition step upstream : String)
  /-- `composition %s, step %s: cache is only supported on GET steps` -/
  | cacheOnGetOnly (composition step : String)
deriving DecidableEq

section

variable (net : NetParser)

/-- `isPrivateUpstreamHost`. -/
def isPrivateUpstreamHost (host : String) : Bool :=
  match net.parseIP host with
  | none => false
  | some ip => ip.isLoopback || ip.isPrivate || ip.isLinkLocalUnicast ||
      ip.isLinkLocalMulticast || ip.isUnspecified

def validateAuth : Option InboundAuthConfig → Except ValidationError Unit
  | none => .ok ()
  | some auth =>
      if auth.jwt.map JWTConfig.jwksURL = some "" then .error .jwksURLRequired
      else if auth.apiKeys = [] ∧ auth.jwt = none then .error .authEmpty
      else .ok ()

def validateUpstream (blockPrivate : Bool) (name : String) (upstream : Upstream) :
    Except ValidationError Upstream :=
  if upstream.url = "" then .error (.urlRequired name)
  else
    match net.parseURL upstream.url with
    | .error detail => .error (.invalidURL name upstream.url detail)
    | .ok parsed =>
        if parsed.scheme ≠ "http" ∧ parsed.scheme ≠ "https" then
          .error (.urlScheme name parsed.scheme)
        else if blockPrivate ∧ isPrivateUpstreamHost net parsed.hostname then
          .error (.privateURL name upstream.url)
        else .ok (if upstream.maxResponseBytes ≤ 0 then
          { upstream with maxResponseBytes := 10 * 1024 * 1024 } else upstream)

end

/-- `comp.Method` and `step.Method` after the defaults. -/
def defaultMethod (method : String) : String :=
  if method = "" then "GET" else method

/-- The checks of one step, after those of the steps named in `seen`. -/
def validateStep (composition : String) (upstreams : List String) (seen : List String)
    (index : Nat) (step : Step) : Except ValidationError Step :=
  if step.name = "" then .error (.stepWithoutName composition index)
  else if step.name ∈ seen then .error (.duplicateStep composition step.name)
  else if step.upstream = "" then .error (.upstreamRequired composition step.name)
  else if step.upstream ∉ upstreams then
    .error (.upstreamNotFound composition step.name step.upstream)
  else if step.cache.isSome ∧ defaultMethod step.method ≠ "GET" then
    .error (.cacheOnGetOnly composition step.name)
  else .ok { step with method := defaultMethod step.method }

def validateSteps (composition : String) (upstreams : List String) :
    List String → Nat → List Step → Except ValidationError (List Step)
  | _, _, [] => .ok []
  | seen, index, step :: rest => do
      let checked ← validateStep composition upstreams seen index step
      let later ← validateSteps composition upstreams (step.name :: seen) (index + 1) rest
      return checked :: later

/-- `reservedPaths`. -/
def reservedPaths : List String := ["/health", "/ready"]

def validateComposition (hasAuth : Bool) (upstreams : List String) (name : String)
    (comp : CompositionConfig) : Except ValidationError CompositionConfig :=
  if comp.path ∈ reservedPaths then .error (.reservedPath name comp.path)
  else if !comp.isPublic ∧ !hasAuth then .error (.noAuthPolicy name)
  else if comp.maxRequestBytes < 0 then .error (.maxRequestBytes name comp.maxRequestBytes)
  else
    (validateSteps name upstreams [] 0 comp.steps).map fun steps =>
      { comp with
        method := defaultMethod comp.method
        response := { comp.response with
          contentType := if comp.response.contentType = "" then "application/json"
            else comp.response.contentType }
        steps }

/-- `validateAndApplyDefaults`. -/
def validateAndApplyDefaults (net : NetParser) (config : Config) :
    Except ValidationError Config := do
  validateAuth config.auth
  let upstreams ← GoMap.traverse (validateUpstream net config.blockPrivateUpstreams)
    config.upstreams
  let compositions ← GoMap.traverse
    (validateComposition config.auth.isSome config.upstreams.keys) config.compositions
  return { config with upstreams, compositions }

/-- A composition passes all of its checks, or none of it is accepted. -/
theorem validateComposition_ok {hasAuth : Bool} {upstreams : List String} {name : String}
    {comp valid : CompositionConfig}
    (checked : validateComposition hasAuth upstreams name comp = .ok valid) :
    (comp.isPublic = true ∨ hasAuth = true) ∧
      ∃ steps, validateSteps name upstreams [] 0 comp.steps = .ok steps ∧
        valid = { comp with
          method := defaultMethod comp.method
          response := { comp.response with
            contentType := if comp.response.contentType = "" then "application/json"
              else comp.response.contentType }
          steps } := by
  unfold validateComposition at checked
  split at checked
  · cases checked
  · split at checked
    · cases checked
    · rename_i policy
      split at checked
      · cases checked
      · obtain ⟨steps, isSteps, rfl⟩ := Except.map_eq_ok checked
        refine ⟨?_, steps, isSteps, rfl⟩
        cases isPublic : comp.isPublic <;> cases hasAuth <;> simp_all

/-- Every composition of a validated config is the checked one of the config as written. -/
theorem composition_of_validate {net : NetParser} {raw config : Config}
    (accepted : validateAndApplyDefaults net raw = .ok config) {name : String}
    {comp : CompositionConfig} (found : config.compositions.lookup name = some comp) :
    config.auth = raw.auth ∧ config.upstreams.keys = raw.upstreams.keys ∧
      ∃ written, validateComposition raw.auth.isSome raw.upstreams.keys name written = .ok comp := by
  obtain ⟨-, -, accepted⟩ := Except.bind_eq_ok accepted
  obtain ⟨upstreams, isUpstreams, accepted⟩ := Except.bind_eq_ok accepted
  obtain ⟨compositions, isCompositions, accepted⟩ := Except.bind_eq_ok accepted
  cases accepted
  obtain ⟨written, -, checked⟩ := GoMap.exists_of_traverse _ isCompositions
    (GoMap.mem_entries_iff.mpr found)
  exact ⟨rfl, GoMap.keys_of_traverse _ isUpstreams, written, checked⟩

/-- A composition that is not public needs an auth policy. -/
theorem auth_of_validate {net : NetParser} {raw config : Config}
    (accepted : validateAndApplyDefaults net raw = .ok config) {name : String}
    {comp : CompositionConfig} (found : config.compositions.lookup name = some comp)
    (notPublic : comp.isPublic = false) : ∃ auth, config.auth = some auth := by
  obtain ⟨sameAuth, -, written, checked⟩ := composition_of_validate accepted found
  obtain ⟨policy, steps, -, rfl⟩ := validateComposition_ok checked
  rw [sameAuth]
  rcases policy with isPublic | hasAuth
  · rw [isPublic] at notPublic
    cases notPublic
  · exact Option.isSome_iff_exists.mp hasAuth

end Restitch.Composition
