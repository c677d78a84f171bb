import Restitch.Hotreload.Poller
import Restitch.Studio.Requests
import Restitch.Studio.SettingsUpdates
import Restitch.Studio.UsageTable
import Restitch.Studio.Versions

/-!
# The routes that gateways call (`internal/studio/gatewayapi.go`)

Studio keeps all environments in one database. A gateway names none: its token does. An
event is one SQL statement or transaction: those by which people change an environment, the
lookup of a call's token, the record of its use, and what the call does then. `sha256` is
the digest of a token, `parseHost` what the redaction of URLs is built on.
-/

namespace Restitch.Studio

open Restitch.Hotreload (etag)
open Restitch.Reqlog Restitch.Semantics Restitch.Std Restitch.Std.GoTime Restitch.Std.KeyedTable

variable {Digest : Type} [DecidableEq Digest]

/-- A row of `studio_environments`. -/
structure EnvironmentRow where
  name : String
  settings : EnvironmentSettings
deriving DecidableEq

/-- The defaults of the two columns. -/
def newSettings : EnvironmentSettings := ⟨7, 10⟩

/-- A row of `studio_gateway_tokens`; the columns that only the list shows are left out. -/
structure TokenRow (Digest : Type) where
  id : String
  environment : String
  digest : Digest
  revokedAt : Option Nat
  lastUsedAt : Option Nat
deriving DecidableEq

/-- `RequestsPush`; the numbers say which requests the records are about. -/
structure RequestsPush where
  instanceID : String
  requests : List (RequestNumber × Record)

/-- A request with a body that could be decoded. -/
inductive GatewayRequest where
  /-- `GET /gateway/v1/artifact`, or with the number of the path if that is an integer. -/
  | artifact (ifNoneMatch : String) (number : Option (Option Nat))
  | heartbeat (hb : Heartbeat)
  | usage (push : UsagePush)
  | requests (push : RequestsPush)

inductive GatewayAnswer where
  | noContent
  | badRequest
  | notFound
  | internalError
  | notModified (etag : String)
  | artifact (etag yaml : String) (number : Nat)
deriving DecidableEq

/-- A call whose token was accepted. -/
structure GatewayCall (Digest : Type) where
  id : CallId
  environment : String
  digest : Digest
  request : GatewayRequest

/-- The database, the calls whose token was accepted, and the answers with the environment
of their call. No code reads the answers. -/
structure GatewayApi (Digest : Type) where
  environments : List EnvironmentRow
  tokens : List (TokenRow Digest)
  versions : List VersionRow
  instances : List InstanceRow
  usage : List UsageRow
  requests : List RequestRow
  calls : List (GatewayCall Digest)
  answers : List (String × GatewayAnswer)

inductive GatewayEvent where
  | createEnvironment (name : String)
  /-- The UPDATE of `updateEnvironmentSettings`. -/
  | changeSettings (environment : String) (settings : EnvironmentSettings)
  | issueToken (environment id token : String)
  | revokeToken (environment id : String) (now : Nat)
  /-- The INSERT of `writeVersion`. -/
  | insertVersion (row : VersionRow)
  /-- The SELECT of `gatewayEnvironment`. -/
  | authenticate (call : CallId) (authorization : String) (request : GatewayRequest)
  /-- The UPDATE of `gatewayEnvironment`. -/
  | recordUse (call : CallId) (now : Nat)
  /-- The handler behind `requireGatewayToken`. -/
  | serve (call : CallId) (now : Nat)

/-- The token of an `Authorization` header. -/
def gatewayToken (authorization : String) : Option String :=
  let text := authorization.toList
  let token := text.drop 7
  if "Bearer ".toList.isPrefixOf text ∧ "rgt_".toList.isPrefixOf token then some (.ofList token)
  else none

/-- The row of a token that is not revoked. -/
def liveToken (tokens : List (TokenRow Digest)) (digest : Digest) : Option (TokenRow Digest) :=
  tokens.find? fun row => row.digest = digest && row.revokedAt.isNone

/-- `version` and `latestVersion`. No row is ever changed or deleted, so the two reads of
`latestVersion` are one. -/
def namedVersion (versions : List VersionRow) (environment : String) :
    Option Nat → Option VersionRow
  | some number => selectVersion versions environment number
  | none => (selectMaxNumber versions environment).bind (selectVersion versions environment)

/-- `serveArtifact`. -/
def answerArtifact (versions : List VersionRow) (environment ifNoneMatch : String)
    (number : Option Nat) : GatewayAnswer :=
  match namedVersion versions environment number with
  | none => .notFound
  | some row =>
      if ifNoneMatch = etag environment row.number then .notModified (etag environment row.number)
      else .artifact (etag environment row.number) row.yaml row.number

/-- The settings of an environment, if it is there. -/
def settingsOf (environments : List EnvironmentRow) (name : String) : Option EnvironmentSettings :=
  (environments.find? fun row => row.name = name).map (·.settings)

variable (parseHost : List Char → Option (List Char))

/-- The handlers, for a token of the environment. -/
def GatewayApi.handle (state : GatewayApi Digest) (environment : String) (now : Nat) :
    GatewayRequest → GatewayApi Digest × GatewayAnswer
  | .artifact _ (some none) => (state, .badRequest)
  | .artifact ifNoneMatch (some (some number)) =>
      if number < 1 then (state, .badRequest)
      else (state, answerArtifact state.versions environment ifNoneMatch (some number))
  | .artifact ifNoneMatch none =>
      (state, answerArtifact state.versions environment ifNoneMatch none)
  | .heartbeat hb =>
      if hb.instanceID = "" ∨ 200 < hb.instanceID.utf8ByteSize then (state, .badRequest)
      else
        ({ state with instances := storeHeartbeat environment hb now state.instances }, .noContent)
  | .usage push =>
      if push.instanceID = "" then (state, .badRequest)
      else
        match settingsOf state.environments environment with
        | none => (state, .internalError)
        | some settings =>
            ({ state with
              usage := storeBuckets environment push.instanceID push.buckets
                (cutoffAt now settings.usageRetentionDays) state.usage
              instances := storeBreakers environment push.instanceID now state.instances
                push.breakers }, .noContent)
  | .requests push =>
      if push.instanceID = "" then (state, .badRequest)
      else
        match settingsOf state.environments environment with
        | none => (state, .internalError)
        | some settings =>
            ({ state with
              requests := storeRequests parseHost settings.requestSamplesPerMinute
                (cutoffAt now settings.usageRetentionDays) environment push.instanceID
                push.requests state.requests }, .noContent)

variable (sha256 : String → Digest)

/-- One statement. -/
def gatewayStep (state : GatewayApi Digest) : GatewayEvent → Option (GatewayApi Digest)
  | .createEnvironment name => some { state with
      environments := insertNew EnvironmentRow.name ⟨name, newSettings⟩ state.environments }
  | .changeSettings environment settings => some { state with
      environments := state.environments.map fun row =>
        if row.name = environment then { row with settings } else row }
  | .issueToken environment id token =>
      if (∀ row ∈ state.environments, row.name ≠ environment) ∨
          ∃ row ∈ state.tokens, row.id = id ∨ row.digest = sha256 token then some state
      else some { state with
        tokens := state.tokens ++ [⟨id, environment, sha256 token, none, none⟩] }
  | .revokeToken environment id now => some { state with
      tokens := state.tokens.map fun row =>
        if row.environment = environment ∧ row.id = id ∧ row.revokedAt = none then
          { row with revokedAt := some now }
        else row }
  | .insertVersion row => some { state with
      versions := (insertVersion state.versions row).getD state.versions }
  | .authenticate call authorization request =>
      if ∃ other ∈ state.calls, other.id = call then none
      else
        match (gatewayToken authorization).bind (liveToken state.tokens <| sha256 ·) with
        -- 401: a missing, unknown or revoked token.
        | none => some state
        | some row => some { state with
            calls := state.calls ++ [⟨call, row.environment, row.digest, request⟩] }
  | .recordUse call now =>
      match state.calls.find? (·.id = call) with
      | none => some state
      | some found => some { state with
          tokens := state.tokens.map fun row =>
            if row.digest = found.digest then { row with lastUsedAt := some now } else row }
  | .serve call now =>
      match state.calls.find? (·.id = call) with
      | none => some state
      | some found =>
          let (state, answer) := state.handle parseHost found.environment now found.request
          some { state with
            calls := state.calls.filter (·.id ≠ call)
            answers := state.answers ++ [(found.environment, answer)] }

/-- A database without environments. -/
def emptyStudio : GatewayApi Digest := ⟨[], [], [], [], [], [], [], []⟩

def gatewayApi : System (GatewayApi Digest) GatewayEvent :=
  .ofStep (· = emptyStudio) (gatewayStep parseHost sha256)

/-- A new token is random: neither its id nor its digest is that of an earlier one. -/
def FreshToken (state : GatewayApi Digest) : GatewayEvent → Prop
  | .issueToken _ id token => ∀ row ∈ state.tokens, row.id ≠ id ∧ row.digest ≠ sha256 token
  | _ => True

/-- What there is of one environment. -/
def GatewayApi.only (state : GatewayApi Digest) (environment : String) : GatewayApi Digest where
  environments := inPart EnvironmentRow.name environment state.environments
  tokens := inPart TokenRow.environment environment state.tokens
  versions := inPart VersionRow.environment environment state.versions
  instances := inPart InstanceRow.environment environment state.instances
  usage := inPart UsageRow.environment environment state.usage
  requests := inPart RequestRow.environment environment state.requests
  calls := inPart GatewayCall.environment environment state.calls
  answers := inPart Prod.fst environment state.answers

/-- The statements that do not name another environment. -/
def GatewayEvent.concerns (environment : String) : GatewayEvent → Bool
  | .createEnvironment name => name = environment
  | .changeSettings other _ | .issueToken other _ _ | .revokeToken other _ _ =>
      other = environment
  | .insertVersion row => row.environment = environment
  | .authenticate _ _ _ | .recordUse _ _ | .serve _ _ => true

end Restitch.Studio
