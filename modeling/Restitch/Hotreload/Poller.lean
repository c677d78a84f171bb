import Restitch.Semantics.Transition
import Restitch.Studio.Versions

/-!
# The artifact poller (`internal/hotreload/poller.go`, `client.go`)

One gateway polls the artifact of one environment while publishes and rollbacks
append versions to it. An event is one publish, one statement of Studio's
`serveArtifact`, one delivery to the gateway, one run of `reloadFromBytes`, or
the bookkeeping at the end of an iteration of `Poller.Run`. `sha256` is the
digest of `File.Hash`.
-/

namespace Restitch.Hotreload

open Restitch.Semantics

variable {Digest : Type} [DecidableEq Digest]

/-- What a gateway serves: the digest of the artifact it was built from, and
that artifact. The first pipeline serves the probes only; its hash is the empty
string in the source, which no digest equals. -/
structure Pipeline (Digest : Type) where
  hash : Option Digest
  source : Option String
deriving DecidableEq

/-- The pipeline before the first artifact. -/
def probePipeline : Pipeline Digest := ⟨none, none⟩

/-- How one run of `reloadFromBytes` goes. What it depends on besides the
artifact (the environment, token endpoints, key sets) is outside the model. -/
inductive ReloadOutcome where
  /-- `ExpandEnvStrict` or `LoadBytes` fails, before the hash is compared. -/
  | loadFails
  /-- Parsing, compiling or the inbound auth fails, after the hash is compared. -/
  | buildFails
  | builds
deriving DecidableEq

/-- Why an iteration failed. -/
inductive PollError where
  /-- `fetch: ...`; `noVersion` and `tokenRejected` are told apart by the source. -/
  | noVersion
  | tokenRejected
  | fetch
  /-- `reload: ...` -/
  | reload
deriving DecidableEq

/-- Compile one artifact and swap it in, unless it is already the running one. -/
def reloadFromBytes (sha256 : String → Digest) (current : Pipeline Digest) (rawYAML : String) :
    ReloadOutcome → Except PollError (Pipeline Digest)
  | .loadFails => .error .reload
  | outcome =>
      if current.hash = some (sha256 rawYAML) then .ok current
      else
        match outcome with
        | .builds => .ok ⟨some (sha256 rawYAML), some rawYAML⟩
        | _ => .error .reload

/-- The digest tells artifacts apart. -/
def NoCollision {Digest : Type} (sha256 : String → Digest) (artifacts : List String) : Prop :=
  ∀ first ∈ artifacts, ∀ second ∈ artifacts, sha256 first = sha256 second → first = second

/-- `fmt.Sprintf("\"%s-%d\"", env, v.Number)`. -/
def etag (env : String) (number : Nat) : String :=
  "\"" ++ env ++ "-" ++ toString number ++ "\""

/-- One pull of the environment's current artifact. -/
structure FetchResult where
  yaml : String
  etag : String
  version : Nat
  notModified : Bool
deriving DecidableEq

/-- The fields of `PollStatus` that carry no time. -/
structure PollStatus where
  lastETag : String
  version : Nat
  lastError : Option PollError
  consecutiveErrors : Nat
deriving DecidableEq

/-- Where the current iteration is. -/
inductive Phase where
  /-- Between two iterations. -/
  | idle
  /-- The request with this `If-None-Match` is on its way. -/
  | requested (ifNoneMatch : String)
  /-- Studio has read `MAX(number)`. -/
  | latestRead (ifNoneMatch : String) (number : Nat)
  /-- Studio has answered; the answer is on its way back. -/
  | answered (result : FetchResult)
  /-- `Fetch` returned an artifact; the reload is next. -/
  | fetched (result : FetchResult)
  /-- `poll` has returned. -/
  | polled (result : Except PollError FetchResult)

/-- The environment's history, the poller and the pipeline. The last three
fields record what happened and are read by no transition. -/
structure State (Digest : Type) where
  /-- The YAML of versions `1, 2, ...`. -/
  versions : List String
  /-- `lastETag` of `Run`. -/
  lastETag : String
  status : PollStatus
  pipeline : Pipeline Digest
  phase : Phase
  /-- The version of the last call of `onApplied`. -/
  applied : Nat
  /-- The environment's latest version when Studio last read it. -/
  latestWhenRead : Nat
  /-- What the running iteration started with. -/
  startedWith : Pipeline Digest × String × Nat

inductive Event where
  /-- A publish or a rollback appends a version. -/
  | publish (yaml : String)
  /-- An iteration begins: `Fetch` sends its request. -/
  | poll
  /-- `latestVersion` reads `MAX(number)`. -/
  | selectLatest
  /-- `latestVersion` reads the row, and `serveArtifact` answers. -/
  | selectRow
  /-- The answer reaches `Fetch`. -/
  | receive
  /-- The fetch fails: no connection, a refused token, a read error. -/
  | fetchFails (error : PollError)
  | reload (outcome : ReloadOutcome)
  /-- `Run` stores the status and sleeps. -/
  | record
deriving DecidableEq

/-- The answer of `serveArtifact` for version `number`. -/
def serveArtifact (env ifNoneMatch : String) (number : Nat) (yaml : String) : FetchResult :=
  if ifNoneMatch = etag env number then ⟨"", etag env number, 0, true⟩
  else ⟨yaml, etag env number, number, false⟩

/-- What `Fetch` makes of an answer: a body above the limit is refused. -/
def receiveAnswer (result : FetchResult) : Phase :=
  if result.notModified then .polled (.ok result)
  else if Studio.maxArtifactBytes < result.yaml.utf8ByteSize then .polled (.error .fetch)
  else .fetched result

/-- The running pipeline, the ETag of the next poll and `Status().Version`. -/
def State.serving (state : State Digest) : Pipeline Digest × String × Nat :=
  (state.pipeline, state.lastETag, state.status.version)

/-- The phases in which the fetch has not returned. -/
def Phase.fetching : Phase → Bool
  | .requested _ | .latestRead _ _ | .answered _ => true
  | _ => false

/-- The end of an iteration of `Run`. -/
def recordResult (state : State Digest) : Except PollError FetchResult → State Digest
  | .error error =>
      { state with
        status := { state.status with
          lastError := some error
          consecutiveErrors := state.status.consecutiveErrors + 1 }
        phase := .idle }
  | .ok result =>
      let cleared := { state.status with lastError := none, consecutiveErrors := 0 }
      if result.notModified then { state with status := cleared, phase := .idle }
      else
        { state with
          lastETag := result.etag
          status := { cleared with lastETag := result.etag, version := result.version }
          phase := .idle }

/-- One event of a gateway that polls environment `env`. -/
def step (sha256 : String → Digest) (env : String) (state : State Digest) :
    Event → Option (State Digest)
  | .publish yaml => some { state with versions := state.versions ++ [yaml] }
  | .poll =>
      match state.phase with
      | .idle => some { state with
          phase := .requested state.lastETag
          startedWith := state.serving }
      | _ => none
  | .selectLatest =>
      match state.phase with
      | .requested ifNoneMatch =>
          if state.versions = [] then some { state with phase := .polled (.error .noVersion) }
          else some { state with
            phase := .latestRead ifNoneMatch state.versions.length
            latestWhenRead := state.versions.length }
      | _ => none
  | .selectRow =>
      match state.phase with
      | .latestRead ifNoneMatch number =>
          (state.versions[number - 1]?).map fun yaml =>
            { state with phase := .answered (serveArtifact env ifNoneMatch number yaml) }
      | _ => none
  | .receive =>
      match state.phase with
      | .answered result => some { state with phase := receiveAnswer result }
      | _ => none
  | .fetchFails error =>
      if state.phase.fetching then some { state with phase := .polled (.error error) } else none
  | .reload outcome =>
      match state.phase with
      | .fetched result =>
          match reloadFromBytes sha256 state.pipeline result.yaml outcome with
          | .error error => some { state with phase := .polled (.error error) }
          | .ok pipeline => some { state with
              pipeline
              phase := .polled (.ok result)
              applied := result.version }
      | _ => none
  | .record =>
      match state.phase with
      | .polled result => some (recordResult state result)
      | _ => none

/-- No version, and a gateway that serves the probes only. -/
def initial : State Digest :=
  ⟨[], "", ⟨"", 0, none, 0⟩, probePipeline, .idle, 0, 0, (probePipeline, "", 0)⟩

/-- The poller of one gateway and the history of its environment. -/
def system (sha256 : String → Digest) (env : String) : System (State Digest) Event :=
  .ofStep (· = initial) (step sha256 env)

end Restitch.Hotreload
