import Mathlib.Algebra.Group.Nat.Defs
import Mathlib.Data.List.Range
import Restitch.Semantics.Transition

/-!
# Artifact versions (`internal/studio/publish.go`)

Publish and rollback calls run concurrently against the table
`studio_artifact_versions`. One event is one SQL statement of one call, which
takes effect atomically or returns an error and has no effect. `validateArtifact`
decides whether a document passes the gateway validator; it is a parameter, since
no property here depends on what it accepts.
-/

namespace Restitch.Studio

open Restitch.Semantics

/-- `composition.MaxArtifactBytes`: 10 MiB. -/
def maxArtifactBytes : Nat := 10 * 2 ^ 20

/-- Attempts of `writeVersion` before it gives up with 409. -/
def maxAttempts : Nat := 3

/-- Identifies one publish or rollback call. -/
abbrev CallId := Nat

/-- The version a call writes and returns (`artifactVersion`). -/
structure ArtifactVersion where
  number : Nat
  yaml : String
  author : String
  message : String
deriving DecidableEq, Repr

/-- A row of `studio_artifact_versions`, together with the call that inserted
it. The writer is not a column; it lets a statement speak about who wrote a row. -/
structure VersionRow extends ArtifactVersion where
  environment : String
  writer : CallId
deriving DecidableEq, Repr

/-- The rows of one environment, in the order they were inserted. -/
def versionsOf (table : List VersionRow) (env : String) : List VersionRow :=
  table.filter fun row => decide (row.environment = env)

/-- `SELECT MAX(number) ... WHERE environment = ?`. -/
def selectMaxNumber (table : List VersionRow) (env : String) : Option Nat :=
  ((versionsOf table env).map (·.number)).max?

/-- `SELECT COALESCE(MAX(number), 0) + 1 ... WHERE environment = ?`. -/
def selectNextNumber (table : List VersionRow) (env : String) : Nat :=
  (selectMaxNumber table env).getD 0 + 1

/-- `SELECT ... WHERE environment = ? AND number = ?`. -/
def selectVersion (table : List VersionRow) (env : String) (number : Nat) :
    Option VersionRow :=
  (versionsOf table env).find? fun row => decide (row.number = number)

/-- `INSERT ... ON CONFLICT (environment, number) DO NOTHING`: the table after
the statement, or `none` when no row was affected. -/
def insertVersion (table : List VersionRow) (row : VersionRow) : Option (List VersionRow) :=
  if (selectVersion table row.environment row.number).isSome then none
  else some (table ++ [row])

/-- What a client asked for. -/
inductive Request where
  | publish (env author message : String)
  | rollback (env author : String) (number : Nat)
deriving DecidableEq, Repr

def Request.environment : Request → String
  | .publish env _ _ => env
  | .rollback env _ _ => env

def Request.author : Request → String
  | .publish _ author _ => author
  | .rollback _ author _ => author

def Request.message : Request → String
  | .publish _ _ message => message
  | .rollback _ _ number => s!"Roll back to version {number}"

/-- How a call fails. -/
inductive CallError where
  /-- A statement, or the rendering of the draft or the diff, returned an error. -/
  | internal
  /-- 404: `environment %q not found`. -/
  | environmentNotFound
  /-- 404: `version %d of %q not found`. -/
  | versionNotFound
  /-- 422: `the draft is not valid: ...`, or `version %d no longer validates: %v`. -/
  | invalid
  /-- 409: `another publish to this environment ran at the same time: publish again`. -/
  | conflict
deriving DecidableEq, Repr

/-- The statement a call runs next, with the values it holds, or its outcome. -/
inductive Phase where
  /-- `preview`: `requireEnvironment`. -/
  | requireEnvironment
  /-- `preview`: `draftResources`. -/
  | draftResources
  /-- `preview`: `latestVersion` reads `MAX(number)`. -/
  | latestNumber (doc : String) (valid : Bool)
  /-- `preview`: `latestVersion` reads the row of that number. -/
  | latestRow (doc : String) (valid : Bool) (number : Nat)
  /-- `rollback`: `version` reads the old row. -/
  | oldRow
  /-- `writeVersion`: read the next number. -/
  | nextNumber (attempt : Nat) (doc : String)
  /-- `writeVersion`: insert the row. -/
  | insertRow (attempt : Nat) (version : ArtifactVersion)
  | failed (error : CallError)
  | succeeded (version : ArtifactVersion)
deriving DecidableEq, Repr

/-- One call and where it is. -/
structure Call where
  request : Request
  phase : Phase
deriving DecidableEq, Repr

/-- The tables and the calls that have begun. -/
structure State where
  environments : List String
  table : List VersionRow
  calls : CallId → Option Call

inductive Event where
  /-- `createEnvironment` succeeds. -/
  | createEnvironment (env : String)
  /-- A client sends a request. -/
  | begin (call : CallId) (request : Request)
  /-- The next statement of the call takes effect. -/
  | statement (call : CallId)
  /-- The draft of the call's environment was read and renders as `doc`. -/
  | draft (call : CallId) (doc : String)
  /-- The next statement of the call returns an error. -/
  | error (call : CallId)
deriving DecidableEq, Repr

/-- The draft passes the size limit and the gateway validator. -/
def previewValid (validateArtifact : String → Bool) (doc : String) : Bool :=
  decide (doc.utf8ByteSize ≤ maxArtifactBytes) && validateArtifact doc

/-- `publish` after its preview. -/
def afterPreview (doc : String) (valid : Bool) : Phase :=
  if valid then .nextNumber 0 doc else .failed .invalid

def Call.version (call : Call) (doc : String) (number : Nat) : ArtifactVersion :=
  ⟨number, doc, call.request.author, call.request.message⟩

/-- The effect of the next statement of a call on the table, and the phase after
it. The draft is read by `Event.draft`. -/
def runStatement (validateArtifact : String → Bool) (environments : List String)
    (table : List VersionRow) (id : CallId) (call : Call) : Option (List VersionRow × Phase) :=
  let env := call.request.environment
  match call.phase with
  | .requireEnvironment =>
      some (table, if env ∈ environments then .draftResources else .failed .environmentNotFound)
  | .latestNumber doc valid =>
      match selectMaxNumber table env with
      | none => some (table, afterPreview doc valid)
      | some number => some (table, .latestRow doc valid number)
  | .latestRow doc valid number =>
      match selectVersion table env number with
      | none => some (table, .failed .versionNotFound)
      | some _ => some (table, afterPreview doc valid)
  | .oldRow =>
      match call.request with
      | .publish .. => none
      | .rollback _ _ number =>
          match selectVersion table env number with
          | none => some (table, .failed .versionNotFound)
          | some old =>
              some (table, if validateArtifact old.yaml then .nextNumber 0 old.yaml
                else .failed .invalid)
  | .nextNumber attempt doc =>
      some (table, .insertRow attempt (call.version doc (selectNextNumber table env)))
  | .insertRow attempt version =>
      match insertVersion table ⟨version, env, id⟩ with
      | some table' => some (table', .succeeded version)
      | none =>
          some (table, if attempt + 1 < maxAttempts then .nextNumber (attempt + 1) version.yaml
            else .failed .conflict)
  | .draftResources | .failed _ | .succeeded _ => none

/-- A call that has not answered yet. -/
def Phase.running : Phase → Bool
  | .failed _ | .succeeded _ => false
  | _ => true

def State.setPhase (state : State) (id : CallId) (call : Call) (phase : Phase) : State :=
  { state with calls := Function.update state.calls id (some { call with phase }) }

/-- One event. An event that does not apply is refused. -/
def step (validateArtifact : String → Bool) (state : State) : Event → Option State
  | .createEnvironment env =>
      if env ∈ state.environments then none
      else some { state with environments := state.environments ++ [env] }
  | .begin id request =>
      match state.calls id with
      | some _ => none
      | none =>
          let phase := match request with
            | .publish .. => .requireEnvironment
            | .rollback .. => .oldRow
          some (state.setPhase id ⟨request, phase⟩ phase)
  | .statement id =>
      (state.calls id).bind fun call =>
        (runStatement validateArtifact state.environments state.table id call).map
          fun (table, phase) => { state.setPhase id call phase with table }
  | .draft id doc =>
      (state.calls id).bind fun call =>
        if call.phase = .draftResources then
          some (state.setPhase id call (.latestNumber doc (previewValid validateArtifact doc)))
        else none
  | .error id =>
      (state.calls id).bind fun call =>
        if call.phase.running then some (state.setPhase id call (.failed .internal)) else none

/-- No environment, no version and no call yet. -/
def initial : State := ⟨[], [], fun _ => none⟩

/-- The concurrent publish and rollback calls over the versions table. -/
def system (validateArtifact : String → Bool) : System State Event :=
  .ofStep (· = initial) (step validateArtifact)

end Restitch.Studio
