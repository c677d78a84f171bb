import Mathlib.Data.Prod.Lex
import Mathlib.Data.String.Basic
import Mathlib.Data.List.Sort
import Restitch.Std.GoMap
import Restitch.Studio.DraftWrites
import Restitch.Studio.Versions

/-!
# `restitch publish` (`cmd/restitch/publish.go`)

The command imports a file into the draft of an environment and then publishes
the draft: two calls, with any statements of other clients around and between
theirs. The import is a call of `replaceDraft`, the publish a call of the versions
table whose document is what the draft renders as when it is read.
-/

namespace Restitch.Studio

open Restitch.Semantics Restitch.Std

variable {Value Body : Type}

/-! ### The artifact of a draft -/

/-- The column `kind`. -/
def Kind.text : Kind → String
  | .upstream => "upstream"
  | .composition => "composition"
  | .auth => "auth"
  | .rateLimit => "rate_limit"
  | .settings => "settings"

/-- The order of `ORDER BY kind, name`. -/
def Resource.le (first second : Resource Body) : Prop :=
  toLex (first.kind.text, first.name) ≤ toLex (second.kind.text, second.name)

instance (first second : Resource Body) : Decidable (first.le second) :=
  inferInstanceAs (Decidable (toLex _ ≤ toLex _))

/-- Resources in the order of `ORDER BY kind, name`. -/
def sortResources (resources : List (Resource Body)) : List (Resource Body) :=
  resources.insertionSort Resource.le

/-- The rows of an environment, as resources. -/
def environmentRows (draft : DraftState Body) (environment : String) : List (Resource Body) :=
  (draft.rows.entries.filter fun row => row.1.environment = environment).map fun row =>
    ⟨row.1.kind, row.1.name, row.2.body⟩

/-- `draftResources`. -/
def draftResources (draft : DraftState Body) (environment : String) : List (Resource Body) :=
  sortResources (environmentRows draft environment)

/-- A value of the artifact document. -/
inductive DocValue (Value : Type) where
  | field (value : Value)
  | body (fields : GoMap String Value)
  | bodies (bodies : GoMap String (GoMap String Value))

/-- The maps that `assembleArtifact` fills. -/
structure ArtifactParts (Value : Type) where
  doc : GoMap String (DocValue Value) := ∅
  upstreams : GoMap String (GoMap String Value) := ∅
  compositions : GoMap String (GoMap String Value) := ∅

/-- Add one resource. -/
def ArtifactParts.add (parts : ArtifactParts Value) (resource : Resource (GoMap String Value)) :
    ArtifactParts Value :=
  match resource.kind with
  | .upstream => { parts with upstreams := parts.upstreams.insert resource.name resource.body }
  | .composition =>
      { parts with compositions := parts.compositions.insert resource.name resource.body }
  | .auth => { parts with doc := parts.doc.insert "auth" (.body resource.body) }
  | .rateLimit => { parts with doc := parts.doc.insert "rate_limit" (.body resource.body) }
  | .settings =>
      { parts with
        doc := resource.body.entries.foldl (fun doc field => doc.insert field.1 (.field field.2))
          parts.doc }

/-- Set a key to a map, unless the map is empty. -/
def setUnlessEmpty (doc : GoMap String (DocValue Value)) (key : String)
    (bodies : GoMap String (GoMap String Value)) : GoMap String (DocValue Value) :=
  if bodies.entries.isEmpty then doc else doc.insert key (.bodies bodies)

/-- `assembleArtifact`, with `yaml.Marshal`. -/
def assembleArtifact (marshal : GoMap String (DocValue Value) → String)
    (resources : List (Resource (GoMap String Value))) : String :=
  let parts := resources.foldl ArtifactParts.add {}
  marshal (setUnlessEmpty (setUnlessEmpty parts.doc "upstreams" parts.upstreams) "compositions"
    parts.compositions)

/-! ### One run of the command -/

/-- What the command was given: `resources` is what `artifactResources` makes of
its file. The ids are those of its transaction and of its publish call. -/
structure PublishCommand (Body : Type) where
  environment : String
  resources : List (Resource Body)
  author : String
  message : String
  transaction : TransactionId
  call : CallId

inductive CommandPhase where
  /-- Before the import. -/
  | start
  | importing
  | imported
  | publishing
  /-- The import returned an error. -/
  | stopped
deriving DecidableEq

structure CommandState (Body : Type) where
  draft : DraftState Body
  versions : State
  phase : CommandPhase

inductive CommandEvent (Body : Type) where
  /-- A statement of another client on the draft. -/
  | otherDraft (event : DraftEvent Body)
  /-- An event of another client's publish or rollback. -/
  | otherVersion (event : Event)
  | beginImport
  /-- The next statement of the import. -/
  | importStatement
  | importError
  | beginPublish
  /-- The publish reads the draft. -/
  | readDraft
  /-- Another statement of the publish. -/
  | publishStatement
  | publishError

/-- The call of `replaceDraft` that an event belongs to. -/
def DraftEvent.call? : DraftEvent Body → Option TransactionId
  | .selectRevisions call _ _ | .deleteDraft call | .insertResource call | .commit call
  | .rollback call => some call
  | .read _ | .save _ _ _ | .delete _ _ => none

/-- The publish or rollback that an event belongs to. -/
def Event.call? : Event → Option CallId
  | .createEnvironment _ => none
  | .begin id _ | .statement id | .draft id _ | .error id => some id

section

variable (assemble : List (Resource Body) → String) (validateArtifact : String → Bool)
  (command : PublishCommand Body)

/-- A call reads the draft as it is. -/
def readsDraft (state : CommandState Body) : Event → Bool
  | .draft id doc => (state.versions.calls id).any fun call =>
      doc = assemble (draftResources state.draft call.request.environment)
  | _ => true

/-- The next statement of the import, and the phase behind it. -/
def importEvent (state : CommandState Body) : Option (DraftEvent Body × CommandPhase) :=
  match state.draft.transactions command.transaction with
  | .idle => none
  | .selected _ _ _ => some (.deleteDraft command.transaction, .importing)
  | .inserting _ (_ :: _) _ _ => some (.insertResource command.transaction, .importing)
  | .inserting _ [] _ _ => some (.commit command.transaction, .imported)

/-- A statement of the command on the draft. -/
def CommandState.onDraft (state : CommandState Body) (event : DraftEvent Body)
    (phase : CommandPhase) : Option (CommandState Body) :=
  (draftStep state.draft event).map fun draft => { state with draft, phase }

/-- An event on the versions table. -/
def CommandState.onVersions (state : CommandState Body) (event : Event) (phase : CommandPhase) :
    Option (CommandState Body) :=
  (step validateArtifact state.versions event).map fun versions => { state with versions, phase }

def commandStep (state : CommandState Body) : CommandEvent Body → Option (CommandState Body)
  | .otherDraft event =>
      if event.call? = some command.transaction then none else state.onDraft event state.phase
  | .otherVersion event =>
      if event.call? = some command.call || !readsDraft assemble state event then none
      else state.onVersions validateArtifact event state.phase
  | .beginImport =>
      if state.phase = .start then
        state.onDraft (.selectRevisions command.transaction command.environment command.resources)
          .importing
      else none
  | .importStatement =>
      if state.phase = .importing then
        (importEvent command state).bind fun (event, phase) => state.onDraft event phase
      else none
  | .importError =>
      if state.phase = .importing then state.onDraft (.rollback command.transaction) .stopped
      else none
  | .beginPublish =>
      if state.phase = .imported then
        state.onVersions validateArtifact (.begin command.call
          (.publish command.environment command.author command.message)) .publishing
      else none
  | .readDraft =>
      if state.phase = .publishing then
        state.onVersions validateArtifact (.draft command.call
          (assemble (draftResources state.draft command.environment))) .publishing
      else none
  | .publishStatement =>
      if state.phase = .publishing then
        state.onVersions validateArtifact (.statement command.call) .publishing
      else none
  | .publishError =>
      if state.phase = .publishing then
        state.onVersions validateArtifact (.error command.call) .publishing
      else none

/-- One run of the command among any other clients. -/
def commandSystem : System (CommandState Body) (CommandEvent Body) :=
  .ofStep (· = ⟨emptyDraft, initial, .start⟩) (commandStep assemble validateArtifact command)

/-- If the command prints `Published env version N.`, version `N` is stored with
the rendering of the file's resources. -/
def PublishesFile (state : CommandState Body) : Prop :=
  ∀ call version, state.versions.calls command.call = some call →
    call.phase = .succeeded version →
    (selectVersion state.versions.table command.environment version.number).map (·.yaml) =
      some (assemble (sortResources command.resources))

/-- The import has deleted the old draft and the publish has not read the new one
yet. -/
def CommandState.awaitsDraft (state : CommandState Body) : Bool :=
  match state.phase with
  | .importing =>
      match state.draft.transactions command.transaction with
      | .inserting _ _ _ _ => true
      | _ => false
  | .imported => true
  | .publishing => (state.versions.calls command.call).any fun call =>
      call.phase = .requireEnvironment || call.phase = .draftResources
  | .start | .stopped => false

/-- The statement takes effect on a resource of the environment. -/
def DraftEvent.touches (draft : DraftState Body) (environment : String) : DraftEvent Body → Bool
  | .save key base _ => key.environment = environment && saveTakesEffect draft key base
  | .delete key base =>
      key.environment = environment && (draft.rows.lookup key).any (·.revision = base)
  | .commit call =>
      match draft.transactions call with
      | .inserting _ _ _ log => log.any (·.1.environment = environment)
      | _ => false
  | _ => false

/-- No other client writes the draft of the environment between the DELETE of the import
and the read of the publish. -/
def LeavesDraft (state : CommandState Body) : CommandEvent Body → Prop
  | .otherDraft event => state.awaitsDraft command = true →
      event.touches state.draft command.environment = false
  | _ => True

instance (state : CommandState Body) (event : CommandEvent Body) :
    Decidable (LeavesDraft command state event) :=
  match event with
  | .otherDraft event => inferInstanceAs (Decidable (_ → DraftEvent.touches _ _ event = false))
  | .otherVersion _ | .beginImport | .importStatement | .importError | .beginPublish | .readDraft
  | .publishStatement | .publishError => .isTrue trivial

end

end Restitch.Studio
