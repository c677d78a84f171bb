import Restitch.Studio.PublishedFile
import Restitch.Studio.RequiredNamesExact

/-!
# The names of published versions (`internal/studio/draft.go`, `publish.go`)

Every write of a draft checks its resources first, so a publish renders checked ones and a
rollback copies what a publish rendered.
-/

namespace Restitch.Studio

open Restitch.Semantics Restitch.Std

variable {Body : Type}

/-- The draft and the versions of a server. -/
structure ServerState (Body : Type) where
  draft : DraftState Body
  versions : State

inductive ServerEvent (Body : Type) where
  | draft (event : DraftEvent Body)
  /-- An event of a publish or a rollback, other than reading the draft. -/
  | version (event : Event)
  /-- A publish reads the draft. -/
  | readDraft (id : CallId)

section Server

variable (check : Kind → String → Body → Bool) (assemble : List (Resource Body) → String)
  (validateArtifact : String → Bool)

/-- A handler writes only resources that it has checked: one in a save, all those of a document
in an import or a promote. -/
def DraftEvent.checked : DraftEvent Body → Bool
  | .save key _ body => check key.kind key.name body
  | .selectRevisions _ _ resources =>
      resources.all fun resource => check resource.kind resource.name resource.body
  | .read _ | .delete _ _ | .deleteDraft _ | .insertResource _ | .commit _ | .rollback _ => true

def serverStep (state : ServerState Body) : ServerEvent Body → Option (ServerState Body)
  | .draft event =>
      if event.checked check then
        (draftStep state.draft event).map fun draft => { state with draft }
      else none
  | .version (.draft _ _) => none
  | .version event =>
      (step validateArtifact state.versions event).map fun versions => { state with versions }
  | .readDraft id =>
      (state.versions.calls id).bind fun call =>
        (step validateArtifact state.versions
          (.draft id (assemble (draftResources state.draft call.request.environment)))).map
            fun versions => { state with versions }

/-- Any number of clients on the draft and the versions. -/
def serverSystem : System (ServerState Body) (ServerEvent Body) :=
  .ofStep (· = ⟨emptyDraft, initial⟩) (serverStep check assemble validateArtifact)

end Server

/-! ### A draft holds checked resources -/

section Checked

variable {check : Kind → String → Body → Bool}

/-- The rows that a log inserts are checked. -/
def LogChecked (check : Kind → String → Body → Bool) (log : WriteLog Body) : Prop :=
  ∀ key row, (key, some row) ∈ log → check key.kind key.name row.body = true

def ResourcesChecked (check : Kind → String → Body → Bool) (resources : List (Resource Body)) :
    Prop :=
  ∀ resource ∈ resources, check resource.kind resource.name resource.body = true

/-- What a replacement is about to write is checked. -/
def Replacement.Checked (check : Kind → String → Body → Bool) : Replacement Body → Prop
  | .idle => True
  | .selected _ resources _ => ResourcesChecked check resources
  | .inserting _ remaining _ log => ResourcesChecked check remaining ∧ LogChecked check log

structure DraftChecked (check : Kind → String → Body → Bool) (state : DraftState Body) : Prop where
  rows : ∀ key row, state.rows.lookup key = some row → check key.kind key.name row.body = true
  pending : ∀ call, (state.transactions call).Checked check

variable {state next : DraftState Body}

/-- A checked write keeps the draft checked. -/
theorem DraftChecked.write (prior : DraftChecked check state) {key : ResourceKey}
    {written : Option (ResourceRow Body)}
    (isChecked : ∀ row, written = some row → check key.kind key.name row.body = true) :
    DraftChecked check (state.write key written) where
  rows := by
    intro other row found
    by_cases same : other = key
    · subst same
      rw [lookup_write_self] at found
      exact isChecked row found
    · rw [lookup_write_of_ne _ same] at found
      exact prior.rows other row found
  pending := by
    cases written <;> exact prior.pending

/-- A checked log keeps the draft checked. -/
theorem DraftChecked.apply (prior : DraftChecked check state) {log : WriteLog Body}
    (isChecked : LogChecked check log) : DraftChecked check (state.apply log) := by
  induction log with
  | nil => exact prior
  | cons entry older ih =>
      obtain ⟨key, row⟩ := entry
      refine (ih fun key row member => isChecked key row (List.mem_cons_of_mem _ member)).write ?_
      rintro row rfl
      exact isChecked key row List.mem_cons_self

/-- A transaction moves on to something checked, whatever happens to the locks. -/
theorem DraftChecked.update (prior : DraftChecked check state) (call : TransactionId)
    (replacement : Replacement Body) (locks : ResourceKey → Option TransactionId)
    (isChecked : replacement.Checked check) :
    DraftChecked check { state with
      transactions := Function.update state.transactions call replacement, locks } where
  rows := prior.rows
  pending := by
    intro other
    dsimp only
    by_cases same : other = call
    · subst same
      rw [Function.update_self]
      exact isChecked
    · rw [Function.update_of_ne same]
      exact prior.pending other

/-- Closing a transaction keeps the draft checked. -/
theorem DraftChecked.close (prior : DraftChecked check state) (call : TransactionId) :
    DraftChecked check (state.close call) :=
  prior.update call .idle _ trivial

/-- Every statement on the draft keeps it checked. -/
theorem DraftChecked.step {event : DraftEvent Body} (prior : DraftChecked check state)
    (checked : event.checked check = true) (stepped : draftStep state event = some next) :
    DraftChecked check next := by
  cases draftMove_of_step stepped with
  | copied => exact ⟨prior.rows, prior.pending⟩
  | missing | refused | kept => exact prior
  | saved =>
      refine prior.write ?_
      rintro row ⟨rfl⟩
      exact checked
  | deleted => exact prior.write fun row impossible => by cases impossible
  | @selected call environment resources =>
      exact prior.update call (.selected environment resources _) state.locks
        (List.all_eq_true.mp checked)
  | @cleared call environment resources revisions selected =>
      have known := prior.pending call
      rw [selected] at known
      refine prior.update call (.inserting environment resources revisions _) _ ⟨known, ?_⟩
      intro key row member
      obtain ⟨other, -, same⟩ := List.mem_map.mp member
      cases same
  | @inserted call environment resource remaining revisions log inserting =>
      have known := prior.pending call
      rw [inserting] at known
      obtain ⟨here, behind⟩ := List.forall_mem_cons.mp known.1
      refine prior.update call (.inserting environment remaining revisions _) _ ⟨behind, ?_⟩
      intro key row member
      rcases List.mem_cons.mp member with same | older
      · cases same
        exact here
      · exact known.2 key row older
  | @committed call _ _ _ inserting =>
      have known := prior.pending call
      rw [inserting] at known
      exact (prior.apply known.2).close call
  | @taken call | @rolledBack call => exact prior.close call

/-- The empty draft is checked. -/
theorem draftChecked_empty : DraftChecked check emptyDraft where
  rows := fun key row found => by cases found
  pending := fun _ => trivial

/-- The resources that a publish reads are checked. -/
theorem DraftChecked.draftResources (prior : DraftChecked check state) (environment : String) :
    ResourcesChecked check (draftResources state environment) := by
  intro resource member
  have listed := (List.perm_insertionSort Resource.le _).mem_iff.mp member
  obtain ⟨⟨key, row⟩, isRow, rfl⟩ := List.mem_map.mp listed
  exact prior.rows key row (AList.mem_lookup_iff.mpr (List.mem_filter.mp isRow).1)

end Checked

/-! ### A version holds a rendered draft -/

section Rendered

variable {validateArtifact : String → Bool} {rendered : String → Prop} {state next : State}

/-- The documents in the table and in the calls. -/
structure DocsRendered (rendered : String → Prop) (state : State) : Prop where
  stored : ∀ row ∈ state.table, rendered row.yaml
  held : ∀ id call doc, state.calls id = some call → call.phase.doc? = some doc → rendered doc

/-- A statement keeps the document of its call or takes that of a row. -/
theorem runStatement_doc {environments : List String} {table table' : List VersionRow}
    {id : CallId} {call : Call} {phase : Phase}
    (ran : runStatement validateArtifact environments table id call = some (table', phase)) :
    (∀ doc, phase.doc? = some doc →
      call.phase.doc? = some doc ∨ ∃ row ∈ table, row.yaml = doc) ∧
    ∀ row ∈ table', row ∈ table ∨ call.phase.doc? = some row.yaml := by
  cases statementMove_of_run ran with
  | environment | fails => exact ⟨nofun, fun row member => .inl member⟩
  | latest at_ | numbered at_ | again at_ =>
      rw [at_]
      exact ⟨fun doc isDoc => .inl isDoc, fun row member => .inl member⟩
  | previewed at_ =>
      refine ⟨fun doc isDoc => .inl ?_, fun row member => .inl member⟩
      rcases at_ with at_ | ⟨number, at_⟩ <;> rw [at_] <;> exact isDoc
  | old _ _ found =>
      refine ⟨fun doc isDoc => .inr ⟨_, selectVersion_mem found, ?_⟩, fun row member => .inl member⟩
      cases isDoc
      rfl
  | inserted at_ =>
      rw [at_]
      refine ⟨fun doc isDoc => .inl isDoc, fun row member => ?_⟩
      rcases List.mem_append.mp member with old | new
      · exact .inl old
      · obtain rfl := List.mem_singleton.mp new
        exact .inr rfl

/-- A call moves on to a phase that holds a rendered document or none. -/
theorem DocsRendered.setPhase (prior : DocsRendered rendered state) (id : CallId) (call : Call)
    {phase : Phase} {table : List VersionRow} (stored : ∀ row ∈ table, rendered row.yaml)
    (isRendered : ∀ doc, phase.doc? = some doc → rendered doc) :
    DocsRendered rendered { state.setPhase id call phase with table } where
  stored := stored
  held := by
    intro other otherCall doc present isDoc
    by_cases same : other = id
    · subst same
      simp only [State.setPhase, Function.update_self, Option.some.injEq] at present
      subst present
      exact isRendered doc isDoc
    · simp only [State.setPhase, Function.update_of_ne same] at present
      exact prior.held other otherCall doc present isDoc

/-- There is nothing to render at the start. -/
theorem docsRendered_initial : DocsRendered rendered initial where
  stored := by simp [initial]
  held := fun id call doc present => by cases present

/-- Every event keeps the documents rendered, if the draft that it reads is. -/
theorem DocsRendered.step {event : Event} (prior : DocsRendered rendered state)
    (read : ∀ id doc, event = .draft id doc → rendered doc)
    (stepped : step validateArtifact state event = some next) : DocsRendered rendered next := by
  cases event with
  | createEnvironment env =>
      simp only [Studio.step] at stepped
      split at stepped <;> cases stepped
      exact ⟨prior.stored, prior.held⟩
  | begin id request =>
      simp only [Studio.step] at stepped
      split at stepped <;> cases stepped
      refine prior.setPhase id _ prior.stored fun doc => ?_
      cases request <;> intro impossible <;> cases impossible
  | statement id =>
      simp only [Studio.step, Option.bind_eq_some_iff, Option.map_eq_some_iff] at stepped
      obtain ⟨call, present, ⟨table, phase⟩, ran, rfl⟩ := stepped
      obtain ⟨docs, rows⟩ := runStatement_doc ran
      refine prior.setPhase id call (fun row member => ?_) fun doc isDoc => ?_
      · rcases rows row member with old | held
        · exact prior.stored row old
        · exact prior.held id call _ present held
      · rcases docs doc isDoc with held | ⟨row, member, rfl⟩
        · exact prior.held id call doc present held
        · exact prior.stored row member
  | draft id doc =>
      simp only [Studio.step, Option.bind_eq_some_iff] at stepped
      obtain ⟨call, -, stepped⟩ := stepped
      split at stepped <;> cases stepped
      refine prior.setPhase id call prior.stored ?_
      rintro other ⟨rfl⟩
      exact read id doc rfl
  | error id =>
      simp only [Studio.step, Option.bind_eq_some_iff] at stepped
      obtain ⟨call, -, stepped⟩ := stepped
      split at stepped <;> cases stepped
      exact prior.setPhase id call prior.stored fun doc impossible => by cases impossible

end Rendered

/-! ### Exactness for a published version -/

section Published

variable {Value : Type} {yaml : Yaml Value} {decodes : Kind → String → GoMap String Value → Bool}
  {validateArtifact : String → Bool} {state next : ServerState (GoMap String Value)}

/-- `checkResource` finds nothing. -/
def accepts (yaml : Yaml Value) (decodes : Kind → String → GoMap String Value → Bool)
    (kind : Kind) (name : String) (body : GoMap String Value) : Bool :=
  checkResource yaml decodes kind name body = .ok ()

/-- The draft that a publish reads is one whose text YAML writes and reads as bodies with the
texts they have alone. -/
def ReadsFaithful (yaml : Yaml Value) (state : ServerState (GoMap String Value))
    (event : ServerEvent (GoMap String Value)) : Prop :=
  ∀ id call, event = .readDraft id → state.versions.calls id = some call →
    YamlFaithful yaml (artifactDoc (draftResources state.draft call.request.environment))

/-- A text that is rendered from checked resources. -/
def RenderedChecked (yaml : Yaml Value) (decodes : Kind → String → GoMap String Value → Bool)
    (doc : String) : Prop :=
  ∃ resources : List (Resource (GoMap String Value)),
    ResourcesChecked (accepts yaml decodes) resources ∧
      YamlFaithful yaml (artifactDoc resources) ∧
      doc = assembleArtifact yaml.marshalDoc resources

/-- Server states with checked drafts and versions rendered from such. -/
structure ServerInvariant (yaml : Yaml Value)
    (decodes : Kind → String → GoMap String Value → Bool)
    (state : ServerState (GoMap String Value)) : Prop where
  draft : DraftChecked (accepts yaml decodes) state.draft
  versions : DocsRendered (RenderedChecked yaml decodes) state.versions

/-- Every event keeps the invariant. -/
theorem ServerInvariant.step {event : ServerEvent (GoMap String Value)}
    (prior : ServerInvariant yaml decodes state) (faithful : ReadsFaithful yaml state event)
    (stepped : serverStep (accepts yaml decodes) (assembleArtifact yaml.marshalDoc)
      validateArtifact state event = some next) : ServerInvariant yaml decodes next := by
  cases event with
  | draft event =>
      simp only [serverStep] at stepped
      split at stepped
      · rename_i checked
        obtain ⟨draft, moved, rfl⟩ := Option.map_eq_some_iff.mp stepped
        exact ⟨prior.draft.step checked moved, prior.versions⟩
      · cases stepped
  | version event =>
      cases event with
      | draft => cases stepped
      | createEnvironment | begin | statement | error =>
          obtain ⟨versions, moved, rfl⟩ := Option.map_eq_some_iff.mp stepped
          exact ⟨prior.draft, prior.versions.step (fun id doc isDraft => by cases isDraft) moved⟩
  | readDraft id =>
      simp only [serverStep, Option.bind_eq_some_iff, Option.map_eq_some_iff] at stepped
      obtain ⟨call, present, versions, moved, rfl⟩ := stepped
      refine ⟨prior.draft, prior.versions.step ?_ moved⟩
      rintro _ _ ⟨rfl, rfl⟩
      exact ⟨_, prior.draft.draftResources _, faithful id call rfl present, rfl⟩

/-- The names listed for a version are those that a gateway needs for it, in every run in which
YAML keeps the texts of the drafts that are published. -/
theorem requiredNames_of_version_exact (yaml : Yaml Value)
    (decodes : Kind → String → GoMap String Value → Bool) (validateArtifact : String → Bool)
    (state : ServerState (GoMap String Value))
    (reached : ((serverSystem (accepts yaml decodes) (assembleArtifact yaml.marshalDoc)
      validateArtifact).restrict (ReadsFaithful yaml)).Reachable state) :
    ∀ row ∈ state.versions.table, ∃ resources names,
      splitArtifact yaml row.yaml = .ok resources ∧
        requiredNames yaml resources = .ok names ∧ NamesExact names row.yaml.toList := by
  have invariant : ServerInvariant yaml decodes state := by
    refine reached.induction (ServerInvariant yaml decodes) ?_ ?_
    · intro state valid
      obtain rfl : state = ⟨emptyDraft, initial⟩ := valid
      exact ⟨draftChecked_empty, docsRendered_initial⟩
    · intro state event next _ prior transition
      exact prior.step transition.2 transition.1
  intro row member
  obtain ⟨resources, checked, faithful, isDoc⟩ := invariant.versions.stored row member
  rw [isDoc]
  exact exists_namesExact (fun resource isResource =>
    of_decide_eq_true (checked resource isResource)) faithful

end Published

/-! ### A version with one upstream -/

/-- Texts and mappings. -/
inductive TextNode where
  | text (value : String)
  | map (fields : List (String × TextNode))

def TextNode.asMap : TextNode → Option (GoMap String TextNode)
  | .text _ => none
  | .map fields => some (fields.map fun field => ⟨field.1, field.2⟩).toAList

/-- The lines of the fields of a body that are texts. -/
def textLines (indent : String) (body : GoMap String TextNode) : List String :=
  yamlLines (fun key node =>
    match node with
    | .text value => yamlField indent key value
    | .map _ => []) body

/-- A url with two references, one with a default. -/
def usersUrl : String := "https://$\x7bHOST\x7d/$\x7bBASE:-api\x7d"

def usersBody : GoMap String TextNode := AList.singleton "url" (.text usersUrl)

/-- The text of an artifact with the upstream. -/
def usersText : String := "upstreams:\n    users:\n        url: " ++ usersUrl ++ "\n"

/-- The upstreams as they are read. -/
def usersNode : TextNode := .map [("users", .map [("url", .text usersUrl)])]

def readUsers (text : String) : Except String (GoMap String TextNode) :=
  if text = usersText then .ok (AList.singleton "upstreams" usersNode)
  else .error "not the artifact"

/-- YAML, as far as the artifact needs it. -/
def usersYaml : Yaml TextNode where
  marshalBody body := .ok (String.join (textLines "" body))
  marshalDoc doc := String.join (yamlLines (fun key value =>
    match value with
    | .field (.text value) => yamlField "" key value
    | .field (.map _) => []
    | .body body => (key ++ ":\n") :: textLines "    " body
    | .bodies bodies => (key ++ ":\n") :: yamlLines (fun name body =>
        ("    " ++ name ++ ":\n") :: textLines "        " body) bodies) doc)
  unmarshal := readUsers
  asMap := TextNode.asMap

/-- The document of the artifact. -/
def usersDoc : GoMap String (DocValue TextNode) :=
  AList.singleton "upstreams" (.bodies (AList.singleton "users" usersBody))

theorem marshalDoc_usersDoc : usersYaml.marshalDoc usersDoc = usersText := by decide

theorem marshalBody_usersBody :
    usersYaml.marshalBody usersBody = .ok ("url: " ++ usersUrl ++ "\n") := by decide

example : requiredNames usersYaml [⟨.upstream, "users", usersBody⟩] =
    .ok [⟨"BASE".toList, true, ["upstream/users"]⟩, ⟨"HOST".toList, false, ["upstream/users"]⟩] := by
  decide

theorem yamlFaithful_usersDoc : YamlFaithful usersYaml usersDoc where
  layout := by
    intro text _ marshalled
    have isText : text usersBody = "url: " ++ usersUrl ++ "\n" := by
      have isBody := marshalled usersBody List.mem_cons_self
      rw [marshalBody_usersBody] at isBody
      exact (Except.ok.inj isBody).symm
    refine ⟨[usersBody], List.Perm.refl _, ?_⟩
    have isDoc : (usersYaml.marshalDoc usersDoc).toList =
        "upstreams:\n    users:\n        ".toList ++ ((text usersBody).toList ++ []) := by
      rw [marshalDoc_usersDoc, isText]
      decide
    rw [isDoc]
    exact .text (by decide) (.refl _) (.markup (by decide))
  reread := by
    refine ⟨AList.singleton "upstreams" usersNode, usersDoc.entries, ?_, List.Perm.refl _, ?_⟩
    · rw [marshalDoc_usersDoc]
      exact (if_pos rfl : readUsers usersText = _)
    · refine .cons ⟨rfl, .bodies rfl (List.Perm.refl _) (.cons ⟨rfl, _, rfl, ?_⟩ .nil)⟩ .nil
      exact marshalBody_usersBody


/-- The upstream is saved and the draft is published, up to the read of the draft. -/
def publishUsers : List (ServerEvent (GoMap String TextNode)) :=
  [.version (.createEnvironment "prod"), .draft (.save ⟨"prod", .upstream, "users"⟩ 0 usersBody),
   .version (.begin 0 (.publish "prod" "ada" "first")), .version (.statement 0)]

/-- The publish, from then on. -/
def storeUsers : List (ServerEvent (GoMap String TextNode)) :=
  [.version (.statement 0), .version (.statement 0), .version (.statement 0)]

/-- Version 1 is the artifact, and the names listed for it are exact. -/
theorem requiredNames_of_users_exact :
    ∃ state : ServerState (GoMap String TextNode),
      state.versions.table.map (·.yaml) = [usersText] ∧
      ∀ row ∈ state.versions.table, ∃ resources names,
        splitArtifact usersYaml row.yaml = .ok resources ∧
          requiredNames usersYaml resources = .ok names ∧ NamesExact names row.yaml.toList := by
  let decodes : Kind → String → GoMap String TextNode → Bool := fun _ _ _ => true
  let run := serverStep (accepts usersYaml decodes) (assembleArtifact usersYaml.marshalDoc)
    fun _ => true
  let before := (System.replay run ⟨emptyDraft, initial⟩ publishUsers).get (by decide)
  let read := (run before (.readDraft 0)).get (by decide)
  let state := (System.replay run read storeUsers).get (by decide)
  have started : ((System.ofStep (· = ⟨emptyDraft, initial⟩) run).restrict
      (ReadsFaithful usersYaml)).Reachable before :=
    System.reachable_of_allowed publishUsers (.initial rfl)
      (by simp [publishUsers, ReadsFaithful]) (Option.some_get _).symm
  have faithful : ReadsFaithful usersYaml before (.readDraft 0) := by
    rintro _ call ⟨rfl⟩ present
    obtain rfl : ⟨.publish "prod" "ada" "first", .draftResources⟩ = call := Option.some.inj present
    exact yamlFaithful_usersDoc
  have taken : run before (.readDraft 0) = some read := (Option.some_get _).symm
  have reached := System.reachable_of_allowed storeUsers (started.step ⟨taken, faithful⟩)
    (by simp [storeUsers, ReadsFaithful]) (Option.some_get (by decide)).symm
  exact ⟨state, by decide,
    requiredNames_of_version_exact usersYaml decodes (fun _ => true) state reached⟩

end Restitch.Studio
