import Mathlib.Data.List.Nodup
import Restitch.Studio.PublishCommand
import Restitch.Studio.VersionHistory

/-!
# What `restitch publish` publishes

The import puts the resources of the file in place of the draft, and the publish
stores what it reads there. As long as nobody writes the draft between the DELETE
of the import and that read, the stored document is the rendering of the file.
-/

namespace Restitch.Studio

open Restitch.Semantics Restitch.Std

variable {Body : Type}

/-! ### Resources by kind and name -/

def Resource.key (resource : Resource Body) : Kind × String := (resource.kind, resource.name)

/-- The body of a resource in a list. -/
def bodyOf (resources : List (Resource Body)) (kind : Kind) (name : String) : Option Body :=
  (resources.find? fun resource => resource.kind = kind && resource.name = name).map (·.body)

/-- What is seen under each kind and name is a list of resources, without
duplicates. -/
structure Shows (view : Kind → String → Option Body) (resources : List (Resource Body)) : Prop where
  unique : (resources.map Resource.key).Nodup
  bodies : ∀ kind name, view kind name = bodyOf resources kind name

/-- Different kinds have different names. -/
theorem Kind.text_injective : Function.Injective Kind.text := by
  intro first second same
  cases first <;> cases second <;> first | rfl | exact absurd same (by decide)

instance : Std.Total (@Resource.le Body) :=
  ⟨fun first second =>
    le_total (toLex (first.kind.text, first.name)) (toLex (second.kind.text, second.name))⟩

instance : IsTrans (Resource Body) Resource.le :=
  ⟨fun _ _ _ first second => le_trans first second⟩

/-- Sorting does not depend on the order that resources with different keys come in. -/
theorem sortResources_eq {first second : List (Resource Body)} (perm : first.Perm second)
    (unique : (second.map Resource.key).Nodup) : sortResources first = sortResources second := by
  have sorted : ∀ list : List (Resource Body), (sortResources list).Perm list :=
    fun list => List.perm_insertionSort _ _
  refine List.Perm.eq_of_pairwise ?_ (List.pairwise_insertionSort Resource.le first)
    (List.pairwise_insertionSort Resource.le second) ((sorted first).trans (perm.trans (sorted second).symm))
  intro left right inFirst inSecond below above
  have same := toLex.injective (le_antisymm below above)
  have kinds := Kind.text_injective (congrArg Prod.fst same)
  have names : left.name = right.name := congrArg Prod.snd same
  refine List.inj_on_of_nodup_map unique (perm.mem_iff.mp ((sorted first).mem_iff.mp inFirst))
    ((sorted second).mem_iff.mp inSecond) ?_
  rw [Resource.key, Resource.key, kinds, names]

/-- Of unique keys, the body found is that of the resource. -/
theorem bodyOf_eq_some_iff {resources : List (Resource Body)}
    (unique : (resources.map Resource.key).Nodup) {kind : Kind} {name : String} {body : Body} :
    bodyOf resources kind name = some body ↔ (⟨kind, name, body⟩ : Resource Body) ∈ resources := by
  rw [bodyOf, Option.map_eq_some_iff]
  constructor
  · rintro ⟨resource, found, rfl⟩
    have named := List.find?_some found
    simp only [Bool.and_eq_true, decide_eq_true_eq] at named
    obtain ⟨rfl, rfl⟩ := named
    exact List.mem_of_find?_eq_some found
  · intro member
    cases found : resources.find? fun resource => resource.kind = kind && resource.name = name with
    | none => exact absurd (List.find?_eq_none.mp found _ member) (by simp)
    | some other =>
        have named := List.find?_some found
        simp only [Bool.and_eq_true, decide_eq_true_eq] at named
        have same := List.inj_on_of_nodup_map unique (List.mem_of_find?_eq_some found) member
          (Prod.ext named.1 named.2)
        exact ⟨other, rfl, congrArg Resource.body same⟩

/-- A resource at the end is found if none before it has its key. -/
theorem bodyOf_append_singleton (resources : List (Resource Body)) (resource : Resource Body)
    (kind : Kind) (name : String) :
    bodyOf (resources ++ [resource]) kind name =
      (bodyOf resources kind name).or
        (if resource.kind = kind ∧ resource.name = name then some resource.body else none) := by
  simp only [bodyOf, List.find?_append, Option.map_or]
  congr 1
  by_cases named : resource.kind = kind ∧ resource.name = name
  · simp [named]
  · rw [if_neg named]
    simp [named]

/-- The rows of an environment have different kinds or names. -/
theorem nodup_environmentRows (draft : DraftState Body) (environment : String) :
    ((environmentRows draft environment).map Resource.key).Nodup := by
  rw [environmentRows, List.map_map]
  refine List.Nodup.map_on ?_ (draft.rows.nodupKeys.nodup.filter _)
  intro first inFirst second inSecond same
  have environments := (of_decide_eq_true (List.mem_filter.mp inFirst).2).trans
    (of_decide_eq_true (List.mem_filter.mp inSecond).2).symm
  have keys : first.1 = second.1 := by
    obtain ⟨⟨_, _, _⟩, _⟩ := first
    obtain ⟨⟨_, _, _⟩, _⟩ := second
    cases environments
    cases same
    rfl
  exact draft.rows.nodupKeys.eq_of_fst_eq (List.mem_filter.mp inFirst).1
    (List.mem_filter.mp inSecond).1 keys

/-- The rows of an environment are those the draft holds for it. -/
theorem mem_environmentRows {draft : DraftState Body} {environment : String}
    {resource : Resource Body} :
    resource ∈ environmentRows draft environment ↔
      (draft.rows.lookup ⟨environment, resource.kind, resource.name⟩).map (·.body) =
        some resource.body := by
  rw [environmentRows, List.mem_map, Option.map_eq_some_iff]
  constructor
  · rintro ⟨⟨⟨environment', kind, name⟩, row⟩, member, rfl⟩
    obtain ⟨listed, here⟩ := List.mem_filter.mp member
    cases of_decide_eq_true here
    exact ⟨row, GoMap.mem_entries_iff.mp listed, rfl⟩
  · rintro ⟨row, found, isBody⟩
    refine ⟨⟨⟨environment, resource.kind, resource.name⟩, row⟩, List.mem_filter.mpr
      ⟨GoMap.mem_entries_iff.mpr found, decide_eq_true rfl⟩, ?_⟩
    dsimp only
    rw [isBody]

/-- A draft that shows the resources is read as the resources. -/
theorem draftResources_eq {draft : DraftState Body} {environment : String}
    {resources : List (Resource Body)}
    (shows_ : Shows (fun kind name => (draft.rows.lookup ⟨environment, kind, name⟩).map (·.body))
      resources) : draftResources draft environment = sortResources resources := by
  refine sortResources_eq ((List.perm_ext_iff_of_nodup (nodup_environmentRows draft environment).of_map
    shows_.unique.of_map).mpr ?_) shows_.unique
  intro resource
  rw [mem_environmentRows, shows_.bodies, bodyOf_eq_some_iff shows_.unique]

/-! ### Statements of other clients -/

/-- A write leaves the transactions. -/
@[simp] theorem transactions_write (state : DraftState Body) (key : ResourceKey)
    (row : Option (ResourceRow Body)) :
    (state.write key row).transactions = state.transactions := by
  cases row <;> rfl

/-- Applying a log leaves the transactions. -/
@[simp] theorem transactions_apply (state : DraftState Body) (log : WriteLog Body) :
    (state.apply log).transactions = state.transactions := by
  induction log with
  | nil => rfl
  | cons entry older ih => rw [DraftState.apply, transactions_write, ih]

/-- Closing a transaction leaves the others. -/
theorem transactions_close {state : DraftState Body} {call other : TransactionId}
    (different : other ≠ call) : (state.close call).transactions other = state.transactions other :=
  Function.update_of_ne different _ _

/-- A statement of another call leaves a transaction alone. -/
theorem transactions_of_draftStep {state next : DraftState Body} {event : DraftEvent Body}
    {call : TransactionId} (stepped : draftStep state event = some next)
    (other : event.call? ≠ some call) : next.transactions call = state.transactions call := by
  have different {own : TransactionId} (isOwn : event.call? = some own) : call ≠ own :=
    fun same => other (isOwn.trans (congrArg some same.symm))
  cases draftMove_of_step stepped with
  | copied | missing | refused | kept => rfl
  | saved | deleted => rw [transactions_write]
  | selected | cleared | inserted => exact Function.update_of_ne (different rfl) _ _
  | taken | rolledBack => exact transactions_close (different rfl)
  | committed => rw [transactions_close (different rfl), transactions_apply]

/-- A statement that touches nothing of an environment leaves its rows alone. -/
theorem lookup_of_not_touches {state next : DraftState Body} {event : DraftEvent Body}
    {environment : String} (stepped : draftStep state event = some next)
    (spared : event.touches state environment = false) (kind : Kind) (name : String) :
    next.rows.lookup ⟨environment, kind, name⟩ = state.rows.lookup ⟨environment, kind, name⟩ := by
  refine lookup_of_draftStep stepped ?_
  cases event with
  | save key base body =>
      by_cases same : key = ⟨environment, kind, name⟩
      · subst same
        simpa [DraftEvent.touches, DraftEvent.writes] using spared
      · simp [DraftEvent.writes, same]
  | delete key base =>
      by_cases same : key = ⟨environment, kind, name⟩
      · subst same
        simpa [DraftEvent.touches, DraftEvent.writes] using spared
      · simp [DraftEvent.writes, same]
  | commit call =>
      cases at_ : state.transactions call with
      | inserting environment' remaining revisions log =>
          simp only [DraftEvent.touches, DraftEvent.writes, at_, List.any_eq_false,
            decide_eq_true_eq] at spared ⊢
          intro entry member same
          exact spared entry member (by rw [same])
      | idle | selected => simp [DraftEvent.writes, at_]
  | read | selectRevisions | deleteDraft | insertResource | rollback => rfl

/-! ### The statements of the import -/

section Import

variable {state next : DraftState Body} {call : TransactionId} {environment : String}

/-- What a transaction sees of an environment, by kind and name. -/
def viewOf (state : DraftState Body) (log : WriteLog Body) (environment : String) (kind : Kind)
    (name : String) : Option Body :=
  (state.view log ⟨environment, kind, name⟩).map (·.body)

/-- A log of deletes deletes its keys and no others. -/
theorem lookup_deletes (keys : List ResourceKey) (key : ResourceKey) :
    (keys.map fun key => (key, (none : Option (ResourceRow Body)))).lookup key =
      if key ∈ keys then some none else none := by
  induction keys with
  | nil => rfl
  | cons first rest ih =>
      rw [List.map_cons, List.lookup_cons]
      by_cases same : key = first
      · subst same
        simp
      · rw [beq_false_of_ne same]
        simpa [same] using ih

/-- After the DELETE the transaction sees an empty draft. -/
theorem shows_deletes (state : DraftState Body) (environment : String) :
    Shows (viewOf state ((state.draftKeys environment).map fun key => (key, none)) environment)
      [] := by
  refine ⟨List.nodup_nil, fun kind name => ?_⟩
  rw [viewOf, DraftState.view, lookup_deletes]
  split
  · rfl
  · rename_i kept
    have missing : state.rows.lookup ⟨environment, kind, name⟩ = none := by
      cases found : state.rows.lookup ⟨environment, kind, name⟩ with
      | none => rfl
      | some row =>
          refine absurd (List.mem_filter.mpr ⟨GoMap.mem_keys_iff.mpr ⟨row, found⟩, ?_⟩) kept
          exact decide_eq_true rfl
    rw [Option.getD_none, missing]
    rfl

/-- An INSERT under a free key adds its resource. -/
theorem Shows.insert {log : WriteLog Body} {done : List (Resource Body)} {resource : Resource Body}
    (shows_ : Shows (viewOf state log environment) done)
    (free : (state.view log ⟨environment, resource.kind, resource.name⟩).isSome = false)
    (revision : Nat) :
    Shows (viewOf state ((⟨environment, resource.kind, resource.name⟩,
      some ⟨revision, resource.body⟩) :: log) environment) (done ++ [resource]) := by
  have absent : bodyOf done resource.kind resource.name = none := by
    rw [Option.isSome_eq_false_iff, Option.isNone_iff_eq_none] at free
    rw [← shows_.bodies, viewOf, free]
    rfl
  constructor
  · rw [List.map_append]
    refine List.nodup_append.mpr ⟨shows_.unique, List.nodup_singleton _, ?_⟩
    intro first inDone second inNew same
    cases List.mem_singleton.mp inNew
    obtain ⟨other, listed, rfl⟩ := List.mem_map.mp inDone
    have kinds : other.kind = resource.kind := congrArg Prod.fst same
    have names : other.name = resource.name := congrArg Prod.snd same
    have found := (bodyOf_eq_some_iff shows_.unique).mpr listed
    rw [kinds, names, absent] at found
    cases found
  · intro kind name
    rw [bodyOf_append_singleton, ← shows_.bodies, viewOf, viewOf, DraftState.view, List.lookup_cons]
    by_cases named : resource.kind = kind ∧ resource.name = name
    · obtain ⟨rfl, rfl⟩ := named
      rw [beq_self_eq_true]
      have seen := shows_.bodies resource.kind resource.name
      rw [absent, viewOf] at seen
      simp [seen]
    · have different : (⟨environment, kind, name⟩ : ResourceKey) ≠
          ⟨environment, resource.kind, resource.name⟩ := by
        intro same
        injection same with _ kinds names
        exact named ⟨kinds.symm, names.symm⟩
      rw [beq_false_of_ne different, if_neg named, Option.or_none, DraftState.view]

/-- The view of a transaction does not change while the rows of its environment
stand still. -/
theorem viewOf_congr {log : WriteLog Body}
    (same : ∀ kind name, next.rows.lookup ⟨environment, kind, name⟩ =
      state.rows.lookup ⟨environment, kind, name⟩) :
    viewOf next log environment = viewOf state log environment := by
  funext kind name
  rw [viewOf, viewOf, DraftState.view, DraftState.view, same]

/-- What the COMMIT leaves is what the transaction saw. -/
theorem viewOf_commit (state : DraftState Body) (call : TransactionId) (log : WriteLog Body)
    (environment : String) :
    (fun kind name => (((state.apply log).close call).rows.lookup
      ⟨environment, kind, name⟩).map (·.body)) = viewOf state log environment := by
  funext kind name
  rw [rows_close, lookup_apply, viewOf]

end Import

/-! ### The document of a publish -/

/-- The document that a call is about to store or has stored. -/
def Phase.doc? : Phase → Option String
  | .latestNumber doc _ | .latestRow doc _ _ | .nextNumber _ doc => some doc
  | .insertRow _ version | .succeeded version => some version.yaml
  | .requireEnvironment | .draftResources | .oldRow | .failed _ => none

section Document

variable {validateArtifact : String → Bool} {state next : State} {id : CallId}

/-- An event of another call leaves a call alone. -/
theorem calls_of_step {event : Event} (stepped : step validateArtifact state event = some next)
    (other : event.call? ≠ some id) : next.calls id = state.calls id := by
  cases event with
  | createEnvironment env =>
      simp only [step] at stepped
      split at stepped <;> cases stepped
      rfl
  | begin own request =>
      have different : id ≠ own := fun same => other (congrArg some same.symm)
      simp only [step] at stepped
      split at stepped <;> cases stepped
      exact Function.update_of_ne different _ _
  | statement own =>
      have different : id ≠ own := fun same => other (congrArg some same.symm)
      obtain ⟨call, -, ran⟩ := Option.bind_eq_some_iff.mp stepped
      obtain ⟨⟨table, phase⟩, -, rfl⟩ := Option.map_eq_some_iff.mp ran
      exact Function.update_of_ne different _ _
  | draft own doc =>
      have different : id ≠ own := fun same => other (congrArg some same.symm)
      obtain ⟨call, -, ran⟩ := Option.bind_eq_some_iff.mp stepped
      split at ran <;> cases ran
      exact Function.update_of_ne different _ _
  | error own =>
      have different : id ≠ own := fun same => other (congrArg some same.symm)
      obtain ⟨call, -, ran⟩ := Option.bind_eq_some_iff.mp stepped
      split at ran <;> cases ran
      exact Function.update_of_ne different _ _

/-- A statement of a publish keeps the document it has read, or ends in an error;
only its first one leads to the read of the draft. -/
theorem doc_of_runStatement {environments : List String} {table table' : List VersionRow}
    {call : Call} {phase : Phase} {env author message : String}
    (publishes : call.request = .publish env author message)
    (ran : runStatement validateArtifact environments table id call = some (table', phase)) :
    (∀ doc, phase.doc? = some doc → call.phase.doc? = some doc) ∧
      (phase = .requireEnvironment ∨ phase = .draftResources →
        call.phase = .requireEnvironment) := by
  cases statementMove_of_run ran with
  | environment at_ => exact ⟨nofun, fun _ => at_⟩
  | latest at_ | numbered at_ | inserted at_ | again at_ =>
      rw [at_]
      refine ⟨fun doc isDoc => isDoc, ?_⟩
      rintro (impossible | impossible) <;> cases impossible
  | previewed at_ =>
      refine ⟨fun doc isDoc => ?_, ?_⟩
      · rcases at_ with at_ | ⟨number, at_⟩ <;> rw [at_] <;> exact isDoc
      · rintro (impossible | impossible) <;> cases impossible
  | old _ request => cases publishes.symm.trans request
  | fails =>
      refine ⟨nofun, ?_⟩
      rintro (impossible | impossible) <;> cases impossible

end Document

/-! ### The invariant of the command -/

section Command

variable {assemble : List (Resource Body) → String} {validateArtifact : String → Bool}
  {command : PublishCommand Body} {state next : CommandState Body}

/-- The draft is the file. -/
def DraftIsFile (command : PublishCommand Body) (draft : DraftState Body) : Prop :=
  Shows (fun kind name => (draft.rows.lookup ⟨command.environment, kind, name⟩).map (·.body))
    command.resources

/-- How far the import is. -/
def ImportOk (command : PublishCommand Body) (draft : DraftState Body) : Prop :=
  match draft.transactions command.transaction with
  | .idle => True
  | .selected environment resources _ =>
      environment = command.environment ∧ resources = command.resources
  | .inserting environment remaining _ log => environment = command.environment ∧
      ∃ done, done ++ remaining = command.resources ∧
        Shows (viewOf draft log command.environment) done

/-- How far the publish is. -/
structure PublishOk (assemble : List (Resource Body) → String) (command : PublishCommand Body)
    (draft : DraftState Body) (call : Call) : Prop where
  request : call.request = .publish command.environment command.author command.message
  doc : ∀ doc, call.phase.doc? = some doc → doc = assemble (sortResources command.resources)
  unread : call.phase = .requireEnvironment ∨ call.phase = .draftResources →
    DraftIsFile command draft

def CommandOk (assemble : List (Resource Body) → String) (command : PublishCommand Body)
    (state : CommandState Body) : Prop :=
  match state.phase with
  | .start | .stopped => state.versions.calls command.call = none
  | .importing => state.versions.calls command.call = none ∧ ImportOk command state.draft
  | .imported => state.versions.calls command.call = none ∧ DraftIsFile command state.draft
  | .publishing => ∃ call, state.versions.calls command.call = some call ∧
      PublishOk assemble command state.draft call

/-- Whether the draft is the file depends on the rows of the environment only. -/
theorem DraftIsFile.congr {draft draft' : DraftState Body} (isFile : DraftIsFile command draft)
    (same : ∀ kind name, draft'.rows.lookup ⟨command.environment, kind, name⟩ =
      draft.rows.lookup ⟨command.environment, kind, name⟩) : DraftIsFile command draft' := by
  refine ⟨isFile.unique, fun kind name => ?_⟩
  rw [same]
  exact isFile.bodies kind name

/-- Another client's statement on the draft. -/
theorem CommandOk.otherDraft (ok : CommandOk assemble command state) {event : DraftEvent Body}
    {draft : DraftState Body} (stepped : draftStep state.draft event = some draft)
    (other : event.call? ≠ some command.transaction)
    (spares : LeavesDraft command state (.otherDraft event)) :
    CommandOk assemble command { state with draft } := by
  have transaction := transactions_of_draftStep stepped other
  have rows : state.awaitsDraft command = true → ∀ kind name,
      draft.rows.lookup ⟨command.environment, kind, name⟩ =
        state.draft.rows.lookup ⟨command.environment, kind, name⟩ :=
    fun awaits => lookup_of_not_touches stepped (spares awaits)
  obtain ⟨before, versions, phase⟩ := state
  cases phase with
  | start | stopped => exact ok
  | importing =>
      obtain ⟨none_, imports⟩ := ok
      refine ⟨none_, ?_⟩
      simp only [ImportOk, transaction] at imports ⊢
      simp only [CommandState.awaitsDraft] at rows
      split at imports
      · trivial
      · exact imports
      · rename_i at_
        rw [at_] at rows
        obtain ⟨isEnvironment, done, isDone, shows_⟩ := imports
        refine ⟨isEnvironment, done, isDone, ?_⟩
        rw [viewOf_congr (rows rfl)]
        exact shows_
  | imported => exact ⟨ok.1, ok.2.congr (rows rfl)⟩
  | publishing =>
      obtain ⟨call, present, publishes⟩ := ok
      refine ⟨call, present, publishes.request, publishes.doc, fun unread => ?_⟩
      refine (publishes.unread unread).congr (rows ?_)
      change (versions.calls command.call).any _ = true
      rw [present]
      simpa using unread

/-- The statements of the import. -/
theorem ImportOk.statement {draft : DraftState Body} {event : DraftEvent Body} {phase : CommandPhase}
    (imports : ImportOk command state.draft) (isEvent : importEvent command state = some (event, phase))
    (stepped : draftStep state.draft event = some draft) :
    (phase = .importing ∧ ImportOk command draft) ∨
      (phase = .imported ∧ DraftIsFile command draft) := by
  unfold importEvent at isEvent
  unfold ImportOk at imports
  split at isEvent
  · cases isEvent
  · rename_i at_
    cases isEvent
    left
    refine ⟨rfl, ?_⟩
    rw [at_] at imports
    simp only [draftStep, at_, deleteDraft] at stepped
    split at stepped
    · cases stepped
      simp only [ImportOk, Function.update_self]
      obtain ⟨rfl, rfl⟩ := imports
      exact ⟨rfl, [], rfl, shows_deletes state.draft _⟩
    · cases stepped
  · rename_i at_
    cases isEvent
    left
    refine ⟨rfl, ?_⟩
    rw [at_] at imports
    obtain ⟨rfl, done, isDone, shows_⟩ := imports
    simp only [draftStep, at_, insertResource] at stepped
    split at stepped
    · split at stepped
      · cases stepped
        simp only [ImportOk, DraftState.close, Function.update_self]
      · rename_i free
        cases stepped
        simp only [ImportOk, Function.update_self]
        refine ⟨trivial, done ++ [_], ?_, shows_.insert (by simpa using free) _⟩
        rw [List.append_assoc]
        exact isDone
    · cases stepped
  · rename_i at_
    cases isEvent
    right
    refine ⟨rfl, ?_⟩
    rw [at_] at imports
    obtain ⟨rfl, done, isDone, shows_⟩ := imports
    rw [List.append_nil] at isDone
    subst isDone
    simp only [draftStep, at_] at stepped
    cases stepped
    rw [DraftIsFile, viewOf_commit]
    exact shows_

/-- Another client's publish or rollback. -/
theorem CommandOk.otherVersion (ok : CommandOk assemble command state) {versions : State}
    (same : versions.calls command.call = state.versions.calls command.call) :
    CommandOk assemble command { state with versions } := by
  obtain ⟨draft, before, phase⟩ := state
  cases phase with
  | start | stopped => exact same.trans ok
  | importing | imported => exact ⟨same.trans ok.1, ok.2⟩
  | publishing =>
      obtain ⟨call, present, publishes⟩ := ok
      exact ⟨call, same.trans present, publishes⟩

/-- The statements of the publish. -/
theorem PublishOk.statement {versions : State} {draft : DraftState Body} {call : Call}
    (publishes : PublishOk assemble command draft call)
    (present : state.versions.calls command.call = some call)
    (stepped : step validateArtifact state.versions (.statement command.call) = some versions) :
    ∃ moved, versions.calls command.call = some moved ∧ PublishOk assemble command draft moved := by
  obtain ⟨found, isFound, ran⟩ := Option.bind_eq_some_iff.mp stepped
  cases present.symm.trans isFound
  obtain ⟨⟨table, phase⟩, isPhase, rfl⟩ := Option.map_eq_some_iff.mp ran
  obtain ⟨keeps, unread⟩ := doc_of_runStatement publishes.request isPhase
  refine ⟨{ call with phase }, Function.update_self _ _ _, publishes.request, ?_, ?_⟩
  · intro doc isDoc
    exact publishes.doc doc (keeps doc isDoc)
  · intro waits
    exact publishes.unread (.inl (unread waits))

/-- Every event keeps the invariant, if other clients leave the draft alone. -/
theorem CommandOk.step {event : CommandEvent Body} (ok : CommandOk assemble command state)
    (spares : LeavesDraft command state event)
    (stepped : commandStep assemble validateArtifact command state event = some next) :
    CommandOk assemble command next := by
  cases event with
  | otherDraft event =>
      simp only [commandStep] at stepped
      split at stepped
      · cases stepped
      · rename_i other
        obtain ⟨draft, moved, rfl⟩ := Option.map_eq_some_iff.mp stepped
        exact ok.otherDraft moved other spares
  | otherVersion event =>
      simp only [commandStep] at stepped
      split at stepped
      · cases stepped
      · rename_i other
        obtain ⟨versions, moved, rfl⟩ := Option.map_eq_some_iff.mp stepped
        refine ok.otherVersion (calls_of_step moved fun own => other ?_)
        simp [own]
  | beginImport =>
      simp only [commandStep] at stepped
      split at stepped
      · rename_i phase
        obtain ⟨draft, moved, rfl⟩ := Option.map_eq_some_iff.mp stepped
        simp only [CommandOk, phase] at ok
        refine ⟨ok, ?_⟩
        simp only [draftStep] at moved
        split at moved
        · cases moved
          simp only [ImportOk, Function.update_self, and_self]
        · cases moved
      · cases stepped
  | importStatement =>
      simp only [commandStep] at stepped
      split at stepped
      · rename_i phase
        obtain ⟨⟨event, after⟩, isEvent, ran⟩ := Option.bind_eq_some_iff.mp stepped
        obtain ⟨draft, moved, rfl⟩ := Option.map_eq_some_iff.mp ran
        simp only [CommandOk, phase] at ok
        rcases ok.2.statement isEvent moved with ⟨rfl, imports⟩ | ⟨rfl, isFile⟩
        · exact ⟨ok.1, imports⟩
        · exact ⟨ok.1, isFile⟩
      · cases stepped
  | importError =>
      simp only [commandStep] at stepped
      split at stepped
      · rename_i phase
        obtain ⟨draft, -, rfl⟩ := Option.map_eq_some_iff.mp stepped
        simp only [CommandOk, phase] at ok
        exact ok.1
      · cases stepped
  | beginPublish =>
      simp only [commandStep] at stepped
      split at stepped
      · rename_i phase
        obtain ⟨versions, moved, rfl⟩ := Option.map_eq_some_iff.mp stepped
        simp only [CommandOk, phase] at ok
        simp only [Studio.step, ok.1] at moved
        cases moved
        refine ⟨_, Function.update_self _ _ _, rfl, ?_, fun _ => ok.2⟩
        intro doc impossible
        cases impossible
      · cases stepped
  | readDraft =>
      simp only [commandStep] at stepped
      split at stepped
      · rename_i phase
        obtain ⟨versions, moved, rfl⟩ := Option.map_eq_some_iff.mp stepped
        simp only [CommandOk, phase] at ok
        obtain ⟨call, present, publishes⟩ := ok
        simp only [Studio.step, present, Option.bind_some] at moved
        split at moved
        · rename_i reading
          cases moved
          refine ⟨_, Function.update_self _ _ _, publishes.request, ?_, ?_⟩
          · intro doc isDoc
            cases isDoc
            rw [draftResources_eq (publishes.unread (.inr reading))]
          · rintro (impossible | impossible) <;> cases impossible
        · cases moved
      · cases stepped
  | publishStatement =>
      simp only [commandStep] at stepped
      split at stepped
      · rename_i phase
        obtain ⟨versions, moved, rfl⟩ := Option.map_eq_some_iff.mp stepped
        simp only [CommandOk, phase] at ok
        obtain ⟨call, present, publishes⟩ := ok
        exact publishes.statement present moved
      · cases stepped
  | publishError =>
      simp only [commandStep] at stepped
      split at stepped
      · rename_i phase
        obtain ⟨versions, moved, rfl⟩ := Option.map_eq_some_iff.mp stepped
        simp only [CommandOk, phase] at ok
        obtain ⟨call, present, publishes⟩ := ok
        simp only [Studio.step, present, Option.bind_some] at moved
        split at moved
        · cases moved
          refine ⟨_, Function.update_self _ _ _, publishes.request, ?_, ?_⟩
          · intro doc impossible
            cases impossible
          · rintro (impossible | impossible) <;> cases impossible
        · cases moved
      · cases stepped

/-- The versions of a run are those of the versions table alone. -/
theorem reachable_versions
    (reached : (commandSystem assemble validateArtifact command).Reachable state) :
    (system validateArtifact).Reachable state.versions := by
  refine reached.induction (fun state => (system validateArtifact).Reachable state.versions) ?_ ?_
  · intro state valid
    cases valid
    exact .initial rfl
  · intro state event next _ prior stepped
    have onDraft : ∀ {event phase}, state.onDraft event phase = some next →
        (system validateArtifact).Reachable next.versions := by
      intro event phase moved
      obtain ⟨draft, -, rfl⟩ := Option.map_eq_some_iff.mp moved
      exact prior
    have onVersions : ∀ {event phase}, state.onVersions validateArtifact event phase = some next →
        (system validateArtifact).Reachable next.versions := by
      intro event phase ran
      obtain ⟨versions, moved, rfl⟩ := Option.map_eq_some_iff.mp ran
      exact prior.step moved
    change commandStep assemble validateArtifact command state event = some next at stepped
    cases event with
    | otherDraft | beginImport | importError =>
        simp only [commandStep] at stepped
        split at stepped <;> first | exact onDraft stepped | cases stepped
    | importStatement =>
        simp only [commandStep] at stepped
        split at stepped
        · obtain ⟨_, -, moved⟩ := Option.bind_eq_some_iff.mp stepped
          exact onDraft moved
        · cases stepped
    | otherVersion | beginPublish | readDraft | publishStatement | publishError =>
        simp only [commandStep] at stepped
        split at stepped <;> first | exact onVersions stepped | cases stepped

end Command

/-! ### The command publishes its file -/

section Published

variable {Value : Type}

/-- In every run in which no other client writes the draft of the environment
between the DELETE of the import and the read of the publish, the version that the
command reports is stored with the rendering of its file. -/
theorem publish_stores_file (marshal : GoMap String (DocValue Value) → String)
    (validateArtifact : String → Bool) (command : PublishCommand (GoMap String Value))
    (state : CommandState (GoMap String Value))
    (reached : ((commandSystem (assembleArtifact marshal) validateArtifact command).restrict
      (LeavesDraft command)).Reachable state) :
    PublishesFile (assembleArtifact marshal) command state := by
  have ok : CommandOk (assembleArtifact marshal) command state := by
    refine reached.induction (CommandOk (assembleArtifact marshal) command) ?_ ?_
    · intro state valid
      cases valid
      rfl
    · intro state event next _ ok transition
      exact ok.step transition.2 transition.1
  have history := historyInvariant (reachable_versions reached.of_restrict)
  intro call version present succeeded
  obtain ⟨draft, versions, phase⟩ := state
  cases phase with
  | start | stopped =>
      cases present.symm.trans ok
  | importing | imported => cases present.symm.trans ok.1
  | publishing =>
      obtain ⟨own, isOwn, publishes⟩ := ok
      cases present.symm.trans isOwn
      have isDoc := publishes.doc version.yaml (by rw [succeeded]; rfl)
      have stored := history.phases command.call call present
      rw [succeeded, publishes.request] at stored
      have selected := history.selectVersion_of_mem stored
      rw [← isDoc]
      exact congrArg (Option.map _) selected

end Published

/-! ### Another client between the import and the publish -/

/-- The lines of a mapping, in the order of its keys. -/
def yamlLines {α : Type} (lines : String → α → List String) (map : GoMap String α) : List String :=
  (map.keys.insertionSort (· ≤ ·)).flatMap fun key =>
    match map.lookup key with
    | some value => lines key value
    | none => []

def yamlField (indent key value : String) : List String := [indent ++ key ++ ": " ++ value ++ "\n"]

/-- `yaml.Marshal` of a document of plain texts. -/
def marshalTexts (doc : GoMap String (DocValue String)) : String :=
  String.join (yamlLines (fun key value =>
    match value with
    | .field text => yamlField "" key text
    | .body fields => (key ++ ":\n") :: yamlLines (yamlField "    ") fields
    | .bodies bodies => (key ++ ":\n") :: yamlLines (fun name fields =>
        ("    " ++ name ++ ":\n") :: yamlLines (yamlField "        ") fields) bodies) doc)

/-- A file with one upstream. -/
def usersFile : PublishCommand (GoMap String String) where
  environment := "prod"
  resources := [⟨.upstream, "users", AList.singleton "url" "http://a"⟩]
  author := "ci"
  message := "Release"
  transaction := 0
  call := 0

/-- The command, with the statements of another client between its import and its
publish. -/
def publishAround (between : List (CommandEvent (GoMap String String))) :
    List (CommandEvent (GoMap String String)) :=
  [.otherVersion (.createEnvironment "prod"), .beginImport, .importStatement, .importStatement,
   .importStatement] ++ between ++
  [.beginPublish, .publishStatement, .readDraft, .publishStatement, .publishStatement,
   .publishStatement]

/-- Undisturbed, version 1 is the file. -/
theorem publish_stores_file_undisturbed :
    ∃ state : CommandState (GoMap String String),
      ((state.versions.calls 0).map (·.phase)) = some (.succeeded
        ⟨1, "upstreams:\n    users:\n        url: http://a\n", "ci", "Release"⟩) ∧
      PublishesFile (assembleArtifact marshalTexts) usersFile state := by
  let state := (System.replay (System.guarded (commandStep (assembleArtifact marshalTexts)
    (fun _ => true) usersFile) (LeavesDraft usersFile)) ⟨emptyDraft, initial, .start⟩
      (publishAround [])).get (by decide)
  have reached : ((commandSystem (assembleArtifact marshalTexts) (fun _ => true) usersFile).restrict
      (LeavesDraft usersFile)).Reachable state :=
    System.reachable_of_guarded _ (.initial rfl) (Option.some_get _).symm
  exact ⟨state, by decide, publish_stores_file marshalTexts (fun _ => true) usersFile state reached⟩

/-- Another client saves the upstream after the import, and the command publishes
what that client saved. -/
theorem publish_stores_another_save :
    ¬ ∀ state, (commandSystem (assembleArtifact marshalTexts) (fun _ => true)
      usersFile).Reachable state → PublishesFile (assembleArtifact marshalTexts) usersFile state := by
  intro claimed
  let state := (System.replay (commandStep (assembleArtifact marshalTexts) (fun _ => true)
    usersFile) ⟨emptyDraft, initial, .start⟩ (publishAround [.otherDraft
      (.save ⟨"prod", .upstream, "users"⟩ 1 (AList.singleton "url" "http://b"))])).get (by decide)
  have reached : (commandSystem (assembleArtifact marshalTexts) (fun _ => true)
      usersFile).Reachable state :=
    System.reachable_of_replay _ (.initial rfl) (Option.some_get _).symm
  have stored := claimed state reached _ _ rfl rfl
  exact absurd stored (by decide)

end Restitch.Studio
