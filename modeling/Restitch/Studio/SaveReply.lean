import Restitch.Std.GoMap
import Restitch.Studio.DraftWrites

/-!
# What a save reports (`internal/studio/draft.go`)

`saveResource` writes with one statement and reads its answer with another, and
statements of other clients can fall between the two. Its answer is the row it
wrote as long as nobody writes the resource, and the database does not fail, until
it has read it.
-/

namespace Restitch.Studio

open Restitch.Semantics Restitch.Std

variable {Body : Type}

/-- How a save fails. -/
inductive SaveError where
  /-- A statement returned an error. -/
  | database
  /-- 404: `%s %q not found in %q` -/
  | notFound
  /-- 409: `%s %q exists: ...`, or `%s %q changed since you loaded it: ...` -/
  | conflict
deriving DecidableEq

/-- The statement a save runs next, or its answer. -/
inductive SavePhase (Body : Type) where
  /-- The INSERT or UPDATE. -/
  | write
  /-- `getResource`, after a write that took effect. -/
  | readBack
  /-- `missingOrStale`, after a write that matched no row. -/
  | explain
  | answered (answer : Except SaveError (ResourceRow Body))

/-- One call of `saveResource`. `wrote` records whether its statement took effect
and is read by no transition. -/
structure SaveCall (Body : Type) where
  key : ResourceKey
  base : Nat
  body : Body
  phase : SavePhase Body
  wrote : Bool

abbrev SaveId := Nat

structure SaveState (Body : Type) where
  draft : DraftState Body
  calls : GoMap SaveId (SaveCall Body)

inductive SaveEvent (Body : Type) where
  /-- A statement of another client. -/
  | other (event : DraftEvent Body)
  | begin (id : SaveId) (key : ResourceKey) (base : Nat) (body : Body)
  /-- The next statement of a save. -/
  | statement (id : SaveId)
  /-- The next statement of a save returns an error. -/
  | error (id : SaveId)

/-- `getResource`. -/
def getResource (draft : DraftState Body) (key : ResourceKey) : Except SaveError (ResourceRow Body) :=
  match draft.rows.lookup key with
  | some row => .ok row
  | none => .error .notFound

/-- `missingOrStale`. -/
def missingOrStale (draft : DraftState Body) (key : ResourceKey) : SaveError :=
  match getResource draft key with
  | .ok _ => .conflict
  | .error error => error

/-- A save after its INSERT or UPDATE. -/
def SaveCall.afterWrite (call : SaveCall Body) (effective : Bool) : SaveCall Body :=
  if effective then { call with phase := .readBack, wrote := true }
  else if call.base = 0 then { call with phase := .answered (.error .conflict) }
  else { call with phase := .explain }

def SaveState.setCall (state : SaveState Body) (id : SaveId) (call : SaveCall Body) :
    SaveState Body :=
  { state with calls := state.calls.insert id call }

/-- The next statement of a save. -/
def SaveState.runSave (state : SaveState Body) (id : SaveId) (call : SaveCall Body) :
    Option (SaveState Body) :=
  match call.phase with
  | .write =>
      (saveResource state.draft call.key call.base call.body).map fun draft =>
        { state.setCall id (call.afterWrite (saveTakesEffect state.draft call.key call.base)) with
          draft }
  | .readBack =>
      some (state.setCall id { call with phase := .answered (getResource state.draft call.key) })
  | .explain =>
      some (state.setCall id
        { call with phase := .answered (.error (missingOrStale state.draft call.key)) })
  | .answered _ => none

def saveStep (state : SaveState Body) : SaveEvent Body → Option (SaveState Body)
  | .other event => (draftStep state.draft event).map fun draft => { state with draft }
  | .begin id key base body =>
      match state.calls.lookup id with
      | some _ => none
      | none => some (state.setCall id ⟨key, base, body, .write, false⟩)
  | .statement id => (state.calls.lookup id).bind (state.runSave id)
  | .error id =>
      (state.calls.lookup id).bind fun call =>
        match call.phase with
        | .answered _ => none
        | _ => some (state.setCall id { call with phase := .answered (.error .database) })

/-- Any number of saves and other clients on one draft. -/
def saveSystem (Body : Type) : System (SaveState Body) (SaveEvent Body) :=
  .ofStep (· = ⟨emptyDraft, ∅⟩) saveStep

/-- The answer of a save is the row it wrote, and a save whose statement took
effect is answered with success. -/
def SaveCall.ReportsOwnWrite (call : SaveCall Body) : Prop :=
  ∀ answer, call.phase = .answered answer →
    (∀ row, answer = .ok row → row = ⟨call.base + 1, call.body⟩) ∧
      (call.wrote = true → ∃ row, answer = .ok row)

def SaveCall.isReadingBack (call : SaveCall Body) : Bool :=
  match call.phase with
  | .readBack => true
  | _ => false

/-- The statement of an event that can write to the draft. -/
def SaveEvent.draftEvent (state : SaveState Body) : SaveEvent Body → Option (DraftEvent Body)
  | .other event => some event
  | .statement id =>
      (state.calls.lookup id).bind fun call =>
        match call.phase with
        | .write => some (.save call.key call.base call.body)
        | _ => none
  | _ => none

/-- The event is an error of that save. -/
def SaveEvent.fails (id : SaveId) : SaveEvent Body → Bool
  | .error failing => failing = id
  | _ => false

/-- No statement writes a resource that a save is about to read back, and no such
read fails. -/
def LeavesReadBack (state : SaveState Body) (event : SaveEvent Body) : Prop :=
  ∀ entry ∈ state.calls.entries, entry.2.isReadingBack = true →
    ((event.draftEvent state).any fun written => written.writes state.draft entry.2.key) = false ∧
      event.fails entry.1 = false

instance (state : SaveState Body) (event : SaveEvent Body) :
    Decidable (LeavesReadBack state event) :=
  inferInstanceAs (Decidable (∀ entry ∈ state.calls.entries, _))

/-- What is known of a save in each phase. -/
def SaveCall.Ok (draft : DraftState Body) (call : SaveCall Body) : Prop :=
  match call.phase with
  | .write | .explain => call.wrote = false
  | .readBack => draft.rows.lookup call.key = some ⟨call.base + 1, call.body⟩
  | .answered _ => call.ReportsOwnWrite

def SaveInvariant (state : SaveState Body) : Prop :=
  ∀ id call, state.calls.lookup id = some call → call.Ok state.draft

/-- A save that reports its own row is all right. -/
theorem SaveCall.Ok.of_answered {draft : DraftState Body} {call : SaveCall Body}
    {answer : Except SaveError (ResourceRow Body)}
    (own : ∀ row, answer = .ok row → row = ⟨call.base + 1, call.body⟩)
    (success : call.wrote = true → ∃ row, answer = .ok row) :
    SaveCall.Ok draft { call with phase := .answered answer } := by
  intro other same
  cases same
  exact ⟨own, success⟩

/-- A save that has written nothing may be answered with any error. -/
theorem SaveCall.Ok.of_error {draft : DraftState Body} {call : SaveCall Body} {error : SaveError}
    (unwritten : call.wrote = false) :
    SaveCall.Ok draft { call with phase := .answered (.error error) } := by
  refine .of_answered ?_ ?_
  · intro row impossible
    cases impossible
  · intro wrote
    rw [unwritten] at wrote
    cases wrote

/-- Only a save that is about to read depends on the draft. -/
theorem SaveCall.Ok.draft {draft draft' : DraftState Body} {call : SaveCall Body}
    (ok : call.Ok draft)
    (same : call.isReadingBack = true →
      draft'.rows.lookup call.key = draft.rows.lookup call.key) : call.Ok draft' := by
  obtain ⟨key, base, body, phase, wrote⟩ := call
  cases phase with
  | write | explain | answered => exact ok
  | readBack => exact (same rfl).trans ok

/-- The invariant is one of each call. -/
theorem SaveInvariant.setCall {state : SaveState Body} {draft : DraftState Body} {id : SaveId}
    {call : SaveCall Body} (own : call.Ok draft)
    (others : ∀ other held, other ≠ id → state.calls.lookup other = some held → held.Ok draft) :
    SaveInvariant { state.setCall id call with draft } := by
  intro other held found
  simp only [SaveState.setCall] at found
  by_cases same : other = id
  · subst same
    rw [AList.lookup_insert] at found
    cases found
    exact own
  · rw [AList.lookup_insert_ne same] at found
    exact others other held same found

/-- The next statement of a save keeps the invariant. -/
theorem SaveInvariant.runSave {state next : SaveState Body} {id : SaveId} {call : SaveCall Body}
    (invariant : SaveInvariant state) (found : state.calls.lookup id = some call)
    (spares : LeavesReadBack state (.statement id)) (ran : state.runSave id call = some next) :
    SaveInvariant next := by
  have ok := invariant id call found
  obtain ⟨key, base, body, phase, wrote⟩ := call
  cases phase with
  | write =>
      obtain ⟨draft, saved, rfl⟩ := Option.map_eq_some_iff.mp ran
      refine SaveInvariant.setCall ?_ ?_
      · rcases saveResource_cases saved with ⟨effective, -, rfl⟩ | ⟨ineffective, rfl⟩
        · rw [effective]
          exact lookup_write_self _ _ _
        · rw [ineffective, SaveCall.afterWrite, if_neg Bool.false_ne_true]
          split
          · exact .of_error ok
          · exact ok
      · intro other held different isHeld
        refine (invariant other held isHeld).draft fun reading => ?_
        have spared := (spares ⟨other, held⟩ (GoMap.mem_entries_iff.mpr isHeld) reading).1
        simp only [SaveEvent.draftEvent, found, Option.bind_some, Option.any_some] at spared
        have stepped : draftStep state.draft (.save key base body) = some draft := saved
        exact lookup_of_draftStep stepped spared
  | readBack =>
      cases ran
      refine SaveInvariant.setCall ?_ fun other held _ isHeld => invariant other held isHeld
      have stored : state.draft.rows.lookup key = some ⟨base + 1, body⟩ := ok
      have read : getResource state.draft key = .ok ⟨base + 1, body⟩ := by
        rw [getResource, stored]
      refine .of_answered ?_ fun _ => ⟨_, read⟩
      intro row isRow
      dsimp only at isRow
      rw [read] at isRow
      cases isRow
      rfl
  | explain =>
      cases ran
      exact SaveInvariant.setCall (.of_error ok) fun other held _ isHeld => invariant other held isHeld
  | answered answer => cases ran

/-- Every event that leaves the read-back alone keeps the invariant. -/
theorem SaveInvariant.step {state next : SaveState Body} {event : SaveEvent Body}
    (invariant : SaveInvariant state) (spares : LeavesReadBack state event)
    (stepped : saveStep state event = some next) : SaveInvariant next := by
  cases event with
  | other event =>
      obtain ⟨draft, moved, rfl⟩ := Option.map_eq_some_iff.mp stepped
      intro id call found
      refine (invariant id call found).draft fun reading => ?_
      have spared := (spares ⟨id, call⟩ (GoMap.mem_entries_iff.mpr found) reading).1
      exact lookup_of_draftStep moved spared
  | begin id key base body =>
      simp only [saveStep] at stepped
      split at stepped
      · cases stepped
      · cases stepped
        exact SaveInvariant.setCall rfl fun other held _ isHeld => invariant other held isHeld
  | statement id =>
      obtain ⟨call, found, ran⟩ := Option.bind_eq_some_iff.mp stepped
      exact invariant.runSave found spares ran
  | error id =>
      obtain ⟨call, found, failed⟩ := Option.bind_eq_some_iff.mp stepped
      have ok := invariant id call found
      have others := fun other held (_ : other ≠ id) isHeld => invariant other held isHeld
      obtain ⟨key, base, body, phase, wrote⟩ := call
      cases phase with
      | write | explain =>
          cases failed
          exact SaveInvariant.setCall (.of_error ok) others
      | readBack =>
          have spared := (spares ⟨id, _⟩ (GoMap.mem_entries_iff.mpr found) rfl).2
          simp [SaveEvent.fails] at spared
      | answered => cases failed

/-- In every run in which nobody writes a resource between a save of it and the
read of its answer, and that read does not fail, every save that is answered
reports the row it wrote, and every save that took effect reports success. -/
theorem save_reports_own_write (state : SaveState Body)
    (reached : ((saveSystem Body).restrict LeavesReadBack).Reachable state) (id : SaveId)
    (call : SaveCall Body) (found : state.calls.lookup id = some call) : call.ReportsOwnWrite := by
  have invariant : SaveInvariant state := by
    refine System.Reachable.induction SaveInvariant ?_ ?_ reached
    · intro state valid
      cases valid
      intro id call found
      cases found
    · intro state event next _ invariant transition
      exact invariant.step transition.2 transition.1
  intro answer answered
  have ok := invariant id call found
  rw [SaveCall.Ok, answered] at ok
  exact ok answer answered

/-! ### Another client between the write and the read -/

def usersKey : ResourceKey := ⟨"prod", .upstream, "users"⟩

/-- A resource is created and saved with revision 1. -/
def savedAlone : List (SaveEvent String) :=
  [.other (.save usersKey 0 "a"), .begin 0 usersKey 1 "b", .statement 0, .statement 0]

/-- A save that is alone reports its own write. -/
theorem save_reports_own_write_alone :
    ∃ (state : SaveState String) (call : SaveCall String), state.calls.lookup 0 = some call ∧
      call.phase = .answered (.ok ⟨2, "b"⟩) ∧ call.ReportsOwnWrite := by
  let state := (System.replay (System.guarded saveStep LeavesReadBack) ⟨emptyDraft, ∅⟩
    savedAlone).get (by decide)
  have reached : ((saveSystem String).restrict LeavesReadBack).Reachable state :=
    System.reachable_of_guarded savedAlone (.initial rfl) (Option.some_get _).symm
  exact ⟨state, _, rfl, rfl, save_reports_own_write state reached 0 _ rfl⟩

/-- Another client's event comes between the statement of a save and its read. -/
def savedAround (event : DraftEvent String) : List (SaveEvent String) :=
  [.other (.save usersKey 0 "a"), .begin 0 usersKey 1 "b", .statement 0, .other event,
   .statement 0]

/-- A save of another client in between is what the first save reports; a delete
in between makes it report that the resource was not found. -/
theorem save_reports_another_write :
    (∃ state call, (saveSystem String).Reachable state ∧ state.calls.lookup 0 = some call ∧
      call.base = 1 ∧ call.body = "b" ∧ call.phase = .answered (.ok ⟨3, "c"⟩)) ∧
    ∃ state call, (saveSystem String).Reachable state ∧ state.calls.lookup 0 = some call ∧
      call.wrote = true ∧ call.phase = .answered (.error .notFound) := by
  refine ⟨?_, ?_⟩
  · let state := (System.replay saveStep ⟨emptyDraft, ∅⟩ (savedAround (.save usersKey 2 "c"))).get
      (by decide)
    have reached : (saveSystem String).Reachable state :=
      System.reachable_of_replay _ (.initial rfl) (Option.some_get _).symm
    exact ⟨state, _, reached, rfl, rfl, rfl, rfl⟩
  · let state := (System.replay saveStep ⟨emptyDraft, ∅⟩ (savedAround (.delete usersKey 2))).get
      (by decide)
    have reached : (saveSystem String).Reachable state :=
      System.reachable_of_replay _ (.initial rfl) (Option.some_get _).symm
    exact ⟨state, _, reached, rfl, rfl, rfl⟩

end Restitch.Studio
