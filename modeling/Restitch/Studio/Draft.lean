import Mathlib.Data.List.AList
import Mathlib.Logic.Function.Basic
import Restitch.Semantics.Transition

/-!
# The draft of an environment (`internal/studio/draft.go`, `publish.go`)

Clients read, save and delete rows of `studio_resources`, and `replaceDraft`
(an import or a promote) exchanges all rows of an environment in one READ
COMMITTED transaction. One event is one SQL statement. A statement that finds a
row or a key held by an open transaction waits for it, so it is not enabled;
what a transaction wrote is visible to others when it commits.
-/

namespace Restitch.Studio

open Restitch.Semantics

/-- The kinds of `studio_resources`. -/
inductive Kind where
  | upstream
  | composition
  | auth
  | rateLimit
  | settings
deriving DecidableEq, Repr

/-- The primary key of `studio_resources`. -/
structure ResourceKey where
  environment : String
  kind : Kind
  name : String
deriving DecidableEq, Repr

variable {Body : Type}

/-- The columns of a row that a save reads or writes. -/
structure ResourceRow (Body : Type) where
  revision : Nat
  body : Body

/-- A resource of an imported or promoted document. -/
structure Resource (Body : Type) where
  kind : Kind
  name : String
  body : Body

/-- What a client holds after a read: the row, and how many writes of the
resource had taken effect by then. -/
structure Copy (Body : Type) where
  key : ResourceKey
  row : ResourceRow Body
  writes : Nat

/-- Identifies one call of `replaceDraft`. -/
abbrev TransactionId := Nat

/-- The rows a transaction deleted (`none`) or inserted, newest first. -/
abbrev WriteLog (Body : Type) := List (ResourceKey × Option (ResourceRow Body))

/-- Where a call of `replaceDraft` is. `revisions` is what its SELECT read; a
resource it did not see counts as 0. The source keys that map by `kind/name`,
and no kind contains a slash. -/
inductive Replacement (Body : Type) where
  | idle
  | selected (environment : String) (resources : List (Resource Body))
      (revisions : Kind → String → Nat)
  | inserting (environment : String) (remaining : List (Resource Body))
      (revisions : Kind → String → Nat) (log : WriteLog Body)

/-- The table, the open transactions and the keys they hold. The last three
fields record what happened and are read by no transition. -/
structure DraftState (Body : Type) where
  rows : AList fun _ : ResourceKey => ResourceRow Body
  transactions : TransactionId → Replacement Body
  locks : ResourceKey → Option TransactionId
  /-- The rows clients have read. -/
  copies : List (Copy Body)
  /-- How many writes of each resource took effect. -/
  writes : ResourceKey → Nat
  /-- The highest revision each resource ever had. -/
  highest : ResourceKey → Nat

inductive DraftEvent (Body : Type) where
  /-- A client reads a row: `getResource`, or one row of `draftResources`. -/
  | read (key : ResourceKey)
  | save (key : ResourceKey) (base : Nat) (body : Body)
  | delete (key : ResourceKey) (base : Nat)
  /-- `SELECT kind, name, revision ... WHERE environment = ?` -/
  | selectRevisions (call : TransactionId) (environment : String)
      (resources : List (Resource Body))
  /-- `DELETE FROM studio_resources WHERE environment = ?` -/
  | deleteDraft (call : TransactionId)
  /-- `INSERT` of the next resource. -/
  | insertResource (call : TransactionId)
  | commit (call : TransactionId)
  /-- Any error, or a cancelled request. -/
  | rollback (call : TransactionId)

/-- A write of one resource takes effect: the new row, or `none` for a delete. -/
def DraftState.write (state : DraftState Body) (key : ResourceKey) :
    Option (ResourceRow Body) → DraftState Body
  | some row =>
      { state with
        rows := state.rows.insert key row
        writes := Function.update state.writes key (state.writes key + 1)
        highest := Function.update state.highest key (max (state.highest key) row.revision) }
  | none =>
      { state with
        rows := state.rows.erase key
        writes := Function.update state.writes key (state.writes key + 1) }

/-- A statement with `WHERE <key> AND revision = ?`. Without a match it affects
no row, and the caller answers 404 or 409. -/
def DraftState.writeMatching (state : DraftState Body) (key : ResourceKey) (base : Nat)
    (after : ResourceRow Body → Option (ResourceRow Body)) : Option (DraftState Body) :=
  match state.rows.lookup key with
  | none => some state
  | some row =>
      if row.revision = base then
        if state.locks key = none then some (state.write key (after row)) else none
      else some state

/-- The statement of `saveResource`. -/
def saveResource (state : DraftState Body) (key : ResourceKey) (base : Nat) (body : Body) :
    Option (DraftState Body) :=
  if base = 0 then
    -- `ON CONFLICT (environment, kind, name) DO NOTHING`
    if state.locks key ≠ none then none
    else if (state.rows.lookup key).isSome then some state
    else some (state.write key (some ⟨1, body⟩))
  else state.writeMatching key base fun row => some ⟨row.revision + 1, body⟩

/-- The statement of `deleteResource`. -/
def deleteResource (state : DraftState Body) (key : ResourceKey) (base : Nat) :
    Option (DraftState Body) :=
  state.writeMatching key base fun _ => none

/-- The map `revisions` that `replaceDraft` fills from its SELECT. -/
def selectRevisions (state : DraftState Body) (environment : String) (kind : Kind)
    (name : String) : Nat :=
  ((state.rows.lookup ⟨environment, kind, name⟩).map (·.revision)).getD 0

/-- What a transaction sees under a key: its own last write, else the table. -/
def DraftState.view (state : DraftState Body) (log : WriteLog Body) (key : ResourceKey) :
    Option (ResourceRow Body) :=
  (log.lookup key).getD (state.rows.lookup key)

/-- The rows a DELETE of the whole environment matches. -/
def DraftState.draftKeys (state : DraftState Body) (environment : String) : List ResourceKey :=
  state.rows.keys.filter fun key => decide (key.environment = environment)

/-- Close a transaction and release its keys. -/
def DraftState.close (state : DraftState Body) (call : TransactionId) : DraftState Body :=
  { state with
    transactions := Function.update state.transactions call .idle
    locks := fun key => if state.locks key = some call then none else state.locks key }

/-- The writes of a transaction take effect, oldest first. -/
def DraftState.apply (state : DraftState Body) : WriteLog Body → DraftState Body
  | [] => state
  | (key, row) :: older => (state.apply older).write key row

/-- `DELETE ... WHERE environment = ?` inside the transaction. -/
def deleteDraft (state : DraftState Body) (call : TransactionId) (environment : String)
    (resources : List (Resource Body)) (revisions : Kind → String → Nat) :
    Option (DraftState Body) :=
  let keys := state.draftKeys environment
  if ∀ key ∈ keys, state.locks key = none then
    some { state with
      transactions := Function.update state.transactions call
        (.inserting environment resources revisions (keys.map fun key => (key, none)))
      locks := fun key => if key ∈ keys then some call else state.locks key }
  else none

/-- `INSERT` of one resource inside the transaction; a key that is taken is an
error, which rolls the transaction back. -/
def insertResource (state : DraftState Body) (call : TransactionId) (environment : String)
    (resource : Resource Body) (remaining : List (Resource Body))
    (revisions : Kind → String → Nat) (log : WriteLog Body) : Option (DraftState Body) :=
  let key : ResourceKey := ⟨environment, resource.kind, resource.name⟩
  if state.locks key = none ∨ state.locks key = some call then
    if (state.view log key).isSome then some (state.close call)
    else
      some { state with
        transactions := Function.update state.transactions call
          (.inserting environment remaining revisions
            ((key, some ⟨revisions resource.kind resource.name + 1, resource.body⟩) :: log))
        locks := Function.update state.locks key (some call) }
  else none

/-- One statement on the draft. -/
def draftStep (state : DraftState Body) : DraftEvent Body → Option (DraftState Body)
  | .read key =>
      match state.rows.lookup key with
      | some row => some { state with copies := ⟨key, row, state.writes key⟩ :: state.copies }
      | none => some state
  | .save key base body => saveResource state key base body
  | .delete key base => deleteResource state key base
  | .selectRevisions call environment resources =>
      match state.transactions call with
      | .idle => some { state with
          transactions := Function.update state.transactions call
            (.selected environment resources (selectRevisions state environment)) }
      | _ => none
  | .deleteDraft call =>
      match state.transactions call with
      | .selected environment resources revisions =>
          deleteDraft state call environment resources revisions
      | _ => none
  | .insertResource call =>
      match state.transactions call with
      | .inserting environment (resource :: remaining) revisions log =>
          insertResource state call environment resource remaining revisions log
      | _ => none
  | .commit call =>
      match state.transactions call with
      | .inserting _ [] _ log => some ((state.apply log).close call)
      | _ => none
  | .rollback call => some (state.close call)

/-- An empty table. -/
def emptyDraft : DraftState Body :=
  ⟨∅, fun _ => .idle, fun _ => none, [], fun _ => 0, fun _ => 0⟩

/-- Any number of clients and replacements on one table. -/
def draftSystem (Body : Type) : System (DraftState Body) (DraftEvent Body) :=
  .ofStep (· = emptyDraft) draftStep

end Restitch.Studio
