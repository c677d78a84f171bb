import Restitch.Studio.Draft

/-!
# Which statement writes which resource

A statement on the draft changes the row of a resource only if it takes effect
on that resource: a save or delete whose base revision matches, or the commit of
a replacement that wrote it.
-/

namespace Restitch.Studio

variable {Body : Type}

/-- Whether the statement of a save affects a row: an insert needs the key free,
an update needs the stored revision. -/
def saveTakesEffect (state : DraftState Body) (key : ResourceKey) (base : Nat) : Bool :=
  match state.rows.lookup key with
  | none => base == 0
  | some row => base != 0 && row.revision == base

/-- The statement takes effect on the resource. -/
def DraftEvent.writes (state : DraftState Body) (key : ResourceKey) : DraftEvent Body → Bool
  | .save target base _ => target = key && saveTakesEffect state key base
  | .delete target base => target = key && (state.rows.lookup key).any (·.revision = base)
  | .commit call =>
      match state.transactions call with
      | .inserting _ _ _ log => log.any (·.1 = key)
      | _ => false
  | _ => false

/-- A written row is the row. -/
@[simp] theorem lookup_write_self (state : DraftState Body) (key : ResourceKey)
    (row : Option (ResourceRow Body)) : (state.write key row).rows.lookup key = row := by
  cases row with
  | none => exact AList.lookup_erase _ _
  | some row => exact AList.lookup_insert _

/-- A write leaves the other rows. -/
theorem lookup_write_of_ne (state : DraftState Body) {key other : ResourceKey}
    (different : other ≠ key) (row : Option (ResourceRow Body)) :
    (state.write key row).rows.lookup other = state.rows.lookup other := by
  cases row with
  | none => exact AList.lookup_erase_ne different
  | some row => exact AList.lookup_insert_ne different

/-- What a log wrote is what the transaction saw. -/
theorem lookup_apply (state : DraftState Body) (log : WriteLog Body) (key : ResourceKey) :
    (state.apply log).rows.lookup key = state.view log key := by
  induction log with
  | nil => rfl
  | cons entry older ih =>
      obtain ⟨written, row⟩ := entry
      rw [DraftState.apply]
      by_cases same : key = written
      · subst same
        rw [lookup_write_self, DraftState.view, List.lookup_cons_self, Option.getD_some]
      · rw [lookup_write_of_ne _ same, ih, DraftState.view, DraftState.view, List.lookup_cons,
          beq_false_of_ne same]

/-- A transaction sees the rows it did not write as they are. -/
theorem view_of_notMem {state : DraftState Body} {log : WriteLog Body} {key : ResourceKey}
    (absent : log.any (·.1 = key) = false) : state.view log key = state.rows.lookup key := by
  have missing : log.lookup key = none := by
    rw [List.lookup_eq_none_iff]
    intro entry member
    rw [List.any_eq_false] at absent
    have different : key ≠ entry.1 := fun same => absent entry member (decide_eq_true same.symm)
    simpa using different
  rw [DraftState.view, missing, Option.getD_none]

/-- What the statement of a save does. -/
theorem saveResource_cases {state next : DraftState Body} {key : ResourceKey} {base : Nat}
    {body : Body} (saved : saveResource state key base body = some next) :
    (saveTakesEffect state key base = true ∧ state.locks key = none ∧
        next = state.write key (some ⟨base + 1, body⟩)) ∨
      (saveTakesEffect state key base = false ∧ next = state) := by
  unfold saveResource at saved
  split at saved
  · rename_i create
    split at saved
    · cases saved
    · rename_i free
      split at saved
      · rename_i taken
        cases saved
        obtain ⟨row, found⟩ := Option.isSome_iff_exists.mp taken
        exact .inr ⟨by simp [saveTakesEffect, found, create], rfl⟩
      · rename_i absent
        cases saved
        have missing := Option.not_isSome_iff_eq_none.mp absent
        exact .inl ⟨by simp [saveTakesEffect, missing, create], not_not.mp free, by rw [create]⟩
  · rename_i update
    unfold DraftState.writeMatching at saved
    split at saved
    · rename_i missing
      cases saved
      exact .inr ⟨by simp [saveTakesEffect, missing, update], rfl⟩
    · rename_i row found
      split at saved
      · rename_i matched
        split at saved
        · rename_i free
          cases saved
          exact .inl ⟨by simp [saveTakesEffect, found, update, matched], free, by rw [← matched]⟩
        · cases saved
      · rename_i stale
        cases saved
        exact .inr ⟨by simp [saveTakesEffect, found, stale], rfl⟩

/-- What the statement of a delete does. -/
theorem deleteResource_cases {state next : DraftState Body} {key : ResourceKey} {base : Nat}
    (deleted : deleteResource state key base = some next) :
    ((state.rows.lookup key).any (·.revision = base) = true ∧ state.locks key = none ∧
        next = state.write key none) ∨
      ((state.rows.lookup key).any (·.revision = base) = false ∧ next = state) := by
  unfold deleteResource DraftState.writeMatching at deleted
  split at deleted
  · rename_i missing
    cases deleted
    exact .inr ⟨by simp [missing], rfl⟩
  · rename_i row found
    split at deleted
    · rename_i matched
      split at deleted
      · rename_i free
        cases deleted
        exact .inl ⟨by simp [found, matched], free, rfl⟩
      · cases deleted
    · rename_i stale
      cases deleted
      exact .inr ⟨by simp [found, stale], rfl⟩

/-- What a statement on the draft does. -/
inductive DraftMove (state : DraftState Body) : DraftEvent Body → DraftState Body → Prop where
  | copied {key : ResourceKey} {row : ResourceRow Body} (found : state.rows.lookup key = some row) :
      DraftMove state (.read key)
        { state with copies := ⟨key, row, state.writes key⟩ :: state.copies }
  | missing {key : ResourceKey} (absent : state.rows.lookup key = none) :
      DraftMove state (.read key) state
  | saved {key : ResourceKey} {base : Nat} {body : Body}
      (effective : saveTakesEffect state key base = true) (free : state.locks key = none) :
      DraftMove state (.save key base body) (state.write key (some ⟨base + 1, body⟩))
  | refused {key : ResourceKey} {base : Nat} {body : Body}
      (ineffective : saveTakesEffect state key base = false) :
      DraftMove state (.save key base body) state
  | deleted {key : ResourceKey} {base : Nat}
      (effective : (state.rows.lookup key).any (·.revision = base) = true)
      (free : state.locks key = none) :
      DraftMove state (.delete key base) (state.write key none)
  | kept {key : ResourceKey} {base : Nat}
      (ineffective : (state.rows.lookup key).any (·.revision = base) = false) :
      DraftMove state (.delete key base) state
  | selected {call : TransactionId} {environment : String} {resources : List (Resource Body)}
      (idle : state.transactions call = .idle) :
      DraftMove state (.selectRevisions call environment resources)
        { state with
          transactions := Function.update state.transactions call
            (.selected environment resources (selectRevisions state environment)) }
  | cleared {call : TransactionId} {environment : String} {resources : List (Resource Body)}
      {revisions : Kind → String → Nat}
      (selected : state.transactions call = .selected environment resources revisions)
      (free : ∀ key ∈ state.draftKeys environment, state.locks key = none) :
      DraftMove state (.deleteDraft call)
        { state with
          transactions := Function.update state.transactions call
            (.inserting environment resources revisions
              ((state.draftKeys environment).map fun key => (key, none)))
          locks := fun key => if key ∈ state.draftKeys environment then some call
            else state.locks key }
  /-- The key of an INSERT is taken. -/
  | taken {call : TransactionId} {environment : String} {resource : Resource Body}
      {remaining : List (Resource Body)} {revisions : Kind → String → Nat} {log : WriteLog Body}
      (inserting : state.transactions call =
        .inserting environment (resource :: remaining) revisions log)
      (seen : (state.view log ⟨environment, resource.kind, resource.name⟩).isSome = true) :
      DraftMove state (.insertResource call) (state.close call)
  | inserted {call : TransactionId} {environment : String} {resource : Resource Body}
      {remaining : List (Resource Body)} {revisions : Kind → String → Nat} {log : WriteLog Body}
      (inserting : state.transactions call =
        .inserting environment (resource :: remaining) revisions log)
      (free : state.locks ⟨environment, resource.kind, resource.name⟩ = none ∨
        state.locks ⟨environment, resource.kind, resource.name⟩ = some call)
      (unseen : state.view log ⟨environment, resource.kind, resource.name⟩ = none) :
      DraftMove state (.insertResource call)
        { state with
          transactions := Function.update state.transactions call
            (.inserting environment remaining revisions
              ((⟨environment, resource.kind, resource.name⟩,
                some ⟨revisions resource.kind resource.name + 1, resource.body⟩) :: log))
          locks := Function.update state.locks ⟨environment, resource.kind, resource.name⟩
            (some call) }
  | committed {call : TransactionId} {environment : String} {revisions : Kind → String → Nat}
      {log : WriteLog Body}
      (inserting : state.transactions call = .inserting environment [] revisions log) :
      DraftMove state (.commit call) ((state.apply log).close call)
  | rolledBack {call : TransactionId} : DraftMove state (.rollback call) (state.close call)

/-- The step function does no other events. -/
theorem draftMove_of_step {state next : DraftState Body} {event : DraftEvent Body}
    (stepped : draftStep state event = some next) : DraftMove state event next := by
  cases event with
  | read key =>
      simp only [draftStep] at stepped
      split at stepped
      · rename_i row found
        cases stepped
        exact .copied found
      · rename_i absent
        cases stepped
        exact .missing absent
  | save key base body =>
      rcases saveResource_cases stepped with ⟨effective, free, rfl⟩ | ⟨ineffective, rfl⟩
      · exact .saved effective free
      · exact .refused ineffective
  | delete key base =>
      rcases deleteResource_cases stepped with ⟨effective, free, rfl⟩ | ⟨ineffective, rfl⟩
      · exact .deleted effective free
      · exact .kept ineffective
  | selectRevisions call environment resources =>
      simp only [draftStep] at stepped
      split at stepped
      · rename_i idle
        cases stepped
        exact .selected idle
      · cases stepped
  | deleteDraft call =>
      simp only [draftStep, deleteDraft] at stepped
      split at stepped
      · rename_i selected
        split at stepped
        · rename_i free
          cases stepped
          exact .cleared selected free
        · cases stepped
      · cases stepped
  | insertResource call =>
      simp only [draftStep, insertResource] at stepped
      split at stepped
      · rename_i inserting
        split at stepped
        · rename_i free
          split at stepped
          · rename_i seen
            cases stepped
            exact .taken inserting seen
          · rename_i unseen
            cases stepped
            exact .inserted inserting free (Option.not_isSome_iff_eq_none.mp unseen)
        · cases stepped
      · cases stepped
  | commit call =>
      simp only [draftStep] at stepped
      split at stepped
      · rename_i inserting
        cases stepped
        exact .committed inserting
      · cases stepped
  | rollback call =>
      cases stepped
      exact .rolledBack

@[simp] theorem rows_close (state : DraftState Body) (call : TransactionId) :
    (state.close call).rows = state.rows := rfl

/-- A statement that does not write a resource leaves its row alone. -/
theorem lookup_of_draftStep {state next : DraftState Body} {event : DraftEvent Body}
    {key : ResourceKey} (stepped : draftStep state event = some next)
    (spared : event.writes state key = false) :
    next.rows.lookup key = state.rows.lookup key := by
  cases draftMove_of_step stepped with
  | saved effective =>
      refine lookup_write_of_ne _ ?_ _
      rintro rfl
      simp [DraftEvent.writes, effective] at spared
  | deleted effective =>
      refine lookup_write_of_ne _ ?_ _
      rintro rfl
      simp only [DraftEvent.writes, effective] at spared
      simp at spared
  | committed inserting =>
      simp only [DraftEvent.writes, inserting] at spared
      rw [rows_close, lookup_apply, view_of_notMem spared]
  | copied | missing | refused | kept | selected | cleared | taken | inserted | rolledBack => rfl

end Restitch.Studio
