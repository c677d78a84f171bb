import Restitch.Studio.DraftWrites

/-!
# Revisions and stale copies

A write that carries the revision of a copy must find the copy still stored. The
table keeps no memory of a deleted resource, so this holds as long as no insert
gives a resource a revision it had before.
-/

namespace Restitch.Studio

open Restitch.Semantics

variable {Body : Type}

/-- The saves and deletes that carry the revision of a copy. -/
def Copy.WrittenBy (copy : Copy Body) (event : DraftEvent Body) : Prop :=
  event = .delete copy.key copy.row.revision ∨
    ∃ body, event = .save copy.key copy.row.revision body

/-- A write with the revision of a copy takes effect only while the row that was
read is stored and no other write took effect since the read. -/
def NoStaleOverwrite (state : DraftState Body) : Prop :=
  ∀ copy ∈ state.copies, ∀ event next, copy.WrittenBy event →
    draftStep state event = some next → next.writes copy.key ≠ state.writes copy.key →
    state.rows.lookup copy.key = some copy.row ∧ state.writes copy.key = copy.writes

/-- An insert gives its resource a revision above all it ever had: a save
creates only what was never stored, and the revision that the SELECT of a
replacement read is still the highest one when its INSERT runs. -/
def FreshRevision (state : DraftState Body) : DraftEvent Body → Prop
  | .save key base _ =>
      base = 0 → state.rows.lookup key = none → state.highest key = 0
  | .insertResource call =>
      match state.transactions call with
      | .inserting environment (resource :: _) revisions log =>
          state.view log ⟨environment, resource.kind, resource.name⟩ = none →
            state.highest ⟨environment, resource.kind, resource.name⟩ ≤
              revisions resource.kind resource.name
      | _ => True
  | _ => True

instance (state : DraftState Body) (event : DraftEvent Body) :
    Decidable (FreshRevision state event) :=
  match event with
  | .save key base _ =>
      decidable_of_iff (base = 0 → (state.rows.lookup key).isNone → state.highest key = 0)
        (by simp only [Option.isNone_iff_eq_none, FreshRevision])
  | .insertResource call =>
      match at_ : state.transactions call with
      | .inserting environment (resource :: _) revisions log =>
          decidable_of_iff
            ((state.view log ⟨environment, resource.kind, resource.name⟩).isNone →
              state.highest ⟨environment, resource.kind, resource.name⟩ ≤
                revisions resource.kind resource.name)
            (by simp only [Option.isNone_iff_eq_none, FreshRevision, at_])
      | .idle | .selected _ _ _ | .inserting _ [] _ _ =>
          .isTrue (by simp only [FreshRevision, at_])
  | .read _ | .delete _ _ | .selectRevisions _ _ _ | .deleteDraft _ | .commit _ | .rollback _ =>
      .isTrue trivial

/-- The table and the copies: a row has the highest revision of its resource,
and a copy whose revision is stored is the stored row, unwritten since. -/
structure RowsInvariant (state : DraftState Body) : Prop where
  current : ∀ key row, state.rows.lookup key = some row →
    0 < row.revision ∧ row.revision = state.highest key
  held : ∀ copy ∈ state.copies, 0 < copy.row.revision ∧
    copy.row.revision ≤ state.highest copy.key ∧
    ∀ row, state.rows.lookup copy.key = some row → row.revision = copy.row.revision →
      row = copy.row ∧ state.writes copy.key = copy.writes

/-- The inserts of a transaction go above the revisions outside, and nothing
follows the insert of a key. -/
def FreshLog (highest : ResourceKey → Nat) : WriteLog Body → Prop
  | [] => True
  | (key, written) :: older =>
      (∀ row, written = some row → highest key < row.revision) ∧
        (∀ row, (key, some row) ∉ older) ∧ FreshLog highest older

/-- The invariant of the draft: what an open transaction wrote is locked by it
and goes above the revisions outside. -/
structure DraftInvariant (state : DraftState Body) : Prop extends RowsInvariant state where
  pending : ∀ call environment remaining revisions log,
    state.transactions call = .inserting environment remaining revisions log →
    (∀ entry ∈ log, state.locks entry.1 = some call) ∧ FreshLog state.highest log

/-- A delete, or a row above the highest revision, keeps the table's invariant. -/
theorem RowsInvariant.write {state : DraftState Body} (invariant : RowsInvariant state)
    (key : ResourceKey) (written : Option (ResourceRow Body))
    (above : ∀ row, written = some row → state.highest key < row.revision) :
    RowsInvariant (state.write key written) := by
  cases written with
  | none =>
      refine ⟨?_, ?_⟩
      · intro other row found
        by_cases same : other = key
        · subst same
          simp [DraftState.write] at found
        · rw [DraftState.write, AList.lookup_erase_ne same] at found
          exact invariant.current other row found
      · intro copy member
        obtain ⟨positive, bound, fresh⟩ := invariant.held copy member
        refine ⟨positive, bound, ?_⟩
        intro row found equal
        by_cases same : copy.key = key
        · rw [same] at found
          simp [DraftState.write] at found
        · simp only [DraftState.write, AList.lookup_erase_ne same,
            Function.update_of_ne same] at found ⊢
          exact fresh row found equal
  | some written =>
      have higher := above written rfl
      refine ⟨?_, ?_⟩
      · intro other row found
        by_cases same : other = key
        · subst same
          rw [DraftState.write, AList.lookup_insert] at found
          cases found
          simp only [DraftState.write, Function.update_self]
          omega
        · simp only [DraftState.write, AList.lookup_insert_ne same,
            Function.update_of_ne same] at found ⊢
          exact invariant.current other row found
      · intro copy member
        obtain ⟨positive, bound, fresh⟩ := invariant.held copy member
        by_cases same : copy.key = key
        · subst same
          refine ⟨positive, ?_, ?_⟩
          · simp only [DraftState.write, Function.update_self]
            omega
          · intro row found equal
            rw [DraftState.write, AList.lookup_insert] at found
            cases found
            omega
        · simp only [DraftState.write, AList.lookup_insert_ne same, Function.update_of_ne same]
          exact ⟨positive, bound, fresh⟩

/-- Only an insert of the key raises its highest revision. -/
theorem highest_apply {state : DraftState Body} {log : WriteLog Body} {key : ResourceKey}
    (absent : ∀ row, (key, some row) ∉ log) : (state.apply log).highest key = state.highest key := by
  induction log with
  | nil => rfl
  | cons entry older ih =>
      obtain ⟨written, row⟩ := entry
      have earlier := ih fun row member => absent row (List.mem_cons_of_mem _ member)
      cases row with
      | none => exact earlier
      | some row =>
          have different : key ≠ written := by
            rintro rfl
            exact absent row List.mem_cons_self
          simp only [DraftState.apply, DraftState.write, Function.update_of_ne different]
          exact earlier

/-- Committing a fresh log keeps the table's invariant. -/
theorem RowsInvariant.apply {state : DraftState Body} {log : WriteLog Body}
    (invariant : RowsInvariant state) (fresh : FreshLog state.highest log) :
    RowsInvariant (state.apply log) := by
  induction log with
  | nil => exact invariant
  | cons entry older ih =>
      obtain ⟨above, absent, freshOlder⟩ := fresh
      refine (ih freshOlder).write entry.1 entry.2 ?_
      intro row inserted
      rw [highest_apply absent]
      exact above row inserted

/-- A fresh log stays fresh while the revisions of its keys stand still. -/
theorem FreshLog.congr {first second : ResourceKey → Nat} {log : WriteLog Body}
    (fresh : FreshLog first log) (equal : ∀ entry ∈ log, second entry.1 = first entry.1) :
    FreshLog second log := by
  induction log with
  | nil => trivial
  | cons entry older ih =>
      obtain ⟨above, absent, freshOlder⟩ := fresh
      refine ⟨?_, absent, ih freshOlder fun entry member =>
        equal entry (List.mem_cons_of_mem _ member)⟩
      intro row inserted
      rw [equal entry List.mem_cons_self]
      exact above row inserted

/-- What a fresh log inserted is what its transaction sees. -/
theorem FreshLog.lookup {highest : ResourceKey → Nat} {log : WriteLog Body} {key : ResourceKey}
    {row : ResourceRow Body} (fresh : FreshLog highest log) (member : (key, some row) ∈ log) :
    log.lookup key = some (some row) := by
  induction log with
  | nil => cases member
  | cons entry older ih =>
      obtain ⟨written, newest⟩ := entry
      obtain ⟨-, absent, freshOlder⟩ := fresh
      rcases List.mem_cons.mp member with equal | older
      · cases equal
        exact List.lookup_cons_self
      · have different : key ≠ written := by
          rintro rfl
          exact absent row older
        rw [List.lookup_cons, beq_false_of_ne different]
        exact ih freshOlder older

/-- A log of deletes is fresh. -/
theorem freshLog_deletes (highest : ResourceKey → Nat) (keys : List ResourceKey) :
    FreshLog highest (keys.map fun key => (key, (none : Option (ResourceRow Body)))) := by
  induction keys with
  | nil => trivial
  | cons key rest ih =>
      refine ⟨?_, ?_, ih⟩
      · intro row inserted
        cases inserted
      · intro row member
        obtain ⟨other, -, equal⟩ := List.mem_map.mp member
        cases equal

/-- A write of a key that no transaction holds disturbs no transaction. -/
theorem DraftInvariant.write {state : DraftState Body} (invariant : DraftInvariant state)
    {key : ResourceKey} (free : state.locks key = none) (written : Option (ResourceRow Body))
    (above : ∀ row, written = some row → state.highest key < row.revision) :
    DraftInvariant (state.write key written) := by
  refine ⟨invariant.toRowsInvariant.write key written above, ?_⟩
  intro call environment remaining revisions log inserting
  have same : (state.write key written).transactions = state.transactions ∧
      (state.write key written).locks = state.locks := by
    cases written <;> exact ⟨rfl, rfl⟩
  rw [same.1] at inserting
  obtain ⟨locked, fresh⟩ := invariant.pending call environment remaining revisions log inserting
  rw [same.2]
  refine ⟨locked, fresh.congr ?_⟩
  intro entry member
  have different : entry.1 ≠ key := by
    intro equal
    have held := locked entry member
    rw [equal, free] at held
    cases held
  cases written with
  | none => rfl
  | some row => simp [DraftState.write, Function.update_of_ne different]

/-- The base of a save that takes effect is no older than any revision that the key had. -/
theorem DraftInvariant.highest_le {state : DraftState Body} (invariant : DraftInvariant state)
    {key : ResourceKey} {base : Nat} {body : Body} (effective : saveTakesEffect state key base = true)
    (allowed : FreshRevision state (.save key base body)) : state.highest key ≤ base := by
  unfold saveTakesEffect at effective
  split at effective
  · rename_i missing
    obtain rfl := eq_of_beq effective
    exact Nat.le_of_eq (allowed rfl missing)
  · rename_i row found
    have matched := eq_of_beq ((Bool.and_eq_true _ _).mp effective).2
    rw [← matched, (invariant.current key row found).2]

/-- Ending a transaction leaves the others alone. -/
theorem DraftInvariant.close {state : DraftState Body} (rows : RowsInvariant state)
    {call : TransactionId}
    (pending : ∀ other, other ≠ call → ∀ environment remaining revisions log,
      state.transactions other = .inserting environment remaining revisions log →
      (∀ entry ∈ log, state.locks entry.1 = some other) ∧ FreshLog state.highest log) :
    DraftInvariant (state.close call) := by
  refine ⟨⟨rows.current, rows.held⟩, ?_⟩
  intro other environment remaining revisions log inserting
  by_cases same : other = call
  · subst same
    simp [DraftState.close] at inserting
  · simp only [DraftState.close, Function.update_of_ne same] at inserting
    obtain ⟨locked, fresh⟩ := pending other same environment remaining revisions log inserting
    refine ⟨?_, fresh⟩
    intro entry member
    have held := locked entry member
    simp only [DraftState.close, held, Option.some.injEq, if_neg same]

/-- Rolling back keeps the invariant. -/
theorem DraftInvariant.rollback {state : DraftState Body} (invariant : DraftInvariant state)
    (call : TransactionId) : DraftInvariant (state.close call) :=
  .close invariant.toRowsInvariant fun other _ => invariant.pending other

/-- Committing keeps the invariant. -/
theorem DraftInvariant.commit {state : DraftState Body} {call : TransactionId}
    {environment : String} {remaining : List (Resource Body)}
    {revisions : Kind → String → Nat} {log : WriteLog Body} (invariant : DraftInvariant state)
    (inserting : state.transactions call = .inserting environment remaining revisions log) :
    DraftInvariant ((state.apply log).close call) := by
  obtain ⟨mine, fresh⟩ := invariant.pending _ _ _ _ _ inserting
  have unchanged : (state.apply log).transactions = state.transactions ∧
      (state.apply log).locks = state.locks := by
    clear fresh mine inserting
    induction log with
    | nil => exact ⟨rfl, rfl⟩
    | cons entry older ih =>
        obtain ⟨key, row⟩ := entry
        cases row <;> exact ih
  refine .close (invariant.toRowsInvariant.apply fresh) ?_
  intro other different environment' remaining' revisions' log' inserting'
  rw [unchanged.1] at inserting'
  obtain ⟨locked, fresh'⟩ := invariant.pending _ _ _ _ _ inserting'
  rw [unchanged.2]
  refine ⟨locked, fresh'.congr ?_⟩
  intro entry member
  refine highest_apply ?_
  intro row shared
  have held := mine _ shared
  rw [locked entry member] at held
  exact different (Option.some.inj held)

/-- The DELETE of a replacement locks what it deletes. -/
theorem DraftInvariant.cleared {state : DraftState Body} (invariant : DraftInvariant state)
    (call : TransactionId) (environment : String) (resources : List (Resource Body))
    (revisions : Kind → String → Nat) {keys : List ResourceKey}
    (free : ∀ key ∈ keys, state.locks key = none) :
    DraftInvariant { state with
      transactions := Function.update state.transactions call
        (.inserting environment resources revisions (keys.map fun key => (key, none)))
      locks := fun key => if key ∈ keys then some call else state.locks key } := by
  refine ⟨⟨invariant.current, invariant.held⟩, ?_⟩
  intro other environment' remaining' revisions' log' inserting
  by_cases same : other = call
  · subst same
    simp only [Function.update_self, Replacement.inserting.injEq] at inserting
    obtain ⟨-, -, -, rfl⟩ := inserting
    refine ⟨?_, freshLog_deletes _ _⟩
    intro entry member
    obtain ⟨key, listed, rfl⟩ := List.mem_map.mp member
    exact if_pos listed
  · simp only [Function.update_of_ne same] at inserting
    obtain ⟨locked, fresh⟩ := invariant.pending _ _ _ _ _ inserting
    refine ⟨?_, fresh⟩
    intro entry member
    have held := locked entry member
    refine (if_neg ?_).trans held
    intro listed
    rw [free _ listed] at held
    cases held

/-- An INSERT with a fresh revision keeps the invariant. -/
theorem DraftInvariant.inserted {state : DraftState Body} {call : TransactionId}
    {environment : String} {resource : Resource Body} {remaining : List (Resource Body)}
    {revisions : Kind → String → Nat} {log : WriteLog Body} (invariant : DraftInvariant state)
    (inserting : state.transactions call =
      .inserting environment (resource :: remaining) revisions log)
    (free : state.locks ⟨environment, resource.kind, resource.name⟩ = none ∨
      state.locks ⟨environment, resource.kind, resource.name⟩ = some call)
    (unseen : state.view log ⟨environment, resource.kind, resource.name⟩ = none)
    (allowed : FreshRevision state (.insertResource call)) :
    DraftInvariant { state with
      transactions := Function.update state.transactions call
        (.inserting environment remaining revisions
          ((⟨environment, resource.kind, resource.name⟩,
            some ⟨revisions resource.kind resource.name + 1, resource.body⟩) :: log))
      locks := Function.update state.locks ⟨environment, resource.kind, resource.name⟩
        (some call) } := by
  simp only [FreshRevision, inserting] at allowed
  obtain ⟨mine, fresh⟩ := invariant.pending _ _ _ _ _ inserting
  refine ⟨⟨invariant.current, invariant.held⟩, ?_⟩
  intro other environment' remaining' revisions' log' inserting'
  by_cases same : other = call
  · subst same
    simp only [Function.update_self, Replacement.inserting.injEq] at inserting'
    obtain ⟨-, -, -, rfl⟩ := inserting'
    refine ⟨?_, ?_, ?_, fresh⟩
    · intro entry member
      rcases List.mem_cons.mp member with rfl | older
      · exact Function.update_self ..
      · simp only [Function.update_apply, mine entry older, ite_self]
    · rintro row ⟨rfl⟩
      exact Nat.lt_succ_of_le (allowed unseen)
    · intro row member
      rw [DraftState.view, fresh.lookup member] at unseen
      cases unseen
  · simp only [Function.update_of_ne same] at inserting'
    obtain ⟨locked, fresh'⟩ := invariant.pending _ _ _ _ _ inserting'
    refine ⟨?_, fresh'⟩
    intro entry member
    have held := locked entry member
    refine (Function.update_of_ne ?_ ..).trans held
    rintro equal
    rw [← equal, held] at free
    rcases free with free | free
    · cases free
    · exact same (Option.some.inj free)

/-- A transaction that only reads disturbs no other. -/
theorem DraftInvariant.selected {state : DraftState Body} (invariant : DraftInvariant state)
    (call : TransactionId) (environment : String) (resources : List (Resource Body))
    (revisions : Kind → String → Nat) :
    DraftInvariant { state with
      transactions := Function.update state.transactions call
        (.selected environment resources revisions) } := by
  refine ⟨⟨invariant.current, invariant.held⟩, ?_⟩
  intro other environment' remaining' revisions' log' inserting
  by_cases same : other = call
  · subst same
    simp at inserting
  · simp only [Function.update_of_ne same] at inserting
    exact invariant.pending _ _ _ _ _ inserting

/-- Every statement that gives no resource a revision it had keeps the invariant. -/
theorem DraftInvariant.step {state next : DraftState Body} {event : DraftEvent Body}
    (invariant : DraftInvariant state) (allowed : FreshRevision state event)
    (stepped : draftStep state event = some next) : DraftInvariant next := by
  cases draftMove_of_step stepped with
  | @copied key row found =>
      refine ⟨⟨invariant.current, ?_⟩, invariant.pending⟩
      intro copy member
      rcases List.mem_cons.mp member with rfl | older
      · obtain ⟨positive, current⟩ := invariant.current key row found
        refine ⟨positive, Nat.le_of_eq current, ?_⟩
        intro stored again _
        cases found.symm.trans again
        exact ⟨rfl, rfl⟩
      · exact invariant.held copy older
  | missing | refused | kept => exact invariant
  | saved effective free =>
      refine invariant.write free _ ?_
      rintro row ⟨rfl⟩
      exact Nat.lt_succ_of_le (invariant.highest_le effective allowed)
  | deleted _ free => exact invariant.write free none fun row impossible => by cases impossible
  | selected => exact invariant.selected ..
  | cleared _ free => exact invariant.cleared _ _ _ _ free
  | inserted inserting free unseen => exact invariant.inserted inserting free unseen allowed
  | committed inserting => exact invariant.commit inserting
  | @taken call | @rolledBack call => exact invariant.rollback call

/-- The invariant holds along every run whose inserts give fresh revisions. -/
theorem draftInvariant {state : DraftState Body}
    (reached : ((draftSystem Body).restrict FreshRevision).Reachable state) :
    DraftInvariant state := by
  refine System.Reachable.induction _ ?_ ?_ reached
  · intro state valid
    cases valid
    refine ⟨⟨?_, ?_⟩, ?_⟩
    · intro key row found
      cases found
    · intro copy member
      cases member
    · intro call environment remaining revisions log inserting
      cases inserting
  · intro state event next _ invariant stepped
    exact invariant.step stepped.2 stepped.1

/-- A statement with a base revision that takes effect matched the stored row. -/
theorem row_of_writeMatching {state next : DraftState Body} {key : ResourceKey} {base : Nat}
    {after : ResourceRow Body → Option (ResourceRow Body)}
    (stepped : state.writeMatching key base after = some next)
    (effective : next.writes key ≠ state.writes key) :
    ∃ row, state.rows.lookup key = some row ∧ row.revision = base := by
  unfold DraftState.writeMatching at stepped
  split at stepped
  · cases stepped
    exact absurd rfl effective
  · rename_i row found
    split at stepped
    · rename_i equal
      exact ⟨row, found, equal⟩
    · cases stepped
      exact absurd rfl effective

/-- In every run whose inserts give no resource a revision it had before, a
stale copy never overwrites a newer save. -/
theorem no_stale_overwrite (state : DraftState Body)
    (reached : ((draftSystem Body).restrict FreshRevision).Reachable state) :
    NoStaleOverwrite state := by
  have invariant := draftInvariant reached
  intro copy member event next written stepped effective
  obtain ⟨positive, -, fresh⟩ := invariant.held copy member
  have matched : ∃ row, state.rows.lookup copy.key = some row ∧
      row.revision = copy.row.revision := by
    rcases written with rfl | ⟨body, rfl⟩
    · exact row_of_writeMatching stepped effective
    · simp only [draftStep, saveResource, if_neg (Nat.pos_iff_ne_zero.mp positive)] at stepped
      exact row_of_writeMatching stepped effective
  obtain ⟨row, found, equal⟩ := matched
  obtain ⟨rfl, unwritten⟩ := fresh row found equal
  exact ⟨found, unwritten⟩

/-- A resource is created, read, imported over, read again, and saved with the
revision of the second read. -/
def importedOver (key : ResourceKey) : List (DraftEvent String) :=
  [.save key 0 "a", .read key, .selectRevisions 0 key.environment [⟨key.kind, key.name, "b"⟩],
   .deleteDraft 0, .insertResource 0, .commit 0, .read key]

/-- After that run a save with revision 2 takes effect, and finds the imported row. -/
theorem no_stale_overwrite_of_import :
    ∃ key state next, (draftStep state (.save key 2 "c") = some next ∧
        next.writes key ≠ state.writes key ∧ ⟨key, ⟨2, "b"⟩, 3⟩ ∈ state.copies) ∧
      (state.rows.lookup key).map (·.body) = some "b" ∧ state.writes key = 3 := by
  let key : ResourceKey := ⟨"prod", .upstream, "users"⟩
  let state := (System.replay (System.guarded draftStep FreshRevision) emptyDraft
    (importedOver key)).get (by decide)
  let next := (draftStep state (.save key 2 "c")).get (by decide)
  have reached : ((draftSystem String).restrict FreshRevision).Reachable state :=
    System.reachable_of_guarded (importedOver key) (.initial rfl) (Option.some_get _).symm
  have stepped : draftStep state (.save key 2 "c") = some next := (Option.some_get _).symm
  have member : (⟨key, ⟨2, "b"⟩, 3⟩ : Copy String) ∈ state.copies := List.mem_cons_self
  have effective : next.writes key ≠ state.writes key := by decide
  obtain ⟨found, unwritten⟩ := no_stale_overwrite state reached ⟨key, ⟨2, "b"⟩, 3⟩ member
    (.save key 2 "c") next (.inr ⟨"c", rfl⟩) stepped effective
  exact ⟨key, state, next, ⟨stepped, effective, member⟩, congrArg _ found, unwritten⟩

/-- A resource is created and read, deleted, and created again with another body. -/
def createdAgain (key : ResourceKey) : List (DraftEvent String) :=
  [.save key 0 "a", .read key, .delete key 1, .save key 0 "b"]

/-- The new resource has revision 1 again, so the old copy overwrites it. -/
theorem stale_overwrite_of_created_again :
    ¬ ∀ state, (draftSystem String).Reachable state → NoStaleOverwrite state := by
  intro claimed
  let key : ResourceKey := ⟨"prod", .upstream, "users"⟩
  let state := (System.replay draftStep emptyDraft (createdAgain key)).get (by decide)
  let next := (draftStep state (.save key 1 "c")).get (by decide)
  have reached : (draftSystem String).Reachable state :=
    System.reachable_of_replay (createdAgain key) (.initial rfl) (Option.some_get _).symm
  have stepped : draftStep state (.save key 1 "c") = some next := (Option.some_get _).symm
  obtain ⟨-, unwritten⟩ := claimed state reached ⟨key, ⟨1, "a"⟩, 1⟩ List.mem_cons_self
    (.save key 1 "c") next (.inr ⟨"c", rfl⟩) stepped (by decide)
  exact absurd unwritten (by decide)

end Restitch.Studio
