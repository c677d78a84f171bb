import Mathlib.Data.List.Nodup
import Restitch.Studio.Versions

/-!
# The version history is append-only and gap-free

The invariant ties each row to the call that inserted it and each waiting insert
to the rows that existed when its number was read. The numbers of an environment
only grow, so an insert whose number is still free continues them without a gap.
-/

namespace Restitch.Studio

open Restitch.Semantics

variable {validateArtifact : String → Bool}

/-- A document that may be stored. -/
def Publishable (validateArtifact : String → Bool) (doc : String) : Prop :=
  validateArtifact doc = true ∧ doc.utf8ByteSize ≤ maxArtifactBytes

/-- What a call in a phase knows about its document, its number and its row. -/
def PhaseInvariant (validateArtifact : String → Bool) (table : List VersionRow)
    (env : String) (id : CallId) : Phase → Prop
  | .latestNumber doc valid | .latestRow doc valid _ =>
      valid = true → Publishable validateArtifact doc
  | .nextNumber _ doc => Publishable validateArtifact doc
  | .insertRow _ version =>
      Publishable validateArtifact version.yaml ∧
        1 ≤ version.number ∧ version.number ≤ (versionsOf table env).length + 1
  | .succeeded version => ⟨version, env, id⟩ ∈ table
  | .requireEnvironment | .draftResources | .oldRow | .failed _ => True

/-- The invariant of the versions table and the calls that write it. -/
structure HistoryInvariant (validateArtifact : String → Bool) (state : State) : Prop where
  numbers : ∀ env, (versionsOf state.table env).map (·.number) =
    List.range' 1 (versionsOf state.table env).length
  stored : ∀ row ∈ state.table, Publishable validateArtifact row.yaml
  phases : ∀ id call, state.calls id = some call →
    PhaseInvariant validateArtifact state.table call.request.environment id call.phase
  writers : ∀ row ∈ state.table, ∃ call, state.calls row.writer = some call ∧
    call.phase = .succeeded row.toArtifactVersion ∧ call.request.environment = row.environment

/-! ### The statements on a gap-free table -/

/-- A row at the end is the last version of its environment. -/
theorem versionsOf_append (table : List VersionRow) (row : VersionRow) (env : String) :
    versionsOf (table ++ [row]) env =
      versionsOf table env ++ (if row.environment = env then [row] else []) := by
  simp only [versionsOf, List.filter_append, List.filter_singleton, Bool.cond_decide]

theorem mem_versionsOf {table : List VersionRow} {env : String} {row : VersionRow} :
    row ∈ versionsOf table env ↔ row ∈ table ∧ row.environment = env := by
  simp [versionsOf]

/-- Over a gap-free environment the next number is one more than its length. -/
theorem selectNextNumber_eq {table : List VersionRow} {env : String}
    (numbers : (versionsOf table env).map (·.number) =
      List.range' 1 (versionsOf table env).length) :
    selectNextNumber table env = (versionsOf table env).length + 1 := by
  unfold selectNextNumber selectMaxNumber
  rw [numbers]
  generalize (versionsOf table env).length = count
  congr 1
  cases count with
  | zero => rfl
  | succ count =>
      have top : (List.range' 1 (count + 1)).max? = some (count + 1) := by
        rw [List.max?_eq_some_iff]
        refine ⟨List.mem_range'_1.mpr (by omega), ?_⟩
        intro number member
        have bounds := List.mem_range'_1.mp member
        omega
      rw [top]
      rfl

/-- A version that is selected is in the table. -/
theorem selectVersion_mem {table : List VersionRow} {env : String} {number : Nat}
    {row : VersionRow} (found : selectVersion table env number = some row) : row ∈ table :=
  (mem_versionsOf.mp (List.mem_of_find?_eq_some found)).1

/-- A free number between one and the next number is the next number. -/
theorem eq_next_of_free {table : List VersionRow} {env : String} {number : Nat}
    (numbers : (versionsOf table env).map (·.number) =
      List.range' 1 (versionsOf table env).length)
    (positive : 1 ≤ number) (bounded : number ≤ (versionsOf table env).length + 1)
    (free : selectVersion table env number = none) :
    number = (versionsOf table env).length + 1 := by
  by_contra different
  have listed : number ∈ (versionsOf table env).map (·.number) := by
    rw [numbers]
    exact List.mem_range'_1.mpr (by omega)
  obtain ⟨row, member, equal⟩ := List.mem_map.mp listed
  have refused := List.find?_eq_none.mp free row member
  simp [equal] at refused

/-! ### What one event does -/

/-- The phase invariant survives a longer table. -/
theorem PhaseInvariant.mono {table : List VersionRow} {env : String} {id : CallId}
    {phase : Phase} (row : VersionRow)
    (holds : PhaseInvariant validateArtifact table env id phase) :
    PhaseInvariant validateArtifact (table ++ [row]) env id phase := by
  cases phase with
  | insertRow attempt version =>
      obtain ⟨publishable, positive, bounded⟩ := holds
      refine ⟨publishable, positive, ?_⟩
      rw [versionsOf_append, List.length_append]
      omega
  | succeeded version => exact List.mem_append_left _ holds
  | latestNumber | latestRow | nextNumber => exact holds
  | requireEnvironment | draftResources | oldRow | failed => trivial

/-- What a statement of a call does to the table and to the call. -/
inductive StatementMove (validateArtifact : String → Bool) (environments : List String)
    (table : List VersionRow) (id : CallId) (call : Call) : List VersionRow → Phase → Prop where
  | environment (at_ : call.phase = .requireEnvironment)
      (known : call.request.environment ∈ environments) :
      StatementMove validateArtifact environments table id call table .draftResources
  | latest {doc : String} {valid : Bool} {number : Nat} (at_ : call.phase = .latestNumber doc valid)
      (found : selectMaxNumber table call.request.environment = some number) :
      StatementMove validateArtifact environments table id call table (.latestRow doc valid number)
  /-- The preview is complete, and the draft is valid. -/
  | previewed {doc : String}
      (at_ : call.phase = .latestNumber doc true ∨ ∃ number, call.phase = .latestRow doc true number) :
      StatementMove validateArtifact environments table id call table (.nextNumber 0 doc)
  | old {env author : String} {number : Nat} {row : VersionRow} (at_ : call.phase = .oldRow)
      (request : call.request = .rollback env author number)
      (found : selectVersion table call.request.environment number = some row)
      (valid : validateArtifact row.yaml = true) :
      StatementMove validateArtifact environments table id call table (.nextNumber 0 row.yaml)
  | numbered {attempt : Nat} {doc : String} (at_ : call.phase = .nextNumber attempt doc) :
      StatementMove validateArtifact environments table id call table
        (.insertRow attempt
          (call.version doc (selectNextNumber table call.request.environment)))
  | inserted {attempt : Nat} {version : ArtifactVersion}
      (at_ : call.phase = .insertRow attempt version)
      (free : selectVersion table call.request.environment version.number = none) :
      StatementMove validateArtifact environments table id call
        (table ++ [⟨version, call.request.environment, id⟩]) (.succeeded version)
  /-- The number was taken in the meantime. -/
  | again {attempt : Nat} {version : ArtifactVersion}
      (at_ : call.phase = .insertRow attempt version) (left : attempt + 1 < maxAttempts) :
      StatementMove validateArtifact environments table id call table
        (.nextNumber (attempt + 1) version.yaml)
  | fails (error : CallError) :
      StatementMove validateArtifact environments table id call table (.failed error)

/-- The statements of a call do nothing else. -/
theorem statementMove_of_run {environments : List String} {table table' : List VersionRow}
    {id : CallId} {call : Call} {phase : Phase}
    (ran : runStatement validateArtifact environments table id call = some (table', phase)) :
    StatementMove validateArtifact environments table id call table' phase := by
  have preview {doc : String} {valid : Bool} (at_ : call.phase = .latestNumber doc valid ∨
      ∃ number, call.phase = .latestRow doc valid number) :
      StatementMove validateArtifact environments table id call table (afterPreview doc valid) := by
    cases valid with
    | false => exact .fails .invalid
    | true => exact .previewed at_
  unfold runStatement at ran
  cases at_ : call.phase with
  | requireEnvironment =>
      simp only [at_, Option.some.injEq, Prod.mk.injEq] at ran
      obtain ⟨rfl, rfl⟩ := ran
      split
      · rename_i known
        exact .environment at_ known
      · exact .fails _
  | latestNumber doc valid =>
      simp only [at_] at ran
      split at ran
      · cases ran
        exact preview (.inl at_)
      · rename_i found
        cases ran
        exact .latest at_ found
  | latestRow doc valid number =>
      simp only [at_] at ran
      split at ran
      · cases ran
        exact .fails _
      · cases ran
        exact preview (.inr ⟨number, at_⟩)
  | oldRow =>
      simp only [at_] at ran
      split at ran
      · cases ran
      · rename_i request
        split at ran
        · cases ran
          exact .fails _
        · rename_i row found
          cases ran
          split
          · rename_i valid
            exact .old at_ request found valid
          · exact .fails _
  | nextNumber attempt doc =>
      simp only [at_, Option.some.injEq, Prod.mk.injEq] at ran
      obtain ⟨rfl, rfl⟩ := ran
      exact .numbered at_
  | insertRow attempt version =>
      simp only [at_] at ran
      split at ran
      · rename_i table' inserted
        cases ran
        unfold insertVersion at inserted
        split at inserted
        · cases inserted
        · rename_i free
          cases inserted
          exact .inserted at_ (Option.not_isSome_iff_eq_none.mp free)
      · cases ran
        split
        · rename_i left
          exact .again at_ left
        · exact .fails _
  | draftResources | failed | succeeded => simp [at_] at ran

/-- A statement of a call either leaves the table alone and moves the call to a
phase that has no version yet, or inserts the row of its waiting version. -/
theorem runStatement_cases {state : State} {id : CallId} {call : Call}
    {table : List VersionRow} {phase : Phase}
    (invariant : HistoryInvariant validateArtifact state)
    (present : state.calls id = some call)
    (ran : runStatement validateArtifact state.environments state.table id call =
      some (table, phase)) :
    (table = state.table ∧ (∀ version, phase ≠ .succeeded version) ∧
      PhaseInvariant validateArtifact state.table call.request.environment id phase) ∨
    ∃ attempt version, call.phase = .insertRow attempt version ∧
      phase = .succeeded version ∧
      selectVersion state.table call.request.environment version.number = none ∧
      table = state.table ++ [⟨version, call.request.environment, id⟩] := by
  have known := invariant.phases id call present
  cases statementMove_of_run ran with
  | environment => exact .inl ⟨rfl, nofun, trivial⟩
  | latest at_ =>
      rw [at_] at known
      exact .inl ⟨rfl, nofun, known⟩
  | previewed at_ =>
      rcases at_ with at_ | ⟨number, at_⟩ <;> rw [at_] at known
      · exact .inl ⟨rfl, nofun, known rfl⟩
      · exact .inl ⟨rfl, nofun, known rfl⟩
  | old _ _ found => exact .inl ⟨rfl, nofun, invariant.stored _ (selectVersion_mem found)⟩
  | numbered at_ =>
      rw [at_] at known
      refine .inl ⟨rfl, nofun, known, ?_⟩
      simp only [Call.version]
      rw [selectNextNumber_eq (invariant.numbers _)]
      omega
  | inserted at_ free => exact .inr ⟨_, _, at_, rfl, free, rfl⟩
  | again at_ =>
      rw [at_] at known
      exact .inl ⟨rfl, nofun, known.1⟩
  | fails => exact .inl ⟨rfl, nofun, trivial⟩

/-- Moving a call that has written no row to a phase without a version keeps
the invariant. -/
theorem HistoryInvariant.setPhase {state : State} {id : CallId} {call : Call} {phase : Phase}
    (invariant : HistoryInvariant validateArtifact state)
    (unwritten : ∀ call' version, state.calls id = some call' →
      call'.phase ≠ .succeeded version)
    (known : PhaseInvariant validateArtifact state.table call.request.environment id phase) :
    HistoryInvariant validateArtifact (state.setPhase id call phase) where
  numbers := invariant.numbers
  stored := invariant.stored
  phases := by
    intro other otherCall present
    by_cases same : other = id
    · subst other
      simp only [State.setPhase, Function.update_self, Option.some.injEq] at present
      subst present
      exact known
    · simp only [State.setPhase, Function.update_of_ne same] at present
      exact invariant.phases other otherCall present
  writers := by
    intro row member
    obtain ⟨writer, present, done, environment⟩ := invariant.writers row member
    have different : row.writer ≠ id := by
      rintro rfl
      exact unwritten writer _ present done
    exact ⟨writer, by simpa [State.setPhase, Function.update_of_ne different] using present,
      done, environment⟩

/-- Inserting the waiting row of a call keeps the invariant: the number is free,
so it is the next one. -/
theorem HistoryInvariant.insert {state : State} {id : CallId} {call : Call} {attempt : Nat}
    {version : ArtifactVersion} (invariant : HistoryInvariant validateArtifact state)
    (present : state.calls id = some call) (waiting : call.phase = .insertRow attempt version)
    (free : selectVersion state.table call.request.environment version.number = none) :
    HistoryInvariant validateArtifact
      { state.setPhase id call (.succeeded version) with
        table := state.table ++ [⟨version, call.request.environment, id⟩] } := by
  have known := invariant.phases id call present
  rw [waiting] at known
  obtain ⟨publishable, positive, bounded⟩ := known
  have next := eq_next_of_free (invariant.numbers _) positive bounded free
  refine ⟨?_, ?_, ?_, ?_⟩
  · intro env
    rw [versionsOf_append]
    by_cases same : call.request.environment = env
    · subst same
      simp only [if_true, List.map_append, List.length_append, List.map_singleton,
        List.length_singleton]
      rw [invariant.numbers, next, List.range'_append_1.symm, List.range'_one, Nat.add_comm]
    · simp only [same, if_false, List.append_nil]
      exact invariant.numbers env
  · intro row member
    rcases List.mem_append.mp member with old | new
    · exact invariant.stored row old
    · obtain rfl := List.mem_singleton.mp new
      exact publishable
  · intro other otherCall otherPresent
    by_cases same : other = id
    · subst other
      simp only [State.setPhase, Function.update_self, Option.some.injEq] at otherPresent
      subst otherPresent
      exact List.mem_append_right _ (List.mem_singleton.mpr rfl)
    · simp only [State.setPhase, Function.update_of_ne same] at otherPresent
      exact (invariant.phases other otherCall otherPresent).mono _
  · intro row member
    rcases List.mem_append.mp member with old | new
    · obtain ⟨writer, writerPresent, done, environment⟩ := invariant.writers row old
      have different : row.writer ≠ id := by
        intro same
        rw [same, present] at writerPresent
        cases writerPresent
        rw [waiting] at done
        cases done
      exact ⟨writer, by simpa [State.setPhase, Function.update_of_ne different] using
        writerPresent, done, environment⟩
    · obtain rfl := List.mem_singleton.mp new
      exact ⟨{ call with phase := .succeeded version }, by simp [State.setPhase], rfl, rfl⟩

/-- Every event keeps the invariant. -/
theorem HistoryInvariant.step {state next : State} {event : Event}
    (invariant : HistoryInvariant validateArtifact state)
    (stepped : step validateArtifact state event = some next) :
    HistoryInvariant validateArtifact next := by
  cases event with
  | createEnvironment env =>
      simp only [Studio.step] at stepped
      split at stepped
      · cases stepped
      · cases stepped
        exact ⟨invariant.numbers, invariant.stored, invariant.phases, invariant.writers⟩
  | begin id request =>
      simp only [Studio.step] at stepped
      split at stepped
      · cases stepped
      · rename_i absent
        cases stepped
        refine invariant.setPhase (by simp [absent]) ?_
        cases request <;> trivial
  | statement id =>
      simp only [Studio.step, Option.bind_eq_some_iff, Option.map_eq_some_iff] at stepped
      obtain ⟨call, present, ⟨table, phase⟩, ran, rfl⟩ := stepped
      rcases runStatement_cases invariant present ran with
        ⟨rfl, unfinished, known⟩ | ⟨attempt, version, waiting, rfl, free, rfl⟩
      · refine invariant.setPhase ?_ known
        intro call' version present' done
        rw [present] at present'
        cases present'
        simp [runStatement, done] at ran
      · exact invariant.insert present waiting free
  | draft id doc =>
      simp only [Studio.step, Option.bind_eq_some_iff] at stepped
      obtain ⟨call, present, stepped⟩ := stepped
      split at stepped
      · rename_i reading
        cases stepped
        refine invariant.setPhase ?_ ?_
        · intro call' version present' done
          rw [present] at present'
          cases present'
          simp [reading] at done
        · intro valid
          simpa [previewValid, Publishable, and_comm] using valid
      · cases stepped
  | error id =>
      simp only [Studio.step, Option.bind_eq_some_iff] at stepped
      obtain ⟨call, present, stepped⟩ := stepped
      split at stepped
      · rename_i running
        cases stepped
        refine invariant.setPhase ?_ trivial
        intro call' version present' done
        rw [present] at present'
        cases present'
        simp [done, Phase.running] at running
      · cases stepped

/-- The invariant holds in every reachable state. -/
theorem historyInvariant {state : State}
    (reached : (system validateArtifact).Reachable state) :
    HistoryInvariant validateArtifact state :=
  reached.induction _
    (fun valid => by
      cases valid
      exact ⟨by simp [initial, versionsOf], by simp [initial], by simp [initial],
        by simp [initial]⟩)
    (fun _ invariant stepped => invariant.step stepped)

/-! ### Consequences -/

/-- One event appends to the table or leaves it alone. -/
theorem table_prefix_step {state next : State} {event : Event}
    (reached : (system validateArtifact).Reachable state)
    (stepped : (system validateArtifact).Step state event next) :
    state.table <+: next.table := by
  change step validateArtifact state event = some next at stepped
  cases event with
  | statement id =>
      simp only [step, Option.bind_eq_some_iff, Option.map_eq_some_iff] at stepped
      obtain ⟨call, present, ⟨table, phase⟩, ran, rfl⟩ := stepped
      rcases runStatement_cases (historyInvariant reached) present ran with
        ⟨rfl, _, _⟩ | ⟨_, _, _, _, _, rfl⟩
      · exact List.prefix_refl _
      · exact List.prefix_append _ _
  | createEnvironment | begin | draft | error =>
      simp only [step, Option.bind_eq_some_iff] at stepped
      grind [State.setPhase]

/-- Rows are never changed or removed along a run. -/
theorem table_prefix {state next : State} {events : List Event}
    (reached : (system validateArtifact).Reachable state)
    (suffix : (system validateArtifact).Steps state events next) :
    state.table <+: next.table :=
  suffix.monotone (fun before after : State => before.table <+: after.table)
    (fun _ => List.prefix_refl _) (fun first second => first.trans second)
    table_prefix_step reached

/-- Two rows of one environment with one number are one row. -/
theorem HistoryInvariant.row_unique {state : State}
    (invariant : HistoryInvariant validateArtifact state) {first second : VersionRow}
    (firstMem : first ∈ state.table) (secondMem : second ∈ state.table)
    (environment : first.environment = second.environment)
    (number : first.number = second.number) : first = second := by
  have nodup : ((versionsOf state.table second.environment).map (·.number)).Nodup := by
    rw [invariant.numbers]
    exact List.nodup_range'
  exact List.inj_on_of_nodup_map nodup (mem_versionsOf.mpr ⟨firstMem, environment⟩)
    (mem_versionsOf.mpr ⟨secondMem, rfl⟩) number

/-- A stored row is what its number selects. -/
theorem HistoryInvariant.selectVersion_of_mem {state : State}
    (invariant : HistoryInvariant validateArtifact state) {row : VersionRow}
    (member : row ∈ state.table) :
    selectVersion state.table row.environment row.number = some row := by
  have listed := mem_versionsOf.mpr ⟨member, rfl⟩
  cases found : selectVersion state.table row.environment row.number with
  | none => exact absurd (List.find?_eq_none.mp found row listed) (by simp)
  | some other =>
      obtain ⟨stored, environment⟩ := mem_versionsOf.mp (List.mem_of_find?_eq_some found)
      have number : other.number = row.number := by
        simpa using List.find?_some (show List.find? _ _ = some other from found)
      rw [invariant.row_unique stored member environment number]

/-- The version history is append-only and gap-free under every interleaving of
the statements of concurrent publish and rollback calls: the numbers of an
environment are `1..n`, stored rows never change and passed validation within the
size limit, a call that succeeded returned a row it inserted itself, no two calls
returned the same version, and a call that failed inserted nothing. -/
theorem version_history_append_only (validateArtifact : String → Bool) {state : State}
    (reached : (system validateArtifact).Reachable state) :
    (∀ env, ∃ n, (versionsOf state.table env).map (·.number) = List.range' 1 n) ∧
    (∀ next events, (system validateArtifact).Steps state events next →
      state.table <+: next.table) ∧
    (∀ row ∈ state.table, validateArtifact row.yaml = true ∧
      row.yaml.utf8ByteSize ≤ maxArtifactBytes) ∧
    (∀ id call version, state.calls id = some call → call.phase = .succeeded version →
      ∃ row ∈ state.table, row.writer = id ∧ row.environment = call.request.environment ∧
        row.number = version.number ∧ row.yaml = version.yaml) ∧
    (∀ id id' call call' version version',
      state.calls id = some call → call.phase = .succeeded version →
      state.calls id' = some call' → call'.phase = .succeeded version' →
      call.request.environment = call'.request.environment →
      version.number = version'.number → id = id') ∧
    (∀ id call error, state.calls id = some call → call.phase = .failed error →
      ∀ row ∈ state.table, row.writer ≠ id) := by
  have invariant := historyInvariant reached
  have returned : ∀ {id call version}, state.calls id = some call →
      call.phase = .succeeded version →
      (⟨version, call.request.environment, id⟩ : VersionRow) ∈ state.table := by
    intro id call version present done
    have known := invariant.phases id call present
    rwa [done] at known
  refine ⟨fun env => ⟨_, invariant.numbers env⟩,
    fun next events suffix => table_prefix reached suffix, invariant.stored, ?_, ?_, ?_⟩
  · intro id call version present done
    exact ⟨_, returned present done, rfl, rfl, rfl, rfl⟩
  · intro id id' call call' version version' present done present' done' environment number
    have same := invariant.row_unique (returned present done) (returned present' done')
      environment number
    exact congrArg VersionRow.writer same
  · intro id call error present failed row member same
    obtain ⟨writer, writerPresent, done, _⟩ := invariant.writers row member
    rw [same, present] at writerPresent
    cases writerPresent
    rw [failed] at done
    cases done

/-- Two publishers read the same next number; the second insert loses, its call
reads again and appends the next version. -/
def racingPublishes : List Event :=
  [.createEnvironment "prod", .begin 0 (.publish "prod" "ada" "first"),
    .begin 1 (.publish "prod" "bob" "second"), .statement 0, .statement 1,
    .draft 0 "a: 1", .draft 1 "b: 2", .statement 0, .statement 1, .statement 0, .statement 1,
    .statement 0, .statement 1, .statement 1, .statement 1]

/-- The race above ends with both calls successful and the numbers `1, 2`. -/
theorem version_history_of_race : ∃ state,
    (system fun _ => true).Reachable state ∧
    (versionsOf state.table "prod").map (·.number) = [1, 2] ∧
    (∀ row ∈ state.table, row.yaml.utf8ByteSize ≤ maxArtifactBytes) := by
  have reached : (system fun _ => true).Reachable _ :=
    System.reachable_of_replay racingPublishes (.initial rfl) rfl
  exact ⟨_, reached, rfl, fun row member =>
    ((version_history_append_only _ reached).2.2.1 row member).2⟩

end Restitch.Studio
