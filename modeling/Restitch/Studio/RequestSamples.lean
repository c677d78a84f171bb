import Restitch.Studio.Requests

/-!
# Which samples Studio keeps

As long as the ids of an instance's requests differ in a push, a row is taken by one request
only, so a record that is pushed again finds its own row, and every failed one gets a row.
The count before each insertion bounds the successful rows of a minute.
-/

namespace Restitch.Studio

open Restitch.Composition Restitch.Http Restitch.Reqlog Restitch.Semantics Restitch.Std
open Restitch.Std.GoTime

/-- Requests of one instance with one id are one request. -/
def DistinctIDs (served : List ServedRequest) : Prop :=
  ∀ (i j : RequestNumber) (first second : ServedRequest),
    served[i]? = some first → served[j]? = some second →
    first.instanceID = second.instanceID → first.pushed.id = second.pushed.id → i = j

section Table

variable (parseHost : List Char → Option (List Char)) (capPerMinute : String → Nat)

/-- Every row is the row of a request, rows have different keys, and no minute holds more
successful ones than its cap. -/
structure TableInvariant (served : List ServedRequest) (rows : List RequestRow) : Prop where
  source : ∀ row ∈ rows, ∃ found, served[row.request]? = some found ∧
    row = requestRow parseHost row.environment found.instanceID (row.request, found.pushed)
  unique : KeyedTable.Unique RequestRow.key rows
  capped : ∀ environment minute, keptIn rows environment minute ≤ capPerMinute environment

variable {parseHost capPerMinute} {served : List ServedRequest} {rows : List RequestRow}
  {environment instanceID : String} {request : RequestNumber} {record : Record}

/-- A row at the end is counted if it is kept in its minute. -/
theorem keptIn_append_singleton (row : RequestRow) (minute : Nat) :
    keptIn (rows ++ [row]) environment minute = keptIn rows environment minute +
      if row.environment = environment ∧ row.minute = minute ∧ row.failed = false then 1 else 0 := by
  rw [keptIn, List.countP_append, List.countP_singleton]
  simp only [keptIn, Bool.and_eq_true, decide_eq_true_eq, Bool.not_eq_eq_eq_not, Bool.not_true,
    and_assoc]

variable (parseHost rows environment instanceID) in
/-- A record is skipped, finds its key taken, or is appended below the cap. -/
theorem storeRecord_cases (cap : Nat) (entry : RequestNumber × Record) :
    storeRecord parseHost cap environment instanceID rows entry = rows ∨
      (storeRecord parseHost cap environment instanceID rows entry =
          KeyedTable.insertNew RequestRow.key
            (requestRow parseHost environment instanceID entry) rows ∧
        (failedRequest entry.2 = false →
          keptIn rows environment (minuteOf entry.2.time) < cap)) := by
  unfold storeRecord
  dsimp only
  split
  · exact .inl rfl
  · split
    · exact .inl rfl
    · rename_i room
      refine .inr ⟨rfl, fun succeeded => ?_⟩
      simp only [requestRow, succeeded, Bool.not_false, true_and, not_le] at room
      exact room

/-- Storing a record removes no row. -/
theorem storeRecord_mono {cap : Nat} {entry : RequestNumber × Record} {row : RequestRow}
    (member : row ∈ rows) :
    row ∈ storeRecord parseHost cap environment instanceID rows entry := by
  rcases storeRecord_cases parseHost rows environment instanceID cap entry with same | ⟨stored, -⟩
  · rwa [same]
  · rw [stored]
    exact KeyedTable.mem_insertNew_of_mem member

/-- One record keeps the table in order. -/
theorem TableInvariant.afterRecord (invariant : TableInvariant parseHost capPerMinute served rows)
    {found : ServedRequest} (isServed : served[request]? = some found)
    (isInstance : found.instanceID = instanceID) :
    TableInvariant parseHost capPerMinute served
      (storeRecord parseHost (capPerMinute environment) environment instanceID rows
        (request, found.pushed)) := by
  rcases storeRecord_cases parseHost rows environment instanceID (capPerMinute environment)
    (request, found.pushed) with same | ⟨stored, room⟩
  · rwa [same]
  · rw [stored]
    refine ⟨?_, invariant.unique.insertNew, ?_⟩
    · intro row member
      rcases KeyedTable.mem_of_mem_insertNew member with before | rfl
      · exact invariant.source row before
      · exact ⟨found, isServed, by rw [isInstance]; rfl⟩
    · intro other minute
      unfold KeyedTable.insertNew
      split
      · exact invariant.capped other minute
      · rw [keptIn_append_singleton]
        split
        · rename_i counted
          obtain ⟨rfl, rfl, succeeded⟩ := counted
          exact room succeeded
        · exact invariant.capped other minute

/-- A failed record has its own row afterwards: the key can only be taken by itself. -/
theorem TableInvariant.stored (invariant : TableInvariant parseHost capPerMinute served rows)
    (distinct : DistinctIDs served) {found : ServedRequest}
    (isServed : served[request]? = some found) (isInstance : found.instanceID = instanceID)
    (named : found.pushed.id ≠ "") (failed : failedRequest found.pushed = true) :
    ∃ row ∈ storeRecord parseHost (capPerMinute environment) environment instanceID rows
        (request, found.pushed), row.environment = environment ∧ row.request = request := by
  have kept : TableInvariant parseHost capPerMinute served
      (storeRecord parseHost (capPerMinute environment) environment instanceID rows
        (request, found.pushed)) := invariant.afterRecord isServed isInstance
  have inserted : storeRecord parseHost (capPerMinute environment) environment instanceID rows
      (request, found.pushed) = KeyedTable.insertNew RequestRow.key
        (requestRow parseHost environment instanceID (request, found.pushed)) rows := by
    simp [storeRecord, requestRow, named, failed]
  obtain ⟨row, member, sameKey⟩ := KeyedTable.exists_key_insertNew RequestRow.key
    (requestRow parseHost environment instanceID (request, found.pushed)) rows
  rw [← inserted] at member
  obtain ⟨owner, isOwner, isRow⟩ := kept.source row member
  simp only [RequestRow.key, requestRow, Prod.mk.injEq] at sameKey
  obtain ⟨sameEnvironment, sameInstance, sameID⟩ := sameKey
  refine ⟨row, member, sameEnvironment, ?_⟩
  rw [isRow] at sameInstance sameID
  exact distinct _ _ owner found isOwner isServed (sameInstance.trans isInstance.symm) sameID

variable (environment) in
/-- A batch keeps the table in order and drops nothing from it, and every failed record of
the batch has its row afterwards. -/
theorem TableInvariant.afterBatch (invariant : TableInvariant parseHost capPerMinute served rows)
    (distinct : DistinctIDs served)
    (named : ∀ found ∈ served, found.pushed.id ≠ "") {batch : List RequestNumber}
    {records : List (RequestNumber × Record)}
    (isBatch : batchRecords served instanceID batch = some records) :
    let after := records.foldl
      (storeRecord parseHost (capPerMinute environment) environment instanceID) rows
    TableInvariant parseHost capPerMinute served after ∧ (∀ row ∈ rows, row ∈ after) ∧
      ∀ request ∈ batch, ∀ found, served[request]? = some found →
        failedRequest found.pushed = true →
        ∃ row ∈ after, row.environment = environment ∧ row.request = request := by
  dsimp only
  induction batch generalizing rows records with
  | nil =>
      cases isBatch
      exact ⟨invariant, fun row member => member, nofun⟩
  | cons request rest ih =>
      rw [batchRecords] at isBatch
      split at isBatch
      · rename_i found isServed
        split at isBatch
        · rename_i isInstance
          obtain ⟨later, isLater, rfl⟩ := Option.map_eq_some_iff.mp isBatch
          rw [List.foldl_cons]
          obtain ⟨kept, grows, stores⟩ := ih (invariant.afterRecord isServed isInstance) isLater
          refine ⟨kept, fun row member => grows row (storeRecord_mono member), ?_⟩
          intro other member owner isOwner failed
          rcases List.mem_cons.mp member with rfl | after
          · cases isServed.symm.trans isOwner
            obtain ⟨row, isRow, facts⟩ := invariant.stored distinct isServed isInstance
              (named found (List.mem_of_getElem? isServed)) failed
            exact ⟨row, grows row isRow, facts⟩
          · exact stores other after owner isOwner failed
        · cases isBatch
      · cases isBatch

end Table

section Runs

variable (parseHost : List Char → Option (List Char)) (capPerMinute : String → Nat)

/-- Ids are distinct and not empty, the table is in order, and every failed record that is due
has a row. -/
structure RequestsInvariant (state : RequestsState) : Prop where
  distinct : DistinctIDs state.served
  named : ∀ found ∈ state.served, found.pushed.id ≠ ""
  table : TableInvariant parseHost capPerMinute state.served state.rows
  stored : ∀ environment request found, (environment, request) ∈ state.due →
    state.served[request]? = some found → failedRequest found.pushed = true →
    ∃ row ∈ state.rows, row.environment = environment ∧ row.request = request
  dueServed : ∀ entry ∈ state.due, entry.2 < state.served.length

variable {parseHost capPerMinute} {state : RequestsState}

/-- The id of a pushed record is never empty. -/
theorem pushedID_ne {sent newRequestID : List UInt8} (made : newRequestID ≠ []) :
    pushedID (requestIDBytes sent newRequestID) ≠ "" := by
  have nonempty : requestIDBytes sent newRequestID ≠ [] := by
    rw [requestIDBytes]
    split
    · exact made
    · assumption
  intro empty
  have none_ : runes (requestIDBytes sent newRequestID) = [] :=
    (String.toList_ofList.symm.trans (congrArg String.toList empty)).trans String.toList_empty
  obtain ⟨byte, rest, isID⟩ := List.exists_cons_of_ne_nil nonempty
  rw [isID, runes, List.length_cons, runesFrom] at none_
  split at none_ <;> cases none_

/-- One more request, with an id of its own. -/
theorem RequestsInvariant.serve (invariant : RequestsInvariant parseHost capPerMinute state)
    {new : ServedRequest} (named : new.pushed.id ≠ "")
    (isNew : ∀ earlier ∈ state.served, earlier.instanceID = new.instanceID →
      earlier.pushed.id ≠ new.pushed.id) :
    RequestsInvariant parseHost capPerMinute { state with served := state.served ++ [new] } := by
  have grown {request : RequestNumber} {found : ServedRequest}
      (isServed : state.served[request]? = some found) :
      (state.served ++ [new])[request]? = some found :=
    (List.getElem?_append_left (List.getElem?_eq_some_iff.mp isServed).1).trans isServed
  have split_ {request : RequestNumber} {found : ServedRequest}
      (isServed : (state.served ++ [new])[request]? = some found) :
      state.served[request]? = some found ∨ (request = state.served.length ∧ found = new) := by
    rcases Nat.lt_trichotomy request state.served.length with before | last | beyond
    · rw [List.getElem?_append_left before] at isServed
      exact .inl isServed
    · subst last
      rw [List.getElem?_concat_length] at isServed
      exact .inr ⟨rfl, (Option.some.inj isServed).symm⟩
    · rw [List.getElem?_eq_none] at isServed
      · cases isServed
      · rw [List.length_append, List.length_singleton]
        exact beyond
  refine ⟨?_, ?_, ⟨?_, invariant.table.unique, invariant.table.capped⟩, ?_, ?_⟩
  · intro i j first second isFirst isSecond sameInstance sameID
    rcases split_ isFirst with oldFirst | ⟨isLast, rfl⟩
    · rcases split_ isSecond with oldSecond | ⟨-, rfl⟩
      · exact invariant.distinct i j first second oldFirst oldSecond sameInstance sameID
      · exact absurd sameID (isNew first (List.mem_of_getElem? oldFirst) sameInstance)
    · rcases split_ isSecond with oldSecond | ⟨alsoLast, rfl⟩
      · exact absurd sameID.symm (isNew second (List.mem_of_getElem? oldSecond) sameInstance.symm)
      · rw [isLast, alsoLast]
  · intro found member
    rcases List.mem_append.mp member with old | last
    · exact invariant.named found old
    · cases List.mem_singleton.mp last
      exact named
  · intro row member
    obtain ⟨found, isServed, isRow⟩ := invariant.table.source row member
    exact ⟨found, grown isServed, isRow⟩
  · intro environment request found due isServed failed
    rcases split_ isServed with old | ⟨isLast, -⟩
    · exact invariant.stored environment request found due old failed
    · exact absurd isLast (Nat.ne_of_lt (invariant.dueServed _ due))
  · intro entry due
    dsimp only
    rw [List.length_append]
    exact Nat.lt_add_right _ (invariant.dueServed entry due)

/-- The requests of a batch were served. -/
theorem served_of_batchRecords {served : List ServedRequest} {instanceID : String}
    {batch : List RequestNumber} {records : List (RequestNumber × Record)}
    (isBatch : batchRecords served instanceID batch = some records) :
    ∀ request ∈ batch, request < served.length := by
  induction batch generalizing records with
  | nil => nofun
  | cons first rest ih =>
      rw [batchRecords] at isBatch
      split at isBatch
      · rename_i found isServed
        split at isBatch
        · obtain ⟨later, isLater, -⟩ := Option.map_eq_some_iff.mp isBatch
          intro request member
          rcases List.mem_cons.mp member with rfl | after
          · exact (List.getElem?_eq_some_iff.mp isServed).1
          · exact ih isLater request after
        · cases isBatch
      · cases isBatch

/-- Deleting rows keeps no more of them. -/
theorem keptIn_filter_le (rows : List RequestRow) (keep : RequestRow → Bool)
    (environment : String) (minute : Nat) :
    keptIn (rows.filter keep) environment minute ≤ keptIn rows environment minute :=
  List.Sublist.countP_le List.filter_sublist

/-- One more push. -/
theorem RequestsInvariant.push (invariant : RequestsInvariant parseHost capPerMinute state)
    {environment instanceID : String} {cutoff : Nat} {batch : List RequestNumber}
    {records : List (RequestNumber × Record)}
    (isBatch : batchRecords state.served instanceID batch = some records) :
    RequestsInvariant parseHost capPerMinute { state with
      rows := storeRequests parseHost (capPerMinute environment) cutoff environment instanceID
        records state.rows
      due := dueAfter state.served environment cutoff batch state.due } := by
  obtain ⟨table, grows, stores⟩ :=
    invariant.table.afterBatch environment invariant.distinct invariant.named isBatch
  refine ⟨invariant.distinct, invariant.named, ⟨?_, table.unique.filter _, ?_⟩, ?_, ?_⟩
  · intro row member
    exact table.source row (List.mem_filter.mp member).1
  · intro other minute
    exact (keptIn_filter_le _ _ other minute).trans (table.capped other minute)
  · intro other request found due isServed failed
    obtain ⟨listed, inTime⟩ := List.mem_filter.mp due
    -- The row of a record is dropped exactly when the record is no longer due.
    have keeps {row : RequestRow} (member : row ∈ records.foldl (storeRecord parseHost
        (capPerMinute environment) environment instanceID) state.rows)
        (isEnvironment : row.environment = other) (isRequest : row.request = request) :
        ∃ row ∈ storeRequests parseHost (capPerMinute environment) cutoff environment instanceID
          records state.rows, row.environment = other ∧ row.request = request := by
      refine ⟨row, List.mem_filter.mpr ⟨member, ?_⟩, isEnvironment, isRequest⟩
      obtain ⟨owner, isOwner, isRow⟩ := table.source row member
      rw [isRequest, isServed] at isOwner
      cases isOwner
      have time : row.at_ = found.record.time := by rw [isRow]; rfl
      rw [afterCutoff, isEnvironment, time]
      simpa [isServed] using inTime
    rcases List.mem_append.mp listed with before | pushed
    · obtain ⟨row, member, isEnvironment, isRequest⟩ :=
        invariant.stored other request found before isServed failed
      exact keeps (grows row member) isEnvironment isRequest
    · obtain ⟨_, inBatch, same⟩ := List.mem_map.mp pushed
      cases same
      obtain ⟨row, member, isEnvironment, isRequest⟩ := stores request inBatch found isServed failed
      exact keeps member isEnvironment isRequest
  · intro entry due
    rcases List.mem_append.mp (List.mem_filter.mp due).1 with before | pushed
    · exact invariant.dueServed entry before
    · obtain ⟨request, inBatch, rfl⟩ := List.mem_map.mp pushed
      exact served_of_batchRecords isBatch request inBatch

/-- The only row of a failed record that is due. -/
theorem RequestsInvariant.rowsOf_eq (invariant : RequestsInvariant parseHost capPerMinute state)
    {environment : String} {request : RequestNumber} {found : ServedRequest}
    (due : (environment, request) ∈ state.due) (isServed : state.served[request]? = some found)
    (failed : failedRequest found.pushed = true) :
    rowsOf state environment request =
      [requestRow parseHost environment found.instanceID (request, found.pushed)] := by
  obtain ⟨row, member, rfl, rfl⟩ := invariant.stored environment request found due isServed failed
  -- A row of this request is the row that its record makes.
  have isRow {other : RequestRow} (isOther : other ∈ state.rows)
      (sameRequest : other.request = row.request) :
      other = requestRow parseHost other.environment found.instanceID
        (row.request, found.pushed) := by
    obtain ⟨owner, isOwner, made⟩ := invariant.table.source other isOther
    rw [sameRequest, isServed] at isOwner
    cases isOwner
    rw [sameRequest] at made
    exact made
  rw [← isRow member rfl]
  refine invariant.table.unique.filter_eq_singleton member (by simp) ?_
  intro other isOther kept
  simp only [Bool.and_eq_true, decide_eq_true_eq] at kept
  rw [isRow isOther kept.2, isRow member rfl, kept.1]
  rfl

end Runs

/-- In every run in which the ids of an instance's requests differ in a push, every failed
record that was delivered and is not past the cutoff has exactly one row, which holds it, and no
minute of an environment holds more successful records than the cap: for any instances, any
batches and any number of pushes of them. -/
theorem failed_requests_stored_once (parseHost : List Char → Option (List Char))
    (capPerMinute : String → Nat) (state : RequestsState)
    (reached : ((requestsSystem parseHost capPerMinute).restrict NewID).Reachable state) :
    (∀ environment request found, (environment, request) ∈ state.due →
      state.served[request]? = some found → failedRequest found.pushed = true →
      rowsOf state environment request =
        [requestRow parseHost environment found.instanceID (request, found.pushed)]) ∧
    ∀ environment minute, keptIn state.rows environment minute ≤ capPerMinute environment := by
  suffices invariant : RequestsInvariant parseHost capPerMinute state from
    ⟨fun _ _ _ due isServed failed => invariant.rowsOf_eq due isServed failed,
      invariant.table.capped⟩
  refine System.Reachable.induction (RequestsInvariant parseHost capPerMinute) ?_ ?_ reached
  · intro state valid
    cases valid
    exact ⟨nofun, nofun, ⟨nofun, .nil, fun _ _ => Nat.zero_le _⟩, nofun, nofun⟩
  · rintro state event next - invariant ⟨stepped, newID⟩
    cases event with
    | serve instanceID sent newRequestID record =>
        obtain ⟨made, isNext⟩ := (Option.ite_none_left_eq_some ..).mp stepped
        cases isNext
        exact invariant.serve (pushedID_ne made) newID
    | push environment instanceID batch now retentionDays =>
        obtain ⟨records, isBatch, rfl⟩ := Option.map_eq_some_iff.mp stepped
        exact invariant.push isBatch

/-- An instance serves a partial request with an id that the client sent. -/
def servePartial (id : List UInt8) : RequestsEvent :=
  .serve "g1" id (utf8 "01J".toList) ⟨"", "", 0, "users", "GET", "/users", 200, 1, true, ∅, []⟩

/-- `NewID`, as a test. -/
def newID (state : RequestsState) : RequestsEvent → Bool
  | .serve instanceID sent newRequestID _ => state.served.all fun earlier =>
      earlier.instanceID ≠ instanceID ||
        pushedID earlier.requestID ≠ pushedID (requestIDBytes sent newRequestID)
  | .push _ _ _ _ _ => true

/-- Two requests with different ids, and their batch sent twice. -/
theorem failed_requests_stored_once_of_resent :
    ∃ state : RequestsState,
      state.due = [("prod", 0), ("prod", 1), ("prod", 0), ("prod", 1)] ∧
      state.served.map (fun found => failedRequest found.pushed) = [true, true] ∧
      (∀ environment request found, (environment, request) ∈ state.due →
        state.served[request]? = some found → failedRequest found.pushed = true →
        rowsOf state environment request =
          [requestRow some environment found.instanceID (request, found.pushed)]) ∧
      ∀ environment minute, keptIn state.rows environment minute ≤ 10 := by
  have weakens : ∀ state event, newID state event = true → NewID state event := by
    intro state event met
    cases event with
    | push => trivial
    | serve instanceID sent newRequestID record =>
        intro earlier member sameInstance
        simpa [sameInstance] using List.all_eq_true.mp met earlier member
  have ends : (System.replay (System.guarded (requestsStep some fun _ => 10) fun state event =>
      newID state event = true) ⟨[], [], []⟩
        [servePartial [97], servePartial [98], .push "prod" "g1" [0, 1] 0 7,
          .push "prod" "g1" [0, 1] 0 7]).map
        (fun state => (state.due, state.served.map fun found => failedRequest found.pushed)) =
      some ([("prod", 0), ("prod", 1), ("prod", 0), ("prod", 1)], [true, true]) := by
    decide +kernel
  obtain ⟨final, replayed, facts⟩ := Option.map_eq_some_iff.mp ends
  have reached : ((requestsSystem some fun _ => 10).restrict fun state event =>
      newID state event = true).Reachable final :=
    System.reachable_of_guarded _ (.initial rfl) replayed
  simp only [Prod.mk.injEq] at facts
  exact ⟨final, facts.1, facts.2,
    failed_requests_stored_once some (fun _ => 10) final (reached.restrict_mono weakens)⟩

/-- A client sends the same id with two requests: the second one is delivered and not stored. -/
theorem failed_request_not_stored :
    ∃ state found, (requestsSystem some fun _ => 10).Reachable state ∧
      ("prod", 1) ∈ state.due ∧ state.served[1]? = some found ∧
      failedRequest found.pushed = true ∧ rowsOf state "prod" 1 = [] := by
  have ends : (System.replay (requestsStep some fun _ => 10) ⟨[], [], []⟩
      [servePartial [97], servePartial [97], .push "prod" "g1" [0] 0 7,
        .push "prod" "g1" [1] 0 7]).map (fun state => (state.due,
          state.served[1]?.map fun found => failedRequest found.pushed,
          (rowsOf state "prod" 1).length)) =
      some ([("prod", 0), ("prod", 1)], some true, 0) := by
    decide +kernel
  obtain ⟨final, replayed, facts⟩ := Option.map_eq_some_iff.mp ends
  simp only [Prod.mk.injEq] at facts
  obtain ⟨due, served, none_⟩ := facts
  obtain ⟨found, isServed, failed⟩ := Option.map_eq_some_iff.mp served
  refine ⟨final, found, System.reachable_of_replay _ (.initial rfl) replayed, ?_, isServed, failed,
    List.length_eq_zero_iff.mp none_⟩
  rw [due]
  exact List.mem_cons_of_mem _ (List.mem_singleton_self _)

end Restitch.Studio
