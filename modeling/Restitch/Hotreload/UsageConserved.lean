import Restitch.Hotreload.Usage

/-!
# Conservation of usage

As long as windows with requests open in different minutes, no bucket ever meets the row of
another window. The rows are then the buckets of all windows up to some push, followed by
those that Studio stored without an acknowledgement, and a retry replaces a row by itself.
-/

namespace Restitch.Hotreload

open Restitch.Admin Restitch.Semantics Restitch.Std Restitch.Std.GoTime

section Sums

variable {keep : Bucket → Bool} {first second rows : List Bucket}

/-- The requests of two batches add up. -/
theorem requestsWhere_append (keep : Bucket → Bool) (first second : List Bucket) :
    requestsWhere keep (first ++ second) =
      requestsWhere keep first + requestsWhere keep second := by
  simp [requestsWhere]

/-- The order of the buckets does not count. -/
theorem requestsWhere_perm (keep : Bucket → Bool) (same : first.Perm second) :
    requestsWhere keep first = requestsWhere keep second :=
  List.Perm.sum_nat ((same.filter keep).map _)

/-- A bucket without requests adds nothing. -/
theorem requestsWhere_countedBuckets (keep : Bucket → Bool) (rows : List Bucket) :
    requestsWhere keep (countedBuckets rows) = requestsWhere keep rows := by
  induction rows with
  | nil => rfl
  | cons row rest ih =>
      change requestsWhere keep (countedBuckets ([row] ++ rest)) = requestsWhere keep ([row] ++ rest)
      rw [countedBuckets, List.filter_append, requestsWhere_append, requestsWhere_append]
      congr 1
      by_cases empty : row.counts.requests = 0
      · by_cases kept : keep row = true <;> simp [requestsWhere, empty, kept]
      · simp [empty]

/-- The buckets counted are those of both batches. -/
theorem countedBuckets_append (first second : List Bucket) :
    countedBuckets (first ++ second) = countedBuckets first ++ countedBuckets second :=
  List.filter_append first second

/-- The global rows of two batches add up. -/
theorem GlobalRowsAdd.append (firstAdds : GlobalRowsAdd first)
    (secondAdds : GlobalRowsAdd second) : GlobalRowsAdd (first ++ second) := by
  intro minute
  rw [requestsWhere_append, requestsWhere_append, firstAdds minute, secondAdds minute]

/-- The global rows add up in any order. -/
theorem GlobalRowsAdd.perm (adds : GlobalRowsAdd first) (same : first.Perm second) :
    GlobalRowsAdd second := by
  intro minute
  rw [← requestsWhere_perm _ same, ← requestsWhere_perm _ same, adds minute]

/-- The global rows that are counted add up. -/
theorem GlobalRowsAdd.countedBuckets (adds : GlobalRowsAdd rows) :
    GlobalRowsAdd (countedBuckets rows) := by
  intro minute
  rw [requestsWhere_countedBuckets, requestsWhere_countedBuckets, adds minute]

end Sums

section Flush

/-- The gateway-wide counts of a window are those of its compositions, all of which have a
name. -/
structure WindowInvariant (acc : Accumulator) : Prop where
  named : "" ∉ acc.perComp.keys
  adds : acc.global.requests = acc.compRequests

variable {acc : Accumulator}

/-- A new window has counted nothing. -/
theorem WindowInvariant.new (now : Nat) : WindowInvariant (newAccumulator now) :=
  ⟨List.not_mem_nil, rfl⟩

/-- A named request keeps the window's sums. -/
theorem WindowInvariant.record (invariant : WindowInvariant acc) {sample : RequestSample}
    (named : sample.composition ≠ "") : WindowInvariant (acc.record sample) where
  named := by
    intro listed
    have either : "" = sample.composition ∨ "" ∈ acc.perComp := (AList.mem_insert acc.perComp).mp listed
    rcases either with same | earlier
    · exact named same.symm
    · exact invariant.named earlier
  adds := by
    rw [Accumulator.record_global, Accumulator.record_compRequests, invariant.adds]

/-- All buckets of a window carry the minute it opened in. -/
theorem flush_minute {bucket : Bucket} (flushed : bucket ∈ acc.flush) :
    bucket.minute = minuteOf acc.start := by
  rcases List.mem_cons.mp flushed with rfl | ofComposition
  · rfl
  · obtain ⟨entry, -, rfl⟩ := List.mem_map.mp ofComposition
    rfl

/-- A window has one bucket for each composition. -/
theorem WindowInvariant.unique_flush (invariant : WindowInvariant acc) :
    KeyedTable.Unique usageKey acc.flush := by
  refine List.pairwise_cons.mpr ⟨?_, ?_⟩
  · intro bucket ofComposition same
    obtain ⟨entry, isEntry, rfl⟩ := List.mem_map.mp ofComposition
    have unnamed : "" = entry.1 := congrArg Prod.snd same
    apply invariant.named
    rw [unnamed]
    exact List.mem_map_of_mem isEntry
  · refine List.pairwise_map.mpr ?_
    have apart : acc.perComp.entries.Pairwise fun first second => first.1 ≠ second.1 :=
      List.pairwise_map.mp acc.perComp.nodupKeys
    exact apart.imp fun different same => different (congrArg Prod.snd same)

/-- A window without requests has no bucket that counts. -/
theorem WindowInvariant.countedBuckets_flush (invariant : WindowInvariant acc)
    (empty : acc.global.requests = 0) : countedBuckets acc.flush = [] := by
  have none_ : acc.compRequests = 0 := invariant.adds.symm.trans empty
  refine List.filter_eq_nil_iff.mpr ?_
  intro bucket flushed
  rcases List.mem_cons.mp flushed with rfl | ofComposition
  · simp [empty]
  · obtain ⟨entry, isEntry, rfl⟩ := List.mem_map.mp ofComposition
    have zero := List.sum_eq_zero_iff_forall_eq_nat.mp none_ entry.2.requests (List.mem_map_of_mem isEntry)
    simp [zero]

/-- The requests of a flushed window are those of the gateway's bucket and of each composition's. -/
theorem requestsWhere_flush (keep : Bucket → Bool) (acc : Accumulator) :
    requestsWhere keep acc.flush =
      (if keep ⟨minuteOf acc.start, "", acc.global⟩ then acc.global.requests else 0) +
        ((acc.perComp.entries.filter fun entry => keep ⟨minuteOf acc.start, entry.1, entry.2⟩).map
          fun entry => entry.2.requests).sum := by
  have ofCompositions : requestsWhere keep
      (acc.perComp.entries.map fun entry => ⟨minuteOf acc.start, entry.1, entry.2⟩) =
      ((acc.perComp.entries.filter fun entry => keep ⟨minuteOf acc.start, entry.1, entry.2⟩).map
          fun entry => entry.2.requests).sum := by
    rw [requestsWhere, List.filter_map, List.map_map]
    rfl
  rw [Accumulator.flush, ← List.singleton_append, requestsWhere_append, ofCompositions]
  split <;> simp [requestsWhere, *]

/-- A composition's requests in a flushed window are those counted for it. -/
theorem requestsOf_flush (acc : Accumulator) {composition : String} (named : composition ≠ "") :
    requestsOf composition acc.flush = acc.requestsFor composition := by
  have found := GoMap.sum_filter_key AccBucket.requests acc.perComp composition
  rw [requestsOf, requestsWhere_flush, if_neg (by simpa using named.symm), Nat.zero_add, found,
    Accumulator.requestsFor, GoMap.getD]
  cases acc.perComp.lookup composition <;> rfl

/-- The gateway-wide bucket of a window counts what those of its compositions do. -/
theorem WindowInvariant.globalRowsAdd (invariant : WindowInvariant acc) :
    GlobalRowsAdd acc.flush := by
  have isNamed {entry : GoEntry String AccBucket} (isEntry : entry ∈ acc.perComp.entries) :
      entry.1 ≠ "" := by
    intro unnamed
    apply invariant.named
    rw [← unnamed]
    exact List.mem_map_of_mem isEntry
  intro minute
  rw [requestsWhere_flush, requestsWhere_flush]
  by_cases same : minuteOf acc.start = minute
  · have ofNone : acc.perComp.entries.filter (fun entry => entry.1 = "") = [] :=
      List.filter_eq_nil_iff.mpr fun entry isEntry => by simpa using isNamed isEntry
    have ofAll : acc.perComp.entries.filter (fun entry => entry.1 ≠ "") = acc.perComp.entries :=
      List.filter_eq_self.mpr fun entry isEntry => by simpa using isNamed isEntry
    have adds := invariant.adds
    simp only [same, decide_true, Bool.true_and, ofNone, ofAll, if_true, ne_eq, not_true_eq_false,
      decide_false]
    simpa [Accumulator.compRequests] using adds
  · simp [same]

end Flush

section Runs

/-- The buckets that count and that the gateway has not seen acknowledged. -/
def undelivered (state : UsageState) : List Bucket :=
  countedBuckets state.pending ++ countedBuckets (state.sending.getD [])

/-- `settled` are the buckets of all acknowledged pushes. Those of the last failed push are
either all stored or not at all. -/
structure UsageInvariant (state : UsageState) (settled : List Bucket) : Prop where
  window : WindowInvariant state.acc
  newMinute : state.acc.global.requests ≠ 0 → minuteOf state.acc.start ∉ state.usedMinutes
  minutes : ∀ row ∈ settled ++ undelivered state, row.minute ∈ state.usedMinutes
  unique : KeyedTable.Unique usageKey (settled ++ undelivered state)
  adds : GlobalRowsAdd (settled ++ undelivered state)
  stored : state.rows.Perm settled ∨
    state.rows.Perm (settled ++ countedBuckets state.pending)
  pushed : ∀ composition ≠ "",
    requestsOf composition (settled ++ undelivered state) = state.pushed.count composition
  recorded : ∀ composition ≠ "",
    state.pushed.count composition + state.acc.requestsFor composition =
      state.recorded.count composition
  delivered : state.acknowledged = true → state.pending = [] ∧ state.sending = none

variable {state : UsageState} {settled : List Bucket}

/-- The invariant holds when the gateway starts. -/
theorem UsageInvariant.started (now : Nat) : UsageInvariant (startedGateway now) [] where
  window := .new now
  newMinute := by
    intro counted
    exact absurd rfl counted
  minutes := by
    intro row member
    cases member
  unique := .nil
  adds := fun _ => rfl
  stored := .inl (.refl [])
  pushed := fun _ _ => rfl
  recorded := fun _ _ => rfl
  delivered := by
    intro never
    cases never

/-- A request in the minute of its window is counted. -/
theorem UsageInvariant.record (invariant : UsageInvariant state settled)
    {sample : RequestSample} (inOwn : InOwnMinute state (.record sample)) :
    UsageInvariant { state with
      acc := state.acc.record sample
      recorded := state.recorded ++ [sample.composition] } settled where
  window := invariant.window.record inOwn.2
  newMinute := fun _ => inOwn.1
  minutes := invariant.minutes
  unique := invariant.unique
  adds := invariant.adds
  stored := invariant.stored
  pushed := invariant.pushed
  recorded := by
    intro composition named
    have before := invariant.recorded composition named
    rw [Accumulator.record_requestsFor, ← Nat.add_assoc, before, List.count_append,
      List.count_singleton]
    simp only [beq_iff_eq]
  delivered := invariant.delivered

/-- A flush opens a window; the buckets of the old one share no key with an earlier one. -/
theorem UsageInvariant.push (invariant : UsageInvariant state settled)
    (idle : state.sending = none) :
    UsageInvariant { state with
      acc := newAccumulator state.now
      sending := some state.acc.flush
      pushed := state.recorded
      acknowledged := false
      usedMinutes := if state.acc.global.requests = 0 then state.usedMinutes
        else minuteOf state.acc.start :: state.usedMinutes } settled := by
  have before : undelivered state = countedBuckets state.pending := by
    rw [undelivered, idle, Option.getD_none]
    exact List.append_nil _
  have unique := invariant.unique
  have minutes := invariant.minutes
  have adds := invariant.adds
  have pushed := invariant.pushed
  rw [before] at unique minutes adds pushed
  refine {
    window := .new state.now
    newMinute := fun counted => absurd rfl counted
    minutes := ?_
    unique := ?_
    adds := ?_
    stored := invariant.stored
    pushed := ?_
    recorded := ?_
    delivered := nofun }
  · intro row member
    rw [undelivered, ← List.append_assoc] at member
    rcases List.mem_append.mp member with earlier | flushed
    · have used := minutes row earlier
      dsimp only
      split
      · exact used
      · exact List.mem_cons_of_mem _ used
    · dsimp only at flushed ⊢
      split
      · rename_i empty
        rw [Option.getD_some, invariant.window.countedBuckets_flush empty] at flushed
        cases flushed
      · rw [flush_minute (List.mem_of_mem_filter flushed)]
        exact List.mem_cons_self
  · rw [undelivered, ← List.append_assoc]
    dsimp only [Option.getD_some]
    by_cases empty : state.acc.global.requests = 0
    · rw [invariant.window.countedBuckets_flush empty, List.append_nil]
      exact unique
    · refine List.pairwise_append.mpr
        ⟨unique, KeyedTable.Unique.filter invariant.window.unique_flush _, ?_⟩
      intro row earlier bucket flushed same
      have sameMinute : row.minute = bucket.minute := congrArg Prod.fst same
      apply invariant.newMinute empty
      rw [← flush_minute (List.mem_of_mem_filter flushed), ← sameMinute]
      exact minutes row earlier
  · rw [undelivered, ← List.append_assoc]
    exact adds.append invariant.window.globalRowsAdd.countedBuckets
  · intro composition named
    rw [undelivered, ← List.append_assoc, requestsOf, requestsWhere_append, ← requestsOf,
      pushed composition named, requestsWhere_countedBuckets]
    change _ + requestsOf composition state.acc.flush = _
    rw [requestsOf_flush state.acc named, invariant.recorded composition named]
  · intro composition _
    rfl

/-- An acknowledged send settles what was undelivered. -/
theorem UsageInvariant.acknowledged (invariant : UsageInvariant state settled)
    {fresh : List Bucket} (isSending : state.sending = some fresh) :
    UsageInvariant { state with
      rows := storeUsage state.rows (state.pending ++ fresh)
      sending := none
      pending := []
      acknowledged := true } (settled ++ undelivered state) := by
  have rest : undelivered state = countedBuckets state.pending ++ countedBuckets fresh := by
    rw [undelivered, isSending, Option.getD_some]
  have unique := invariant.unique
  rw [rest, ← List.append_assoc] at unique
  have retried := KeyedTable.foldl_upsert_perm (List.pairwise_append.mp unique).1 invariant.stored
  have stored : (storeUsage state.rows (state.pending ++ fresh)).Perm
      (settled ++ undelivered state) := by
    rw [storeUsage, countedBuckets_append, List.foldl_append, rest, ← List.append_assoc]
    exact KeyedTable.foldl_upsert_perm unique (.inl retried)
  have nothing (settled : List Bucket) : settled ++ undelivered { state with
      rows := storeUsage state.rows (state.pending ++ fresh)
      sending := none
      pending := []
      acknowledged := true } = settled := List.append_nil settled
  refine {
    window := invariant.window
    newMinute := invariant.newMinute
    minutes := ?_
    unique := ?_
    adds := ?_
    stored := .inl stored
    pushed := ?_
    recorded := invariant.recorded
    delivered := fun _ => ⟨rfl, rfl⟩ }
  all_goals rw [nothing]
  · exact invariant.minutes
  · exact invariant.unique
  · exact invariant.adds
  · exact invariant.pushed

/-- A failed send after one that did not fail: what it could not deliver waits for the next
push, and is stored or not. -/
theorem UsageInvariant.failed (invariant : UsageInvariant state settled)
    {fresh : List Bucket} (isSending : state.sending = some fresh) (first : state.pending = [])
    {outcome : PushOutcome} (failed : outcome ≠ .acknowledged) :
    UsageInvariant { state with
      rows := rowsAfter state.rows (state.pending ++ fresh) outcome
      sending := none
      pending := fresh
      dropped := state.dropped + state.pending.length } settled := by
  have rest : undelivered state = countedBuckets fresh := by
    rw [undelivered, isSending, first, Option.getD_some]
    rfl
  have settledRows : state.rows.Perm settled := by
    rcases invariant.stored with without | complete
    · exact without
    · rw [first] at complete
      exact complete.trans (.of_eq (List.append_nil settled))
  have unique := invariant.unique
  rw [rest] at unique
  have same : undelivered { state with
      rows := rowsAfter state.rows (state.pending ++ fresh) outcome
      sending := none
      pending := fresh
      dropped := state.dropped + state.pending.length } = undelivered state :=
    (List.append_nil _).trans rest.symm
  refine {
    window := invariant.window
    newMinute := invariant.newMinute
    minutes := ?_
    unique := ?_
    adds := ?_
    stored := ?_
    pushed := ?_
    recorded := invariant.recorded
    delivered := ?_ }
  · rw [same]
    exact invariant.minutes
  · rw [same]
    exact invariant.unique
  · rw [same]
    exact invariant.adds
  · cases outcome with
    | acknowledged => exact absurd rfl failed
    | refused => exact .inl settledRows
    | ackLost =>
        right
        change (storeUsage state.rows (state.pending ++ fresh)).Perm _
        rw [first, List.nil_append, storeUsage]
        exact KeyedTable.foldl_upsert_perm unique (.inl settledRows)
  · rw [same]
    exact invariant.pushed
  · intro isAcknowledged
    have idle := (invariant.delivered isAcknowledged).2
    cases idle.symm.trans isSending

/-- One event keeps the invariant, unless it drops buckets. -/
theorem UsageInvariant.step (invariant : UsageInvariant state settled) {event : UsageEvent}
    {next : UsageState} (stepped : usageStep state event = some next)
    (inOwn : InOwnMinute state event) (kept : next.dropped = 0) :
    ∃ settled, UsageInvariant next settled := by
  cases event with
  | advance milliseconds =>
      cases stepped
      exact ⟨settled, { invariant with }⟩
  | record sample =>
      cases stepped
      exact ⟨settled, invariant.record inOwn⟩
  | push =>
      rw [usageStep] at stepped
      split at stepped
      · cases stepped
      · rename_i idle
        cases stepped
        exact ⟨settled, invariant.push idle⟩
  | sent outcome =>
      obtain ⟨fresh, isSending, rfl⟩ := Option.map_eq_some_iff.mp stepped
      by_cases isAcknowledged : outcome = .acknowledged
      · subst isAcknowledged
        exact ⟨_, invariant.acknowledged isSending⟩
      · dsimp only at kept ⊢
        rw [if_neg isAcknowledged] at kept ⊢
        have first : state.pending = [] := by
          apply List.eq_nil_of_length_eq_zero
          exact (Nat.add_eq_zero_iff.mp kept).2
        exact ⟨settled, invariant.failed isSending first isAcknowledged⟩

/-- Drops are never forgotten. -/
theorem dropped_le_of_usageStep {event : UsageEvent} {next : UsageState}
    (stepped : usageStep state event = some next) : state.dropped ≤ next.dropped := by
  cases event with
  | advance milliseconds =>
      cases stepped
      exact Nat.le_refl _
  | record sample =>
      cases stepped
      exact Nat.le_refl _
  | push =>
      rw [usageStep] at stepped
      split at stepped
      · cases stepped
      · cases stepped
        exact Nat.le_refl _
  | sent outcome =>
      obtain ⟨fresh, -, rfl⟩ := Option.map_eq_some_iff.mp stepped
      dsimp only
      split
      · exact Nat.le_refl _
      · exact Nat.le_add_right _ _

/-- A run whose requests land in their own minutes and that drops nothing keeps the invariant. -/
theorem exists_usageInvariant (reached : (usageSystem.restrict InOwnMinute).Reachable state)
    (kept : state.dropped = 0) : ∃ settled, UsageInvariant state settled := by
  revert kept
  refine System.Reachable.induction
    (fun state => state.dropped = 0 → ∃ settled, UsageInvariant state settled) ?_ ?_ reached
  · rintro state ⟨now, rfl⟩ -
    exact ⟨[], .started now⟩
  · rintro state event next - holds ⟨stepped, inOwn⟩ kept
    have before : state.dropped = 0 :=
      Nat.eq_zero_of_le_zero (kept ▸ dropped_le_of_usageStep stepped)
    obtain ⟨settled, invariant⟩ := holds before
    exact invariant.step stepped inOwn kept

/-- After an acknowledged push, when nothing was dropped, the rows count every request up to
that push, and the gateway-wide rows count what the others do. -/
theorem usage_conserved (state : UsageState)
    (reached : (usageSystem.restrict InOwnMinute).Reachable state) (kept : state.dropped = 0)
    (acknowledged : state.acknowledged = true) :
    (∀ composition ≠ "", requestsOf composition state.rows = state.pushed.count composition) ∧
      GlobalRowsAdd state.rows := by
  obtain ⟨settled, invariant⟩ := exists_usageInvariant reached kept
  obtain ⟨nonePending, noneSending⟩ := invariant.delivered acknowledged
  have all : undelivered state = [] := by
    rw [undelivered, nonePending, noneSending]
    rfl
  have stored : state.rows.Perm (settled ++ undelivered state) := by
    rw [all, List.append_nil]
    rcases invariant.stored with without | complete
    · exact without
    · rw [nonePending] at complete
      exact complete.trans (.of_eq (List.append_nil settled))
  refine ⟨fun composition named => ?_, invariant.adds.perm stored.symm⟩
  rw [← invariant.pushed composition named]
  exact requestsWhere_perm _ stored

/-- A request for the composition `users`. -/
def usersRequest : UsageEvent := .record ⟨"users", 5, false, false, []⟩

/-- `InOwnMinute`, as a test. -/
def inOwnMinute (state : UsageState) : UsageEvent → Bool
  | .record sample => minuteOf state.acc.start ∉ state.usedMinutes && sample.composition ≠ ""
  | _ => true

/-- Three windows a minute apart: the acknowledgement of the first is lost, so the second push
sends it again. -/
theorem usage_conserved_of_resent :
    ∃ state : UsageState, state.pushed = ["users", "users", "users"] ∧
      (∀ composition ≠ "", requestsOf composition state.rows = state.pushed.count composition) ∧
      GlobalRowsAdd state.rows := by
  have weakens : ∀ state event, inOwnMinute state event = true → InOwnMinute state event := by
    intro state event met
    cases event with
    | record sample => simpa [InOwnMinute, inOwnMinute] using met
    | _ => trivial
  have ends : (System.replay (System.guarded usageStep fun state event =>
      inOwnMinute state event = true) (startedGateway 0)
        [usersRequest, .advance 60000, .push, .sent .ackLost, usersRequest, usersRequest,
          .advance 60000, .push, .sent .acknowledged]).map
        (fun state => (state.pushed, state.dropped, state.acknowledged)) =
      some (["users", "users", "users"], 0, true) := by
    decide +kernel
  obtain ⟨final, replayed, facts⟩ := Option.map_eq_some_iff.mp ends
  have reached : (usageSystem.restrict fun state event =>
      inOwnMinute state event = true).Reachable final :=
    System.reachable_of_guarded _ (.initial ⟨0, rfl⟩) replayed
  simp only [Prod.mk.injEq] at facts
  obtain ⟨pushed, kept, acknowledged⟩ := facts
  exact ⟨final, pushed, usage_conserved final (reached.restrict_mono weakens) kept acknowledged⟩

/-- Two windows that open in one minute, each acknowledged at once: the row of the second
replaces that of the first. -/
theorem usage_lost_within_minute :
    ∃ state : UsageState, usageSystem.Reachable state ∧ state.dropped = 0 ∧
      state.acknowledged = true ∧ state.pushed.count "users" = 2 ∧
      requestsOf "users" state.rows = 1 := by
  have ends : (System.replay usageStep (startedGateway 0)
      [usersRequest, .push, .sent .acknowledged, usersRequest, .advance 60000, .push,
        .sent .acknowledged]).map
        (fun state => (state.dropped, state.acknowledged, state.pushed.count "users",
          requestsOf "users" state.rows)) = some (0, true, 2, 1) := by
    decide +kernel
  obtain ⟨final, replayed, facts⟩ := Option.map_eq_some_iff.mp ends
  simp only [Prod.mk.injEq] at facts
  obtain ⟨kept, acknowledged, pushed, stored⟩ := facts
  exact ⟨final, System.reachable_of_replay _ (.initial ⟨0, rfl⟩) replayed, kept, acknowledged,
    pushed, stored⟩

end Runs

end Restitch.Hotreload
