import Restitch.Hotreload.PollerAgrees

/-!
# The heartbeat after an applied version (`cmd/restitch/run.go`, `internal/hotreload/heartbeat.go`)

Two goroutines: the poller, whose `poll` calls `OnApplied`, and the heartbeat, which
waits for its ticker or for the signal that `OnApplied` sends. The signal goes through
a channel with one slot and the status through an atomic pointer, which `Run` stores
after `poll` has returned.
-/

namespace Restitch.Hotreload

open Restitch.Semantics

variable {Digest : Type} [DecidableEq Digest]

/-- The fields of `Heartbeat` that are read from the status. -/
structure Heartbeat where
  appliedVersion : Nat
  lastPullError : Option PollError
deriving DecidableEq

/-- Where `RunHeartbeat` is. -/
inductive SenderPhase where
  /-- In its `select`. -/
  | waiting
  /-- In `send`, before `report()`. -/
  | reporting
  /-- In `SendHeartbeat`. -/
  | sending
deriving DecidableEq

/-- A heartbeat, with the versions whose signals had been received before its
`report()` ran. -/
structure Report where
  heard : List Nat
  heartbeat : Heartbeat
deriving DecidableEq

/-- The poller and the heartbeat of one gateway. -/
structure BeatState (Digest : Type) where
  poller : State Digest
  /-- The version with which `OnApplied` is running. -/
  applying : Option Nat
  /-- The slot of the channel, with the version whose signal is in it. -/
  applied : Option Nat
  sender : SenderPhase
  /-- The versions whose signals were received. -/
  heard : List Nat
  /-- The heartbeats, the last one first. -/
  reports : List Report

inductive BeatEvent where
  /-- An event of the poller or of Studio. -/
  | poller (event : Event)
  /-- The `select` at the end of `OnApplied`. -/
  | signal
  /-- The heartbeat receives from `applied`. -/
  | hear
  | tick
  /-- `report()` -/
  | report
  /-- `SendHeartbeat` returns, with or without an error. -/
  | sent
deriving DecidableEq

/-- The version that an event of the poller applies. -/
def appliedBy (next : State Digest) : Event → Option Nat
  | .reload _ =>
      match next.phase with
      | .polled (.ok result) => some result.version
      | _ => none
  | _ => none

/-- `report` in `run`. -/
def report (status : PollStatus) : Heartbeat := ⟨status.version, status.lastError⟩

/-- One event of the two goroutines. Nothing of `Run` goes on while `OnApplied` runs. -/
def beatStep (sha256 : String → Digest) (env : String) (state : BeatState Digest) :
    BeatEvent → Option (BeatState Digest)
  | .poller event =>
      if event = .record ∧ state.applying.isSome then none
      else
        (step sha256 env state.poller event).map fun next =>
          { state with poller := next, applying := state.applying.or (appliedBy next event) }
  | .signal =>
      state.applying.map fun version =>
        { state with applying := none, applied := state.applied.or (some version) }
  | .hear =>
      match state.sender, state.applied with
      | .waiting, some version =>
          some { state with
            applied := none
            sender := .reporting
            heard := version :: state.heard }
      | _, _ => none
  | .tick =>
      match state.sender with
      | .waiting => some { state with sender := .reporting }
      | _ => none
  | .report =>
      match state.sender with
      | .reporting =>
          some { state with
            sender := .sending
            reports := ⟨state.heard, report state.poller.status⟩ :: state.reports }
      | _ => none
  | .sent =>
      match state.sender with
      | .sending => some { state with sender := .waiting }
      | _ => none

/-- A gateway that starts: `RunHeartbeat` sends its first heartbeat at once. -/
def initialBeat : BeatState Digest := ⟨initial, none, none, .reporting, [], []⟩

def beatSystem (sha256 : String → Digest) (env : String) : System (BeatState Digest) BeatEvent :=
  .ofStep (· = initialBeat) (beatStep sha256 env)

/-- Every heartbeat reports each version whose signal it ran after, or a later one. -/
def ReportsHeard (state : BeatState Digest) : Prop :=
  ∀ sent ∈ state.reports, ∀ version ∈ sent.heard, version ≤ sent.heartbeat.appliedVersion

/-- The version that was applied and that `Run` has not stored yet. -/
def State.unstored (poller : State Digest) : Option Nat :=
  match poller.phase with
  | .polled (.ok result) => if result.notModified then none else some result.version
  | _ => none

/-- No `report()` runs between the receipt of a signal and the `Store` of the
version that it announces. -/
def StoredFirst (state : BeatState Digest) : BeatEvent → Prop
  | .report => ∀ version ∈ state.poller.unstored, version ∉ state.heard
  | _ => True

instance (state : BeatState Digest) (event : BeatEvent) : Decidable (StoredFirst state event) :=
  match event with
  | .report => inferInstanceAs (Decidable (∀ version ∈ state.poller.unstored,
      version ∉ state.heard))
  | .poller _ | .signal | .hear | .tick | .sent => inferInstanceAs (Decidable True)

/-- The version of a signal is stored, or it is the one that waits for the `Store`. -/
def Announced (poller : State Digest) (version : Nat) : Prop :=
  version ≤ poller.status.version ∨ poller.unstored = some version

/-- The invariant of the two goroutines. -/
structure BeatInvariant (sha256 : String → Digest) (env : String) (state : BeatState Digest) :
    Prop where
  poller : (system sha256 env).Reachable state.poller
  applying : ∀ version ∈ state.applying, state.poller.unstored = some version
  applied : ∀ version ∈ state.applied, Announced state.poller version
  heard : ∀ version ∈ state.heard, Announced state.poller version

variable {sha256 : String → Digest} {env : String}

/-- A version that waits for the `Store` goes on waiting until it is stored. -/
theorem unstored_step {poller next : State Digest} {event : Event} {version : Nat}
    (stepped : step sha256 env poller event = some next)
    (waits : poller.unstored = some version) :
    (next.unstored = some version ∧ event ≠ .record) ∨
      (next.status.version = version ∧ event = .record) := by
  unfold State.unstored at waits
  split at waits
  · rename_i result at_
    split at waits
    · cases waits
    · rename_i modified
      cases waits
      cases event with
      | publish yaml =>
          cases stepped
          refine .inl ⟨?_, by simp⟩
          simp only [State.unstored, at_]
          rw [if_neg modified]
      | record =>
          rw [step, at_] at stepped
          cases stepped
          refine .inr ⟨?_, rfl⟩
          rw [recordResult, if_neg modified]
      | poll | selectLatest | selectRow | receive | fetchFails | reload =>
          simp [step, at_, Phase.fetching] at stepped
  · cases waits

/-- What was announced stays announced. -/
theorem Announced.step {poller next : State Digest} {event : Event} {version : Nat}
    (announced : Announced poller version) (invariant : PollerInvariant sha256 env poller)
    (stepped : step sha256 env poller event = some next) : Announced next version := by
  rcases announced with stored | waits
  · exact .inl (stored.trans (version_le_of_step invariant stepped))
  · rcases unstored_step stepped waits with ⟨still, -⟩ | ⟨now, -⟩
    · exact .inr still
    · exact .inl now.ge

/-- The version with which `OnApplied` is called is one that waits for the `Store`. -/
theorem unstored_of_appliedBy {poller next : State Digest} {event : Event} {version : Nat}
    (invariant : PollerInvariant sha256 env poller)
    (stepped : step sha256 env poller event = some next)
    (applies : appliedBy next event = some version) : next.unstored = some version := by
  cases event with
  | reload outcome =>
      have holds := invariant.phase
      simp only [step] at stepped
      split at stepped
      · rename_i result at_
        rw [at_] at holds
        split at stepped
        · cases stepped
          cases applies
        · cases stepped
          cases applies
          simp [State.unstored, holds.2.1]
      · cases stepped
  | publish | poll | selectLatest | selectRow | receive | fetchFails | record => cases applies

/-- Every event keeps the invariant. -/
theorem BeatInvariant.step {state next : BeatState Digest} {event : BeatEvent}
    (invariant : BeatInvariant sha256 env state)
    (stepped : beatStep sha256 env state event = some next) : BeatInvariant sha256 env next := by
  cases event with
  | poller event =>
      rw [beatStep] at stepped
      split at stepped
      · cases stepped
      · rename_i free
        obtain ⟨poller, taken, rfl⟩ := Option.map_eq_some_iff.mp stepped
        have before := pollerInvariant invariant.poller
        refine ⟨invariant.poller.step taken, ?_,
          fun version member => (invariant.applied version member).step before taken,
          fun version member => (invariant.heard version member).step before taken⟩
        intro version member
        cases running : state.applying with
        | none =>
            rw [running, Option.none_or] at member
            exact unstored_of_appliedBy before taken member
        | some applying =>
            rw [running, Option.some_or] at member
            cases member
            rcases unstored_step taken (invariant.applying version running) with
              ⟨still, -⟩ | ⟨-, isRecord⟩
            · exact still
            · exact absurd ⟨isRecord, by rw [running]; rfl⟩ free
  | signal =>
      obtain ⟨version, running, rfl⟩ := Option.map_eq_some_iff.mp stepped
      refine ⟨invariant.poller, by simp, ?_, invariant.heard⟩
      intro signalled member
      cases full : state.applied with
      | none =>
          rw [full] at member
          cases member
          exact .inr (invariant.applying version running)
      | some earlier =>
          rw [full] at member
          cases member
          exact invariant.applied signalled full
  | hear =>
      rw [beatStep] at stepped
      split at stepped
      · rename_i version _ full
        cases stepped
        refine ⟨invariant.poller, invariant.applying, by simp, ?_⟩
        intro heard member
        rcases List.mem_cons.mp member with rfl | earlier
        · exact invariant.applied heard full
        · exact invariant.heard heard earlier
      · cases stepped
  | tick | report | sent =>
      rw [beatStep] at stepped
      split at stepped
      · cases stepped
        exact ⟨invariant.poller, invariant.applying, invariant.applied, invariant.heard⟩
      · cases stepped

/-- The invariant holds before the first beat. -/
theorem beatInvariant_initial : BeatInvariant sha256 env initialBeat :=
  ⟨.initial rfl, by simp [initialBeat], by simp [initialBeat], by simp [initialBeat]⟩

/-- A `report()` that the order of steps allows keeps the heartbeats right. -/
theorem ReportsHeard.step {state next : BeatState Digest} {event : BeatEvent}
    (right : ReportsHeard state) (invariant : BeatInvariant sha256 env state)
    (stepped : beatStep sha256 env state event = some next) (first : StoredFirst state event) :
    ReportsHeard next := by
  cases event with
  | report =>
      rw [beatStep] at stepped
      split at stepped
      · cases stepped
        intro sent member
        rcases List.mem_cons.mp member with rfl | earlier
        · intro version heard
          rcases invariant.heard version heard with stored | waits
          · exact stored
          · exact absurd heard (first version waits)
        · exact right sent earlier
      · cases stepped
  | poller event =>
      rw [beatStep] at stepped
      split at stepped
      · cases stepped
      · obtain ⟨poller, taken, rfl⟩ := Option.map_eq_some_iff.mp stepped
        exact right
  | signal =>
      obtain ⟨version, running, rfl⟩ := Option.map_eq_some_iff.mp stepped
      exact right
  | hear | tick | sent =>
      rw [beatStep] at stepped
      split at stepped
      · cases stepped
        exact right
      · cases stepped

/-- In a run in which every version is stored before a `report()` that follows the
receipt of its signal, every heartbeat reports what was announced to it. -/
theorem heartbeat_reports_applied (sha256 : String → Digest) (env : String)
    (state : BeatState Digest)
    (reached : ((beatSystem sha256 env).restrict StoredFirst).Reachable state) :
    ReportsHeard state := by
  have both : BeatInvariant sha256 env state ∧ ReportsHeard state := by
    refine reached.induction
      (fun state => BeatInvariant sha256 env state ∧ ReportsHeard state) ?_ ?_
    · intro start valid
      cases valid
      exact ⟨beatInvariant_initial, by simp [ReportsHeard, initialBeat]⟩
    · intro before event after _ holds stepped
      exact ⟨holds.1.step stepped.1, holds.2.step holds.1 stepped.1 stepped.2⟩
  exact both.2

/-- A gateway applies version 1, up to the send of the signal. -/
def firstApplied : List BeatEvent :=
  [.report, .sent, .poller (.publish "a: 1"), .poller .poll, .poller .selectLatest,
    .poller .selectRow, .poller .receive, .poller (.reload .builds), .signal]

/-- The poller goes on first. -/
def storedThenHeard : List BeatEvent := firstApplied ++ [.poller .record, .hear, .report]

/-- The heartbeat goes on first. -/
def heardThenStored : List BeatEvent := firstApplied ++ [.hear, .report, .poller .record]

/-- A heartbeat that runs after the `Store` names version 1. -/
theorem heartbeat_of_stored_version :
    ∃ state, System.replay (beatStep id "prod") initialBeat storedThenHeard = some state ∧
      state.reports.head? = some ⟨[1], ⟨1, none⟩⟩ ∧ ReportsHeard state := by
  let state := (System.replay (System.guarded (beatStep id "prod") StoredFirst) initialBeat
    storedThenHeard).get (by decide)
  have reached : ((beatSystem id "prod").restrict StoredFirst).Reachable state :=
    System.reachable_of_guarded storedThenHeard (.initial rfl) (Option.some_get _).symm
  exact ⟨state, by rfl, by rfl, heartbeat_reports_applied id "prod" state reached⟩

/-- A heartbeat that runs before the `Store` still names version 0. -/
theorem heartbeat_names_old_version :
    ∃ state, (beatSystem id "prod").Reachable state ∧
      (⟨[1], ⟨0, none⟩⟩ : Report) ∈ state.reports ∧ ¬ ReportsHeard state := by
  let state := (System.replay (beatStep id "prod") initialBeat heardThenStored).get (by decide)
  have reached : (beatSystem id "prod").Reachable state :=
    System.reachable_of_replay heardThenStored (.initial rfl) (Option.some_get _).symm
  have member : (⟨[1], ⟨0, none⟩⟩ : Report) ∈ state.reports := by decide
  refine ⟨state, reached, member, ?_⟩
  intro right
  exact absurd (right _ member 1 List.mem_cons_self) (by decide)

end Restitch.Hotreload
