import Restitch.Hotreload.PollerAgrees
import Restitch.Semantics.Quiescence

/-!
# A pull on SIGHUP (`cmd/restitch/run.go`, `internal/hotreload/poller.go`)

A goroutine turns SIGHUP into `Poller.Trigger`, which ends the sleep of `Poller.Run`. Both
channels have one slot, and a send to a full slot is dropped. Studio publishes meanwhile.
-/

namespace Restitch.Hotreload

open Restitch.Semantics

variable {Digest : Type} [DecidableEq Digest]

/-- The poller, and what may end its sleep. -/
structure TriggerState (Digest : Type) where
  poller : State Digest
  /-- The slot of `sigCh`. -/
  signal : Bool
  /-- The goroutine has received a signal and calls `Trigger`. -/
  triggering : Bool
  /-- The slot of `triggerCh`. -/
  trigger : Bool
  /-- `sleepOrTrigger` has returned, or `Run` has just begun. -/
  awake : Bool

inductive TriggerEvent where
  /-- An event of the poller or of Studio. -/
  | poller (event : Event)
  | hangup
  /-- The goroutine receives from `sigCh`. -/
  | takeSignal
  /-- The `select` of `Trigger`. -/
  | trigger
  /-- The timer of `sleepOrTrigger` fires. -/
  | timer
  /-- `sleepOrTrigger` receives from `triggerCh`. -/
  | wake
deriving DecidableEq

/-- `Run` is in `sleepOrTrigger`. -/
def TriggerState.Sleeping (state : TriggerState Digest) : Prop :=
  state.awake = false ∧ state.poller.phase = .idle

/-- No signal is on its way and the poller sleeps. -/
structure TriggerState.Quiet (state : TriggerState Digest) : Prop where
  signal : state.signal = false
  triggering : state.triggering = false
  trigger : state.trigger = false
  sleeping : state.Sleeping

/-- One event of a gateway that polls. -/
def triggerStep (sha256 : String → Digest) (env : String) (state : TriggerState Digest) :
    TriggerEvent → Option (TriggerState Digest)
  | .poller .poll =>
      if state.awake then
        (step sha256 env state.poller .poll).map fun poller =>
          { state with poller, awake := false }
      else none
  | .poller event => (step sha256 env state.poller event).map fun poller => { state with poller }
  | .hangup => some { state with signal := true }
  | .takeSignal =>
      if state.signal ∧ state.triggering = false then
        some { state with signal := false, triggering := true }
      else none
  | .trigger =>
      if state.triggering then some { state with triggering := false, trigger := true } else none
  | .timer =>
      match state.awake, state.poller.phase with
      | false, .idle => some { state with awake := true }
      | _, _ => none
  | .wake =>
      match state.awake, state.poller.phase, state.trigger with
      | false, .idle, true => some { state with trigger := false, awake := true }
      | _, _, _ => none

/-- `Run` begins with a poll. -/
def startedPoller : TriggerState Digest := ⟨initial, false, false, false, true⟩

def triggerSystem (sha256 : String → Digest) (env : String) :
    System (TriggerState Digest) TriggerEvent :=
  .ofStep (· = startedPoller) (triggerStep sha256 env)

/-- What the gateway does without a publish, a signal and its timer. -/
def TriggerEvent.own : TriggerEvent → Prop
  | .poller (.publish _) | .hangup | .timer => False
  | _ => True

variable {sha256 : String → Digest} {env : String}

/-- What one event can do. -/
inductive TriggerMove (sha256 : String → Digest) (env : String) (state : TriggerState Digest) :
    TriggerEvent → TriggerState Digest → Prop where
  | poll {poller : State Digest} (woken : state.awake = true)
      (polled : step sha256 env state.poller .poll = some poller) :
      TriggerMove sha256 env state (.poller .poll) { state with poller, awake := false }
  | poller {event : Event} {poller : State Digest} (goesOn : event ≠ .poll)
      (taken : step sha256 env state.poller event = some poller) :
      TriggerMove sha256 env state (.poller event) { state with poller }
  | hangup : TriggerMove sha256 env state .hangup { state with signal := true }
  | takeSignal (full : state.signal = true) (free : state.triggering = false) :
      TriggerMove sha256 env state .takeSignal
        { state with signal := false, triggering := true }
  | trigger (due : state.triggering = true) :
      TriggerMove sha256 env state .trigger { state with triggering := false, trigger := true }
  | timer (sleeping : state.Sleeping) :
      TriggerMove sha256 env state .timer { state with awake := true }
  | wake (sleeping : state.Sleeping) (full : state.trigger = true) :
      TriggerMove sha256 env state .wake { state with trigger := false, awake := true }

/-- The step function does no other events. -/
theorem triggerMove {state next : TriggerState Digest} {event : TriggerEvent}
    (stepped : triggerStep sha256 env state event = some next) :
    TriggerMove sha256 env state event next := by
  unfold triggerStep at stepped
  split at stepped
  · obtain ⟨woken, taken⟩ := (Option.ite_none_right_eq_some ..).mp stepped
    obtain ⟨poller, polled, rfl⟩ := Option.map_eq_some_iff.mp taken
    exact .poll woken polled
  · rename_i event goesOn
    obtain ⟨poller, taken, rfl⟩ := Option.map_eq_some_iff.mp stepped
    exact .poller goesOn taken
  · cases stepped
    exact .hangup
  · obtain ⟨due, equal⟩ := (Option.ite_none_right_eq_some ..).mp stepped
    cases equal
    exact .takeSignal due.1 due.2
  · obtain ⟨due, equal⟩ := (Option.ite_none_right_eq_some ..).mp stepped
    cases equal
    exact .trigger due
  · split at stepped
    · cases stepped
      exact .timer ⟨‹_›, ‹_›⟩
    · cases stepped
  · split at stepped
    · cases stepped
      exact .wake ⟨‹_›, ‹_›⟩ ‹_›
    · cases stepped

/-- What one event of the poller or of Studio can do. -/
inductive PollerMove (sha256 : String → Digest) (env : String) (state : State Digest) :
    Event → State Digest → Prop where
  | publish (yaml : String) :
      PollerMove sha256 env state (.publish yaml) { state with versions := state.versions ++ [yaml] }
  | poll (idle : state.phase = .idle) : PollerMove sha256 env state .poll
      { state with phase := .requested state.lastETag, startedWith := state.serving }
  | noVersion {ifNoneMatch : String} (at_ : state.phase = .requested ifNoneMatch) :
      PollerMove sha256 env state .selectLatest { state with phase := .polled (.error .noVersion) }
  | latest {ifNoneMatch : String} (at_ : state.phase = .requested ifNoneMatch) :
      PollerMove sha256 env state .selectLatest
        { state with
          phase := .latestRead ifNoneMatch state.versions.length
          latestWhenRead := state.versions.length }
  | row {ifNoneMatch yaml : String} {number : Nat}
      (at_ : state.phase = .latestRead ifNoneMatch number) :
      PollerMove sha256 env state .selectRow
        { state with phase := .answered (serveArtifact env ifNoneMatch number yaml) }
  | receive {result : FetchResult} (at_ : state.phase = .answered result) :
      PollerMove sha256 env state .receive { state with phase := receiveAnswer result }
  | fetchFails (error : PollError) (fetching : state.phase.fetching = true) :
      PollerMove sha256 env state (.fetchFails error) { state with phase := .polled (.error error) }
  | refused {result : FetchResult} (outcome : ReloadOutcome) (error : PollError)
      (at_ : state.phase = .fetched result) :
      PollerMove sha256 env state (.reload outcome) { state with phase := .polled (.error error) }
  | applied {result : FetchResult} {pipeline : Pipeline Digest} (outcome : ReloadOutcome)
      (at_ : state.phase = .fetched result) :
      PollerMove sha256 env state (.reload outcome)
        { state with pipeline, phase := .polled (.ok result), applied := result.version }
  | record {result : Except PollError FetchResult} (at_ : state.phase = .polled result) :
      PollerMove sha256 env state .record (recordResult state result)

/-- The poller and Studio do no other events. -/
theorem pollerMove {state next : State Digest} {event : Event}
    (stepped : step sha256 env state event = some next) :
    PollerMove sha256 env state event next := by
  cases event with
  | publish yaml =>
      cases stepped
      exact .publish yaml
  | selectLatest =>
      simp only [step] at stepped
      split at stepped
      · split at stepped <;> cases stepped
        · exact .noVersion ‹_›
        · exact .latest ‹_›
      · cases stepped
  | selectRow =>
      simp only [step] at stepped
      split at stepped
      · obtain ⟨yaml, -, rfl⟩ := Option.map_eq_some_iff.mp stepped
        exact .row ‹_›
      · cases stepped
  | fetchFails error =>
      obtain ⟨fetching, equal⟩ := (Option.ite_none_right_eq_some ..).mp stepped
      cases equal
      exact .fetchFails error fetching
  | reload outcome =>
      simp only [step] at stepped
      split at stepped
      · split at stepped <;> cases stepped
        · exact .refused outcome _ ‹_›
        · exact .applied outcome ‹_›
      · cases stepped
  | poll | receive | record =>
      simp only [step] at stepped
      split at stepped
      · cases stepped
        constructor
        assumption
      · cases stepped

/-- In each phase, the version that the last read of Studio leads to. -/
def ReadVersion (state : State Digest) : Phase → Prop
  | .idle => state.status.lastError = none → state.status.version = state.latestWhenRead
  | .latestRead _ number => number = state.latestWhenRead
  | .answered result | .fetched result | .polled (.ok result) =>
      (if result.notModified then state.status.version else result.version) = state.latestWhenRead
  | .requested _ | .polled (.error _) => True

/-- Every event keeps the version that the last read leads to. -/
theorem ReadVersion.step {state next : State Digest} {event : Event}
    (read : ReadVersion state state.phase) (invariant : PollerInvariant sha256 env state)
    (stepped : step sha256 env state event = some next) : ReadVersion next next.phase := by
  have holds := (invariant.step stepped).phase
  cases pollerMove stepped with
  | publish yaml =>
      dsimp only
      cases at_ : state.phase <;> rw [at_] at read <;> exact read
  | poll | noVersion | fetchFails | refused => trivial
  | latest => exact rfl
  | @row ifNoneMatch yaml number at_ =>
      rw [at_] at read
      obtain ⟨⟨applied, -⟩, same, -⟩ := holds
      unfold ReadVersion
      dsimp only at applied same ⊢
      split
      · rename_i notModified
        rw [← same notModified, applied]
      · rename_i modified
        unfold serveArtifact at modified ⊢
        split
        · rename_i tagged
          exact absurd (by rw [if_pos tagged]) modified
        · exact read
  | @receive result at_ =>
      rw [at_] at read
      dsimp only
      unfold receiveAnswer
      split
      · exact read
      · split
        · trivial
        · exact read
  | @applied result _ _ at_ =>
      rw [at_] at read
      exact read
  | @record result at_ =>
      rw [at_] at read
      cases result with
      | error error => exact fun fine => by cases fine
      | ok result =>
          have found : (if result.notModified then state.status.version else result.version) =
              state.latestWhenRead := read
          cases modified : result.notModified <;> rw [modified] at found <;>
            simpa [ReadVersion, recordResult, modified] using found

/-- A read of Studio is due in this iteration, has found so many versions, or the
iteration has failed. -/
def Covered (n : Nat) (state : State Digest) : Prop :=
  (∃ ifNoneMatch, state.phase = .requested ifNoneMatch) ∨ n ≤ state.latestWhenRead ∨
    (∃ error, state.phase = .polled (.error error)) ∨
      (state.phase = .idle ∧ state.status.lastError ≠ none)

/-- A pull that covers so many versions goes on covering them. -/
theorem Covered.step {n : Nat} {state next : State Digest} {event : Event}
    (covered : Covered n state) (published : n ≤ state.versions.length)
    (stepped : Hotreload.step sha256 env state event = some next) : Covered n next := by
  cases pollerMove stepped with
  | publish => exact covered
  | poll => exact .inl ⟨_, rfl⟩
  | noVersion | fetchFails | refused => exact .inr (.inr (.inl ⟨_, rfl⟩))
  | latest => exact .inr (.inl published)
  | row at_ | receive at_ | applied _ at_ =>
      have found : n ≤ state.latestWhenRead := by simpa [Covered, at_] using covered
      exact .inr (.inl found)
  | @record result at_ =>
      cases result with
      | error error => exact .inr (.inr (.inr ⟨rfl, by simp [recordResult]⟩))
      | ok result =>
          have found : n ≤ state.latestWhenRead := by simpa [Covered, at_] using covered
          refine .inr (.inl ?_)
          dsimp only [recordResult]
          split <;> exact found

/-- What holds of the poller, and when `sleepOrTrigger` may have returned. -/
structure TriggerInvariant (sha256 : String → Digest) (env : String) (state : TriggerState Digest) :
    Prop where
  poller : (system sha256 env).Reachable state.poller
  read : ReadVersion state.poller state.poller.phase
  awake : state.awake = true → state.poller.phase = .idle

/-- Between two iterations, only a poll begins one. -/
theorem idle_step {state next : State Digest} {event : Event} (idle : state.phase = .idle)
    (goesOn : event ≠ .poll) (stepped : step sha256 env state event = some next) :
    next.phase = .idle := by
  cases pollerMove stepped with
  | publish => exact idle
  | poll => exact absurd rfl goesOn
  | fetchFails _ fetching => simp [idle, Phase.fetching] at fetching
  | noVersion at_ | latest at_ | row at_ | receive at_ | refused _ _ at_ | applied _ at_
  | record at_ =>
      cases idle.symm.trans at_

/-- Every event keeps the invariant. -/
theorem TriggerInvariant.step {state next : TriggerState Digest} {event : TriggerEvent}
    (invariant : TriggerInvariant sha256 env state)
    (stepped : triggerStep sha256 env state event = some next) :
    TriggerInvariant sha256 env next := by
  have inner := pollerInvariant invariant.poller
  cases triggerMove stepped with
  | poll woken polled =>
      exact ⟨invariant.poller.step polled, invariant.read.step inner polled, nofun⟩
  | poller goesOn taken =>
      exact ⟨invariant.poller.step taken, invariant.read.step inner taken,
        fun woken => idle_step (invariant.awake woken) goesOn taken⟩
  | hangup | takeSignal | trigger => exact ⟨invariant.poller, invariant.read, invariant.awake⟩
  | timer sleeping | wake sleeping => exact ⟨invariant.poller, invariant.read, fun _ => sleeping.2⟩

/-- The invariant holds in every reachable state. -/
theorem triggerInvariant {state : TriggerState Digest}
    (reached : (triggerSystem sha256 env).Reachable state) :
    TriggerInvariant sha256 env state := by
  refine reached.induction _ ?_ ?_
  · rintro start rfl
    exact ⟨.initial rfl, fun _ => rfl, fun _ => rfl⟩
  · intro before event after _ invariant stepped
    exact invariant.step stepped

/-- A pull that finds so many versions is due, or such a pull has ended or failed. -/
def TriggerState.Due (n : Nat) (state : TriggerState Digest) : Prop :=
  n ≤ state.poller.versions.length ∧
    (state.signal = true ∨ state.triggering = true ∨ state.trigger = true ∨ state.awake = true ∨
      Covered n state.poller)

/-- No version is taken back. -/
theorem versions_step {state next : State Digest} {event : Event}
    (stepped : step sha256 env state event = some next) :
    state.versions.length ≤ next.versions.length := by
  cases pollerMove stepped with
  | publish => simp
  | @record result =>
      cases result with
      | error => exact Nat.le_refl _
      | ok result =>
          dsimp only [recordResult]
          split <;> exact Nat.le_refl _
  | _ => exact Nat.le_refl _

/-- Every event but the poll itself keeps a pull due. -/
theorem TriggerState.Due.step {n : Nat} {state next : TriggerState Digest} {event : TriggerEvent}
    (due : state.Due n) (stepped : triggerStep sha256 env state event = some next) :
    next.Due n := by
  obtain ⟨published, due⟩ := due
  cases triggerMove stepped with
  | @poll poller woken polled =>
      have requested : Covered n poller := by
        cases pollerMove polled
        exact .inl ⟨_, rfl⟩
      exact ⟨published.trans (versions_step polled), .inr (.inr (.inr (.inr requested)))⟩
  | poller goesOn taken =>
      refine ⟨published.trans (versions_step taken), ?_⟩
      rcases due with signal | triggering | trigger | awake | covered
      · exact .inl signal
      · exact .inr (.inl triggering)
      · exact .inr (.inr (.inl trigger))
      · exact .inr (.inr (.inr (.inl awake)))
      · exact .inr (.inr (.inr (.inr (covered.step published taken))))
  | hangup => exact ⟨published, .inl rfl⟩
  | takeSignal => exact ⟨published, .inr (.inl rfl)⟩
  | trigger => exact ⟨published, .inr (.inr (.inl rfl))⟩
  | timer | wake => exact ⟨published, .inr (.inr (.inr (.inl rfl)))⟩

section Work

/-- How many events end an iteration at most. -/
def phaseWork : Phase → Nat
  | .idle => 0
  | .polled _ => 1
  | .fetched _ => 2
  | .answered _ => 3
  | .latestRead _ _ => 4
  | .requested _ => 5

/-- Only between two iterations there is nothing to do. -/
theorem idle_of_phaseWork {phase : Phase} (none : phaseWork phase = 0) : phase = .idle := by
  cases phase <;> first | rfl | cases none

def TriggerState.work (state : TriggerState Digest) : Nat :=
  9 * state.signal.toNat + 8 * state.triggering.toNat + 7 * state.trigger.toNat +
    6 * state.awake.toNat + phaseWork state.poller.phase

/-- An event of an iteration leaves less of it. -/
theorem phaseWork_lt {state next : State Digest} {event : Event}
    (stepped : step sha256 env state event = some next)
    (goesOn : event ≠ .poll ∧ ∀ yaml, event ≠ .publish yaml) :
    phaseWork next.phase < phaseWork state.phase := by
  cases pollerMove stepped with
  | publish yaml => exact absurd rfl (goesOn.2 yaml)
  | poll => exact absurd rfl goesOn.1
  | fetchFails _ fetching =>
      cases at_ : state.phase <;> simp [at_, Phase.fetching, phaseWork] at fetching ⊢
  | @receive result at_ =>
      dsimp only [receiveAnswer]
      rw [at_]
      split
      · simp [phaseWork]
      · split <;> simp [phaseWork]
  | @record result at_ =>
      rw [at_]
      cases result with
      | error => simp [recordResult, phaseWork]
      | ok result =>
          dsimp only [recordResult]
          split <;> simp [phaseWork]
  | noVersion at_ | latest at_ | row at_ | refused _ _ at_ | applied _ at_ => simp [at_, phaseWork]

/-- Every event of its own lowers the work. -/
theorem trigger_work_lt {state next : TriggerState Digest} {event : TriggerEvent}
    (stepped : triggerStep sha256 env state event = some next) (own : event.own) :
    next.work < state.work := by
  unfold TriggerState.work
  cases triggerMove stepped with
  | poll woken polled =>
      cases pollerMove polled with
      | poll idle =>
          rw [woken, idle]
          simp only [phaseWork, Bool.toNat_true, Bool.toNat_false]
          omega
  | @poller event poller goesOn taken =>
      have lower := phaseWork_lt taken ⟨goesOn, by rintro yaml rfl; exact own⟩
      dsimp only
      omega
  | hangup | timer => exact own.elim
  | takeSignal full free =>
      rw [full, free]
      simp only [Bool.toNat_true, Bool.toNat_false]
      omega
  | trigger due =>
      rw [due]
      simp only [Bool.toNat_true, Bool.toNat_false]
      omega
  | wake sleeping full =>
      rw [full, sleeping.1]
      simp only [Bool.toNat_true, Bool.toNat_false]
      omega

end Work

/-- An iteration that has begun can go on. -/
theorem poller_progress (sha256 : String → Digest) (env : String) {state : State Digest}
    (busy : state.phase ≠ .idle) :
    ∃ event next, (event ≠ .poll ∧ ∀ yaml, event ≠ .publish yaml) ∧
      step sha256 env state event = some next := by
  cases at_ : state.phase with
  | idle => exact absurd at_ busy
  | requested | latestRead | answered =>
      exact ⟨.fetchFails .fetch, _, by simp, by simp only [step, at_]; rfl⟩
  | fetched result =>
      refine ⟨.reload .builds, ?_⟩
      simp only [step, at_]
      split <;> exact ⟨_, by simp, rfl⟩
  | polled result => exact ⟨.record, _, by simp, by simp only [step, at_]; rfl⟩

/-- A gateway that is not quiet can go on. -/
theorem trigger_progress {state : TriggerState Digest}
    (reached : (triggerSystem sha256 env).Reachable state) (busy : ¬ state.Quiet) :
    ∃ event next, event.own ∧ (triggerSystem sha256 env).Step state event next := by
  have invariant := triggerInvariant reached
  change ∃ event next, event.own ∧ triggerStep sha256 env state event = some next
  by_cases idle : state.poller.phase = .idle
  · cases awake : state.awake with
    | true =>
        exact ⟨.poller .poll, _, trivial, by simp only [triggerStep, awake, step, idle]; rfl⟩
    | false =>
        cases triggering : state.triggering with
        | true => exact ⟨.trigger, _, trivial, by simp only [triggerStep, triggering]; rfl⟩
        | false =>
            cases signal : state.signal with
            | true =>
                exact ⟨.takeSignal, _, trivial, by
                  simp only [triggerStep, triggering, signal]; rfl⟩
            | false =>
                cases trigger : state.trigger with
                | true =>
                    exact ⟨.wake, _, trivial, by
                      simp only [triggerStep, awake, idle, trigger]; rfl⟩
                | false => exact absurd ⟨signal, triggering, trigger, awake, idle⟩ busy
  · obtain ⟨event, next, ⟨notPoll, notPublish⟩, taken⟩ := poller_progress sha256 env idle
    refine ⟨.poller event, { state with poller := next }, ?_, ?_⟩
    · cases event with
      | publish yaml => exact absurd rfl (notPublish yaml)
      | _ => trivial
    · cases event with
      | poll => exact absurd rfl notPoll
      | _ => simp only [triggerStep, taken, Option.map_some]

/-- A gateway that is quiet and whose last pull did not fail has caught up with every
version a pull was due for. -/
theorem version_of_quiet {n : Nat} {state : TriggerState Digest}
    (invariant : TriggerInvariant sha256 env state) (due : state.Due n) (quiet : state.Quiet)
    (fine : state.poller.status.lastError = none) : n ≤ state.poller.status.version := by
  obtain ⟨awake, idle⟩ := quiet.sleeping
  have read := invariant.read
  rw [idle] at read
  rw [read fine]
  rcases due.2 with signal | triggering | trigger | awake' | requested | found | failed | stopped
  · simp [quiet.signal] at signal
  · simp [quiet.triggering] at triggering
  · simp [quiet.trigger] at trigger
  · simp [awake] at awake'
  · simp [idle] at requested
  · exact found
  · simp [idle] at failed
  · exact absurd fine stopped.2

/-- No SIGHUP is lost. In any run on from one, the gateway is quiet again after a bounded
number of events without its timer, a publish or another signal. Whenever it is quiet, the
pull that ended last failed, or the gateway serves a version as new as the latest one at the
time of the signal. -/
theorem hangup_pulls (sha256 : String → Digest) (env : String)
    (before signalled after : TriggerState Digest) (events : List TriggerEvent)
    (reached : (triggerSystem sha256 env).Reachable before)
    (hangup : (triggerSystem sha256 env).Step before .hangup signalled)
    (steps : (triggerSystem sha256 env).Steps signalled events after) :
    (∀ own last, ((triggerSystem sha256 env).own TriggerEvent.own).Steps after own last →
      own.length ≤ after.work ∧
      (¬ last.Quiet → ∃ event next, event.own ∧
        (triggerSystem sha256 env).Step last event next)) ∧
    (after.Quiet → after.poller.status.lastError = none → before.poller.versions ≠ [] →
      before.poller.versions.length ≤ after.poller.status.version ∧
      ∃ yaml, IsVersion after.poller.versions after.poller.status.version yaml ∧
        after.poller.pipeline.hash = some (sha256 yaml) ∧
        (NoCollision sha256 after.poller.versions → after.poller.pipeline.source = some yaml)) := by
  have here := (reached.step hangup).steps steps
  constructor
  · intro own last goesOn
    obtain ⟨bounded, -⟩ := (here.settles _ TriggerState.work
      (fun _ => trigger_work_lt) trigger_progress).1 own last goesOn
    exact ⟨by omega, trigger_progress (here.steps goesOn.of_own)⟩
  · intro quiet fine published
    have due : after.Due before.poller.versions.length := by
      clear here quiet fine
      induction steps with
      | refl =>
          cases triggerMove hangup
          exact ⟨Nat.le_refl _, .inl rfl⟩
      | step _ transition ih => exact ih.step transition
    have invariant := triggerInvariant here
    have newer := version_of_quiet invariant due quiet fine
    have inner := pollerInvariant invariant.poller
    have idle := inner.phase
    rw [quiet.sleeping.2] at idle
    have positive := List.length_pos_iff.mpr published
    obtain ⟨yaml, is, hash⟩ := inner.running (by rw [idle.1]; omega)
    refine ⟨newer, yaml, idle.1 ▸ is, hash, fun noCollision => ?_⟩
    exact source_of_hash noCollision inner.hash inner.published is.mem hash

/-- The gateway reads version 1 while version 2 is published and a signal arrives. -/
def publishedDuringPull : List TriggerEvent :=
  [.poller (.publish "a: 1"), .poller .poll, .poller .selectLatest, .poller (.publish "a: 2")]

/-- The rest of that pull, and the pull of the signal. -/
def secondPull : List TriggerEvent :=
  [.poller .selectRow, .takeSignal, .poller .receive, .trigger, .poller (.reload .builds),
   .poller .record, .wake, .poller .poll, .poller .selectLatest, .poller .selectRow,
   .poller .receive, .poller (.reload .builds), .poller .record]

/-- The gateway ends with version 2, without a tick of its timer. -/
theorem hangup_pulls_of_second_version :
    ∃ before signalled after,
      System.replay (triggerStep id "prod") startedPoller publishedDuringPull = some before ∧
      triggerStep id "prod" before .hangup = some signalled ∧
      System.replay (triggerStep id "prod") signalled secondPull = some after ∧
      after.poller.pipeline.source = some "a: 2" ∧ 2 ≤ after.poller.status.version := by
  let before := (System.replay (triggerStep id "prod") startedPoller
    publishedDuringPull).get (by decide)
  have began : System.replay (triggerStep id "prod") startedPoller publishedDuringPull =
      some before := (Option.some_get _).symm
  let signalled : TriggerState String := { before with signal := true }
  have hangup : triggerStep id "prod" before .hangup = some signalled := rfl
  let after := (System.replay (triggerStep id "prod") signalled secondPull).get (by decide)
  have ended : System.replay (triggerStep id "prod") signalled secondPull = some after :=
    (Option.some_get _).symm
  have reached : (triggerSystem id "prod").Reachable before :=
    System.reachable_of_replay publishedDuringPull (.initial rfl) began
  have steps : (triggerSystem id "prod").Steps signalled secondPull after :=
    System.steps_of_replay secondPull .refl ended
  have pulls := (hangup_pulls id "prod" before signalled after secondPull reached hangup steps).2
    ⟨by decide, by decide, by decide, by decide, idle_of_phaseWork (by decide)⟩ (by decide)
    (by decide)
  exact ⟨before, signalled, after, began, hangup, ended, by decide, pulls.1⟩

end Restitch.Hotreload
