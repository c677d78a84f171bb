import Mathlib.Algebra.GroupWithZero.Nat
import Restitch.Gateway.Reloader
import Restitch.Hotreload.PollerAgrees
import Restitch.Semantics.Quiescence

/-!
# The reloader follows the file

A change of a watched file, and a SIGHUP, leave a call of `reload` due until a read begins.
The reloader stops after a bounded number of events of its own, and then the last read
returned what the file holds.
-/

namespace Restitch.Gateway

open Restitch.Semantics Restitch.Hotreload

variable {Digest : Type} [DecidableEq Digest] {sha256 : String → Digest}

/-- What one event can do. -/
inductive ReloaderMove (sha256 : String → Digest) (state : ReloaderState Digest) :
    ReloaderEvent → ReloaderState Digest → Prop where
  | change (content : Option String) : ReloaderMove sha256 state (.change content)
      { state with
        file := content
        events := state.notify true
        changes := state.changes + 1
        asked := if state.watcher.running then state.changes + 1 else state.asked }
  | otherFile : ReloaderMove sha256 state .otherFile { state with events := state.notify false }
  | hangup (started : state.signals ≠ .absent) (running : state.signals ≠ .ended) :
      ReloaderMove sha256 state .hangup { state with signal := true, asked := state.changes }
  | watchSignals (absent : state.signals = .absent) :
      ReloaderMove sha256 state .watchSignals { state with signals := .selecting }
  | watchFile (absent : state.watcher = .absent) :
      ReloaderMove sha256 state .watchFile { state with watcher := .selecting }
  | stop : ReloaderMove sha256 state .stop { state with done := true }
  | receive {ours : Bool} {rest : List Bool} (waits : state.watcher = .selecting)
      (queued : state.events = ours :: rest) : ReloaderMove sha256 state .receive
        { state with events := rest, watcher := if ours then .matched else .selecting }
  | stopTimer (matched : state.watcher = .matched) : ReloaderMove sha256 state .stopTimer
      { state with watcher := .disarmed, timer := false }
  | startTimer (disarmed : state.watcher = .disarmed) : ReloaderMove sha256 state .startTimer
      { state with watcher := .selecting, timer := true }
  | fire (runs : state.timer = true) : ReloaderMove sha256 state .fire
      { state with timer := false, fired := state.fired + 1 }
  | takeSignal (waits : state.signals = .selecting) (full : state.signal = true) :
      ReloaderMove sha256 state .takeSignal { state with signal := false, signals := .calling }
  | refuseSignal (calls : state.signals = .calling) (stopped : state.stopped = true) :
      ReloaderMove sha256 state (.lock true) { state with signals := .selecting }
  | lockSignal (calls : state.signals = .calling) (free : state.holder = none)
      (serves : state.stopped = false) : ReloaderMove sha256 state (.lock true)
        { state with signals := .reloading, holder := some ⟨true, .locked⟩ }
  | refuseTimer (calls : 0 < state.fired) (stopped : state.stopped = true) :
      ReloaderMove sha256 state (.lock false) { state with fired := state.fired - 1 }
  | lockTimer (calls : 0 < state.fired) (free : state.holder = none)
      (serves : state.stopped = false) : ReloaderMove sha256 state (.lock false)
        { state with fired := state.fired - 1, holder := some ⟨false, .locked⟩ }
  | openFile {bySignal : Bool} (held : state.holder = some ⟨bySignal, .locked⟩) :
      ReloaderMove sha256 state .openFile
        { state with
          holder := some ⟨bySignal, .reading state.changes⟩
          readAt := state.changes }
  | readFile {bySignal : Bool} {since : Nat} {raw : Option String}
      (held : state.holder = some ⟨bySignal, .reading since⟩)
      (returned : raw = state.file ∨ since ≠ state.changes) :
      ReloaderMove sha256 state (.readFile raw)
        { state with
          holder := some ⟨bySignal, .loading raw⟩
          lastRead := raw
          reads := state.reads ++ raw.toList }
  | load {bySignal : Bool} {raw : Option String} (outcome : ReloadOutcome)
      (held : state.holder = some ⟨bySignal, .loading raw⟩) :
      ReloaderMove sha256 state (.load outcome)
        { state.reload sha256 outcome raw with
          holder := none
          signals := if bySignal then state.signals.returned else state.signals }
  | setStopped (stops : state.done = true ∧ state.stopped = false)
      (free : state.holder = none) : ReloaderMove sha256 state .setStopped { state with stopped := true }
  | endWatcher (done : state.done = true) (waits : state.watcher = .selecting) :
      ReloaderMove sha256 state .endWatcher { state with watcher := .ended, timer := false }
  | endSignals (done : state.done = true) (waits : state.signals = .selecting) :
      ReloaderMove sha256 state .endSignals { state with signals := .ended }

/-- The step function does no other events. -/
theorem reloaderMove {state next : ReloaderState Digest} {event : ReloaderEvent}
    (stepped : reloaderStep sha256 state event = some next) :
    ReloaderMove sha256 state event next := by
  cases event with
  | change content => cases stepped; exact .change content
  | otherFile => cases stepped; exact .otherFile
  | stop => cases stepped; exact .stop
  | hangup =>
      simp only [reloaderStep] at stepped
      split at stepped
      · cases stepped
      · cases stepped
      · cases stepped
        exact .hangup ‹_› ‹_›
  | receive =>
      simp only [reloaderStep] at stepped
      split at stepped
      · cases stepped
        exact .receive ‹_› ‹_›
      · cases stepped
  | lock bySignal =>
      cases bySignal <;> simp only [reloaderStep] at stepped <;> split at stepped
      · rename_i due
        split at stepped <;> cases stepped
        · exact .refuseTimer due.1 ‹_›
        · exact .lockTimer due.1 due.2 (Bool.eq_false_iff.mpr ‹_›)
      · cases stepped
      · rename_i due
        split at stepped <;> cases stepped
        · exact .refuseSignal due.1 ‹_›
        · exact .lockSignal due.1 due.2 (Bool.eq_false_iff.mpr ‹_›)
      · cases stepped
  | openFile =>
      simp only [reloaderStep] at stepped
      split at stepped
      · cases stepped
        exact .openFile ‹_›
      · cases stepped
  | readFile raw =>
      simp only [reloaderStep] at stepped
      split at stepped
      · obtain ⟨returned, equal⟩ := (Option.ite_none_right_eq_some ..).mp stepped
        cases equal
        exact .readFile ‹_› returned
      · cases stepped
  | load outcome =>
      simp only [reloaderStep] at stepped
      split at stepped
      · cases stepped
        exact .load outcome ‹_›
      · cases stepped
  | watchSignals | watchFile | stopTimer | startTimer | fire =>
      obtain ⟨guard, equal⟩ := (Option.ite_none_right_eq_some ..).mp stepped
      cases equal
      constructor
      exact guard
  | takeSignal | setStopped | endWatcher | endSignals =>
      obtain ⟨guard, equal⟩ := (Option.ite_none_right_eq_some ..).mp stepped
      cases equal
      constructor
      · exact guard.1
      · exact guard.2

/-- Which goroutine is where. -/
structure Ownership (state : ReloaderState Digest) : Prop where
  slot : state.signals = .absent → state.signal = false
  queue : state.watcher = .absent → state.events = []
  watcher : state.watcher = .ended → state.done = true
  signals : state.signals = .ended → state.done = true
  owner : state.signals = .reloading → ∃ phase, state.holder = some ⟨true, phase⟩
  stopped : state.stopped = true → state.done = true ∧ state.holder = none

/-- What was asked for is due or was read. -/
structure Demand (state : ReloaderState Digest) : Prop where
  due : state.done = true ∨ state.Pending ∨ state.asked ≤ state.readAt
  asked : state.asked ≤ state.changes
  readAt : state.readAt ≤ state.changes

/-- What the last read and the last reload left, in each phase of a call. -/
def ReadInvariant (state : ReloaderState Digest) : Option ReloadCall → Prop
  | some ⟨_, .loading raw⟩ =>
      (state.readAt = state.changes → raw = state.file) ∧ state.lastRead = raw
  | some ⟨_, .reading since⟩ =>
      since = state.readAt ∧ (state.refused = false → state.lastRead = some state.loaded)
  | some ⟨_, .locked⟩ | none =>
      (state.readAt = state.changes → state.lastRead = state.file) ∧
        (state.refused = false → state.lastRead = some state.loaded)

/-- The pipeline is the one of the content that was accepted last. -/
structure Served (sha256 : String → Digest) (state : ReloaderState Digest) : Prop where
  read : ReadInvariant state state.holder
  loaded : state.pipeline.hash = some (sha256 state.loaded)
  bounded : state.readAt ≤ state.changes

/-- The pipeline was built from content that was read. -/
structure Sourced (sha256 : String → Digest) (state : ReloaderState Digest) : Prop where
  hash : state.pipeline.hash = state.pipeline.source.map sha256
  source : ∀ content, state.pipeline.source = some content → content ∈ state.reads
  last : ∀ content, state.lastRead = some content → content ∈ state.reads

variable (sha256) in
/-- What a reload changes besides the pipeline. -/
theorem reload_frame (state : ReloaderState Digest) (outcome : ReloadOutcome)
    (raw : Option String) :
    ∃ pipeline refused loaded,
      state.reload sha256 outcome raw = { state with pipeline, refused, loaded } := by
  cases raw with
  | none => exact ⟨_, _, _, rfl⟩
  | some raw =>
      simp only [ReloaderState.reload]
      split <;> exact ⟨_, _, _, rfl⟩

omit [DecidableEq Digest] in
/-- The events of a directory that nobody watches are not queued. -/
theorem notify_of_not_running {state : ReloaderState Digest} (ours : Bool)
    (stands : state.watcher.running = false) : state.notify ours = state.events := by
  rw [ReloaderState.notify, stands, if_neg Bool.false_ne_true]

/-- After `reload` has returned, the goroutine is not in it. -/
theorem returned_ne_reloading (phase : SignalPhase) : phase.returned ≠ .reloading := by
  cases phase <;> simp [SignalPhase.returned]

/-- Returning from `reload` leads to the `select` only. -/
theorem of_returned_eq {phase other : SignalPhase} (equal : phase.returned = other)
    (elsewhere : other ≠ .selecting) : phase = other := by
  subst equal
  cases phase <;> first | rfl | exact absurd rfl elsewhere

/-- Every event keeps the goroutines where they may be. -/
theorem Ownership.step {state next : ReloaderState Digest} {event : ReloaderEvent}
    (owned : Ownership state) (stepped : reloaderStep sha256 state event = some next) :
    Ownership next := by
  have notified : ∀ ours, state.watcher = .absent → state.notify ours = [] := by
    intro ours absent
    rw [notify_of_not_running ours (by rw [absent]; rfl), owned.queue absent]
  cases reloaderMove stepped with
  | change | otherFile => exact { owned with queue := notified _ }
  | hangup started running => exact { owned with slot := fun absent => absurd absent started }
  | watchSignals | takeSignal =>
      exact { owned with slot := by simp, signals := by simp, owner := by simp }
  | watchFile | startTimer => exact { owned with queue := by simp, watcher := by simp }
  | stop =>
      exact { owned with
        watcher := fun _ => rfl
        signals := fun _ => rfl
        stopped := fun stopped => ⟨rfl, (owned.stopped stopped).2⟩ }
  | @receive ours rest waits queued =>
      exact { owned with queue := by cases ours <;> simp, watcher := by cases ours <;> simp }
  | stopTimer matched => exact { owned with queue := by simp, watcher := by simp }
  | fire | refuseTimer => exact { owned with }
  | refuseSignal => exact { owned with slot := by simp, signals := by simp, owner := by simp }
  | lockSignal calls free serves =>
      exact { owned with
        slot := by simp
        signals := by simp
        owner := fun _ => ⟨_, rfl⟩
        stopped := by simp [serves] }
  | lockTimer calls free serves =>
      exact { owned with
        owner := by
          intro reloads
          obtain ⟨phase, held⟩ := owned.owner reloads
          rw [free] at held
          cases held
        stopped := by simp [serves] }
  | openFile held | readFile held =>
      exact { owned with
        owner := by
          intro reloads
          obtain ⟨phase, owner⟩ := owned.owner reloads
          rw [held] at owner
          cases owner
          exact ⟨_, rfl⟩
        stopped := by
          intro stopped
          rw [(owned.stopped stopped).2] at held
          cases held }
  | @load bySignal raw outcome held =>
      obtain ⟨pipeline, refused, loaded, frame⟩ := reload_frame sha256 state outcome raw
      rw [frame]
      cases bySignal with
      | true =>
          exact { owned with
            slot := fun absent => owned.slot (of_returned_eq absent (by simp))
            signals := fun ended => owned.signals (of_returned_eq ended (by simp))
            owner := fun reloads => absurd reloads (returned_ne_reloading _)
            stopped := fun stopped => ⟨(owned.stopped stopped).1, rfl⟩ }
      | false =>
          exact { owned with
            owner := by
              intro reloads
              obtain ⟨phase, owner⟩ := owned.owner reloads
              rw [held] at owner
              cases owner
            stopped := fun stopped => ⟨(owned.stopped stopped).1, rfl⟩ }
  | setStopped stops free => exact { owned with stopped := fun _ => ⟨stops.1, free⟩ }
  | endWatcher done => exact { owned with queue := by simp, watcher := fun _ => done }
  | endSignals done =>
      exact { owned with slot := by simp, signals := fun _ => done, owner := by simp }

/-- A due call stays due until a read begins. -/
theorem ReloaderState.Pending.step {state next : ReloaderState Digest} {event : ReloaderEvent}
    (pending : state.Pending) (owned : Ownership state)
    (stepped : reloaderStep sha256 state event = some next) (unread : event ≠ .openFile) :
    next.done = true ∨ next.Pending := by
  unfold ReloaderState.Pending at pending
  cases reloaderMove stepped with
  | change content => exact .inr (by grind [ReloaderState.Pending, ReloaderState.notify])
  | otherFile => exact .inr (by grind [ReloaderState.Pending, ReloaderState.notify])
  | hangup => exact .inr (by simp [ReloaderState.Pending])
  | watchSignals absent =>
      have slot := owned.slot absent
      exact .inr (by grind [ReloaderState.Pending])
  | watchFile | receive | readFile => exact .inr (by grind [ReloaderState.Pending])
  | stop => exact .inl rfl
  | stopTimer | startTimer | fire | takeSignal => exact .inr (by simp [ReloaderState.Pending])
  | lockSignal | lockTimer => exact .inr (by simp [ReloaderState.Pending])
  | refuseSignal _ stopped | refuseTimer _ stopped => exact .inl (owned.stopped stopped).1
  | openFile => exact absurd rfl unread
  | @load bySignal raw outcome held =>
      obtain ⟨pipeline, refused, loaded, frame⟩ := reload_frame sha256 state outcome raw
      rw [frame]
      cases bySignal <;> exact .inr (by grind [ReloaderState.Pending, SignalPhase.returned])
  | setStopped stops => exact .inl stops.1
  | endWatcher done | endSignals done => exact .inl done

/-- A change of a watched file and a SIGHUP leave a call of `reload` due. -/
theorem Demand.step {state next : ReloaderState Digest} {event : ReloaderEvent}
    (demand : Demand state) (owned : Ownership state)
    (stepped : reloaderStep sha256 state event = some next) : Demand next := by
  obtain ⟨due, asked, readAt⟩ := demand
  have kept : event ≠ .openFile → next.asked = state.asked → next.readAt = state.readAt →
      (state.done = true → next.done = true) →
      next.done = true ∨ next.Pending ∨ next.asked ≤ next.readAt := by
    intro unread sameAsked sameRead ends
    rcases due with ended | pending | served
    · exact .inl (ends ended)
    · exact (pending.step owned stepped unread).imp_right .inl
    · exact .inr (.inr (by omega))
  cases reloaderMove stepped with
  | change content =>
      refine ⟨?_, ?_, readAt.trans (Nat.le_succ _)⟩
      · rcases Bool.eq_false_or_eq_true state.watcher.running with runs | stands
        · exact .inr (.inl (.inl (by simp [ReloaderState.notify, runs])))
        · exact kept (by simp) (by simp [stands]) rfl id
      · dsimp only
        split <;> omega
  | hangup => exact ⟨.inr (.inl (by simp [ReloaderState.Pending])), Nat.le_refl _, readAt⟩
  | openFile => exact ⟨.inr (.inr asked), asked, Nat.le_refl _⟩
  | @load bySignal raw outcome held =>
      obtain ⟨pipeline, refused, loaded, frame⟩ := reload_frame sha256 state outcome raw
      rw [frame] at stepped kept ⊢
      exact ⟨kept (by simp) rfl rfl id, asked, readAt⟩
  | stop => exact ⟨.inl rfl, asked, readAt⟩
  | _ => exact ⟨kept (by simp) rfl rfl id, asked, readAt⟩

/-- A reload that returns leaves the pipeline of the content that was accepted last. -/
theorem Served.reload {state : ReloaderState Digest} {raw : Option String}
    (served : Served sha256 state) (outcome : ReloadOutcome) (last : state.lastRead = raw) :
    let next := state.reload sha256 outcome raw
    (next.refused = false → next.lastRead = some next.loaded) ∧
      next.pipeline.hash = some (sha256 next.loaded) := by
  cases raw with
  | none => exact ⟨nofun, served.loaded⟩
  | some raw =>
      simp only [ReloaderState.reload]
      split
      · exact ⟨nofun, served.loaded⟩
      · rename_i pipeline accepted
        exact ⟨fun _ => last, (reloadFromBytes_ok accepted).1⟩

/-- What was read and what is served fit together. -/
theorem Served.step {state next : ReloaderState Digest} {event : ReloaderEvent}
    (served : Served sha256 state) (stepped : reloaderStep sha256 state event = some next) :
    Served sha256 next := by
  have read := served.read
  have bounded := served.bounded
  cases reloaderMove stepped with
  | change content =>
      refine ⟨?_, served.loaded, bounded.trans (Nat.le_succ _)⟩
      have stale : state.readAt ≠ state.changes + 1 := by omega
      unfold ReadInvariant at read ⊢
      dsimp only
      split at read
      · exact ⟨fun fresh => absurd fresh stale, read.2⟩
      · exact read
      · exact ⟨fun fresh => absurd fresh stale, read.2⟩
      · exact ⟨fun fresh => absurd fresh stale, read.2⟩
  | openFile held =>
      rw [held] at read
      exact ⟨⟨rfl, read.2⟩, served.loaded, Nat.le_refl _⟩
  | readFile held returned =>
      rw [held] at read
      obtain ⟨rfl, -⟩ := read
      refine ⟨⟨fun fresh => ?_, rfl⟩, served.loaded, bounded⟩
      exact returned.resolve_right fun changed => changed fresh
  | @load bySignal raw outcome held =>
      rw [held] at read
      obtain ⟨fresh, last⟩ := read
      have reloaded := served.reload outcome last
      obtain ⟨pipeline, refused, loaded, frame⟩ := reload_frame sha256 state outcome raw
      rw [frame] at reloaded ⊢
      exact ⟨⟨fun current => last.trans (fresh current), reloaded.1⟩, reloaded.2, bounded⟩
  | lockSignal _ free | lockTimer _ free =>
      rw [free] at read
      exact ⟨read, served.loaded, bounded⟩
  | _ => exact ⟨read, served.loaded, bounded⟩

/-- A reload of what was read last keeps the pipeline, or builds one from that. -/
theorem Sourced.reload {state : ReloaderState Digest} {raw : Option String}
    (sourced : Sourced sha256 state) (outcome : ReloadOutcome) (last : state.lastRead = raw) :
    Sourced sha256 (state.reload sha256 outcome raw) := by
  cases raw with
  | none => exact ⟨sourced.hash, sourced.source, sourced.last⟩
  | some raw =>
      simp only [ReloaderState.reload]
      split
      · exact ⟨sourced.hash, sourced.source, sourced.last⟩
      · rename_i pipeline accepted
        obtain ⟨hash, rfl | built⟩ := reloadFromBytes_ok accepted
        · exact ⟨sourced.hash, sourced.source, sourced.last⟩
        · refine ⟨?_, ?_, sourced.last⟩
          · rw [hash, built]
            rfl
          · intro content same
            cases built.symm.trans same
            exact sourced.last raw last

/-- Every event keeps the pipeline one of a content that was read. -/
theorem Sourced.step {state next : ReloaderState Digest} {event : ReloaderEvent}
    (sourced : Sourced sha256 state) (served : Served sha256 state)
    (stepped : reloaderStep sha256 state event = some next) : Sourced sha256 next := by
  cases reloaderMove stepped with
  | readFile held returned =>
      refine ⟨sourced.hash, fun content built => ?_, ?_⟩
      · exact List.mem_append_left _ (sourced.source content built)
      · rintro content rfl
        exact List.mem_append_right _ (List.mem_singleton_self content)
  | @load bySignal raw outcome held =>
      have read := served.read
      rw [held] at read
      have reloaded := sourced.reload outcome read.2
      exact ⟨reloaded.hash, reloaded.source, reloaded.last⟩
  | _ => exact ⟨sourced.hash, sourced.source, sourced.last⟩

/-- The invariant of the reloader. -/
structure ReloaderInvariant (sha256 : String → Digest) (state : ReloaderState Digest) : Prop where
  owned : Ownership state
  demand : Demand state
  served : Served sha256 state
  sourced : Sourced sha256 state

/-- The invariant holds in every reachable state. -/
theorem reloaderInvariant {state : ReloaderState Digest}
    (reached : (reloader sha256).Reachable state) : ReloaderInvariant sha256 state := by
  refine reached.induction _ ?_ ?_
  · rintro start ⟨content, rfl⟩
    exact ⟨⟨fun _ => rfl, fun _ => rfl, nofun, nofun, nofun, nofun⟩,
      ⟨.inr (.inr (Nat.le_refl _)), Nat.le_refl _, Nat.le_refl _⟩,
      ⟨⟨fun _ => rfl, fun _ => rfl⟩, rfl, Nat.le_refl _⟩,
      ⟨rfl, fun _ built => List.mem_singleton.mpr (Option.some_inj.mp built).symm,
        fun _ last => List.mem_singleton.mpr (Option.some_inj.mp last).symm⟩⟩
  · intro before event after _ invariant stepped
    exact ⟨invariant.owned.step stepped, invariant.demand.step invariant.owned stepped,
      invariant.served.step stepped, invariant.sourced.step invariant.served stepped⟩

section Work

/-- The events of its own that an event of the directory leads to at most. -/
def eventWork (ours : Bool) : Nat := if ours then 8 else 1

def watchWork : WatchPhase → Nat
  | .absent | .ended => 0
  | .selecting => 1
  | .matched => 8
  | .disarmed => 7

def signalWork : SignalPhase → Nat
  | .absent | .ended => 0
  | .selecting | .reloading => 1
  | .calling => 5

def callWork : Option ReloadCall → Nat
  | none => 0
  | some ⟨_, .locked⟩ => 3
  | some ⟨_, .reading _⟩ => 2
  | some ⟨_, .loading _⟩ => 1

/-- A bound on what the reloader does before something happens outside again. -/
def ReloaderState.work (state : ReloaderState Digest) : Nat :=
  (state.events.map eventWork).sum + watchWork state.watcher + 5 * state.timer.toNat +
    4 * state.fired + 5 * state.signal.toNat + signalWork state.signals +
    callWork state.holder + (!state.stopped).toNat

/-- Returning from `reload` leaves as much to do. -/
theorem signalWork_returned (phase : SignalPhase) :
    signalWork phase.returned = signalWork phase := by
  cases phase <;> rfl

/-- Every event of its own lowers the work. -/
theorem work_lt {state next : ReloaderState Digest} {event : ReloaderEvent}
    (stepped : reloaderStep sha256 state event = some next) (own : event.own) :
    next.work < state.work := by
  unfold ReloaderState.work
  cases reloaderMove stepped with
  | change | otherFile | hangup | watchSignals | watchFile | stop => exact own.elim
  | @receive ours rest waits queued =>
      rw [waits, queued]
      cases ours with
      | false => simp [eventWork, watchWork]
      | true =>
          simp [eventWork, watchWork]
          omega
  | stopTimer at_ | startTimer at_ | endWatcher _ at_ =>
      rw [at_]
      simp only [watchWork, Bool.toNat_true, Bool.toNat_false]
      omega
  | fire runs =>
      rw [runs]
      simp only [Bool.toNat_true, Bool.toNat_false]
      omega
  | takeSignal waits full =>
      rw [waits, full]
      simp only [signalWork, Bool.toNat_true, Bool.toNat_false]
      omega
  | refuseSignal calls =>
      rw [calls]
      simp only [signalWork]
      omega
  | lockSignal calls free =>
      rw [calls, free]
      simp only [signalWork, callWork]
      omega
  | refuseTimer calls =>
      dsimp only
      omega
  | lockTimer calls free =>
      rw [free]
      simp only [callWork]
      omega
  | openFile held | readFile held =>
      rw [held]
      simp only [callWork]
      omega
  | @load bySignal raw outcome held =>
      obtain ⟨pipeline, refused, loaded, frame⟩ := reload_frame sha256 state outcome raw
      have returned := signalWork_returned state.signals
      rw [frame, held]
      cases bySignal <;> simp only [callWork, if_true, Bool.false_eq_true, if_false] <;> omega
  | setStopped stops free =>
      rw [stops.2]
      simp
  | endSignals _ waits =>
      rw [waits]
      simp only [signalWork]
      omega

end Work

/-- A call that holds the mutex can go on. -/
theorem call_progress {state : ReloaderState Digest} {call : ReloadCall}
    (held : state.holder = some call) :
    ∃ event next, event.own ∧ reloaderStep sha256 state event = some next := by
  obtain ⟨bySignal, phase⟩ := call
  cases phase with
  | locked => exact ⟨.openFile, _, trivial, by simp only [reloaderStep, held]; rfl⟩
  | reading since =>
      exact ⟨.readFile state.file, _, trivial, by simp only [reloaderStep, held]; rfl⟩
  | loading raw => exact ⟨.load .builds, _, trivial, by simp only [reloaderStep, held]; rfl⟩

/-- A call that waits for the mutex takes it once it is free. -/
theorem lock_progress {state : ReloaderState Digest} (free : state.holder = none)
    (calls : state.signals = .calling ∨ 0 < state.fired) :
    ∃ event next, event.own ∧ reloaderStep sha256 state event = some next := by
  rcases calls with calls | calls
  · refine ⟨.lock true, ?_⟩
    simp only [reloaderStep, calls, free]
    cases state.stopped <;> exact ⟨_, trivial, rfl⟩
  · refine ⟨.lock false, ?_⟩
    simp only [reloaderStep, calls, free]
    cases state.stopped <;> exact ⟨_, trivial, rfl⟩

/-- A reloader that is not settled can go on. -/
theorem reloader_progress {state : ReloaderState Digest}
    (reached : (reloader sha256).Reachable state) (unsettled : ¬ state.Settled) :
    ∃ event next, event.own ∧ (reloader sha256).Step state event next := by
  have owned := (reloaderInvariant reached).owned
  change ∃ event next, event.own ∧ reloaderStep sha256 state event = some next
  by_contra stuck
  have blocked : ∀ event : ReloaderEvent, event.own → reloaderStep sha256 state event = none := by
    intro event own
    by_contra enabled
    obtain ⟨next, stepped⟩ := Option.ne_none_iff_exists'.mp enabled
    exact stuck ⟨event, next, own, stepped⟩
  have free : state.holder = none := by
    by_contra held
    obtain ⟨call, held⟩ := Option.ne_none_iff_exists'.mp held
    exact stuck (call_progress held)
  have calling : state.signals ≠ .calling := fun calls => stuck (lock_progress free (.inl calls))
  have fired : state.fired = 0 := by
    by_contra calls
    exact stuck (lock_progress free (.inr (Nat.pos_of_ne_zero calls)))
  have reloading : state.signals ≠ .reloading := by
    intro reloads
    obtain ⟨phase, held⟩ := owned.owner reloads
    rw [free] at held
    cases held
  have timer : state.timer = false := by simpa [reloaderStep] using blocked .fire trivial
  have matched : state.watcher ≠ .matched := by
    simpa [reloaderStep] using blocked .stopTimer trivial
  have disarmed : state.watcher ≠ .disarmed := by
    simpa [reloaderStep] using blocked .startTimer trivial
  apply unsettled
  refine ⟨free, fired, timer, ⟨matched, disarmed⟩, ⟨calling, reloading⟩, ?_, ?_⟩
  · intro live
    constructor
    · cases waits : state.watcher with
      | absent => exact owned.queue waits
      | selecting =>
          have received := blocked .receive trivial
          cases queued : state.events with
          | nil => rfl
          | cons ours rest => simp [reloaderStep, waits, queued] at received
      | matched => exact absurd waits matched
      | disarmed => exact absurd waits disarmed
      | ended => simp [owned.watcher waits] at live
    · cases waits : state.signals with
      | absent => exact owned.slot waits
      | selecting => simpa [reloaderStep, waits] using blocked .takeSignal trivial
      | calling => exact absurd waits calling
      | reloading => exact absurd waits reloading
      | ended => simp [owned.signals waits] at live
  · intro ended
    refine ⟨?_, ?_, ?_⟩
    · simpa [reloaderStep, ended, free] using blocked .setStopped trivial
    · simpa [reloaderStep, ended] using blocked .endWatcher trivial
    · simpa [reloaderStep, ended] using blocked .endSignals trivial

/-- The file is watched, and a reload was asked for after its last change. -/
structure AskedLast (state : ReloaderState Digest) : Prop where
  watched : state.watcher ≠ .absent
  last : state.done = false → state.asked = state.changes

/-- A file that is watched stays so. -/
theorem watched_step {state next : ReloaderState Digest} {event : ReloaderEvent}
    (watched : state.watcher ≠ .absent) (stepped : reloaderStep sha256 state event = some next) :
    next.watcher ≠ .absent := by
  cases reloaderMove stepped with
  | @receive ours => cases ours <;> simp
  | watchFile | stopTimer | startTimer | endWatcher => simp
  | @load bySignal raw outcome held =>
      obtain ⟨pipeline, refused, loaded, frame⟩ := reload_frame sha256 state outcome raw
      rw [frame]
      exact watched
  | _ => exact watched

/-- No change of a watched file is missed. -/
theorem askedLast_of_asks {state next : ReloaderState Digest} {event : ReloaderEvent}
    (watched : state.watcher ≠ .absent) (owned : Ownership state)
    (stepped : reloaderStep sha256 state event = some next) (asks : event.asks) :
    AskedLast next := by
  refine ⟨watched_step watched stepped, ?_⟩
  cases reloaderMove stepped with
  | change content =>
      intro live
      have runs : state.watcher.running = true := by
        cases at_ : state.watcher with
        | absent => exact absurd at_ watched
        | ended => simp [owned.watcher at_] at live
        | selecting | matched | disarmed => rfl
      simp [runs]
  | hangup => exact fun _ => rfl
  | _ => exact asks.elim

/-- Once the last change was asked for, so are later ones. -/
theorem AskedLast.step {state next : ReloaderState Digest} {event : ReloaderEvent}
    (asked : AskedLast state) (owned : Ownership state)
    (stepped : reloaderStep sha256 state event = some next) : AskedLast next := by
  have watched := watched_step asked.watched stepped
  have last := asked.last
  cases reloaderMove stepped with
  | change | hangup => exact askedLast_of_asks asked.watched owned stepped trivial
  | stop => exact ⟨watched, nofun⟩
  | @load bySignal raw outcome held =>
      obtain ⟨pipeline, refused, loaded, frame⟩ := reload_frame sha256 state outcome raw
      rw [frame] at watched ⊢
      exact ⟨watched, last⟩
  | _ => exact ⟨watched, last⟩

/-- A run with a change of the watched file, or with a SIGHUP. -/
theorem askedLast_of_steps {before after : ReloaderState Digest} {events : List ReloaderEvent}
    (reached : (reloader sha256).Reachable before) (watched : before.watcher ≠ .absent)
    (steps : (reloader sha256).Steps before events after) :
    after.watcher ≠ .absent ∧ ((∃ event ∈ events, event.asks) → AskedLast after) := by
  induction steps with
  | refl => exact ⟨watched, by simp⟩
  | step prior transition ih =>
      have owned := (reloaderInvariant (reached.steps prior)).owned
      refine ⟨watched_step ih.1 transition, ?_⟩
      rintro ⟨asking, member, asks⟩
      rcases List.mem_append.mp member with earlier | last
      · exact (ih.2 ⟨asking, earlier, asks⟩).step owned transition
      · cases List.mem_singleton.mp last
        exact askedLast_of_asks ih.1 owned transition asks

/-- The reloader does not stop by itself. -/
theorem done_of_own {state next : ReloaderState Digest} {event : ReloaderEvent}
    (stepped : reloaderStep sha256 state event = some next) (own : event.own) :
    next.done = state.done := by
  cases reloaderMove stepped with
  | @load bySignal raw outcome held =>
      obtain ⟨pipeline, refused, loaded, frame⟩ := reload_frame sha256 state outcome raw
      rw [frame]
  | stop => exact own.elim
  | _ => rfl

omit [DecidableEq Digest] in
/-- A live reloader that is settled has read the file after the last change. -/
theorem upToDate_of_settled {state : ReloaderState Digest}
    (invariant : ReloaderInvariant sha256 state) (settled : state.Settled) (asked : AskedLast state)
    (live : state.done = false) : state.UpToDate sha256 := by
  obtain ⟨empty, quiet⟩ := settled.waiting live
  have idle : ¬ state.Pending := by
    simp [ReloaderState.Pending, empty, quiet, settled.holder, settled.fired, settled.timer,
      settled.watcher, settled.signals]
  have current : state.readAt = state.changes := by
    have served : state.asked ≤ state.readAt := by
      rcases invariant.demand.due with ended | due | served
      · rw [live] at ended
        cases ended
      · exact absurd due idle
      · exact served
    have last := asked.last live
    have bounded := invariant.demand.readAt
    omega
  have read := invariant.served.read
  rw [settled.holder] at read
  have same := read.1 current
  refine ⟨same, fun accepted => ?_⟩
  have last := read.2 accepted
  have loaded := invariant.served.loaded
  rw [← same, last]
  refine ⟨loaded, fun noCollision => ?_⟩
  exact source_of_hash noCollision invariant.sourced.hash invariant.sourced.source
    (invariant.sourced.last _ last) loaded

/-- After a change of the watched file, or after a SIGHUP, the reloader does a bounded
number of events unless something happens outside. It is never stuck before it is settled,
and then its last read returned what the file holds, which is served if it was accepted. -/
theorem reloader_follows_file (sha256 : String → Digest) (before after : ReloaderState Digest)
    (events : List ReloaderEvent) (reached : (reloader sha256).Reachable before)
    (watched : before.watcher ≠ .absent) (steps : (reloader sha256).Steps before events after)
    (asks : ∃ event ∈ events, event.asks) (live : after.done = false) :
    ∀ own last, ((reloader sha256).own ReloaderEvent.own).Steps after own last →
      own.length ≤ after.work ∧
      (last.Settled → last.UpToDate sha256) ∧
      (¬ last.Settled → ∃ event next, event.own ∧ (reloader sha256).Step last event next) := by
  intro own last goesOn
  have here := reached.steps steps
  have there := here.steps goesOn.of_own
  obtain ⟨bounded, -⟩ := (here.settles _ ReloaderState.work (fun _ => work_lt)
    reloader_progress).1 own last goesOn
  refine ⟨by omega, fun settled => ?_, reloader_progress there⟩
  obtain ⟨asking, member, asking_asks⟩ := asks
  have asked : AskedLast last :=
    (askedLast_of_steps reached watched (steps.trans goesOn.of_own)).2
      ⟨asking, List.mem_append_left _ member, asking_asks⟩
  have stillLive : last.done = false :=
    goesOn.own_induction (·.done = false)
      (fun before stepped own => (done_of_own stepped own).trans before) live
  exact upToDate_of_settled (reloaderInvariant there) settled asked stillLive

/-- The file changes again while the reload of a change reads it, and a SIGHUP arrives. -/
def changedDuringRead : List ReloaderEvent :=
  [.change (some "a: 2"), .receive, .stopTimer, .startTimer, .fire, .lock false, .openFile,
   .change (some "a: 3"), .hangup, .readFile none]

/-- The reload that was interrupted, that of the SIGHUP and that of the second change. -/
def catchUp : List ReloaderEvent :=
  [.load .builds, .takeSignal, .lock true, .openFile, .readFile (some "a: 3"), .load .builds,
   .receive, .stopTimer, .startTimer, .fire, .lock false, .openFile, .readFile (some "a: 3"),
   .load .builds]

/-- The gateway ends with the second change. -/
theorem reloader_follows_file_of_interrupted_read :
    ∃ before after last,
      System.replay (reloaderStep id) (loadedGateway id "a: 1") [.watchSignals, .watchFile] =
        some before ∧
      System.replay (reloaderStep id) before changedDuringRead = some after ∧
      System.replay (reloaderStep id) after catchUp = some last ∧
      last.pipeline.source = some "a: 3" ∧ last.UpToDate id := by
  let before := (System.replay (reloaderStep id) (loadedGateway id "a: 1")
    [.watchSignals, .watchFile]).get (by decide)
  have started : System.replay (reloaderStep id) (loadedGateway id "a: 1")
      [.watchSignals, .watchFile] = some before := (Option.some_get _).symm
  let after := (System.replay (reloaderStep id) before changedDuringRead).get (by decide)
  have changed : System.replay (reloaderStep id) before changedDuringRead = some after :=
    (Option.some_get _).symm
  let last := (System.replay (reloaderStep id) after catchUp).get (by decide)
  have caughtUp : System.replay (reloaderStep id) after catchUp = some last :=
    (Option.some_get _).symm
  refine ⟨before, after, last, started, changed, caughtUp, by decide, ?_⟩
  have reached : (reloader id).Reachable before :=
    System.reachable_of_replay _ (.initial ⟨_, rfl⟩) started
  have steps : (reloader id).Steps before changedDuringRead after :=
    System.steps_of_replay changedDuringRead .refl changed
  have follows := reloader_follows_file id before after _ reached (by decide) steps
    ⟨.hangup, by decide, trivial⟩ (by decide) catchUp last
    (System.own_steps_of_replay catchUp (by simp [catchUp, ReloaderEvent.own]) caughtUp)
  exact follows.2.1 ⟨by decide, by decide, by decide, by decide, by decide, by decide, by decide⟩

/-- A stopped reloader changes nothing but what it waits for. -/
theorem stopped_step {state next : ReloaderState Digest} {event : ReloaderEvent}
    (owned : Ownership state) (stopped : state.stopped = true)
    (stepped : reloaderStep sha256 state event = some next) :
    next.stopped = true ∧ next.pipeline = state.pipeline := by
  have free := (owned.stopped stopped).2
  cases reloaderMove stepped with
  | load _ held =>
      rw [free] at held
      cases held
  | setStopped => exact ⟨rfl, rfl⟩
  | _ => exact ⟨stopped, rfl⟩

/-- `stop` waits for the reload that runs and for no other one: it returns after a bounded
number of events, and once the reloader is settled neither the goroutine of the file nor that of
the signals runs and no call of `reload` is left that could go on.
From the moment it returns no run of the gateway changes what it serves. -/
theorem reloader_stop (sha256 : String → Digest) (state : ReloaderState Digest)
    (reached : (reloader sha256).Reachable state) (stopping : state.done = true) :
    (∀ own last, ((reloader sha256).own ReloaderEvent.own).Steps state own last →
      own.length ≤ state.work ∧
      (last.Settled → last.stopped = true ∧ ¬ last.watcher.running ∧ ¬ last.signals.running ∧
        last.holder = none) ∧
      (¬ last.Settled → ∃ event next, event.own ∧ (reloader sha256).Step last event next)) ∧
    (state.stopped = true → ∀ events last, (reloader sha256).Steps state events last →
      last.pipeline = state.pipeline) := by
  constructor
  · intro own last goesOn
    have there := reached.steps goesOn.of_own
    obtain ⟨bounded, -⟩ := (reached.settles _ ReloaderState.work (fun _ => work_lt)
      reloader_progress).1 own last goesOn
    refine ⟨by omega, fun settled => ?_, reloader_progress there⟩
    have ended : last.done = true :=
      goesOn.own_induction (·.done = true)
        (fun before stepped own => (done_of_own stepped own).trans before) stopping
    obtain ⟨stopped, notWatching, notWaiting⟩ := settled.ended ended
    obtain ⟨notMatched, notDisarmed⟩ := settled.watcher
    obtain ⟨notCalling, notReloading⟩ := settled.signals
    refine ⟨stopped, ?_, ?_, settled.holder⟩
    · cases at_ : last.watcher with
      | absent | ended => exact Bool.false_ne_true
      | selecting => exact absurd at_ notWatching
      | matched => exact absurd at_ notMatched
      | disarmed => exact absurd at_ notDisarmed
    · cases at_ : last.signals with
      | absent | ended => exact Bool.false_ne_true
      | selecting => exact absurd at_ notWaiting
      | calling => exact absurd at_ notCalling
      | reloading => exact absurd at_ notReloading
  · intro stopped events last steps
    have both : last.stopped = true ∧ last.pipeline = state.pipeline := by
      induction steps with
      | refl => exact ⟨stopped, rfl⟩
      | step prior transition ih =>
          have owned := (reloaderInvariant (reached.steps prior)).owned
          obtain ⟨still, same⟩ := stopped_step owned ih.1 transition
          exact ⟨still, same.trans ih.2⟩
    exact both.2

/-- `stop` is called while a reload has read the file and a timer runs. -/
def stopDuringReload : List ReloaderEvent :=
  [.watchSignals, .watchFile, .change (some "a: 2"), .receive, .stopTimer, .startTimer, .fire,
   .lock false, .openFile, .readFile (some "a: 2"), .change (some "a: 3"), .receive, .stopTimer,
   .startTimer, .stop]

/-- The reload ends, `stop` returns, and the timer that had fired is refused. -/
def stopReturns : List ReloaderEvent :=
  [.load .builds, .fire, .setStopped, .lock false, .endSignals, .endWatcher]

/-- The gateway goes on with what the reload had read. -/
theorem reloader_stop_of_running_reload :
    ∃ state last,
      System.replay (reloaderStep id) (loadedGateway id "a: 1") stopDuringReload = some state ∧
      System.replay (reloaderStep id) state stopReturns = some last ∧
      last.pipeline.source = some "a: 2" ∧ last.stopped = true := by
  let state := (System.replay (reloaderStep id) (loadedGateway id "a: 1")
    stopDuringReload).get (by decide)
  have begun : System.replay (reloaderStep id) (loadedGateway id "a: 1") stopDuringReload =
      some state := (Option.some_get _).symm
  let last := (System.replay (reloaderStep id) state stopReturns).get (by decide)
  have returned : System.replay (reloaderStep id) state stopReturns = some last :=
    (Option.some_get _).symm
  have reached : (reloader id).Reachable state :=
    System.reachable_of_replay _ (.initial ⟨_, rfl⟩) begun
  have stops := (reloader_stop id state reached (by decide)).1 stopReturns last
    (System.own_steps_of_replay stopReturns (by simp [stopReturns, ReloaderEvent.own]) returned)
  exact ⟨state, last, begun, returned, by decide,
    (stops.2.1 ⟨by decide, by decide, by decide, by decide, by decide, by decide, by decide⟩).1⟩

end Restitch.Gateway
