import Restitch.Hotreload.Poller

/-!
# The reloader of a standalone gateway (`cmd/restitch/reload.go`, `cmd/restitch/run.go`)

One goroutine asks for reloads on SIGHUP, another on changes of the artifact file, through
a timer that every change starts again. A timer that fires calls `reload` in a goroutine of
its own, so several calls may wait for the mutex. An event is one receive, one statement on
the timer, one lock, one step of `os.ReadFile`, or one run of `reloadFromBytes`.
-/

namespace Restitch.Gateway

open Restitch.Semantics Restitch.Hotreload

variable {Digest : Type} [DecidableEq Digest]

/-- Where the goroutine of `watchFile` is. -/
inductive WatchPhase where
  /-- `watchFile` has not run, or the directory cannot be watched. -/
  | absent
  | selecting
  /-- An event of the file was received; `timer.Stop()` is next. -/
  | matched
  /-- `time.AfterFunc` is next. -/
  | disarmed
  | ended
deriving DecidableEq

/-- Where the goroutine of `watchSignals` is. -/
inductive SignalPhase where
  | absent
  | selecting
  /-- In `reload`, before the lock. -/
  | calling
  /-- In `reload`, with the lock. -/
  | reloading
  | ended
deriving DecidableEq

/-- Where the call of `reload` that holds the mutex is. -/
inductive ReloadPhase where
  | locked
  /-- `os.ReadFile` has begun, after so many changes of the file. -/
  | reading (since : Nat)
  /-- `os.ReadFile` has returned; of an error there is no content. -/
  | loading (raw : Option String)
deriving DecidableEq

/-- The call of `reload` that holds the mutex, and whether a signal asked for it. -/
structure ReloadCall where
  bySignal : Bool
  phase : ReloadPhase
deriving DecidableEq

/-- The file, the reloader and the pipeline. The last seven fields record what happened and
are read by no code; `changes` bounds what a read may return. -/
structure ReloaderState (Digest : Type) where
  /-- The content of the artifact file; `none` while it cannot be read. -/
  file : Option String
  watcher : WatchPhase
  /-- The events of the directory that were not received yet: whether the base name is
  that of the file. -/
  events : List Bool
  /-- Whether the timer is running. -/
  timer : Bool
  /-- The calls of fired timers that wait for the mutex. -/
  fired : Nat
  signals : SignalPhase
  /-- The slot of the signal channel. -/
  signal : Bool
  holder : Option ReloadCall
  done : Bool
  stopped : Bool
  pipeline : Pipeline Digest
  /-- How often the file has changed. -/
  changes : Nat
  /-- `changes` at the last change that queued an event, or at the last SIGHUP. -/
  asked : Nat
  /-- `changes` when the last read began. -/
  readAt : Nat
  /-- What the last read returned. -/
  lastRead : Option String
  /-- The content that the gateway began with, and what the reads returned. -/
  reads : List String
  /-- Whether the last reload failed. -/
  refused : Bool
  /-- The content with which a reload last succeeded. -/
  loaded : String

inductive ReloaderEvent where
  /-- The file is written, replaced or removed. -/
  | change (content : Option String)
  /-- Another file of the directory changes. -/
  | otherFile
  | hangup
  | watchSignals
  | watchFile
  /-- `stop` closes `done`. -/
  | stop
  /-- The watcher receives an event. -/
  | receive
  | stopTimer
  | startTimer
  | fire
  /-- The signal goroutine receives from its channel. -/
  | takeSignal
  /-- A call of `reload` takes the mutex and reads `stopped`. -/
  | lock (bySignal : Bool)
  | openFile
  | readFile (raw : Option String)
  /-- `reloadFromBytes` runs and the mutex is released. -/
  | load (outcome : ReloadOutcome)
  /-- `stop` takes the mutex and sets `stopped`. -/
  | setStopped
  /-- The watcher receives from `done`. -/
  | endWatcher
  /-- The signal goroutine receives from `done`. -/
  | endSignals
deriving DecidableEq

/-- What the reloader does by itself. -/
def ReloaderEvent.own : ReloaderEvent → Prop
  | .change _ | .otherFile | .hangup | .watchSignals | .watchFile | .stop => False
  | _ => True

/-- The events after which the file is to be read. -/
def ReloaderEvent.asks : ReloaderEvent → Prop
  | .change _ | .hangup => True
  | _ => False

/-- The goroutine of `watchFile` runs, and the directory is watched. -/
def WatchPhase.running : WatchPhase → Bool
  | .absent | .ended => false
  | _ => true

/-- The goroutine of `watchSignals` runs. -/
def SignalPhase.running : SignalPhase → Bool
  | .absent | .ended => false
  | _ => true

/-- Queue an event of the directory. -/
def ReloaderState.notify (state : ReloaderState Digest) (ours : Bool) : List Bool :=
  if state.watcher.running then state.events ++ [ours] else state.events

/-- Where the signal goroutine is after `reload` has returned. -/
def SignalPhase.returned : SignalPhase → SignalPhase
  | .reloading => .selecting
  | phase => phase

/-- The end of a reload of the content that was read. -/
def ReloaderState.reload (sha256 : String → Digest) (state : ReloaderState Digest)
    (outcome : ReloadOutcome) : Option String → ReloaderState Digest
  | none => { state with refused := true }
  | some raw =>
      match reloadFromBytes sha256 state.pipeline raw outcome with
      | .error _ => { state with refused := true }
      | .ok pipeline => { state with pipeline, refused := false, loaded := raw }

/-- One event of the reloader. -/
def reloaderStep (sha256 : String → Digest) (state : ReloaderState Digest) :
    ReloaderEvent → Option (ReloaderState Digest)
  | .change content => some { state with
      file := content
      events := state.notify true
      changes := state.changes + 1
      asked := if state.watcher.running then state.changes + 1 else state.asked }
  | .otherFile => some { state with events := state.notify false }
  | .hangup =>
      match state.signals with
      | .absent | .ended => none
      | _ => some { state with signal := true, asked := state.changes }
  | .watchSignals =>
      if state.signals = .absent then some { state with signals := .selecting } else none
  | .watchFile =>
      if state.watcher = .absent then some { state with watcher := .selecting } else none
  | .stop => some { state with done := true }
  | .receive =>
      match state.watcher, state.events with
      | .selecting, ours :: rest => some { state with
          events := rest
          watcher := if ours then .matched else .selecting }
      | _, _ => none
  | .stopTimer =>
      if state.watcher = .matched then some { state with watcher := .disarmed, timer := false }
      else none
  | .startTimer =>
      if state.watcher = .disarmed then some { state with watcher := .selecting, timer := true }
      else none
  | .fire =>
      if state.timer then some { state with timer := false, fired := state.fired + 1 } else none
  | .takeSignal =>
      if state.signals = .selecting ∧ state.signal then
        some { state with signal := false, signals := .calling }
      else none
  | .lock true =>
      if state.signals = .calling ∧ state.holder = none then
        -- A stopped reloader returns errReloaderStopped.
        if state.stopped then some { state with signals := .selecting }
        else some { state with signals := .reloading, holder := some ⟨true, .locked⟩ }
      else none
  | .lock false =>
      if 0 < state.fired ∧ state.holder = none then
        if state.stopped then some { state with fired := state.fired - 1 }
        else some { state with fired := state.fired - 1, holder := some ⟨false, .locked⟩ }
      else none
  | .openFile =>
      match state.holder with
      | some ⟨bySignal, .locked⟩ => some { state with
          holder := some ⟨bySignal, .reading state.changes⟩
          readAt := state.changes }
      | _ => none
  | .readFile raw =>
      match state.holder with
      | some ⟨bySignal, .reading since⟩ =>
          -- A read during which the file changes may return anything.
          if raw = state.file ∨ since ≠ state.changes then
            some { state with
              holder := some ⟨bySignal, .loading raw⟩
              lastRead := raw
              reads := state.reads ++ raw.toList }
          else none
      | _ => none
  | .load outcome =>
      match state.holder with
      | some ⟨bySignal, .loading raw⟩ => some { state.reload sha256 outcome raw with
          holder := none
          signals := if bySignal then state.signals.returned else state.signals }
      | _ => none
  | .setStopped =>
      if (state.done ∧ state.stopped = false) ∧ state.holder = none then
        some { state with stopped := true }
      else none
  | .endWatcher =>
      if state.done ∧ state.watcher = .selecting then
        some { state with watcher := .ended, timer := false }
      else none
  | .endSignals =>
      if state.done ∧ state.signals = .selecting then some { state with signals := .ended }
      else none

/-- A gateway that has read and loaded the file, before `watchSignals` and `watchFile`. -/
def loadedGateway (sha256 : String → Digest) (content : String) : ReloaderState Digest where
  file := some content
  watcher := .absent
  events := []
  timer := false
  fired := 0
  signals := .absent
  signal := false
  holder := none
  done := false
  stopped := false
  pipeline := ⟨some (sha256 content), some content⟩
  changes := 0
  asked := 0
  readAt := 0
  lastRead := some content
  reads := [content]
  refused := false
  loaded := content

/-- The reloader of a gateway that found an artifact file. -/
def reloader (sha256 : String → Digest) : System (ReloaderState Digest) ReloaderEvent :=
  .ofStep (fun state => ∃ content, state = loadedGateway sha256 content) (reloaderStep sha256)

/-- A call of `reload` is due that has not begun to read. -/
def ReloaderState.Pending (state : ReloaderState Digest) : Prop :=
  true ∈ state.events ∨ state.watcher = .matched ∨ state.watcher = .disarmed ∨
    state.timer = true ∨ 0 < state.fired ∨ state.signal = true ∨ state.signals = .calling ∨
    ∃ bySignal, state.holder = some ⟨bySignal, .locked⟩

/-- The last read returned what the file holds, and what it returned is served if it was
accepted. A digest that tells apart what was read is that of one content only. -/
def ReloaderState.UpToDate (sha256 : String → Digest) (state : ReloaderState Digest) : Prop :=
  state.lastRead = state.file ∧
    (state.refused = false → state.pipeline.hash = state.file.map sha256 ∧
      (NoCollision sha256 state.reads → state.pipeline.source = state.file))

/-- Every goroutine waits for something from outside, or has ended. -/
structure ReloaderState.Settled (state : ReloaderState Digest) : Prop where
  holder : state.holder = none
  fired : state.fired = 0
  timer : state.timer = false
  watcher : state.watcher ≠ .matched ∧ state.watcher ≠ .disarmed
  signals : state.signals ≠ .calling ∧ state.signals ≠ .reloading
  waiting : state.done = false → state.events = [] ∧ state.signal = false
  ended : state.done = true →
    state.stopped = true ∧ state.watcher ≠ .selecting ∧ state.signals ≠ .selecting

end Restitch.Gateway
