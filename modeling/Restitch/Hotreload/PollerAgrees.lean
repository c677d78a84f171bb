import Restitch.Hotreload.Poller

/-!
# Poller and Studio agree

Version number, ETag, digest and pipeline are updated at different points of an
iteration. The invariant says in every phase which of them are still those of
the previous iteration and which already belong to the version that was fetched.
-/

namespace Restitch.Hotreload

open Restitch.Semantics

variable {Digest : Type} {sha256 : String → Digest} {env : String}

/-- The YAML of version `number` is `yaml`. -/
def IsVersion (versions : List String) (number : Nat) (yaml : String) : Prop :=
  0 < number ∧ versions[number - 1]? = some yaml

/-- A version stays what it is when one is added. -/
theorem IsVersion.append {versions : List String} {number : Nat} {yaml : String}
    (is : IsVersion versions number yaml) (added : String) :
    IsVersion (versions ++ [added]) number yaml := by
  refine ⟨is.1, ?_⟩
  have small := (List.getElem?_eq_some_iff.mp is.2).1
  rw [List.getElem?_append_left small]
  exact is.2

/-- A version is in the history. -/
theorem IsVersion.mem {versions : List String} {number : Nat} {yaml : String}
    (is : IsVersion versions number yaml) : yaml ∈ versions :=
  List.mem_of_getElem? is.2

/-- ETags of one environment name their version. -/
theorem etag_injective {first second : Nat} (equal : etag env first = etag env second) :
    first = second := by
  unfold etag at equal
  rw [String.append_left_inj, String.append_right_inj] at equal
  have digits : Nat.toDigits 10 first = Nat.toDigits 10 second := by
    simpa only [Nat.toString_eq_repr, Nat.toList_repr] using congrArg String.toList equal
  have parsed := congrArg (fun digits => Nat.ofDigitChars 10 digits 0) digits
  simpa only [Nat.ofDigitChars_ten_toDigits] using parsed

/-- No version has the empty ETag. -/
theorem etag_ne_empty (number : Nat) : etag env number ≠ "" := by
  intro empty
  have length := congrArg String.length empty
  simp [etag] at length

/-- A fetched artifact is a version no older than `current`. -/
structure Fresh (env : String) (versions : List String) (current : Nat) (result : FetchResult) :
    Prop where
  version : IsVersion versions result.version result.yaml
  newer : current ≤ result.version
  tagged : result.etag = etag env result.version

/-- A fetched artifact stays fresh when a version is added. -/
theorem Fresh.append {versions : List String} {current : Nat} {result : FetchResult}
    (fresh : Fresh env versions current result) (added : String) :
    Fresh env (versions ++ [added]) current result :=
  ⟨fresh.version.append added, fresh.newer, fresh.tagged⟩

/-- Nothing has been applied yet in the running iteration. -/
def Unchanged (state : State Digest) : Prop :=
  state.applied = state.status.version ∧ state.startedWith = state.serving

/-- What holds in each phase of an iteration. -/
def PhaseInvariant (env : String) (state : State Digest) : Phase → Prop
  | .idle => state.applied = state.status.version ∧
      (state.status.lastError ≠ none → state.startedWith = state.serving)
  | .requested ifNoneMatch => Unchanged state ∧ ifNoneMatch = state.lastETag
  | .latestRead ifNoneMatch number =>
      Unchanged state ∧ ifNoneMatch = state.lastETag ∧ number = state.latestWhenRead ∧
        0 < number ∧ state.status.version ≤ number
  | .answered result => Unchanged state ∧
      (result.notModified = true → state.applied = state.latestWhenRead) ∧
      (result.notModified = false → Fresh env state.versions state.status.version result)
  | .fetched result => Unchanged state ∧ result.notModified = false ∧
      Fresh env state.versions state.status.version result
  | .polled (.error _) => Unchanged state
  | .polled (.ok result) =>
      (result.notModified = true → Unchanged state) ∧
      (result.notModified = false → state.applied = result.version ∧
        Fresh env state.versions state.status.version result)

/-- The invariant of a gateway and its environment. -/
structure PollerInvariant (sha256 : String → Digest) (env : String) (state : State Digest) :
    Prop where
  hash : state.pipeline.hash = state.pipeline.source.map sha256
  published : ∀ yaml, state.pipeline.source = some yaml → yaml ∈ state.versions
  running : 0 < state.applied → ∃ yaml, IsVersion state.versions state.applied yaml ∧
    state.pipeline.hash = some (sha256 yaml)
  tag : (state.status.version = 0 ∧ state.lastETag = "") ∨
    (0 < state.status.version ∧ state.lastETag = etag env state.status.version)
  bounded : state.status.version ≤ state.versions.length
  phase : PhaseInvariant env state state.phase

/-- A reload that succeeds leaves a pipeline with the digest of the given YAML:
the one it found running, or one built from exactly this YAML. -/
theorem reloadFromBytes_ok [DecidableEq Digest] {current pipeline : Pipeline Digest}
    {yaml : String} {outcome : ReloadOutcome}
    (reloaded : reloadFromBytes sha256 current yaml outcome = .ok pipeline) :
    pipeline.hash = some (sha256 yaml) ∧ (pipeline = current ∨ pipeline.source = some yaml) := by
  cases outcome with
  | loadFails => cases reloaded
  | buildFails =>
      simp only [reloadFromBytes] at reloaded
      split at reloaded
      · rename_i same
        cases reloaded
        exact ⟨same, .inl rfl⟩
      · cases reloaded
  | builds =>
      simp only [reloadFromBytes] at reloaded
      split at reloaded
      · rename_i same
        cases reloaded
        exact ⟨same, .inl rfl⟩
      · cases reloaded
        exact ⟨rfl, .inr rfl⟩

/-- A new version changes nothing the poller holds. -/
theorem PollerInvariant.publish {state : State Digest}
    (invariant : PollerInvariant sha256 env state) (yaml : String) :
    PollerInvariant sha256 env { state with versions := state.versions ++ [yaml] } where
  hash := invariant.hash
  published := fun source built => List.mem_append_left _ (invariant.published source built)
  running := by
    intro positive
    obtain ⟨source, is, built⟩ := invariant.running positive
    exact ⟨source, is.append yaml, built⟩
  tag := invariant.tag
  bounded := by
    have bound := invariant.bounded
    simp only [List.length_append]
    omega
  phase := by
    have holds := invariant.phase
    cases at_ : state.phase with
    | idle | requested | latestRead =>
        rw [at_] at holds
        exact holds
    | answered result =>
        rw [at_] at holds
        exact ⟨holds.1, holds.2.1, fun sent => (holds.2.2 sent).append yaml⟩
    | fetched result =>
        rw [at_] at holds
        exact ⟨holds.1, holds.2.1, holds.2.2.append yaml⟩
    | polled outcome =>
        rw [at_] at holds
        cases outcome with
        | error => exact holds
        | ok result =>
            exact ⟨holds.1, fun sent => ⟨(holds.2 sent).1, (holds.2 sent).2.append yaml⟩⟩

/-- Moving to another phase without touching anything else keeps the invariant
when the new phase's part of it holds. -/
theorem PollerInvariant.move {state : State Digest}
    (invariant : PollerInvariant sha256 env state) {phase : Phase}
    (holds : PhaseInvariant env { state with phase } phase) :
    PollerInvariant sha256 env { state with phase } :=
  ⟨invariant.hash, invariant.published, invariant.running, invariant.tag, invariant.bounded, holds⟩

/-- Studio answers 304 only to the tag of the version it read, which is then the
version the poller applied last. -/
theorem PollerInvariant.answer {state : State Digest} {ifNoneMatch yaml : String} {number : Nat}
    (invariant : PollerInvariant sha256 env state)
    (at_ : state.phase = .latestRead ifNoneMatch number)
    (found : state.versions[number - 1]? = some yaml) :
    PollerInvariant sha256 env
      { state with phase := .answered (serveArtifact env ifNoneMatch number yaml) } := by
  have holds := invariant.phase
  rw [at_] at holds
  obtain ⟨unchanged, sent, read, positive, newer⟩ := holds
  refine invariant.move ⟨unchanged, ?_, ?_⟩
  · intro notModified
    have matched : ifNoneMatch = etag env number := by
      by_contra different
      simp [serveArtifact, different] at notModified
    have current : state.status.version = number := by
      rcases invariant.tag with ⟨_, empty⟩ | ⟨_, tagged⟩
      · rw [← sent, matched] at empty
        exact absurd empty (etag_ne_empty number)
      · rw [← sent, matched] at tagged
        exact (etag_injective tagged).symm
    change state.applied = state.latestWhenRead
    rw [unchanged.1, current, read]
  · intro sentBody
    unfold serveArtifact at sentBody ⊢
    split at sentBody
    · cases sentBody
    · rename_i different
      rw [if_neg different]
      exact ⟨⟨positive, found⟩, newer, rfl⟩

/-- The bookkeeping at the end of an iteration keeps the invariant. -/
theorem PollerInvariant.record {state : State Digest} {result : Except PollError FetchResult}
    (invariant : PollerInvariant sha256 env state) (at_ : state.phase = .polled result) :
    PollerInvariant sha256 env (recordResult state result) := by
  have holds := invariant.phase
  rw [at_] at holds
  cases result with
  | error error =>
      exact ⟨invariant.hash, invariant.published, invariant.running, invariant.tag,
        invariant.bounded, holds.1, fun _ => holds.2⟩
  | ok result =>
      cases modified : result.notModified with
      | true =>
          simp only [recordResult, modified, if_true]
          exact ⟨invariant.hash, invariant.published, invariant.running, invariant.tag,
            invariant.bounded, (holds.1 modified).1, fun failed => absurd rfl failed⟩
      | false =>
          obtain ⟨applied, fresh⟩ := holds.2 modified
          have small := (List.getElem?_eq_some_iff.mp fresh.version.2).1
          have positive := fresh.version.1
          simp only [recordResult, modified, Bool.false_eq_true, if_false]
          exact ⟨invariant.hash, invariant.published, invariant.running,
            .inr ⟨positive, fresh.tagged⟩, by simp only; omega, applied,
            fun failed => absurd rfl failed⟩

/-- Every event keeps the invariant. -/
theorem PollerInvariant.step [DecidableEq Digest] {state next : State Digest} {event : Event}
    (invariant : PollerInvariant sha256 env state)
    (stepped : step sha256 env state event = some next) :
    PollerInvariant sha256 env next := by
  have holds := invariant.phase
  cases event with
  | publish yaml =>
      cases stepped
      exact invariant.publish yaml
  | poll =>
      simp only [Hotreload.step] at stepped
      split at stepped
      · rename_i at_
        cases stepped
        rw [at_] at holds
        exact ⟨invariant.hash, invariant.published, invariant.running, invariant.tag,
          invariant.bounded, ⟨holds.1, rfl⟩, rfl⟩
      · cases stepped
  | selectLatest =>
      simp only [Hotreload.step] at stepped
      split at stepped
      · rename_i ifNoneMatch at_
        rw [at_] at holds
        split at stepped
        · cases stepped
          exact invariant.move holds.1
        · rename_i some_
          cases stepped
          exact ⟨invariant.hash, invariant.published, invariant.running, invariant.tag,
            invariant.bounded, holds.1, holds.2, rfl, List.length_pos_iff.mpr some_,
            invariant.bounded⟩
      · cases stepped
  | selectRow =>
      simp only [Hotreload.step] at stepped
      split at stepped
      · rename_i ifNoneMatch number at_
        obtain ⟨yaml, found, rfl⟩ := Option.map_eq_some_iff.mp stepped
        exact invariant.answer at_ found
      · cases stepped
  | receive =>
      simp only [Hotreload.step] at stepped
      split at stepped
      · rename_i result at_
        rw [at_] at holds
        cases stepped
        refine invariant.move ?_
        unfold receiveAnswer
        cases modified : result.notModified with
        | true => exact ⟨fun _ => holds.1, fun sent => by simp [modified] at sent⟩
        | false =>
            rw [if_neg (by simp)]
            split
            · exact holds.1
            · exact ⟨holds.1, modified, holds.2.2 modified⟩
      · cases stepped
  | fetchFails error =>
      simp only [Hotreload.step] at stepped
      split at stepped
      · rename_i fetching
        cases stepped
        refine invariant.move ?_
        cases at_ : state.phase with
        | requested | latestRead | answered =>
            rw [at_] at holds
            exact holds.1
        | idle | fetched | polled => simp [at_, Phase.fetching] at fetching
      · cases stepped
  | reload outcome =>
      simp only [Hotreload.step] at stepped
      split at stepped
      · rename_i result at_
        rw [at_] at holds
        obtain ⟨unchanged, modified, fresh⟩ := holds
        split at stepped
        · cases stepped
          exact invariant.move unchanged
        · rename_i pipeline reloaded
          cases stepped
          obtain ⟨hash, built⟩ := reloadFromBytes_ok reloaded
          have source : pipeline.hash = pipeline.source.map sha256 ∧
              ∀ yaml, pipeline.source = some yaml → yaml ∈ state.versions := by
            rcases built with rfl | built
            · exact ⟨invariant.hash, invariant.published⟩
            · refine ⟨by rw [hash, built]; rfl, ?_⟩
              rintro yaml same
              cases built.symm.trans same
              exact fresh.version.mem
          exact ⟨source.1, source.2, fun _ => ⟨result.yaml, fresh.version, hash⟩, invariant.tag,
            invariant.bounded, fun sent => by simp [modified] at sent, fun _ => ⟨rfl, fresh⟩⟩
      · cases stepped
  | record =>
      simp only [Hotreload.step] at stepped
      split at stepped
      · rename_i result at_
        cases stepped
        exact invariant.record at_
      · cases stepped

/-- The invariant holds in every reachable state. -/
theorem pollerInvariant [DecidableEq Digest] {state : State Digest}
    (reached : (system sha256 env).Reachable state) : PollerInvariant sha256 env state := by
  refine System.Reachable.induction _ ?_ ?_ reached
  · intro state valid
    cases valid
    exact ⟨rfl, by simp [initial, probePipeline], by simp [initial], .inl ⟨rfl, rfl⟩,
      Nat.zero_le _, rfl, fun failed => absurd rfl failed⟩
  · intro state event next _ invariant stepped
    exact invariant.step stepped

/-- No event takes the status back to an older version. -/
theorem version_le_of_step [DecidableEq Digest] {state next : State Digest} {event : Event}
    (invariant : PollerInvariant sha256 env state)
    (stepped : step sha256 env state event = some next) :
    state.status.version ≤ next.status.version := by
  cases event with
  | publish yaml =>
      cases stepped
      exact le_rfl
  | record =>
      have holds := invariant.phase
      simp only [step] at stepped
      split at stepped
      · rename_i result at_
        rw [at_] at holds
        cases stepped
        rcases result with error | result
        · exact le_rfl
        · cases modified : result.notModified with
          | true => simp [recordResult, modified]
          | false => simpa [recordResult, modified] using (holds.2 modified).2.newer
      · cases stepped
  | poll | selectLatest | selectRow | receive | fetchFails | reload =>
      simp only [step] at stepped
      grind

/-- `Status().Version` never decreases. -/
theorem version_le_of_steps [DecidableEq Digest] {state next : State Digest}
    {events : List Event} (reached : (system sha256 env).Reachable state)
    (steps : (system sha256 env).Steps state events next) :
    state.status.version ≤ next.status.version :=
  System.Steps.monotone (fun first second => first.status.version ≤ second.status.version)
    (fun _ => le_rfl) le_trans
    (fun before stepped => version_le_of_step (pollerInvariant before) stepped) reached steps

/-- A pipeline with the digest of an artifact was built from it, if no other one among those it
may come from has that digest. -/
theorem source_of_hash {pipeline : Pipeline Digest} {artifacts : List String} {yaml : String}
    (noCollision : NoCollision sha256 artifacts)
    (digest : pipeline.hash = pipeline.source.map sha256)
    (among : ∀ source, pipeline.source = some source → source ∈ artifacts)
    (member : yaml ∈ artifacts) (hash : pipeline.hash = some (sha256 yaml)) :
    pipeline.source = some yaml := by
  rw [digest, Option.map_eq_some_iff] at hash
  obtain ⟨source, built, equal⟩ := hash
  rw [built, noCollision source (among source built) yaml member equal]

/-- The pipeline runs the YAML of the version that was applied last. -/
theorem PollerInvariant.source {state : State Digest}
    (invariant : PollerInvariant sha256 env state)
    (noCollision : NoCollision sha256 state.versions) (positive : 0 < state.applied) :
    ∃ yaml, IsVersion state.versions state.applied yaml ∧ state.pipeline.source = some yaml := by
  obtain ⟨yaml, is, hash⟩ := invariant.running positive
  exact ⟨yaml, is,
    source_of_hash noCollision invariant.hash invariant.published is.mem hash⟩

/-- Poller and Studio agree. Between two iterations a status with a version
names the version whose YAML the pipeline was built from, and an iteration that
failed left pipeline, ETag and version as they were; a 304 is answered only when
the version applied last was the latest one Studio read; and along every run the
version of the status only grows. -/
theorem poller_agrees [DecidableEq Digest] (sha256 : String → Digest) (env : String)
    (state : State Digest) (reached : (system sha256 env).Reachable state) :
    (state.phase = .idle → NoCollision sha256 state.versions → 0 < state.status.version →
      ∃ yaml, IsVersion state.versions state.status.version yaml ∧
        state.pipeline.source = some yaml) ∧
    (∀ next events, (system sha256 env).Steps state events next →
      state.status.version ≤ next.status.version) ∧
    (∀ result, state.phase = .answered result → result.notModified = true →
      state.applied = state.latestWhenRead) ∧
    (state.phase = .idle → state.status.lastError ≠ none →
      state.startedWith = state.serving) := by
  have invariant := pollerInvariant reached
  have holds := invariant.phase
  refine ⟨?_, fun next events steps => version_le_of_steps reached steps, ?_, ?_⟩
  · intro idle noCollision positive
    rw [idle] at holds
    rw [← holds.1] at positive ⊢
    exact invariant.source noCollision positive
  · intro result answered notModified
    rw [answered] at holds
    exact holds.2.1 notModified
  · intro idle failed
    rw [idle] at holds
    exact holds.2 failed

/-- A gateway that waits for the first version, applies version 1, is answered
304, and then fails to build version 2. -/
def refusedSecondVersion : List Event :=
  [.poll, .selectLatest, .record, .publish "a: 1",
   .poll, .selectLatest, .selectRow, .receive, .reload .builds, .record,
   .poll, .selectLatest, .selectRow, .receive, .record,
   .publish "a: 2", .poll, .selectLatest, .selectRow, .receive, .reload .buildFails, .record]

/-- After that run the gateway still serves version 1. -/
theorem poller_agrees_of_refused_version :
    ∃ state, System.replay (step id "prod") initial refusedSecondVersion = some state ∧
      state.phase = .idle ∧ state.status.version = 1 ∧ state.status.lastError = some .reload ∧
      (∃ yaml, IsVersion state.versions 1 yaml ∧ state.pipeline.source = some yaml) ∧
      state.startedWith = state.serving := by
  let state := (System.replay (step id "prod") initial refusedSecondVersion).get (by decide)
  have ends : System.replay (step id "prod") initial refusedSecondVersion = some state :=
    (Option.some_get _).symm
  have reached : (system id "prod").Reachable state :=
    System.reachable_of_replay refusedSecondVersion (.initial rfl) ends
  obtain ⟨agrees, _, _, failed⟩ := poller_agrees id "prod" state reached
  exact ⟨state, ends, rfl, rfl, rfl, agrees rfl (fun _ _ _ _ same => same) (by decide),
    failed rfl (by decide)⟩

end Restitch.Hotreload
