import Mathlib.Data.Fintype.Basic
import Mathlib.Logic.Function.Basic
import Restitch.Semantics.Transition

/-!
# Changes to an environment's telemetry settings (`internal/studio/requests.go`)

A PATCH reads both settings of the environment, puts its own over them and writes
both back, with a SELECT and an UPDATE that are statements of their own. The rows of
other environments are left out: no statement here touches them.
-/

namespace Restitch.Studio

open Restitch.Semantics

/-- `environmentSettings`. -/
structure EnvironmentSettings where
  usageRetentionDays : Nat
  requestSamplesPerMinute : Nat
deriving DecidableEq

/-- The body of `updateEnvironmentSettings` once it is checked; a field that the
request leaves out is `none`. -/
structure SettingsPatch where
  usageRetentionDays : Option Nat
  requestSamplesPerMinute : Option Nat
  daysInRange : ∀ days ∈ usageRetentionDays, 1 ≤ days ∧ days ≤ 365
  samplesInRange : ∀ samples ∈ requestSamplesPerMinute, samples ≤ 1000

/-- One of the two settings. -/
inductive SettingsField where
  | usageRetentionDays
  | requestSamplesPerMinute
deriving DecidableEq

instance : Fintype SettingsField :=
  ⟨{.usageRetentionDays, .requestSamplesPerMinute}, fun field => by cases field <;> decide⟩

def EnvironmentSettings.get (settings : EnvironmentSettings) : SettingsField → Nat
  | .usageRetentionDays => settings.usageRetentionDays
  | .requestSamplesPerMinute => settings.requestSamplesPerMinute

def SettingsPatch.get (patch : SettingsPatch) : SettingsField → Option Nat
  | .usageRetentionDays => patch.usageRetentionDays
  | .requestSamplesPerMinute => patch.requestSamplesPerMinute

/-- The settings of the request over those that were read. -/
def SettingsPatch.merge (patch : SettingsPatch) (st : EnvironmentSettings) :
    EnvironmentSettings where
  usageRetentionDays := patch.usageRetentionDays.getD st.usageRetentionDays
  requestSamplesPerMinute := patch.requestSamplesPerMinute.getD st.requestSamplesPerMinute

/-- How far a call is. -/
inductive SettingsPhase where
  /-- Before the SELECT of `settings`. -/
  | select (patch : SettingsPatch)
  /-- Before the UPDATE, with what the SELECT returned. -/
  | update (patch : SettingsPatch) (st : EnvironmentSettings)
  | succeeded (reply : EnvironmentSettings)
  /-- `environment not found`, or a statement that failed. -/
  | failed

/-- The row of an environment, if there is one, and the calls that change it. -/
structure SettingsState where
  /-- The row before every call. -/
  initial : Option EnvironmentSettings
  row : Option EnvironmentSettings
  calls : Nat → Option SettingsPhase
  /-- The requests whose UPDATE was executed, oldest first. -/
  updates : List SettingsPatch

/-- One statement of one call, or its failure. -/
inductive SettingsEvent where
  | begin (id : Nat) (patch : SettingsPatch)
  | select (id : Nat)
  | update (id : Nat)
  | error (id : Nat)

def SettingsState.setPhase (state : SettingsState) (id : Nat) (phase : SettingsPhase) :
    SettingsState :=
  { state with calls := Function.update state.calls id (some phase) }

/-- `updateEnvironmentSettings`, statement by statement. A statement that fails
changes nothing. -/
def settingsStep (state : SettingsState) : SettingsEvent → Option SettingsState
  | .begin id patch =>
      match state.calls id with
      | none => some (state.setPhase id (.select patch))
      | some _ => none
  | .select id =>
      match state.calls id with
      | some (.select patch) =>
          match state.row with
          | some st => some (state.setPhase id (.update patch st))
          | none => some (state.setPhase id .failed)
      | _ => none
  | .update id =>
      match state.calls id with
      | some (.update patch st) =>
          some { state.setPhase id (.succeeded (patch.merge st)) with
            row := state.row.map fun _ => patch.merge st
            updates := state.updates ++ [patch] }
      | _ => none
  | .error id =>
      match state.calls id with
      | some (.select _) | some (.update _ _) => some (state.setPhase id .failed)
      | _ => none

/-- Before the first call the row holds any settings, or is not there. -/
def SettingsInitial (state : SettingsState) : Prop :=
  state.row = state.initial ∧ state.calls = (fun _ => none) ∧ state.updates = []

def settingsSystem : System SettingsState SettingsEvent :=
  .ofStep SettingsInitial settingsStep

/-- The value that the last of some requests to set a field gave it. -/
def lastSet (field : SettingsField) (updates : List SettingsPatch) : Option Nat :=
  updates.reverse.findSome? fun patch => patch.get field

/-- Each field holds the value of the last UPDATE whose request set it, or its
initial value. -/
def KeepsUpdates (state : SettingsState) : Prop :=
  ∀ row ∈ state.row, ∀ field, some (row.get field) =
    (lastSet field state.updates).or (state.initial.map fun st => st.get field)

/-- A field of the row changes with an UPDATE whose request sets it, only. -/
def OmittedKept (state : SettingsState) (event : SettingsEvent) (next : SettingsState) : Prop :=
  ∀ field, (next.row.map fun st => st.get field) ≠ (state.row.map fun st => st.get field) →
    ∃ id patch st value, event = .update id ∧ state.calls id = some (.update patch st) ∧
      patch.get field = some value

/-- The fields that the request leaves out still hold what the SELECT returned. -/
def SettingsPhase.Undisturbed (row : EnvironmentSettings) : SettingsPhase → Prop
  | .update patch st => ∀ field, patch.get field = none → st.get field = row.get field
  | _ => True

instance (row : EnvironmentSettings) (phase : SettingsPhase) :
    Decidable (phase.Undisturbed row) :=
  match phase with
  | .update patch st =>
      inferInstanceAs (Decidable (∀ field, patch.get field = none → st.get field = row.get field))
  | .select _ | .succeeded _ | .failed => inferInstanceAs (Decidable True)

/-- Every UPDATE is executed while the fields that its request leaves out still
hold what its SELECT returned. -/
def Undisturbed (state : SettingsState) : SettingsEvent → Prop
  | .update id => ∀ phase ∈ state.calls id, ∀ row ∈ state.row, phase.Undisturbed row
  | _ => True

instance (state : SettingsState) (event : SettingsEvent) : Decidable (Undisturbed state event) :=
  match event with
  | .update id => inferInstanceAs (Decidable
      (∀ phase ∈ state.calls id, ∀ row ∈ state.row, phase.Undisturbed row))
  | .begin .. | .select _ | .error _ => inferInstanceAs (Decidable True)

/-- A patch sets the fields it has and leaves the others. -/
@[simp] theorem SettingsPatch.get_merge (patch : SettingsPatch) (st : EnvironmentSettings)
    (field : SettingsField) :
    (patch.merge st).get field = (patch.get field).getD (st.get field) := by
  cases field <;> rfl

/-- The last update that has a field sets it. -/
@[simp] theorem lastSet_concat (field : SettingsField) (updates : List SettingsPatch)
    (patch : SettingsPatch) :
    lastSet field (updates ++ [patch]) = (patch.get field).or (lastSet field updates) := by
  rw [lastSet, List.reverse_concat, List.findSome?_cons, lastSet]
  cases patch.get field <;> rfl

/-- A step executes the UPDATE of a call, or leaves the row and the UPDATEs alone. -/
theorem settingsStep_cases {state next : SettingsState} {event : SettingsEvent}
    (stepped : settingsStep state event = some next) :
    (∃ id patch st, event = .update id ∧ state.calls id = some (.update patch st) ∧
      next.initial = state.initial ∧ next.row = (state.row.map fun _ => patch.merge st) ∧
      next.updates = state.updates ++ [patch]) ∨
    ((∀ id, event ≠ .update id) ∧ next.initial = state.initial ∧ next.row = state.row ∧
      next.updates = state.updates) := by
  cases event with
  | begin id patch =>
      rw [settingsStep] at stepped
      split at stepped
      · cases stepped
        exact .inr ⟨by simp, rfl, rfl, rfl⟩
      · cases stepped
  | select id =>
      rw [settingsStep] at stepped
      split at stepped
      · split at stepped <;>
          (cases stepped
           exact .inr ⟨by simp, rfl, rfl, rfl⟩)
      · cases stepped
  | update id =>
      rw [settingsStep] at stepped
      split at stepped
      · rename_i patch st waiting
        cases stepped
        exact .inl ⟨id, patch, st, rfl, waiting, rfl, rfl, rfl⟩
      · cases stepped
  | error id =>
      rw [settingsStep] at stepped
      split at stepped
      · cases stepped
        exact .inr ⟨by simp, rfl, rfl, rfl⟩
      · cases stepped
        exact .inr ⟨by simp, rfl, rfl, rfl⟩
      · cases stepped

/-- One UPDATE keeps the updates before it exactly when it is undisturbed. -/
theorem keepsUpdates_update_iff {state next : SettingsState} {id : Nat}
    (kept : KeepsUpdates state) (stepped : settingsStep state (.update id) = some next) :
    KeepsUpdates next ↔ Undisturbed state (.update id) := by
  rcases settingsStep_cases stepped with
    ⟨id', patch, st, same, waiting, initial, row, updates⟩ | unchanged
  · cases same
    rw [KeepsUpdates, Undisturbed, initial, row, updates, waiting]
    cases present : state.row with
    | none => simp
    | some current =>
        have before := kept current present
        simp only [Option.map_some, Option.mem_def, Option.some.injEq, forall_eq',
          SettingsPhase.Undisturbed]
        refine forall_congr' ?_
        intro field
        rw [lastSet_concat, SettingsPatch.get_merge]
        cases written : patch.get field with
        | some value => simp
        | none =>
            rw [Option.none_or, Option.getD_none, ← before field, Option.some_inj]
            exact ⟨fun equal _ => equal, fun equal => equal rfl⟩
  · exact absurd rfl (unchanged.1 id)

/-- An update that nobody disturbs keeps the updates before it. -/
theorem KeepsUpdates.step {state next : SettingsState} {event : SettingsEvent}
    (kept : KeepsUpdates state) (stepped : settingsStep state event = some next)
    (undisturbed : Undisturbed state event) : KeepsUpdates next := by
  rcases settingsStep_cases stepped with
    ⟨id, patch, st, rfl, _⟩ | ⟨_, initial, row, updates⟩
  · exact (keepsUpdates_update_iff kept stepped).mpr undisturbed
  · rwa [KeepsUpdates, initial, row, updates]

/-- An update that nobody disturbs keeps the fields it omits. -/
theorem omittedKept_step {state next : SettingsState} {event : SettingsEvent}
    (stepped : settingsStep state event = some next)
    (undisturbed : Undisturbed state event) : OmittedKept state event next := by
  intro field changed
  rcases settingsStep_cases stepped with
    ⟨id, patch, st, rfl, waiting, _, row, _⟩ | ⟨_, _, row, _⟩
  · cases present : state.row with
    | none =>
        rw [row, present] at changed
        exact absurd rfl changed
    | some current =>
        cases sets : patch.get field with
        | some value => exact ⟨id, patch, st, value, rfl, waiting, sets⟩
        | none =>
            have same := undisturbed _ waiting current present field sets
            rw [row, present, Option.map_some, Option.map_some, Option.map_some,
              SettingsPatch.get_merge, sets, Option.getD_none, same] at changed
            exact absurd rfl changed
  · exact absurd (by rw [row]) changed

/-- There is no update to keep at the start. -/
theorem keepsUpdates_initial {state : SettingsState} (initial : SettingsInitial state) :
    KeepsUpdates state := by
  obtain ⟨row, -, updates⟩ := initial
  intro current present field
  rw [updates, ← row, Option.mem_def.mp present]
  rfl

/-- In a run whose UPDATEs are all undisturbed no update is lost, and no call
changes a field that its request leaves out. -/
theorem settings_updates_kept {state : SettingsState}
    (reached : (settingsSystem.restrict Undisturbed).Reachable state) :
    KeepsUpdates state ∧ ∀ event next, (settingsSystem.restrict Undisturbed).Step state event next →
      OmittedKept state event next :=
  ⟨reached.induction _ keepsUpdates_initial fun _ kept stepped => kept.step stepped.1 stepped.2,
    fun _ _ stepped => omittedKept_step stepped.1 stepped.2⟩

/-- The settings of a new environment, and no call. -/
def defaultSettings : SettingsState where
  initial := some ⟨7, 10⟩
  row := some ⟨7, 10⟩
  calls _ := none
  updates := []

/-- Keep usage for 30 days. -/
def longerUsage : SettingsPatch := ⟨some 30, none, by simp, by simp⟩

/-- Keep no request samples. -/
def noSamples : SettingsPatch := ⟨none, some 0, by simp, by simp⟩

/-- Two changes, one after the other. -/
def changesInTurn : List SettingsEvent :=
  [.begin 0 longerUsage, .begin 1 noSamples, .select 0, .update 0, .select 1, .update 1]

/-- Two changes, of which both read the row before the other writes it. -/
def changesAcross : List SettingsEvent :=
  [.begin 0 longerUsage, .begin 1 noSamples, .select 0, .select 1, .update 0, .update 1]

/-- One after the other, two changes leave both settings changed. -/
theorem settings_kept_in_turn :
    ∃ state, System.replay settingsStep defaultSettings changesInTurn = some state ∧
      state.row = some ⟨30, 0⟩ ∧ KeepsUpdates state := by
  let state := (System.replay (System.guarded settingsStep Undisturbed) defaultSettings
    changesInTurn).get (by decide)
  have reached : (settingsSystem.restrict Undisturbed).Reachable state :=
    System.reachable_of_guarded changesInTurn (.initial ⟨rfl, rfl, rfl⟩) (Option.some_get _).symm
  exact ⟨state, rfl, by decide, (settings_updates_kept reached).1⟩

/-- Both changes succeed, and the row has lost the first of them. -/
theorem settings_lost_across :
    ∃ state, settingsSystem.Reachable state ∧
      state.calls 0 = some (.succeeded ⟨30, 10⟩) ∧ state.calls 1 = some (.succeeded ⟨7, 0⟩) ∧
      state.updates = [longerUsage, noSamples] ∧ state.row = some ⟨7, 0⟩ ∧
      ¬ KeepsUpdates state := by
  let state := (System.replay settingsStep defaultSettings changesAcross).get (by decide)
  have reached : settingsSystem.Reachable state :=
    System.reachable_of_replay changesAcross (.initial ⟨rfl, rfl, rfl⟩) (Option.some_get _).symm
  refine ⟨state, reached, rfl, rfl, rfl, rfl, ?_⟩
  intro kept
  exact absurd (kept ⟨7, 0⟩ rfl .usageRetentionDays) (by decide)

end Restitch.Studio
