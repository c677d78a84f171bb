import Restitch.Composition.Sharing

/-!
# How a step execution moves

One event moves at most one step execution to its next phase. `Moves` lists these
moves, with what they read of the shared state, and everything about runs of an
executor is derived from it. A caller holds the result of an exchange if it made
the exchange, or joined the flight of the call that made it.
-/

namespace Restitch.Composition

open Restitch.Http Restitch.Semantics

variable {Value : Type}

/-- The next phases of a step execution, by the event that takes it there. -/
inductive Moves (decoder : BodyDecoder Value) (state : SharedState Value) (call : CallId)
    (step : StepCall Value) : SharedEvent Value → StepPhase Value → Prop where
  | hit {cached} (at_ : step.phase = .built)
      (asked : step.settings.cacheTTL.isSome ∧ step.settings.method = "GET")
      (found : cacheGet state.cache state.now step.key = some cached) :
      Moves decoder state call step (.lookup call)
        (.finished .cache (.ok (cachedResult decoder cached)))
  | miss (at_ : step.phase = .built) : Moves decoder state call step (.lookup call) .missed
  | join {leader} (at_ : step.phase = .missed)
      (coalesce : step.settings.coalesce ∧ step.settings.method = "GET")
      (flight : state.flights step.key = some leader) :
      Moves decoder state call step (.proceed call) (.joined leader)
  | lead (at_ : step.phase = .missed) (noFlight : state.flights step.key = none) :
      Moves decoder state call step (.proceed call) .leading
  | send (at_ : step.phase = .missed) : Moves decoder state call step (.proceed call) .sending
  | exchange (outcome) (at_ : step.phase = .leading ∨ step.phase = .sending) :
      Moves decoder state call step (.respond call outcome)
        (.returned .own (sendStepRequest decoder step.settings outcome))
  | receive {leader value} (at_ : step.phase = .joined leader)
      (arrived : flightValue state leader = some value)
      (accepted : ∀ result, value = .ok result → isCacheable result.headers = true) :
      Moves decoder state call step (.receive call) (.returned (.flight leader) value)
  | refuse {leader result} (at_ : step.phase = .joined leader)
      (arrived : flightValue state leader = some (.ok result))
      (refused : isCacheable result.headers = false) :
      Moves decoder state call step (.receive call) .sending
  | finish {source outcome} (at_ : step.phase = .returned source outcome) :
      Moves decoder state call step (.fill call) (.finished source outcome)

/-- The flights after a move: a leader opens one and closes it. -/
def flightsAfter (state : SharedState Value) (call : CallId) (step : StepCall Value) :
    StepPhase Value → String → Option CallId
  | .leading => Function.update state.flights step.key (some call)
  | .returned .own _ =>
      match step.phase with
      | .leading => Function.update state.flights step.key none
      | _ => state.flights
  | _ => state.flights

/-- The cache after a move: the last one of a step execution may store its result. -/
def cacheAfter (state : SharedState Value) (step : StepCall Value) :
    StepPhase Value → String → Option CacheEntry
  | .finished _ (.ok result) =>
      match step.phase with
      | .returned _ _ => fillCache state step result
      | _ => state.cache
  | _ => state.cache

/-- The step execution that an event is about. -/
def SharedEvent.subject : SharedEvent Value → Option CallId
  | .lookup call | .proceed call | .respond call _ | .receive call | .fill call => some call
  | .start _ _ _ | .tick | .sweep => none

/-- What an event does to the shared state. -/
inductive SharedMove (decoder : BodyDecoder Value) (state next : SharedState Value) :
    SharedEvent Value → Prop where
  /-- Time passes, or entries of the cache are dropped. -/
  | quiet {event} (idle : event.subject = none) (calls : next.calls = state.calls)
      (flights : next.flights = state.flights) (now : state.now ≤ next.now)
      (cache : ∀ key entry, next.cache key = some entry → state.cache key = some entry) :
      SharedMove decoder state next event
  | start {call settings key} (absent : state.calls call = none)
      (calls : next.calls = Function.update state.calls call (some ⟨settings, key, .built⟩))
      (flights : next.flights = state.flights) (now : next.now = state.now)
      (cache : next.cache = state.cache) :
      SharedMove decoder state next (.start call settings key)
  | move {event call step phase} (present : state.calls call = some step)
      (moves : Moves decoder state call step event phase)
      (calls : next.calls = Function.update state.calls call (some { step with phase }))
      (flights : next.flights = flightsAfter state call step phase) (now : next.now = state.now)
      (cache : next.cache = cacheAfter state step phase) :
      SharedMove decoder state next event

/-- The result that a step execution got for itself. -/
def StepPhase.ownResult : StepPhase Value → Option (StepResult Value)
  | .returned .own (.ok result) | .finished .own (.ok result) => some result
  | .returned .cache (.ok result) | .finished .cache (.ok result) => some result
  | _ => none

/-- The result of a flight that another caller ran, with that caller. -/
def StepPhase.flightResult : StepPhase Value → Option (CallId × StepResult Value)
  | .returned (.flight leader) (.ok result) | .finished (.flight leader) (.ok result) =>
      some (leader, result)
  | _ => none

def SharedState.ownResult (state : SharedState Value) (call : CallId) :
    Option (StepResult Value) :=
  (state.calls call).bind fun step => step.phase.ownResult

/-- A step execution has the result of a call, or is about to receive it. -/
inductive Holds (state : SharedState Value) (call : CallId) : CallId → StepResult Value → Prop where
  | own {result} (settled : state.ownResult call = some result) : Holds state call call result
  | joined {step leader result} (present : state.calls call = some step)
      (at_ : step.phase = .joined leader) (settled : state.ownResult leader = some result)
      (accepted : isCacheable result.headers = true) : Holds state call leader result
  | kept {step leader result} (present : state.calls call = some step)
      (at_ : step.phase.flightResult = some (leader, result)) : Holds state call leader result

/-- Where the flights and those who joined them are. -/
structure FlightInvariant (state : SharedState Value) : Prop where
  open_ : ∀ key leader, state.flights key = some leader →
    ∃ lead, state.calls leader = some lead ∧ lead.key = key ∧ lead.phase = .leading
  joined : ∀ call step leader, state.calls call = some step → step.phase = .joined leader →
    ∃ lead, state.calls leader = some lead ∧ (lead.phase = .leading ∨
      ∃ outcome, lead.phase = .returned .own outcome ∨ lead.phase = .finished .own outcome)
  kept : ∀ call step leader result, state.calls call = some step →
    step.phase.flightResult = some (leader, result) → state.ownResult leader = some result

section Move

variable {decoder : BodyDecoder Value} {state next : SharedState Value}
  {call leader : CallId} {step : StepCall Value} {phase : StepPhase Value}
  {result : StepResult Value} {event : SharedEvent Value}

/-- A step of a call is one of the moves. -/
theorem callStep_move (about : event.subject = some call)
    (present : state.calls call = some step)
    (stepped : callStep decoder state call step event = some next) :
    SharedMove decoder state next event := by
  cases event with
  | start | tick | sweep => cases stepped
  | lookup _ =>
      cases about
      simp only [callStep] at stepped
      split at stepped
      · rename_i at_
        cases stepped
        unfold lookupStep
        split
        · rename_i asked
          split
          · rename_i cached found
            exact .move present (.hit at_ asked found) rfl rfl rfl
              (by simp [cacheAfter, at_, SharedState.setPhase])
          · exact .move present (.miss at_) rfl rfl rfl rfl
        · exact .move present (.miss at_) rfl rfl rfl rfl
      · cases stepped
  | proceed _ =>
      cases about
      simp only [callStep] at stepped
      split at stepped
      · rename_i at_
        cases stepped
        unfold proceedStep
        split
        · rename_i coalesce
          split
          · rename_i leader flight
            exact .move present (.join at_ coalesce flight) rfl rfl rfl rfl
          · rename_i noFlight
            exact .move present (.lead at_ noFlight) rfl rfl rfl rfl
        · exact .move present (.send at_) rfl rfl rfl rfl
      · cases stepped
  | respond _ outcome =>
      cases about
      simp only [callStep] at stepped
      split at stepped
      · rename_i at_
        cases stepped
        exact .move present (.exchange outcome (.inl at_)) rfl
          (by simp [flightsAfter, at_]) rfl rfl
      · rename_i at_
        cases stepped
        exact .move present (.exchange outcome (.inr at_)) rfl
          (by simp [flightsAfter, at_, SharedState.setPhase]) rfl rfl
      · cases stepped
  | receive _ =>
      cases about
      simp only [callStep] at stepped
      split at stepped
      · rename_i leader at_
        obtain ⟨value, arrived, rfl⟩ := Option.map_eq_some_iff.mp stepped
        cases value with
        | error error => exact .move present (.receive at_ arrived nofun) rfl rfl rfl rfl
        | ok result =>
            rw [receiveValue]
            split
            · rename_i accepted
              refine .move present (.receive at_ arrived ?_) rfl rfl rfl rfl
              intro _ same
              cases same
              exact accepted
            · rename_i refused
              exact .move present (.refuse at_ arrived (eq_false_of_ne_true refused)) rfl rfl rfl rfl
      · cases stepped
  | fill _ =>
      cases about
      simp only [callStep] at stepped
      split at stepped
      · rename_i source result at_
        cases stepped
        exact .move present (.finish at_) rfl rfl rfl (by simp [cacheAfter, at_])
      · rename_i source error at_
        cases stepped
        exact .move present (.finish at_) rfl rfl rfl rfl
      · cases stepped

/-- What one event does. -/
theorem sharedStep_move (stepped : sharedStep decoder state event = some next) :
    SharedMove decoder state next event := by
  cases event with
  | start call settings key =>
      simp only [sharedStep] at stepped
      split at stepped
      · rename_i absent
        cases stepped
        exact .start absent rfl rfl rfl rfl
      · cases stepped
  | tick =>
      cases stepped
      exact .quiet rfl rfl rfl (Nat.le_succ _) fun _ _ found => found
  | sweep =>
      cases stepped
      refine .quiet rfl rfl rfl (Nat.le_refl _) ?_
      intro key entry found
      exact (Option.filter_eq_some_iff.mp found).1
  | lookup | proceed | respond | receive | fill =>
      simp only [sharedStep] at stepped
      obtain ⟨step, present, taken⟩ := Option.bind_eq_some_iff.mp stepped
      exact callStep_move rfl present taken

/-- Each move is made by the event about it. -/
theorem Moves.subject (moves : Moves decoder state call step event phase) :
    event.subject = some call := by
  cases moves <;> rfl

/-- The own result of a call is that of its phase. -/
theorem ownResult_eq (present : state.calls call = some step) :
    state.ownResult call = step.phase.ownResult := by
  rw [SharedState.ownResult, present, Option.bind_some]

/-- Only a step execution with a returned result and own result moves on with it. -/
theorem Moves.ownResult (moves : Moves decoder state call step event phase)
    (settled : step.phase.ownResult = some result) : phase.ownResult = some result := by
  cases moves with
  | hit at_ | miss at_ | join at_ | lead at_ | send at_ | receive at_ | refuse at_ =>
      rw [at_] at settled
      cases settled
  | exchange outcome at_ =>
      rcases at_ with at_ | at_ <;> rw [at_] at settled <;> cases settled
  | @finish source outcome at_ =>
      rw [at_] at settled
      cases source <;> cases outcome <;> exact settled

/-- The clock does not go back. -/
theorem SharedMove.now_le (move : SharedMove decoder state next event) : state.now ≤ next.now := by
  cases move with
  | quiet _ _ _ now => exact now
  | start _ _ _ now => exact Nat.le_of_eq now.symm
  | move _ _ _ _ now => exact Nat.le_of_eq now.symm

/-- A result stays what it is. -/
theorem SharedMove.ownResult (move : SharedMove decoder state next event)
    (settled : state.ownResult call = some result) : next.ownResult call = some result := by
  cases move with
  | quiet _ calls => rwa [SharedState.ownResult, calls]
  | @start other _ _ absent calls =>
      have different : call ≠ other := by
        rintro rfl
        rw [SharedState.ownResult, absent] at settled
        cases settled
      rwa [SharedState.ownResult, calls, Function.update_of_ne different]
  | @move _ other step _ present moves calls =>
      by_cases same : call = other
      · subst same
        rw [ownResult_eq present] at settled
        rw [SharedState.ownResult, calls, Function.update_self]
        exact moves.ownResult settled
      · rwa [SharedState.ownResult, calls, Function.update_of_ne same]

/-- Where a step execution was before an event. -/
theorem SharedMove.before (move : SharedMove decoder state next event)
    (present : next.calls call = some step) :
    state.calls call = some step ∨
      (∃ settings key, event = .start call settings key ∧ step = ⟨settings, key, .built⟩) ∨
      ∃ prior, state.calls call = some prior ∧ step = { prior with phase := step.phase } ∧
        Moves decoder state call prior event step.phase := by
  cases move with
  | quiet _ calls =>
      rw [calls] at present
      exact .inl present
  | @start other settings key absent calls =>
      rw [calls] at present
      by_cases same : call = other
      · subst same
        rw [Function.update_self] at present
        cases present
        exact .inr (.inl ⟨settings, key, rfl, rfl⟩)
      · rw [Function.update_of_ne same] at present
        exact .inl present
  | @move _ other prior phase found moves calls =>
      rw [calls] at present
      by_cases same : call = other
      · subst same
        rw [Function.update_self] at present
        cases present
        exact .inr (.inr ⟨prior, found, rfl, moves⟩)
      · rw [Function.update_of_ne same] at present
        exact .inl present

/-- Where a step execution is after an event. -/
theorem SharedMove.after (move : SharedMove decoder state next event)
    (present : state.calls call = some step) :
    next.calls call = some step ∨
      ∃ phase, next.calls call = some { step with phase } ∧
        Moves decoder state call step event phase := by
  cases move with
  | quiet _ calls =>
      rw [calls]
      exact .inl present
  | @start other settings key absent calls =>
      have different : call ≠ other := by
        rintro rfl
        rw [absent] at present
        cases present
      rw [calls, Function.update_of_ne different]
      exact .inl present
  | @move _ other prior phase found moves calls =>
      rw [calls]
      by_cases same : call = other
      · subst same
        rw [found] at present
        cases present
        rw [Function.update_self]
        exact .inr ⟨phase, rfl, moves⟩
      · rw [Function.update_of_ne same]
        exact .inl present

/-- The step execution that an event is about moves. -/
theorem SharedMove.moves_subject (move : SharedMove decoder state next event)
    (about : event.subject = some call) :
    ∃ step phase, state.calls call = some step ∧ Moves decoder state call step event phase ∧
      next.calls call = some { step with phase } := by
  cases move with
  | quiet idle =>
      rw [idle] at about
      cases about
  | start => cases about
  | @move _ other step phase present moves calls =>
      have same : other = call := Option.some.inj (moves.subject.symm.trans about)
      subst same
      exact ⟨step, phase, present, moves, by rw [calls, Function.update_self]⟩

/-- A leader stays one until it has the outcome, and keeps that. -/
theorem Moves.of_leader (moves : Moves decoder state call step event phase)
    (at_ : step.phase = .leading ∨
      ∃ outcome, step.phase = .returned .own outcome ∨ step.phase = .finished .own outcome) :
    ∃ outcome, phase = .returned .own outcome ∨ phase = .finished .own outcome := by
  cases moves with
  | exchange outcome at_ => exact ⟨_, .inl rfl⟩
  | @finish source outcome found =>
      rcases at_ with at_ | ⟨_, at_ | at_⟩ <;> rw [found] at at_ <;> cases at_
      exact ⟨outcome, .inr rfl⟩
  | hit found | miss found | join found | lead found | send found | receive found | refuse found =>
      rcases at_ with at_ | ⟨_, at_ | at_⟩ <;> rw [found] at at_ <;> cases at_

/-- The flight value of a leader with an outcome is its own result. -/
theorem FlightInvariant.flightValue_ok (invariant : FlightInvariant state)
    (present : state.calls call = some step) (at_ : step.phase = .joined leader)
    (arrived : flightValue state leader = some (.ok result)) :
    state.ownResult leader = some result := by
  obtain ⟨lead, found, phase⟩ := invariant.joined call step leader present at_
  rw [ownResult_eq found]
  rw [flightValue, found] at arrived
  rcases phase with phase | ⟨outcome, phase | phase⟩ <;>
    simp only [Option.map_some, phase] at arrived ⊢ <;> cases arrived <;> rfl

/-- The flight of a call that has its own result has that value. -/
theorem flightValue_of_ownResult (settled : state.ownResult leader = some result) :
    flightValue state leader = some (.ok result) := by
  obtain ⟨lead, found, phase⟩ := Option.bind_eq_some_iff.mp settled
  rw [flightValue, found, Option.map_some]
  cases at_ : lead.phase with
  | built | missed | leading | joined | sending =>
      rw [at_] at phase
      cases phase
  | returned source outcome | finished source outcome =>
      rw [at_] at phase
      cases source <;> cases outcome <;> cases phase <;> rfl

/-- Holders keep what they hold. -/
theorem SharedMove.holds (move : SharedMove decoder state next event)
    (holds : Holds state call leader result) : Holds next call leader result := by
  cases holds with
  | own settled => exact .own (move.ownResult settled)
  | @joined step _ _ present at_ settled accepted =>
      rcases move.after present with kept | ⟨phase, moved, moves⟩
      · exact .joined kept at_ (move.ownResult settled) accepted
      · cases moves with
        | hit found | miss found | join found | lead found | send found | finish found =>
            rw [found] at at_
            cases at_
        | exchange outcome found =>
            rcases found with found | found <;> rw [found] at at_ <;> cases at_
        | receive found arrived =>
            rw [found] at at_
            cases at_
            rw [flightValue_of_ownResult settled] at arrived
            cases arrived
            exact .kept moved rfl
        | refuse found arrived refused =>
            rw [found] at at_
            cases at_
            rw [flightValue_of_ownResult settled] at arrived
            cases arrived
            rw [accepted] at refused
            cases refused
  | @kept step _ _ present at_ =>
      rcases move.after present with kept | ⟨phase, moved, moves⟩
      · exact .kept kept at_
      · cases moves with
        | hit found | miss found | join found | lead found | send found | receive found | refuse found =>
            rw [found] at at_
            cases at_
        | exchange outcome found =>
            rcases found with found | found <;> rw [found] at at_ <;> cases at_
        | @finish source outcome found =>
            refine .kept moved ?_
            rw [found] at at_
            cases source <;> cases outcome <;> exact at_

/-- Nobody becomes a holder of a result that is there already. -/
theorem SharedMove.holds_before (move : SharedMove decoder state next event)
    (invariant : FlightInvariant state) {settled : StepResult Value}
    (there : state.ownResult leader = some settled) (holds : Holds next call leader result) :
    Holds state call leader result := by
  have same (found : next.ownResult leader = some result) : settled = result := by
    rw [move.ownResult there] at found
    exact Option.some.inj found
  cases holds with
  | own found => exact .own (same found ▸ there)
  | @joined step _ _ present at_ found accepted =>
      have own : state.ownResult leader = some result := same found ▸ there
      rcases move.before present with prior | ⟨settings, key, -, rfl⟩ | ⟨prior, present, moved, moves⟩
      · exact .joined prior at_ own accepted
      · cases at_
      · rw [at_] at moves
        -- A call that joins now finds an open flight, whose leader has no result yet.
        generalize target : StepPhase.joined leader = phase at moves
        cases moves with
        | join at_ coalesce flight =>
            cases target
            obtain ⟨lead, found, -, leading⟩ := invariant.open_ _ _ flight
            rw [ownResult_eq found, leading] at there
            cases there
        | hit | miss | lead | send | exchange | receive | refuse | finish => cases target
  | @kept step _ _ present at_ =>
      rcases move.before present with prior | ⟨settings, key, -, rfl⟩ | ⟨prior, present, moved, moves⟩
      · exact .kept prior at_
      · cases at_
      · generalize step.phase = phase at moves at_
        cases moves with
        | @receive other value found arrived accepted =>
            cases value with
            | error => cases at_
            | ok value =>
                cases at_
                exact .joined present found (invariant.flightValue_ok present found arrived)
                  (accepted _ rfl)
        | @finish source outcome found =>
            refine .kept present ?_
            rw [found]
            cases source <;> cases outcome <;> exact at_
        | hit | miss | join | lead | send | exchange | refuse => cases at_

/-- An open flight after an event. -/
theorem SharedMove.open_flight (move : SharedMove decoder state next event)
    (invariant : FlightInvariant state) {key : String} (flight : next.flights key = some leader) :
    ∃ lead, next.calls leader = some lead ∧ lead.key = key ∧ lead.phase = .leading := by
  cases move with
  | quiet _ calls flights =>
      rw [flights] at flight
      rw [calls]
      exact invariant.open_ key leader flight
  | @start other settings name absent calls flights =>
      rw [flights] at flight
      obtain ⟨lead, present, facts⟩ := invariant.open_ key leader flight
      have different : leader ≠ other := by
        rintro rfl
        rw [absent] at present
        cases present
      refine ⟨lead, ?_, facts⟩
      rw [calls, Function.update_of_ne different]
      exact present
  | @move _ other step phase present moves calls flights =>
      rw [flights] at flight
      -- A flight that was open stays so unless its leader moves.
      have old (kept : state.flights key = some leader)
          (closed : phase ≠ .leading → step.phase = .leading → step.key ≠ key) :
          ∃ lead, next.calls leader = some lead ∧ lead.key = key ∧ lead.phase = .leading := by
        obtain ⟨lead, found, isKey, leading⟩ := invariant.open_ key leader kept
        by_cases same : leader = other
        · subst same
          rw [present] at found
          cases found
          refine absurd isKey (closed ?_ leading)
          rintro rfl
          generalize target : StepPhase.leading = phase at moves
          cases moves with
          | lead at_ =>
              rw [at_] at leading
              cases leading
          | hit | miss | join | send | exchange | receive | refuse | finish => cases target
        · refine ⟨lead, ?_, isKey, leading⟩
          rw [calls, Function.update_of_ne same]
          exact found
      cases moves with
      | lead at_ noFlight =>
          rw [flightsAfter] at flight
          by_cases same : key = step.key
          · rw [same, Function.update_self] at flight
            cases flight
            refine ⟨{ step with phase := .leading }, ?_, same.symm, rfl⟩
            rw [calls, Function.update_self]
          · rw [Function.update_of_ne same] at flight
            exact old flight fun no => absurd rfl no
      | exchange outcome at_ =>
          rw [flightsAfter] at flight
          rcases at_ with at_ | at_
          · simp only [at_] at flight
            by_cases same : key = step.key
            · rw [same, Function.update_self] at flight
              cases flight
            · rw [Function.update_of_ne same] at flight
              exact old flight fun _ _ equal => same equal.symm
          · simp only [at_] at flight
            exact old flight fun _ leading => by rw [at_] at leading; cases leading
      | hit at_ | miss at_ | join at_ | send at_ | receive at_ | refuse at_ | finish at_ =>
          exact old flight fun _ leading => by rw [at_] at leading; cases leading

/-- Every move keeps the invariant. -/
theorem FlightInvariant.move (invariant : FlightInvariant state)
    (move : SharedMove decoder state next event) : FlightInvariant next := by
  -- A leader that a call has joined is still one, or has the outcome.
  have leads {leader : CallId} {lead : StepCall Value} (found : state.calls leader = some lead)
      (phase : lead.phase = .leading ∨ ∃ outcome, lead.phase = .returned .own outcome ∨
        lead.phase = .finished .own outcome) :
      ∃ lead, next.calls leader = some lead ∧ (lead.phase = .leading ∨
        ∃ outcome, lead.phase = .returned .own outcome ∨ lead.phase = .finished .own outcome) := by
    rcases move.after found with kept | ⟨moved, present, moves⟩
    · exact ⟨lead, kept, phase⟩
    · exact ⟨_, present, .inr (moves.of_leader phase)⟩
  refine ⟨fun key leader => move.open_flight invariant, ?_, ?_⟩
  · intro call step leader present at_
    rcases move.before present with prior | ⟨settings, key, -, rfl⟩ | ⟨prior, found, -, moves⟩
    · obtain ⟨lead, found, phase⟩ := invariant.joined call step leader prior at_
      exact leads found phase
    · cases at_
    · rw [at_] at moves
      generalize target : StepPhase.joined leader = phase at moves
      cases moves with
      | join found coalesce flight =>
          cases target
          obtain ⟨lead, found, -, leading⟩ := invariant.open_ _ _ flight
          exact leads found (.inl leading)
      | hit | miss | lead | send | exchange | receive | refuse | finish => cases target
  · intro call step leader result present at_
    rcases move.before present with prior | ⟨settings, key, -, rfl⟩ | ⟨prior, found, -, moves⟩
    · exact move.ownResult (invariant.kept call step leader result prior at_)
    · cases at_
    · generalize step.phase = phase at moves at_
      cases moves with
      | @receive other value joined arrived =>
          cases value with
          | error => cases at_
          | ok value =>
              cases at_
              exact move.ownResult (invariant.flightValue_ok found joined arrived)
      | @finish source outcome returned =>
          refine move.ownResult (invariant.kept call prior leader result found ?_)
          rw [returned]
          cases source <;> cases outcome <;> exact at_
      | hit | miss | join | lead | send | exchange | refuse => cases at_

/-- A new executor has no flight. -/
theorem flightInvariant_newExecutor : FlightInvariant (newExecutor : SharedState Value) :=
  ⟨nofun, nofun, nofun⟩

/-- The result that a held one is. -/
theorem FlightInvariant.holds_own (invariant : FlightInvariant state)
    (holds : Holds state call leader result) : state.ownResult leader = some result := by
  cases holds with
  | own settled => exact settled
  | joined _ _ settled => exact settled
  | kept present at_ => exact invariant.kept _ _ _ _ present at_

/-- Where a new result comes from. -/
inductive NewResult (decoder : BodyDecoder Value) (state : SharedState Value) (call : CallId)
    (result : StepResult Value) : SharedEvent Value → Prop where
  | cached {step cached} (present : state.calls call = some step)
      (asked : step.settings.cacheTTL.isSome ∧ step.settings.method = "GET")
      (found : cacheGet state.cache state.now step.key = some cached)
      (made : result = cachedResult decoder cached) :
      NewResult decoder state call result (.lookup call)
  | sent {step outcome} (present : state.calls call = some step)
      (made : sendStepRequest decoder step.settings outcome = .ok result) :
      NewResult decoder state call result (.respond call outcome)

/-- A call has its own result, or gets it with this move. -/
theorem SharedMove.newResult (move : SharedMove decoder state next event)
    (settled : next.ownResult call = some result) :
    state.ownResult call = some result ∨
      (state.ownResult call = none ∧ NewResult decoder state call result event) := by
  obtain ⟨step, present, own⟩ := Option.bind_eq_some_iff.mp settled
  rcases move.before present with prior | ⟨settings, key, -, rfl⟩ | ⟨prior, found, -, moves⟩
  · exact .inl (by rw [ownResult_eq prior]; exact own)
  · cases own
  · rw [ownResult_eq found]
    generalize step.phase = phase at moves own
    cases moves with
    | hit at_ asked cached =>
        cases own
        exact .inr ⟨by rw [at_]; rfl, .cached found asked cached rfl⟩
    | exchange outcome at_ =>
        refine .inr ⟨by rcases at_ with at_ | at_ <;> rw [at_] <;> rfl, ?_⟩
        cases made : sendStepRequest decoder prior.settings outcome with
        | error error =>
            rw [made] at own
            cases own
        | ok value =>
            rw [made] at own
            cases own
            exact .sent found made
    | @finish source outcome at_ =>
        rw [at_]
        left
        cases source <;> cases outcome <;> exact own
    | miss | join | lead | send | receive | refuse => cases own

end Move

end Restitch.Composition
