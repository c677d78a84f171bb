import Mathlib.Algebra.Order.BigOperators.Group.Finset
import Restitch.Composition.ExecutorRefines

/-!
# Every request is answered

Calls of `Execute` wait for their goroutines, goroutines for their step executions, and
step executions for the flights of others. None of this waits in a circle: what a flight
waits for is its own exchange. So once exchanges end, every request is answered after a
bounded number of events, whatever the others do.
-/

namespace Restitch.Composition

open Restitch.Semantics Restitch.Std

variable {Request Value : Type} {decoder : BodyDecoder Value}
  {failure : CallId → SendError → StepFailure}

/-- The events that a step execution still has to make, at most. -/
def StepPhase.remaining : StepPhase Value → Nat
  | .built => 5
  | .missed => 4
  | .joined _ => 3
  | .leading | .sending => 2
  | .returned _ _ => 1
  | .finished _ _ => 0

/-- A step of a request whose execution has not started, weighed with the events of one. -/
def ExecutorRequest.unstarted (request : ExecutorRequest Request Value) (step : String) : Nat :=
  if request.calls step = none then 6 else 0

/-- The events that a request still has to make, at most, with those of the step executions
that it has not started. -/
def ExecutorRequest.remaining (request : ExecutorRequest Request Value) : Nat :=
  request.exec.remaining + (request.exec.waves.flatten.map request.unstarted).sum

def SharedState.remaining (shared : SharedState Value) (call : CallId) : Nat :=
  (shared.calls call).elim 0 fun execution => execution.phase.remaining

/-- The events that the executor does at most before all requests are answered. -/
def ExecutorState.work (state : ExecutorState Request Value) : Nat :=
  (state.requests.map ExecutorRequest.remaining).sum +
    ∑ call ∈ Finset.range state.nextCall, state.shared.remaining call

/-- Every request is answered, and no step execution is left. -/
structure ExecutorState.Settled (state : ExecutorState Request Value) : Prop where
  answered : ∀ request ∈ state.requests, request.exec.returned ≠ none
  finished : ∀ call execution, state.shared.calls call = some execution →
    ∃ source outcome, execution.phase = .finished source outcome
  flights : ∀ key, state.shared.flights key = none

/-- Compositions are compiled before requests for them arrive. -/
def AcceptedJobs (_ : ExecutorState Request Value) : ExecutorEvent Request Value → Prop
  | .arrive job => ∀ send, Accepted (job.run send)
  | _ => True

section Work

variable {state next : SharedState Value} {event : SharedEvent Value} {call : CallId}

/-- Every move of a call lowers what remains of it. -/
theorem Moves.remaining_lt {step : StepCall Value} {phase : StepPhase Value}
    (moves : Moves decoder state call step event phase) :
    phase.remaining < step.phase.remaining := by
  cases moves with
  | hit at_ | miss at_ | join at_ | lead at_ | send at_ | receive at_ | refuse at_ | finish at_ =>
      rw [at_]
      simp [StepPhase.remaining]
  | exchange _ at_ =>
      rcases at_ with at_ | at_ <;> rw [at_] <;> simp [StepPhase.remaining]

/-- No event adds to what a step execution has to do. -/
theorem SharedMove.remaining_le (move : SharedMove decoder state next event)
    (present : ∃ execution, state.calls call = some execution) :
    next.remaining call ≤ state.remaining call := by
  obtain ⟨execution, present⟩ := present
  unfold SharedState.remaining
  rcases move.after present with kept | ⟨phase, moved, moves⟩
  · rw [kept, present]
  · rw [moved, present]
    exact Nat.le_of_lt moves.remaining_lt

/-- An event about a step execution is one of those that it has to do. -/
theorem SharedMove.remaining_lt (move : SharedMove decoder state next event)
    (about : event.subject = some call) : next.remaining call < state.remaining call := by
  obtain ⟨execution, phase, present, moves, moved⟩ := move.moves_subject about
  unfold SharedState.remaining
  rw [present, moved]
  exact moves.remaining_lt

/-- A change of one request of the list. -/
theorem sum_map_set {α : Type*} (weight : α → Nat) {items : List α} {index : Nat} {old : α}
    (listed : items[index]? = some old) (new : α) :
    ((items.set index new).map weight).sum + weight old = (items.map weight).sum + weight new := by
  induction items generalizing index with
  | nil => cases listed
  | cons item rest ih =>
      cases index with
      | zero =>
          cases listed
          simp only [List.set_cons_zero, List.map_cons, List.sum_cons]
          omega
      | succ index =>
          have later := ih listed
          simp only [List.set_cons_succ, List.map_cons, List.sum_cons]
          omega

/-- A sum in which one term falls. -/
theorem sum_map_add_le {α : Type*} (before after : α → Nat) (amount : Nat) {items : List α}
    {item : α} (member : item ∈ items) (falls : after item + amount ≤ before item)
    (others : ∀ other, after other ≤ before other) :
    (items.map after).sum + amount ≤ (items.map before).sum := by
  obtain ⟨first, last, rfl⟩ := List.append_of_mem member
  have start := List.sum_le_sum fun other (_ : other ∈ first) => others other
  have rest := List.sum_le_sum fun other (_ : other ∈ last) => others other
  simp only [List.map_append, List.map_cons, List.sum_append, List.sum_cons]
  omega

end Work

section Calls

variable {run : CompositionRun Request Value} {exec after : ExecState Request Value}
  {taken : ExecEvent}

/-- Goroutines that have begun and not ended are those of the running wave. -/
def ExecState.InWave (exec : ExecState Request Value) : Prop :=
  ∀ step, exec.goroutines step ≠ .ready → exec.goroutines step ≠ .done →
    step ∈ exec.waves.headD []

/-- A goroutine of the wave that moves stays in it. -/
theorem inWave_of_update {wave : List String} {later : List (List String)} {step : String}
    {moved : Goroutine Request Value} (inWave : exec.InWave) (at_ : exec.waves = wave :: later)
    (member : step ∈ wave) (goroutines : after.goroutines = Function.update exec.goroutines step moved)
    (waves : after.waves = exec.waves) : after.InWave := by
  intro other begun running
  rw [waves]
  by_cases same : other = step
  · subst same
    rw [at_]
    exact member
  · rw [goroutines, Function.update_of_ne same] at begun running
    exact inWave other begun running

/-- Only steps of the wave are running after an event. -/
theorem ExecState.InWave.step (inWave : exec.InWave)
    (stepped : execStep run exec taken = some after) : after.InWave := by
  obtain ⟨-, move⟩ := execMove_of_step stepped
  cases move with
  | finish at_ => exact inWave
  | @endWave wave later at_ done =>
      have ended : ∀ step, exec.goroutines step ≠ .ready → exec.goroutines step ≠ .done → False := by
        intro step begun running
        have member := inWave step begun running
        rw [at_] at member
        exact running (done step member)
      unfold endWave
      split <;> exact fun step begun running => (ended step begun running).elim
  | goroutine at_ member _ _ moved =>
      obtain ⟨moved, goroutines, -, waves, -⟩ := goroutineStep_moves moved
      exact inWave_of_update inWave at_ member goroutines waves
  | missing at_ member _ moved =>
      obtain ⟨moved, goroutines, -, waves, -⟩ := missingStep_moves moved
      exact inWave_of_update inWave at_ member goroutines waves

/-- Only steps of the wave are running in every reachable state. -/
theorem inWave_of_reachable (reached : (executeSystem run).Reachable exec) : exec.InWave := by
  refine reached.induction ExecState.InWave ?_ ?_
  · rintro start rfl step begun
    exact absurd rfl begun
  · intro before event next _ inWave stepped
    exact inWave.step stepped

/-- The waves only get fewer. -/
theorem waves_of_execStep (stepped : execStep run exec taken = some after) :
    after.waves = exec.waves ∨ ∃ wave, exec.waves = wave :: after.waves := by
  obtain ⟨-, move⟩ := execMove_of_step stepped
  cases move with
  | finish at_ => exact .inl rfl
  | @endWave wave later at_ =>
      unfold endWave
      split
      · exact .inl rfl
      · exact .inr ⟨wave, at_⟩
  | goroutine at_ member _ _ moved =>
      obtain ⟨moved, goroutines, -, waves, -⟩ := goroutineStep_moves moved
      exact .inl waves
  | missing at_ member _ moved =>
      obtain ⟨moved, goroutines, -, waves, -⟩ := missingStep_moves moved
      exact .inl waves

/-- An event of `Execute` is one of those that the request has to do. -/
theorem remaining_lt_of_execute {request : ExecutorRequest Request Value}
    (stepped : execStep run request.exec taken = some after) :
    ({ request with exec := after } : ExecutorRequest Request Value).remaining <
      request.remaining := by
  have lower := remaining_lt_of_execStep stepped
  have fewer : (after.waves.flatten.map request.unstarted).sum ≤
      (request.exec.waves.flatten.map request.unstarted).sum := by
    rcases waves_of_execStep stepped with same | ⟨wave, at_⟩
    · rw [same]
    · rw [at_, List.flatten_cons, List.map_append, List.sum_append]
      omega
  exact Nat.add_lt_add_of_lt_of_le lower fewer

/-- The start of a step execution takes as much from its request as it has to do itself. -/
theorem remaining_start {request : ExecutorRequest Request Value} {step : String}
    {built : Except StepFailure Request} (inWave : request.exec.InWave)
    (here : request.exec.goroutines step = .built built) (new : request.calls step = none)
    (call : CallId) :
    ({ request with calls := Function.update request.calls step (some call) } :
      ExecutorRequest Request Value).remaining + 6 ≤ request.remaining := by
  have member : step ∈ request.exec.waves.flatten := by
    have inHead := inWave step (by rw [here]; exact nofun) (by rw [here]; exact nofun)
    cases at_ : request.exec.waves with
    | nil =>
        rw [at_] at inHead
        cases inHead
    | cons wave later =>
        rw [at_] at inHead
        exact List.mem_flatten.mpr ⟨wave, List.mem_cons_self, inHead⟩
  have falls := sum_map_add_le request.unstarted
    ({ request with calls := Function.update request.calls step (some call) } :
      ExecutorRequest Request Value).unstarted 6 member (by simp [ExecutorRequest.unstarted, new])
    fun other => by
      by_cases same : other = step
      · simp [ExecutorRequest.unstarted, same]
      · simp [ExecutorRequest.unstarted, Function.update_of_ne same]
  unfold ExecutorRequest.remaining
  dsimp only at falls ⊢
  omega

end Calls

section Progress

variable {state next : ExecutorState Request Value} {event : ExecutorEvent Request Value}

/-- What is known of the executor besides how its requests are executed. -/
structure LiveInvariant (failure : CallId → SendError → StepFailure)
    (state : ExecutorState Request Value) : Prop extends ExecutorInvariant failure state where
  present : ∀ call < state.nextCall, ∃ execution, state.shared.calls call = some execution
  accepted : ∀ request ∈ state.requests, ∀ send, Accepted (request.job.run send)

/-- A call that is known stays so. -/
theorem SharedMove.present {shared after : SharedState Value} {event : SharedEvent Value}
    (move : SharedMove decoder shared after event) {call : CallId}
    (present : ∃ execution, shared.calls call = some execution) :
    ∃ execution, after.calls call = some execution := by
  obtain ⟨execution, found⟩ := present
  rcases move.after found with kept | ⟨phase, moved, -⟩
  · exact ⟨execution, kept⟩
  · exact ⟨_, moved⟩

/-- Every move with accepted jobs keeps the invariant. -/
theorem LiveInvariant.move (invariant : LiveInvariant failure state)
    (move : ExecutorMove decoder failure state event next) (jobs : AcceptedJobs state event) :
    LiveInvariant failure next := by
  refine ⟨invariant.toExecutorInvariant.move move, ?_, ?_⟩
  · cases move with
    | arrive | execute => exact invariant.present
    | shared moved => exact fun call known => moved.present (invariant.present call known)
    | @start index request step built shared listed here new moved calls =>
        intro call known
        rcases Nat.lt_or_eq_of_le (Nat.le_of_lt_succ known) with before | rfl
        · exact moved.present (invariant.present call before)
        · exact ⟨_, by rw [calls, Function.update_self]⟩
  · cases move with
    | arrive job =>
        intro request member
        rcases List.mem_append.mp member with before | new
        · exact invariant.accepted request before
        · cases List.mem_singleton.mp new
          exact jobs
    | shared => exact invariant.accepted
    | execute listed =>
        intro other member
        rcases List.mem_or_eq_of_mem_set member with before | rfl
        · exact invariant.accepted other before
        · exact fun send => invariant.accepted _ (List.mem_of_getElem? listed) send
    | start listed =>
        intro other member
        rcases List.mem_or_eq_of_mem_set member with before | rfl
        · exact invariant.accepted other before
        · exact fun send => invariant.accepted _ (List.mem_of_getElem? listed) send

/-- The invariant holds in every reachable state. -/
theorem liveInvariant
    (reached : ((executor decoder failure).restrict AcceptedJobs).Reachable state) :
    LiveInvariant failure state := by
  refine reached.induction (LiveInvariant failure) ?_ ?_
  · rintro start rfl
    exact ⟨⟨flightInvariant_newExecutor, fun _ _ => rfl, nofun⟩, nofun, nofun⟩
  · intro before event after _ invariant stepped
    exact invariant.move (executorMove stepped.1) stepped.2

/-- What is left for step executions that are there only gets less. -/
theorem LiveInvariant.sum_remaining_le (invariant : LiveInvariant failure state)
    {shared : SharedState Value} {event : SharedEvent Value}
    (move : SharedMove decoder state.shared shared event) :
    ∑ call ∈ Finset.range state.nextCall, shared.remaining call ≤
      ∑ call ∈ Finset.range state.nextCall, state.shared.remaining call :=
  Finset.sum_le_sum fun call member =>
    move.remaining_le (invariant.present call (Finset.mem_range.mp member))

/-- Every event of the executor itself takes from its work. -/
theorem LiveInvariant.work_lt (invariant : LiveInvariant failure state)
    (move : ExecutorMove decoder failure state event next) (own : event.own) :
    next.work < state.work := by
  unfold ExecutorState.work
  cases move with
  | arrive => cases own
  | @execute _ index request exec taken listed stepped =>
      have lower := remaining_lt_of_execute stepped
      have sum := sum_map_set ExecutorRequest.remaining listed { request with exec }
      dsimp only
      omega
  | @start index request step built shared listed here new moved calls =>
      have ok := invariant.requests request (List.mem_of_getElem? listed)
      have lower := remaining_start (inWave_of_reachable ok.reached) here new state.nextCall
      have sum := sum_map_set ExecutorRequest.remaining listed
        { request with calls := Function.update request.calls step (some state.nextCall) }
      have others := invariant.sum_remaining_le moved
      have started : shared.remaining state.nextCall = 5 := by
        rw [SharedState.remaining, calls, Function.update_self]
        rfl
      dsimp only
      rw [Finset.sum_range_succ, started]
      omega
  | @shared event shared moved running =>
      have about : ∃ call, event.subject = some call := by
        cases event with
        | start call settings key => exact absurd rfl (running call settings key)
        | tick | sweep => cases own
        | lookup call | proceed call | respond call | receive call | fill call => exact ⟨call, rfl⟩
      obtain ⟨call, about⟩ := about
      have known : call < state.nextCall := by
        obtain ⟨execution, phase, present, -⟩ := moved.moves_subject about
        refine Nat.lt_of_not_le fun fresh => ?_
        rw [invariant.fresh call fresh] at present
        cases present
      have lower := Finset.sum_lt_sum (s := Finset.range state.nextCall) (fun call member =>
        moved.remaining_le (invariant.present call (Finset.mem_range.mp member)))
        ⟨call, Finset.mem_range.mpr known, moved.remaining_lt about⟩
      exact Nat.add_lt_add_left lower _

/-- A call that can go on is an event of the executor. -/
theorem exists_sharedStep {shared : SharedState Value} {event : SharedEvent Value}
    {call : CallId} {execution : StepCall Value} (present : shared.calls call = some execution)
    (about : event.subject = some call)
    (moves : (callStep decoder shared call execution event).isSome) :
    ∃ after, sharedStep decoder shared event = some after := by
  obtain ⟨after, moved⟩ := Option.isSome_iff_exists.mp moves
  refine ⟨after, ?_⟩
  cases event with
  | start | tick | sweep => cases about
  | lookup | proceed | respond | receive | fill =>
      cases about
      exact Option.bind_eq_some_iff.mpr ⟨execution, present, moved⟩

variable (decoder) in
/-- A step execution that has not finished can go on, or its leader can. -/
theorem FlightInvariant.progress {shared : SharedState Value} (invariant : FlightInvariant shared)
    {call : CallId} {execution : StepCall Value} (present : shared.calls call = some execution)
    (running : ∀ source outcome, execution.phase ≠ .finished source outcome) :
    ∃ event after, event.subject.isSome ∧ sharedStep decoder shared event = some after := by
  have goesOn (event : SharedEvent Value) {call : CallId} {execution : StepCall Value}
      (present : shared.calls call = some execution) (about : event.subject = some call)
      (moves : (callStep decoder shared call execution event).isSome) :
      ∃ event after, event.subject.isSome ∧ sharedStep decoder shared event = some after := by
    obtain ⟨after, moved⟩ := exists_sharedStep present about moves
    exact ⟨event, after, by rw [about]; rfl, moved⟩
  cases at_ : execution.phase with
  | built => exact goesOn (.lookup call) present rfl (by simp [callStep, at_])
  | missed => exact goesOn (.proceed call) present rfl (by simp [callStep, at_])
  | leading | sending =>
      exact goesOn (.respond call (.error .timeout)) present rfl (by simp [callStep, at_])
  | joined leader =>
      obtain ⟨lead, found, phase⟩ := invariant.joined call execution leader present at_
      rcases phase with leading | ⟨outcome, ended | ended⟩
      · exact goesOn (.respond leader (.error .timeout)) found rfl (by simp [callStep, leading])
      · exact goesOn (.receive call) present rfl (by simp [callStep, at_, flightValue, found, ended])
      · exact goesOn (.receive call) present rfl (by simp [callStep, at_, flightValue, found, ended])
  | returned source outcome =>
      exact goesOn (.fill call) present rfl (by cases outcome <;> simp [callStep, at_])
  | finished source outcome => exact absurd at_ (running source outcome)

/-- What a goroutine sends is built. -/
theorem built_of_send {run : CompositionRun Request Value} {exec after : ExecState Request Value}
    {step : String} (stepped : execStep run exec (.send step) = some after) :
    ∃ built, exec.goroutines step = .built (.ok built) := by
  unfold execStep at stepped
  split at stepped
  · cases stepped
  cases at_ : exec.waves with
  | nil => simp [at_] at stepped
  | cons wave later =>
      simp only [at_, ExecEvent.step?] at stepped
      split at stepped
      · split at stepped
        · cases here : exec.goroutines step with
          | built request =>
              cases request with
              | ok built => exact ⟨built, rfl⟩
              | error => simp [goroutineStep, here] at stepped
          | ready | checked | sent | stored | done => simp [goroutineStep, here] at stepped
        · cases here : exec.goroutines step <;> simp [missingStep] at stepped
      · cases stepped

/-- An event of a request that sends nothing is one of the executor. -/
theorem executorStep_exec (state : ExecutorState Request Value) (index : Nat) {taken : ExecEvent}
    (other : ∀ step, taken ≠ .send step) :
    executorStep decoder failure state (.exec index taken) = state.execute failure index taken := by
  cases taken with
  | send step => exact absurd rfl (other step)
  | check | build | store | report | endWave | finish => rfl

/-- A request that is not answered goes on, if every step execution has finished. -/
theorem LiveInvariant.progress_request (invariant : LiveInvariant failure state)
    (finished : ∀ call execution, state.shared.calls call = some execution →
      ∃ source outcome, execution.phase = .finished source outcome)
    {request : ExecutorRequest Request Value} (listed : request ∈ state.requests)
    (running : request.exec.returned = none) :
    ∃ event next, event.own ∧ executorStep decoder failure state event = some next := by
  obtain ⟨index, listed⟩ := List.mem_iff_getElem?.mp listed
  have isListed := List.mem_of_getElem? listed
  obtain ⟨event, exec, stepped⟩ := exists_execStep (invariant.accepted request isListed _)
    (invariant.requests request isListed).reached running
  have executes : state.execute failure index event =
      some { state with requests := state.requests.set index { request with exec } } := by
    change execStep (request.run failure state.shared) request.exec event = some exec at stepped
    unfold ExecutorState.execute
    rw [listed, Option.bind_some, stepped, Option.map_some]
  by_cases other : ∀ step, event ≠ .send step
  · exact ⟨.exec index event, _, trivial, (executorStep_exec state index other).trans executes⟩
  · simp only [not_forall, not_not] at other
    obtain ⟨step, rfl⟩ := other
    cases started : request.calls step with
    | none =>
        obtain ⟨built, here⟩ := built_of_send stepped
        have starts : ∃ next, executorStep decoder failure state (.start index step) = some next := by
          simp only [executorStep, ExecutorState.startCall, listed, Option.bind_some, here, started,
            sharedStep, invariant.fresh state.nextCall (Nat.le_refl _), Option.map_some]
          exact ⟨_, rfl⟩
        obtain ⟨next, starts⟩ := starts
        exact ⟨.start index step, next, trivial, starts⟩
    | some call =>
        obtain ⟨execution, present⟩ := invariant.present call
          ((invariant.requests request isListed).started step call started)
        obtain ⟨source, outcome, ended⟩ := finished call execution present
        have isOutcome : finishedOutcome state.shared call = some outcome :=
          finishedOutcome_eq_some.mpr ⟨execution, source, present, ended⟩
        refine ⟨.collect index step,
          { state with requests := state.requests.set index { request with exec } }, trivial, ?_⟩
        simp only [executorStep, listed, Option.bind_some, started, isOutcome]
        exact executes

/-- The executor can go on by itself until it is settled. -/
theorem LiveInvariant.progress (invariant : LiveInvariant failure state)
    (unsettled : ¬ state.Settled) :
    ∃ event next, event.own ∧ executorStep decoder failure state event = some next := by
  by_cases finished : ∀ call execution, state.shared.calls call = some execution →
      ∃ source outcome, execution.phase = .finished source outcome
  · by_cases answered : ∀ request ∈ state.requests, request.exec.returned ≠ none
    · refine absurd ⟨answered, finished, fun key => ?_⟩ unsettled
      refine Option.eq_none_iff_forall_ne_some.mpr fun leader flight => ?_
      obtain ⟨lead, present, -, leading⟩ := invariant.flights.open_ key leader flight
      obtain ⟨source, outcome, ended⟩ := finished leader lead present
      rw [leading] at ended
      cases ended
    · simp only [not_forall, not_not] at answered
      obtain ⟨request, listed, running⟩ := answered
      exact invariant.progress_request finished listed running
  · simp only [not_forall, not_exists] at finished
    obtain ⟨call, execution, present, running⟩ := finished
    obtain ⟨event, after, about, moved⟩ := invariant.flights.progress decoder present running
    refine ⟨.shared event, { state with shared := after }, ?_, ?_⟩
    · cases event with
      | start | tick | sweep => cases about
      | lookup | proceed | respond | receive | fill => trivial
    · cases event with
      | start | tick | sweep => cases about
      | lookup | proceed | respond | receive | fill =>
          simp only [executorStep, moved, Option.map_some]

end Progress

/-- Once requests have arrived and exchanges end, the executor does a bounded number of
events, is never stuck before every request is answered, and comes to a state in which every
request is answered and no step execution or flight is left. -/
theorem executor_settles (decoder : BodyDecoder Value)
    (failure : CallId → SendError → StepFailure) (state : ExecutorState Request Value)
    (reached : ((executor decoder failure).restrict AcceptedJobs).Reachable state) :
    (∀ events next,
      (((executor decoder failure).restrict AcceptedJobs).own ExecutorEvent.own).Steps
        state events next →
      events.length + next.work ≤ state.work ∧
        (next.Settled ∨ ∃ event after, event.own ∧
          ((executor decoder failure).restrict AcceptedJobs).Step next event after)) ∧
      ∃ events next,
        (((executor decoder failure).restrict AcceptedJobs).own ExecutorEvent.own).Steps
          state events next ∧ next.Settled := by
  refine reached.settles ExecutorState.Settled ExecutorState.work ?_ ?_
  · intro state event next here stepped own
    exact (liveInvariant here).work_lt (executorMove stepped.1) own
  · intro state here unsettled
    obtain ⟨event, next, own, stepped⟩ := (liveInvariant here).progress unsettled
    refine ⟨event, next, own, stepped, ?_⟩
    cases event with
    | arrive => cases own
    | exec | start | collect | shared => trivial

/-- Two requests on their way settle. -/
theorem executor_settles_of_two_requests :
    ∃ state : ExecutorState Unit Unit,
      System.replay (executorStep unitDecoder sendFailure) ⟨newExecutor, 0, []⟩
        (twoRequests.take 12) = some state ∧
      (∀ request ∈ state.requests, request.exec.returned.isNone) ∧
      ∃ events next, (((executor unitDecoder sendFailure).restrict AcceptedJobs).own
        ExecutorEvent.own).Steps state events next ∧ next.Settled := by
  let state := (System.replay (executorStep unitDecoder sendFailure) ⟨newExecutor, 0, []⟩
    (twoRequests.take 12)).get (by rfl)
  have ends : System.replay (executorStep unitDecoder sendFailure) ⟨newExecutor, 0, []⟩
      (twoRequests.take 12) = some state := (Option.some_get _).symm
  have open_ : (state.requests.all fun request => request.exec.returned.isNone) = true := by rfl
  have meets : ∀ event ∈ twoRequests.take 12, ∀ state, AcceptedJobs state event := by
    simp [twoRequests, AcceptedJobs, accepted_userJob]
  have reached : ((executor unitDecoder sendFailure).restrict AcceptedJobs).Reachable state :=
    ⟨_, _, rfl, System.restrict_steps_of_replay _ meets ends⟩
  exact ⟨state, ends, List.all_eq_true.mp open_,
    (executor_settles unitDecoder sendFailure state reached).2⟩

end Restitch.Composition
