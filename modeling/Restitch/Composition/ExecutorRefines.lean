import Restitch.Composition.ExecuteCorrect
import Restitch.Composition.Executor

/-!
# Sharing does not change what a request is answered

With a cache and flights that all requests share, a request is still executed as if it were
alone and its steps had the outcomes of their executions: every call of `Execute` on the
executor is a run of `executeSystem`, and so all that is true of these runs is true of it.
-/

namespace Restitch.Composition

open Restitch.Semantics Restitch.Std

variable {Request Value : Type} {decoder : BodyDecoder Value}
  {failure : CallId → SendError → StepFailure}

/-- What one event does to the executor. -/
inductive ExecutorMove (decoder : BodyDecoder Value) (failure : CallId → SendError → StepFailure)
    (state : ExecutorState Request Value) :
    ExecutorEvent Request Value → ExecutorState Request Value → Prop where
  | arrive (job : ExecutorJob Request Value) :
      ExecutorMove decoder failure state (.arrive job) { state with
        requests := state.requests ++ [⟨job, startExecute (job.run fun _ _ =>
          .error (failure 0 .requestFailed)), fun _ => none⟩] }
  /-- A call of `Execute` moves on; what it collects is there. -/
  | execute {event index request exec taken} (listed : state.requests[index]? = some request)
      (stepped : execStep (request.run failure state.shared) request.exec taken = some exec)
      (collected : ∀ step, taken = .send step → ∃ call outcome,
        request.calls step = some call ∧ finishedOutcome state.shared call = some outcome) :
      ExecutorMove decoder failure state event { state with
        requests := state.requests.set index { request with exec } }
  | start {index request step built shared} (listed : state.requests[index]? = some request)
      (here : request.exec.goroutines step = .built (.ok built))
      (new : request.calls step = none)
      (move : SharedMove decoder state.shared shared
        (.start state.nextCall (request.job.settings step) (request.job.key step built)))
      (calls : shared.calls = Function.update state.shared.calls state.nextCall
        (some ⟨request.job.settings step, request.job.key step built, .built⟩)) :
      ExecutorMove decoder failure state (.start index step)
        { shared
          nextCall := state.nextCall + 1
          requests := state.requests.set index { request with
            calls := Function.update request.calls step (some state.nextCall) } }
  | shared {event shared} (move : SharedMove decoder state.shared shared event)
      (running : ∀ call settings key, event ≠ .start call settings key) :
      ExecutorMove decoder failure state (.shared event) { state with shared }

/-- An event of one request is one of the moves. -/
theorem move_of_execute {state next : ExecutorState Request Value} {index : Nat}
    {taken : ExecEvent} {event : ExecutorEvent Request Value}
    (stepped : state.execute failure index taken = some next)
    (collected : ∀ request step, state.requests[index]? = some request → taken = .send step →
      ∃ call outcome, request.calls step = some call ∧
        finishedOutcome state.shared call = some outcome) :
    ExecutorMove decoder failure state event next := by
  obtain ⟨request, listed, moved⟩ := Option.bind_eq_some_iff.mp stepped
  obtain ⟨exec, executed, rfl⟩ := Option.map_eq_some_iff.mp moved
  exact .execute listed executed fun step same => collected request step listed same

/-- The step function does no other events. -/
theorem executorMove {state next : ExecutorState Request Value}
    {event : ExecutorEvent Request Value}
    (stepped : executorStep decoder failure state event = some next) :
    ExecutorMove decoder failure state event next := by
  cases event with
  | arrive job =>
      cases stepped
      exact .arrive job
  | exec index event =>
      cases event with
      | send => cases stepped
      | check | build | store | report | endWave | finish =>
          refine move_of_execute stepped ?_
          intro request step listed impossible
          cases impossible
  | start index step =>
      obtain ⟨request, listed, moved⟩ := Option.bind_eq_some_iff.mp stepped
      split at moved
      · rename_i built here new
        obtain ⟨shared, started, rfl⟩ := Option.map_eq_some_iff.mp moved
        refine .start listed here new (sharedStep_move started) ?_
        simp only [sharedStep] at started
        split at started <;> cases started
        rfl
      · cases moved
  | collect index step =>
      obtain ⟨request, listed, moved⟩ := Option.bind_eq_some_iff.mp stepped
      split at moved
      · rename_i outcome ended
        obtain ⟨call, isCall, finished⟩ := Option.bind_eq_some_iff.mp ended
        refine move_of_execute moved ?_
        intro other same listed' rfl_
        cases rfl_
        cases listed.symm.trans listed'
        exact ⟨call, outcome, isCall, finished⟩
      · cases moved
  | shared event =>
      cases event with
      | start => cases stepped
      | lookup | proceed | respond | receive | fill | tick | sweep =>
          simp only [executorStep] at stepped
          obtain ⟨shared, moved, rfl⟩ := Option.map_eq_some_iff.mp stepped
          refine .shared (sharedStep_move moved) ?_
          intro call settings key impossible
          cases impossible

section Outcomes

/-- A call has an outcome exactly if it has finished with it. -/
theorem finishedOutcome_eq_some {shared : SharedState Value} {call : CallId}
    {outcome : Except SendError (StepResult Value)} :
    finishedOutcome shared call = some outcome ↔
      ∃ step source, shared.calls call = some step ∧ step.phase = .finished source outcome := by
  unfold finishedOutcome
  constructor
  · intro ended
    split at ended
    · rename_i source _ found
      cases ended
      obtain ⟨step, present, at_⟩ := Option.map_eq_some_iff.mp found
      exact ⟨step, source, present, at_⟩
    · cases ended
  · rintro ⟨step, source, present, at_⟩
    rw [present, Option.map_some, at_]

/-- A call that moves has not finished. -/
theorem Moves.running {state : SharedState Value} {call : CallId} {step : StepCall Value}
    {event : SharedEvent Value} {phase : StepPhase Value}
    (moves : Moves decoder state call step event phase) (source : Source)
    (outcome : Except SendError (StepResult Value)) : step.phase ≠ .finished source outcome := by
  intro ended
  cases moves with
  | hit at_ | miss at_ | join at_ | lead at_ | send at_ | receive at_ | refuse at_ | finish at_ =>
      rw [ended] at at_
      cases at_
  | exchange _ at_ =>
      rw [ended] at at_
      rcases at_ with at_ | at_ <;> cases at_

/-- An outcome stays what it is. -/
theorem SharedMove.finishedOutcome {state next : SharedState Value} {event : SharedEvent Value}
    (move : SharedMove decoder state next event) {call : CallId}
    {outcome : Except SendError (StepResult Value)}
    (ended : finishedOutcome state call = some outcome) :
    finishedOutcome next call = some outcome := by
  obtain ⟨step, source, present, at_⟩ := finishedOutcome_eq_some.mp ended
  rcases move.after present with kept | ⟨phase, -, moves⟩
  · exact finishedOutcome_eq_some.mpr ⟨step, source, kept, at_⟩
  · exact absurd at_ (moves.running source outcome)

/-- Nothing but its start makes a step execution. -/
theorem SharedMove.absent {state next : SharedState Value} {event : SharedEvent Value}
    (move : SharedMove decoder state next event) {call : CallId} (absent : state.calls call = none)
    (other : ∀ settings key, event ≠ .start call settings key) : next.calls call = none := by
  refine Option.eq_none_iff_forall_ne_some.mpr fun step present => ?_
  rcases move.before present with before | ⟨settings, key, started, -⟩ | ⟨prior, before, -⟩
  · rw [absent] at before
    cases before
  · exact other settings key started
  · rw [absent] at before
    cases before

/-- The outcome of a step is the one of its execution. -/
theorem send_eq {request : ExecutorRequest Request Value} {shared : SharedState Value}
    {step : String} {call : CallId} {outcome : Except SendError (StepResult Value)}
    (isCall : request.calls step = some call) (ended : finishedOutcome shared call = some outcome) :
    request.send failure shared step = fun _ => outcome.mapError (failure call) := by
  funext built
  unfold ExecutorRequest.send
  rw [isCall]
  dsimp only
  rw [ended]
  cases outcome <;> rfl

end Outcomes

section Agreement

variable {job : ExecutorJob Request Value}
  {send other : String → Request → Except StepFailure (StepResult Value)}
  {state next : ExecState Request Value} {event : ExecEvent}

/-- A goroutine looks at the answer to its own call only. -/
theorem goroutineStep_congr {step : String} (info : StepInfo)
    (goroutine : Goroutine Request Value) (isStep : event.step? = some step)
    (same : ∀ step, event = .send step → send step = other step) :
    goroutineStep (job.run send) state step info event goroutine =
      goroutineStep (job.run other) state step info event goroutine := by
  cases event with
  | send _ =>
      cases isStep
      have agree : (job.run send).send step = (job.run other).send step := same step rfl
      rcases goroutine with - | - | ⟨- | request⟩ | - | - | -
      case built.ok => simp only [goroutineStep, agree]
      all_goals rfl
  | check | build | store | report =>
      rcases goroutine with - | ⟨- | -⟩ | ⟨- | -⟩ | ⟨- | -⟩ | - | - <;> rfl
  | endWave | finish => cases isStep

/-- An event looks at the answer to its own call only. -/
theorem execStep_congr (same : ∀ step, event = .send step → send step = other step) :
    execStep (job.run send) state event = execStep (job.run other) state event := by
  have steps (send : String → Request → Except StepFailure (StepResult Value)) :
      (job.run send).steps = job.steps := rfl
  unfold execStep
  simp only [steps]
  split
  · rfl
  split
  · rfl
  · rfl
  · split
    · rename_i step isStep
      split
      · split
        · exact goroutineStep_congr _ _ isStep same
        · rfl
      · rfl
    · rfl
  · rfl

/-- An event adds to what was sent the step that it sends. -/
def AddsSent (event : ExecEvent) (state next : ExecState Request Value) : Prop :=
  ∀ step, step ∈ next.sentLog ↔ event = .send step ∨ step ∈ state.sentLog

/-- A step of a goroutine logs what it sends. -/
theorem goroutineStep_sentLog {run : CompositionRun Request Value} {step : String}
    {info : StepInfo} {goroutine : Goroutine Request Value} (isStep : event.step? = some step)
    (stepped : goroutineStep run state step info event goroutine = some next) :
    AddsSent event state next := by
  unfold goroutineStep at stepped
  split at stepped
  case h_3 => split at stepped <;> cases stepped <;> simp [AddsSent]
  case h_4 =>
    cases isStep
    cases stepped
    simp [AddsSent, eq_comm]
  all_goals cases stepped
  all_goals simp [AddsSent, ExecState.store]

/-- A step without a definition sends nothing. -/
theorem missingStep_sentLog {step : String} {goroutine : Goroutine Request Value}
    (stepped : missingStep state step event goroutine = some next) :
    AddsSent event state next := by
  unfold missingStep at stepped
  split at stepped <;> cases stepped <;> simp [AddsSent]

/-- What a call of `Execute` has sent. -/
theorem sentLog_of_execStep {run : CompositionRun Request Value}
    (stepped : execStep run state event = some next) : AddsSent event state next := by
  unfold execStep at stepped
  split at stepped
  · cases stepped
  split at stepped
  · cases stepped
    simp [AddsSent]
  · split at stepped
    · cases stepped
      rw [endWave]
      split <;> simp [AddsSent]
    · cases stepped
  · split at stepped
    · rename_i step isStep
      split at stepped
      · split at stepped
        · exact goroutineStep_sentLog isStep stepped
        · exact missingStep_sentLog stepped
      · cases stepped
    · cases stepped
  · cases stepped

/-- A run of `Execute` depends on the exchanges that it has made. -/
theorem reachable_congr (reached : (executeSystem (job.run send)).Reachable state)
    (same : ∀ step ∈ state.sentLog, send step = other step) :
    (executeSystem (job.run other)).Reachable state := by
  obtain ⟨start, events, valid, steps⟩ := reached
  refine ⟨start, events, valid, ?_⟩
  induction steps with
  | refl => exact .refl
  | @step events middle event after prior transition ih =>
      have sent := sentLog_of_execStep transition
      refine (ih fun step member => same step ((sent step).mpr (.inr member))).step ?_
      change execStep (job.run other) middle event = some after
      rw [← execStep_congr fun step isSend => same step ((sent step).mpr (.inl isSend))]
      exact transition

end Agreement

section Invariant

variable {state next : ExecutorState Request Value} {event : ExecutorEvent Request Value}

/-- A request is executed as if it were alone, with the outcomes of its step executions. -/
structure RequestOk (failure : CallId → SendError → StepFailure)
    (state : ExecutorState Request Value) (request : ExecutorRequest Request Value) : Prop where
  reached : (executeSystem (request.run failure state.shared)).Reachable request.exec
  sent : ∀ step ∈ request.exec.sentLog, ∃ call outcome,
    request.calls step = some call ∧ finishedOutcome state.shared call = some outcome
  started : ∀ step call, request.calls step = some call → call < state.nextCall

/-- Its outcomes stay what they are. -/
theorem RequestOk.later {request : ExecutorRequest Request Value}
    (ok : RequestOk failure state request) (next : ExecutorState Request Value)
    (kept : ∀ call outcome, finishedOutcome state.shared call = some outcome →
      finishedOutcome next.shared call = some outcome)
    (more : state.nextCall ≤ next.nextCall) : RequestOk failure next request where
  reached := by
    refine reachable_congr ok.reached fun step member => ?_
    obtain ⟨call, outcome, isCall, ended⟩ := ok.sent step member
    rw [send_eq isCall ended, send_eq isCall (kept call outcome ended)]
  sent step member := by
    obtain ⟨call, outcome, isCall, ended⟩ := ok.sent step member
    exact ⟨call, outcome, isCall, kept call outcome ended⟩
  started step call isCall := Nat.lt_of_lt_of_le (ok.started step call isCall) more

structure ExecutorInvariant (failure : CallId → SendError → StepFailure)
    (state : ExecutorState Request Value) : Prop where
  flights : FlightInvariant state.shared
  fresh : ∀ call, state.nextCall ≤ call → state.shared.calls call = none
  requests : ∀ request ∈ state.requests, RequestOk failure state request

/-- Every move keeps the invariant. -/
theorem ExecutorInvariant.move (invariant : ExecutorInvariant failure state)
    (move : ExecutorMove decoder failure state event next) : ExecutorInvariant failure next := by
  cases move with
  | arrive job =>
      refine ⟨invariant.flights, invariant.fresh, fun request member => ?_⟩
      rcases List.mem_append.mp member with before | new
      · exact (invariant.requests request before).later _ (fun _ _ ended => ended) (Nat.le_refl _)
      · cases List.mem_singleton.mp new
        exact ⟨.initial rfl, nofun, nofun⟩
  | @execute _ index request exec taken listed stepped collected =>
      refine ⟨invariant.flights, invariant.fresh, fun other member => ?_⟩
      have ok := invariant.requests request (List.mem_of_getElem? listed)
      rcases List.mem_or_eq_of_mem_set member with before | rfl
      · exact (invariant.requests other before).later _ (fun _ _ ended => ended) (Nat.le_refl _)
      · refine ⟨ok.reached.step stepped, fun step member => ?_, ok.started⟩
        rcases (sentLog_of_execStep stepped step).mp member with isSend | before
        · exact collected step isSend
        · exact ok.sent step before
  | @start index request step built shared listed here new move calls =>
      have kept := fun call outcome ended =>
        (move.finishedOutcome ended : finishedOutcome shared call = some outcome)
      refine ⟨invariant.flights.move move, fun call fresh => ?_, fun other member => ?_⟩
      · refine move.absent (invariant.fresh call (Nat.le_of_succ_le fresh)) fun _ _ same => ?_
        cases same
        exact Nat.not_succ_le_self _ fresh
      · rcases List.mem_or_eq_of_mem_set member with before | rfl
        · exact (invariant.requests other before).later _ kept (Nat.le_succ _)
        · have ok := (invariant.requests request (List.mem_of_getElem? listed)).later
            ⟨shared, state.nextCall + 1, state.requests⟩ kept (Nat.le_succ _)
          -- What was sent has had an execution before, so it is none of this step.
          have apart : ∀ sent ∈ request.exec.sentLog, sent ≠ step := by
            rintro sent isSent rfl
            obtain ⟨call, outcome, isCall, -⟩ := ok.sent sent isSent
            rw [new] at isCall
            cases isCall
          have same : ∀ sent ∈ request.exec.sentLog, ∃ call outcome,
              Function.update request.calls step (some state.nextCall) sent = some call ∧
                request.calls sent = some call ∧ finishedOutcome shared call = some outcome := by
            intro sent isSent
            obtain ⟨call, outcome, isCall, ended⟩ := ok.sent sent isSent
            exact ⟨call, outcome, by rwa [Function.update_of_ne (apart sent isSent)], isCall, ended⟩
          refine ⟨reachable_congr ok.reached fun sent isSent => ?_, fun sent isSent => ?_, ?_⟩
          · obtain ⟨call, outcome, isCall, before, ended⟩ := same sent isSent
            rw [send_eq before ended, send_eq isCall ended]
          · obtain ⟨call, outcome, isCall, -, ended⟩ := same sent isSent
            exact ⟨call, outcome, isCall, ended⟩
          · intro other call isCall
            dsimp only at isCall ⊢
            by_cases here : other = step
            · subst here
              rw [Function.update_self] at isCall
              cases isCall
              exact Nat.lt_succ_self _
            · rw [Function.update_of_ne here] at isCall
              exact ok.started other call isCall
  | @shared event shared move running =>
      refine ⟨invariant.flights.move move, fun call fresh => ?_, fun request member => ?_⟩
      · exact move.absent (invariant.fresh call fresh) fun settings key => running call settings key
      · exact (invariant.requests request member).later _
          (fun call outcome ended => move.finishedOutcome ended) (Nat.le_refl _)

/-- The invariant holds in every reachable state. -/
theorem executorInvariant (reached : (executor decoder failure).Reachable state) :
    ExecutorInvariant failure state := by
  refine reached.induction (ExecutorInvariant failure) ?_ ?_
  · rintro start rfl
    exact ⟨flightInvariant_newExecutor, fun _ _ => rfl, nofun⟩
  · intro before event after _ invariant stepped
    exact invariant.move (executorMove stepped)

end Invariant

/-- In every run of the executor, a request is executed as if it were alone with a cache and
flights of nobody else: its call of `Execute` is a run of `executeSystem`, in which what a
step is sent returns is the outcome of the execution that this step has started. -/
theorem executor_refines (decoder : BodyDecoder Value)
    (failure : CallId → SendError → StepFailure) (state : ExecutorState Request Value)
    (request : ExecutorRequest Request Value)
    (reached : (executor decoder failure).Reachable state) (listed : request ∈ state.requests) :
    let run := request.run failure state.shared
    (executeSystem run).Reachable request.exec ∧
      (∀ step ∈ request.exec.sentLog, ∃ call outcome, request.calls step = some call ∧
        finishedOutcome state.shared call = some outcome ∧
        run.send step = fun _ => outcome.mapError (failure call)) ∧
      (Accepted run →
        (∀ failed, request.exec.returned = some (.error failed) → NamesFirstFailure run failed) ∧
          ∀ result, request.exec.returned = some (.ok result) →
            Completed run request.exec result) := by
  intro run
  have ok := (executorInvariant reached).requests request listed
  refine ⟨ok.reached, fun step member => ?_, fun accepted => ?_⟩
  · obtain ⟨call, outcome, isCall, ended⟩ := ok.sent step member
    exact ⟨call, outcome, isCall, ended, send_eq isCall ended⟩
  · obtain ⟨-, -, failed, completed⟩ := execute_correct run accepted
    exact ⟨fun failure => failed request.exec failure ok.reached,
      fun result => completed request.exec result ok.reached⟩

/-- A composition of one step that may share its flights. -/
def userJob : ExecutorJob Unit Unit where
  steps := AList.singleton "user" ⟨"api", false⟩
  plan := ⟨[["user"]], AList.singleton "user" []⟩
  upstreams := ["api"]
  build := fun _ _ => .ok ()
  settings := fun _ => ⟨"GET", none, true, [], 1000⟩
  key := fun _ _ => "GET /user"

/-- Two requests at the same time: the second joins the flight of the first. -/
def twoRequests : List (ExecutorEvent Unit Unit) :=
  [.arrive userJob, .arrive userJob, .exec 0 (.check "user"), .exec 1 (.check "user"),
   .exec 0 (.build "user"), .exec 1 (.build "user"), .start 0 "user", .start 1 "user",
   .shared (.lookup 0), .shared (.lookup 1), .shared (.proceed 0), .shared (.proceed 1),
   .shared (.respond 0 (.ok ⟨200, [], []⟩)), .shared (.receive 1), .shared (.fill 1),
   .collect 1 "user", .exec 1 (.store "user"), .exec 1 (.report "user"), .exec 1 .endWave,
   .exec 1 .finish]

/-- The error of a step whose exchange failed. -/
def sendFailure (_ : CallId) (error : SendError) : StepFailure := .send error "" false

theorem accepted_userJob (send : String → Unit → Except StepFailure (StepResult Unit)) :
    Accepted (userJob.run send) := by
  refine ⟨⟨userJob.plan.deps, .listed _, .refl _, by rfl⟩, ?_, fun _ _ _ _ => rfl⟩
  intro step info found
  have all : ∀ entry ∈ userJob.steps.entries, entry.2.upstream ∈ userJob.upstreams := by decide
  exact all ⟨step, info⟩ (GoMap.mem_entries_iff.mpr found)

/-- Two requests share a call, and one of them returns its own result. -/
theorem executor_refines_of_two_requests :
    ∃ state request result,
      System.replay (executorStep unitDecoder sendFailure) ⟨newExecutor, 0, []⟩ twoRequests =
        some state ∧
      request ∈ state.requests ∧ request.exec.returned = some (.ok result) ∧
      Completed (request.run sendFailure state.shared) request.exec result := by
  let state := (System.replay (executorStep unitDecoder sendFailure) ⟨newExecutor, 0, []⟩
    twoRequests).get (by rfl)
  have ends : System.replay (executorStep unitDecoder sendFailure) ⟨newExecutor, 0, []⟩
      twoRequests = some state := (Option.some_get _).symm
  have reached : (executor unitDecoder sendFailure).Reachable state :=
    System.reachable_of_replay twoRequests (.initial rfl) ends
  have two : state.requests.length = 2 := by rfl
  let request := state.requests.get ⟨1, by omega⟩
  have ok : request.exec.returned.map Except.isOk = some true := by rfl
  have isJob : request.job = userJob := by rfl
  have listed : request ∈ state.requests := List.get_mem ..
  clear_value request state
  have accepted : Accepted (request.run sendFailure state.shared) := by
    rw [ExecutorRequest.run, isJob]
    exact accepted_userJob _
  obtain ⟨answer, returned, isOk⟩ := Option.map_eq_some_iff.mp ok
  cases answer with
  | error => cases isOk
  | ok result =>
      obtain ⟨-, -, answered⟩ := executor_refines unitDecoder sendFailure state request reached listed
      exact ⟨state, request, result, ends, listed, returned, (answered accepted).2 result returned⟩

end Restitch.Composition
