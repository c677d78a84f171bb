import Restitch.Composition.Serve

/-!
# Which answers are counted

The counter and the recorder come after the last exit of `serveComposition`. Every earlier
exit writes a response that neither of them sees.
-/

namespace Restitch.Composition

open Restitch.Http Restitch.Reqlog Restitch.Std

variable {Value : Type}

/-- A response that was written is counted once with its status, and there is one record with
that status if there is a recorder. -/
def ServeEffects.Accounted (effects : ServeEffects Value) (hasRecorder : Bool)
    (call : CompositionCall Value) : Prop :=
  ∀ response, effects.written = some response →
    effects.requestsTotal =
        [⟨call.composition, call.request.method, toString response.status⟩] ∧
      (hasRecorder = true → effects.records.map Record.status = [response.status])

/-- The body is read and the schema accepts it. -/
def Accepts (runtime : ServeRuntime Value) (comp : CompositionConfig)
    (call : CompositionCall Value) (body : Value) : Prop :=
  readBody runtime comp call.request = .ok body ∧
    (runtime.schema.bind fun validate => validate body) = none

/-- The request runs through: all steps that are required succeed, the response template
evaluates to a final status that allows a body, and the body can be sent. -/
def Completes (runtime : ServeRuntime Value) (comp : CompositionConfig)
    (call : CompositionCall Value) : Prop :=
  ∃ body result response, Accepts runtime comp call body ∧
    runtime.execute (call.requestData body) = .ok result ∧
    runtime.buildResponse (call.requestData body) result = some response ∧
    200 ≤ response.status ∧ response.status ≤ 999 ∧ bodyNotAllowed response.status = false ∧
    runtime.encode response.body = true

/-- The client is gone when a required step has failed. -/
def Vanishes (runtime : ServeRuntime Value) (comp : CompositionConfig)
    (call : CompositionCall Value) : Prop :=
  ∃ body failure, Accepts runtime comp call body ∧
    runtime.execute (call.requestData body) = .error failure ∧ runtime.clientGone = true

section

variable {runtime : ServeRuntime Value} {comp : CompositionConfig} {hasRecorder : Bool}
  {call : CompositionCall Value}

/-- An exit that only writes a response accounts for nothing. -/
theorem not_accounted_of_uncounted {response : WrittenResponse Value} :
    ¬ (⟨some response, [], []⟩ : ServeEffects Value).Accounted hasRecorder call := by
  intro accounted
  cases (accounted response rfl).1

/-- An early answer is not accounted. -/
theorem not_accounted_of_writeJSON {status : Int} {body : ReplyBody Value}
    {header : List (String × String)} :
    ¬ (writeJSON status body header).Accounted hasRecorder call :=
  not_accounted_of_uncounted

/-- A failed run is accounted exactly if the client is gone. -/
theorem accounted_answerFailure_iff {failure : ExecuteFailure} :
    (answerFailure runtime failure).Accounted hasRecorder call ↔ runtime.clientGone = true := by
  unfold answerFailure
  split
  · rename_i gone
    exact ⟨fun _ => gone, fun _ => nofun⟩
  · rename_i there
    refine ⟨fun accounted => ?_, fun gone => absurd gone there⟩
    revert accounted
    split
    · exact fun accounted => absurd accounted not_accounted_of_writeJSON
    · split
      · split
        · exact fun accounted => absurd accounted not_accounted_of_writeJSON
        · exact fun accounted => absurd accounted not_accounted_of_writeJSON
      · exact fun accounted => absurd accounted not_accounted_of_writeJSON

/-- The label of an informational status is not that of the 200 the client gets. -/
theorem label_ne_of_informational {status : Int} (isInformational : informational status = true) :
    toString status ≠ toString (200 : Int) := by
  have labels : ∀ n : Fin 100, toString (100 + (n : Int)) ≠ toString (200 : Int) := by
    decide +kernel
  simp only [informational, Bool.and_eq_true, decide_eq_true_eq] at isInformational
  have isShifted : status = 100 + ((⟨(status - 100).toNat, by omega⟩ : Fin 100) : Int) := by
    simp only [Int.toNat_of_nonneg (show 0 ≤ status - 100 by omega)]
    omega
  rw [isShifted]
  exact labels _

/-- A response is accounted exactly if its status is valid and may have a body and its body is
encoded. -/
theorem accounted_finishResponse_iff {result : ServedResult} {response : BuiltResponse Value} :
    (finishResponse runtime hasRecorder call result response).Accounted hasRecorder call ↔
      200 ≤ response.status ∧ response.status ≤ 999 ∧ bodyNotAllowed response.status = false ∧
        runtime.encode response.body = true := by
  unfold finishResponse
  dsimp only
  split
  · rename_i invalid
    refine ⟨fun accounted => absurd accounted not_accounted_of_uncounted, ?_⟩
    rintro ⟨low, high, -⟩
    simp only [invalidStatus, Bool.or_eq_true, decide_eq_true_eq] at invalid
    omega
  · rename_i valid
    split
    · rename_i unsent
      refine ⟨fun accounted => absurd accounted not_accounted_of_uncounted, ?_⟩
      rintro ⟨-, -, allowed, encoded⟩
      simp [allowed, encoded] at unsent
    · rename_i sent
      obtain ⟨allowed, encoded⟩ : bodyNotAllowed response.status = false ∧
          runtime.encode response.body = true := by
        simpa using sent
      simp only [invalidStatus, Bool.or_eq_true, decide_eq_true_eq, not_or, not_lt] at valid
      constructor
      · intro accounted
        obtain ⟨counted, -⟩ := accounted _ rfl
        refine ⟨?_, valid.2, allowed, encoded⟩
        by_contra low
        have isInformational : informational response.status = true := by
          simp only [bodyNotAllowed, Bool.or_eq_false_iff, decide_eq_false_iff_not] at allowed
          simp only [informational, Bool.and_eq_true, decide_eq_true_eq]
          omega
        rw [if_pos isInformational] at counted
        have label := congrArg RequestsTotal.status (List.head_eq_of_cons_eq counted)
        exact label_ne_of_informational isInformational label
      · rintro ⟨low, -⟩ written isWritten
        have final : informational response.status = false := by
          simp only [informational, Bool.and_eq_false_iff, decide_eq_false_iff_not]
          omega
        cases isWritten
        simp only [final, Bool.false_eq_true, if_false]
        refine ⟨trivial, ?_⟩
        intro recorder
        rw [if_pos recorder]
        rfl

/-- A request whose body is refused gets an answer that nothing counts. -/
theorem not_accounted_of_refused (refused : ∀ body, ¬ Accepts runtime comp call body) :
    ¬ (serveComposition runtime comp hasRecorder call).Accounted hasRecorder call := by
  unfold serveComposition
  cases read : readBody runtime comp call.request with
  | error error => exact not_accounted_of_writeJSON
  | ok body =>
      dsimp only
      cases checked : (runtime.schema.bind fun validate => validate body) with
      | some details => exact not_accounted_of_writeJSON
      | none => exact absurd ⟨read, checked⟩ (refused body)

/-- What becomes of a request whose body is accepted. -/
theorem accounted_iff_of_accepts {body : Value} (accepts : Accepts runtime comp call body) :
    (serveComposition runtime comp hasRecorder call).Accounted hasRecorder call ↔
      (∃ result response, runtime.execute (call.requestData body) = .ok result ∧
        runtime.buildResponse (call.requestData body) result = some response ∧
        200 ≤ response.status ∧ response.status ≤ 999 ∧ bodyNotAllowed response.status = false ∧
        runtime.encode response.body = true) ∨
      ∃ failure, runtime.execute (call.requestData body) = .error failure ∧
        runtime.clientGone = true := by
  simp only [serveComposition, accepts.1, accepts.2]
  cases executed : runtime.execute (call.requestData body) with
  | error failure => simp [accounted_answerFailure_iff]
  | ok result =>
      cases built : runtime.buildResponse (call.requestData body) result with
      | none => simp [not_accounted_of_writeJSON, built]
      | some response => simp [accounted_finishResponse_iff, built]

/-- A request body is accepted as one value. -/
theorem Accepts.unique {body other : Value} (first : Accepts runtime comp call body)
    (second : Accepts runtime comp call other) : body = other :=
  Except.ok.inj (first.1.symm.trans second.1)

end

/-- A request is accounted for exactly if it runs through, or nothing is written because the
client is gone: for every composition, every request and every outcome of validation,
execution and response building. -/
theorem answered_request_accounted_iff (runtime : ServeRuntime Value) (comp : CompositionConfig)
    (hasRecorder : Bool) (call : CompositionCall Value) :
    (serveComposition runtime comp hasRecorder call).Accounted hasRecorder call ↔
      Completes runtime comp call ∨ Vanishes runtime comp call := by
  by_cases accepted : ∃ body, Accepts runtime comp call body
  · obtain ⟨body, accepts⟩ := accepted
    rw [accounted_iff_of_accepts accepts]
    constructor
    · rintro (⟨result, response, facts⟩ | ⟨failure, facts⟩)
      · exact .inl ⟨body, result, response, accepts, facts⟩
      · exact .inr ⟨body, failure, accepts, facts⟩
    · rintro (⟨other, result, response, same, facts⟩ | ⟨other, failure, same, facts⟩)
      · cases accepts.unique same
        exact .inl ⟨result, response, facts⟩
      · cases accepts.unique same
        exact .inr ⟨failure, facts⟩
  · have refused := not_exists.mp accepted
    refine ⟨fun accounted => absurd accounted (not_accounted_of_refused refused), ?_⟩
    rintro (⟨body, _, _, accepts, -⟩ | ⟨body, _, accepts, -⟩)
    · exact absurd accepts (refused body)
    · exact absurd accepts (refused body)

/-- The upstream of the only step refuses the connection. -/
def upstreamDown : ServeRuntime Unit where
  nil := ()
  parseMediaType := fun _ => none
  unmarshal := fun _ => none
  schema := none
  execute := fun _ => .error
    ⟨some ⟨"user", .failed (.send .requestFailed "connection refused" false)⟩, false⟩
  clientGone := false
  buildResponse := fun _ _ => none
  encode := fun _ => true
  start := 0
  duration := 0
  traceID := ""
  parseHost := some

/-- A call of a composition that a client makes with an empty request. -/
def emptyCall : CompositionCall Unit :=
  ⟨"users", ∅, ⟨"GET", "/users", ∅, ∅, "10.0.0.1", .absent⟩, ⟨some "01J", none⟩⟩

/-- The client gets a 502 that is neither counted nor recorded. -/
theorem failed_request_not_accounted :
    (serveComposition upstreamDown (staticComposition "/users" "GET") true emptyCall).written.map
        WrittenResponse.status = some 502 ∧
      ¬ (serveComposition upstreamDown (staticComposition "/users" "GET") true
        emptyCall).Accounted true emptyCall := by
  refine ⟨rfl, ?_⟩
  intro accounted
  cases (accounted _ rfl).1

end Restitch.Composition
