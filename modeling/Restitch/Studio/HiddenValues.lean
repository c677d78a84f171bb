import Restitch.Composition.StepTimings
import Restitch.Reqlog.Redaction
import Restitch.Studio.Requests

/-!
# Query values and user info in records

Two executions that differ only in these leave the same record, unless an error names a URL
or a query has no well-formed setting.
-/

namespace Restitch.Studio

open Restitch.Composition Restitch.Http Restitch.Reqlog

variable {Value : Type}

section

variable (parseHost : List Char → Option (List Char))

/-- Two calls of a step that differ only in values of their URLs. -/
structure SameButValues (first second : StepAttempt) : Prop where
  others : { first with url := second.url } = second
  urls : DifferInValues parseHost first.url second.url

/-- No error shows the difference, and no recorded URL does. -/
def ValuesHidden (first second : StepAttempt) : Prop :=
  (first.exit.namesURL = true → first.url = second.url) ∧
    (first.exit.recordsURL = true → SameShownKeys parseHost first.url second.url)

end

section

variable {parseHost : List Char → Option (List Char)} {first second : List StepAttempt}

/-- What does not look at the URLs is the same for attempts that differ in their values. -/
theorem map_eq_of_sameButValues (same : List.Forall₂ (SameButValues parseHost) first second)
    {α : Type} {view : StepAttempt → α}
    (ignores : ∀ attempt url, view { attempt with url } = view attempt) :
    first.map view = second.map view := by
  induction same with
  | nil => rfl
  | @cons one other _ _ here _ ih =>
      have equal : view one = view other := by
        rw [← here.others]
        exact (ignores one other.url).symm
      rw [List.map_cons, List.map_cons, ih, equal]

/-- The statuses of the steps do not depend on the URLs. -/
theorem servedResult_eq (same : List.Forall₂ (SameButValues parseHost) first second) :
    servedResult first = { servedResult second with
      stepTimings := first.map StepAttempt.timing } := by
  have statuses : first.map (fun attempt => (attempt.name, attempt.exit.httpStatus)) =
      second.map fun attempt => (attempt.name, attempt.exit.httpStatus) :=
    map_eq_of_sameButValues same fun _ _ => rfl
  have exits : first.map StepAttempt.exit = second.map StepAttempt.exit :=
    map_eq_of_sameButValues same fun _ _ => rfl
  rw [servedResult, servedResult, statuses, exits]

/-- The records of two such calls are equal exactly if the values are hidden. -/
theorem stepRecord_eq_iff (runtime : ServeRuntime Value) (result : ServedResult)
    {first second : StepAttempt} (same : SameButValues runtime.parseHost first second) :
    stepRecord runtime result first.timing = stepRecord runtime result second.timing ↔
      ValuesHidden runtime.parseHost first second := by
  obtain ⟨others, urls⟩ := same
  have urlShown : redactURL runtime.parseHost (if first.exit.recordsURL then first.url else "") =
      redactURL runtime.parseHost (if first.exit.recordsURL then second.url else "") ↔
        (first.exit.recordsURL = true →
          SameShownKeys runtime.parseHost first.url second.url) := by
    split
    · rename_i recorded
      rw [redactURL_eq_iff urls, imp_iff_right recorded]
    · rename_i unrecorded
      exact iff_of_true rfl fun recorded => absurd recorded unrecorded
  rw [ValuesHidden, ← StepExit.error_eq_iff, ← urlShown, ← others]
  simp only [stepRecord, StepAttempt.timing, StepRecord.mk.injEq, true_and, and_true]
  exact and_comm

/-- The recorded attempts are equal exactly if the values are hidden in each. -/
theorem stepRecords_eq_iff (runtime : ServeRuntime Value) (result : ServedResult)
    (same : List.Forall₂ (SameButValues runtime.parseHost) first second) :
    (first.map StepAttempt.timing).map (stepRecord runtime result) =
        (second.map StepAttempt.timing).map (stepRecord runtime result) ↔
      List.Forall₂ (ValuesHidden runtime.parseHost) first second := by
  induction same with
  | nil => exact iff_of_true rfl .nil
  | cons here _ ih =>
      simp only [List.map_cons, List.cons.injEq, List.forall₂_cons, stepRecord_eq_iff runtime result
        here, ih]

/-- The records of two executions, and the rows that Studio makes of them, are equal exactly
if the values of every step are hidden. -/
theorem records_equal_iff (runtime : ServeRuntime Value) (call : CompositionCall Value)
    (status : Int) (environment instanceID : String) (number : RequestNumber)
    (first second : List StepAttempt)
    (same : List.Forall₂ (SameButValues runtime.parseHost) first second) :
    (requestRecord runtime call (servedResult first) status =
        requestRecord runtime call (servedResult second) status ∧
      requestRow runtime.parseHost environment instanceID
          (number, requestRecord runtime call (servedResult first) status) =
        requestRow runtime.parseHost environment instanceID
          (number, requestRecord runtime call (servedResult second) status)) ↔
      List.Forall₂ (ValuesHidden runtime.parseHost) first second := by
  have result := servedResult_eq same
  have steps : (requestRecord runtime call (servedResult first) status).steps =
      (first.map StepAttempt.timing).map (stepRecord runtime (servedResult second)) := by
    rw [result]
    rfl
  constructor
  · rintro ⟨records, -⟩
    rw [← stepRecords_eq_iff runtime (servedResult second) same, ← steps, records]
    rfl
  · intro hidden
    have sameSteps : (requestRecord runtime call (servedResult first) status).steps =
        (requestRecord runtime call (servedResult second) status).steps := by
      rw [steps, (stepRecords_eq_iff runtime (servedResult second) same).mpr hidden]
      rfl
    have records : requestRecord runtime call (servedResult first) status =
        requestRecord runtime call (servedResult second) status := by
      calc requestRecord runtime call (servedResult first) status
        _ = { requestRecord runtime call (servedResult second) status with
              steps := (requestRecord runtime call (servedResult first) status).steps } := by
            rw [result]
            rfl
        _ = requestRecord runtime call (servedResult second) status := by rw [sameSteps]
    exact ⟨records, by rw [records]⟩

end

/-- An optional step whose URL has a token. -/
def profileStep (token : String) (exit : StepExit) : StepAttempt :=
  ⟨"profile", 1, 5, 0, true, "users", "http://users.internal/profile?token=" ++ token, exit⟩

theorem parseURL_profileStep {token : String} (isToken : token ∈ ["a", "b"]) (exit : StepExit) :
    parseURL some (profileStep token exit).url.toList =
      some ⟨"http".toList, [], none, "users.internal".toList, utf8 "/profile".toList, [], false,
        false, ("token=" ++ token).toList, [], []⟩ := by
  revert token
  change ∀ token ∈ ["a", "b"], parseURL some ("http://users.internal/profile?token=" ++ token).toList =
      some ⟨"http".toList, [], none, "users.internal".toList, utf8 "/profile".toList, [], false,
        false, ("token=" ++ token).toList, [], []⟩
  decide +kernel

theorem sameButValues_profileStep (exit : StepExit) :
    List.Forall₂ (SameButValues some) [profileStep "a" exit] [profileStep "b" exit] := by
  refine .cons ⟨rfl, ?_⟩ .nil
  unfold DifferInValues
  rw [parseURL_profileStep (by decide), parseURL_profileStep (by decide)]
  exact ⟨rfl, rfl, .cons (by decide) .nil⟩

/-- A gateway whose composition has run these steps. -/
def ranSteps (attempts : List StepAttempt) : ServeRuntime Unit where
  nil := ()
  parseMediaType := fun _ => none
  unmarshal := fun _ => none
  schema := none
  execute := fun _ => .ok (servedResult attempts)
  clientGone := false
  buildResponse := fun _ _ => some ⟨200, "application/json", ()⟩
  encode := fun _ => true
  start := 0
  duration := 6
  traceID := ""
  parseHost := some

/-- A call without a body. -/
def profileCall : CompositionCall Unit :=
  ⟨"users", ∅, ⟨"GET", "/users", ∅, ∅, "10.0.0.1", .absent⟩, ⟨some "01J", none⟩⟩

/-- The token of a request that was answered. -/
theorem records_equal_of_answered :
    let first := requestRecord (ranSteps []) profileCall
      (servedResult [profileStep "a" (.answered 200 12 false)]) 200
    let second := requestRecord (ranSteps []) profileCall
      (servedResult [profileStep "b" (.answered 200 12 false)]) 200
    first = second ∧ requestRow some "prod" "g1" (0, first) = requestRow some "prod" "g1" (0, second) := by
  refine (records_equal_iff (ranSteps []) profileCall 200 "prod" "g1" 0 _ _
    (sameButValues_profileStep (.answered 200 12 false))).mpr (.cons ⟨nofun, fun _ => ?_⟩ .nil)
  intro first second isFirst isSecond
  cases (parseURL_profileStep (by decide) _).symm.trans isFirst
  cases (parseURL_profileStep (by decide) _).symm.trans isSecond
  rw [← queryKeys_eq_iff, ← queryKeys_eq_nil_iff]
  decide +kernel

/-- The token of a request that failed: its error names the URL. -/
theorem failed_request_shows_token :
    List.Forall₂ (SameButValues some)
        [profileStep "a" (.requestFailed "Get \"" "\": connection refused" false)]
        [profileStep "b" (.requestFailed "Get \"" "\": connection refused" false)] ∧
      (serveComposition
          (ranSteps [profileStep "a" (.requestFailed "Get \"" "\": connection refused" false)])
          (staticComposition "/users" "GET") true profileCall).records ≠
        (serveComposition
          (ranSteps [profileStep "b" (.requestFailed "Get \"" "\": connection refused" false)])
          (staticComposition "/users" "GET") true profileCall).records := by
  refine ⟨sameButValues_profileStep _, ?_⟩
  intro equal
  have errors := congrArg (List.map fun record => record.steps.map StepRecord.error) equal
  revert errors
  decide +kernel

end Restitch.Studio
