import Restitch.Composition.StepResult

/-!
# Step errors (`internal/composition/errors.go`)

The errors a step reports, and the `_errors` entries made from them.
-/

namespace Restitch.Composition

/-- Why `buildStepRequest` failed. -/
inductive BuildError where
  | path
  | query
  | body
  | marshal
  | request
  | header (key : String)
  | controlCharacters (key : String)
deriving DecidableEq

/-- Why a step whose dependencies succeeded has no result. `detail` is the text
of a wrapped error. -/
inductive StepFailure where
  | build (error : BuildError) (detail : String)
  /-- `deadline` says whether the wrapped error is `context.DeadlineExceeded`. -/
  | send (error : SendError) (detail : String) (deadline : Bool)
deriving DecidableEq

/-- The error of a step. -/
inductive StepErr where
  | stepNotFound
  | dependencyFailed
  | upstreamNotFound
  | failed (failure : StepFailure)
  | ruleMatched (status : Nat)
deriving DecidableEq

/-- The format of `err.Error()` up to its first argument. -/
def StepErr.start : StepErr → String
  | .stepNotFound => "step not found"
  | .dependencyFailed => "dependency_failed"
  | .upstreamNotFound => "upstream not found"
  | .failed (.build .path _) => "failed to evaluate path: "
  | .failed (.build .query _) => "failed to evaluate query: "
  | .failed (.build .body _) => "failed to evaluate body: "
  | .failed (.build .marshal _) => "failed to marshal body: "
  | .failed (.build .request _) => "failed to create request: "
  | .failed (.build (.header _) _) => "failed to evaluate header "
  | .failed (.build (.controlCharacters _) _) => "header "
  | .failed (.send .timeout _ _) => "timeout after "
  | .failed (.send .requestFailed _ _) => "request failed: "
  | .failed (.send .bodyUnread _ _) => "failed to read response body: "
  | .failed (.send .tooLarge _ _) => "response exceeds "
  | .ruleMatched _ => "error rule matched status "

/-- The rest of `err.Error()`. -/
def StepErr.rest : StepErr → String
  | .stepNotFound | .dependencyFailed | .upstreamNotFound => ""
  | .failed (.build (.header key) detail) => key ++ ": " ++ detail
  | .failed (.build (.controlCharacters key) _) => key ++ ": value contains control characters"
  | .failed (.build _ detail) => detail
  | .failed (.send .tooLarge detail _) => detail ++ " bytes"
  | .failed (.send _ detail _) => detail
  | .ruleMatched status => toString status ++ ": error rule matched"

/-- `err.Error()`. -/
def StepErr.text (err : StepErr) : String :=
  err.start ++ err.rest

/-- `errors.Is(err, context.DeadlineExceeded)`. -/
def StepErr.isDeadlineExceeded : StepErr → Bool
  | .failed (.send .timeout _ _) => true
  | .failed (.send _ _ deadline) => deadline
  | _ => false

/-- `errors.Is(err, ErrRuleMatched)`. -/
def StepErr.isRuleMatched : StepErr → Bool
  | .ruleMatched _ => true
  | _ => false

/-- `SanitizeErrorMessage`. -/
def sanitizeErrorMessage (err : StepErr) : String :=
  if err.isDeadlineExceeded then "timeout"
  else if err.isRuleMatched then "error rule matched"
  else if err.text = "dependency_failed" then "dependency_failed"
  else "upstream error"

/-- `stepError`. -/
structure StepError where
  stepName : String
  err : StepErr
  optional : Bool
deriving DecidableEq

/-- `StepErrorDetail`. -/
structure StepErrorDetail where
  step : String
  message : String
  status : String
deriving DecidableEq

/-- One entry of `BuildErrorsArray`. -/
def errorDetail (error : StepError) : StepErrorDetail :=
  let message := sanitizeErrorMessage error.err
  ⟨error.stepName, message, if message = "dependency_failed" then "skipped" else "failed"⟩

/-- `BuildErrorsArray`. -/
def buildErrorsArray (stepErrors : List StepError) : List StepErrorDetail :=
  stepErrors.map errorDetail

/-- `HasRequiredFailure`. -/
def hasRequiredFailure (stepErrors : List StepError) : Bool :=
  stepErrors.any fun error => !error.optional

/-- No other error reads like the one of a failed dependency: all begin with
another letter. -/
theorem text_eq_dependencyFailed (err : StepErr) :
    err.text = "dependency_failed" ↔ err = .dependencyFailed := by
  constructor
  · intro equal
    by_contra other
    have begins : err.start.toList.head?.any (· ≠ 'd') = true := by
      cases err with
      | dependencyFailed => exact absurd rfl other
      | stepNotFound | upstreamNotFound | ruleMatched =>
          rw [StepErr.start]
          decide
      | failed failure =>
          cases failure with
          | build error detail => cases error <;> rw [StepErr.start] <;> decide
          | send error detail deadline => cases error <;> rw [StepErr.start] <;> decide
    have first : (err.start ++ err.rest).toList.head? = some 'd' := by
      rw [← StepErr.text, equal]
      rfl
    rw [String.toList_append, List.head?_append] at first
    cases head : err.start.toList.head? with
    | none => simp [head] at begins
    | some c =>
        rw [head] at begins first
        cases first
        simp at begins
  · rintro rfl
    decide

/-- An entry says "skipped" exactly for a failed dependency. -/
theorem errorDetail_skipped_iff (error : StepError) :
    (errorDetail error).status = "skipped" ↔ error.err = .dependencyFailed := by
  have message : sanitizeErrorMessage error.err = "dependency_failed" ↔
      error.err = .dependencyFailed := by
    unfold sanitizeErrorMessage
    constructor
    · intro equal
      split at equal
      · exact absurd equal (by decide)
      · split at equal
        · exact absurd equal (by decide)
        · split at equal
          · rename_i text
            exact (text_eq_dependencyFailed _).mp text
          · exact absurd equal (by decide)
    · intro equal
      rw [equal]
      rfl
  rw [← message, errorDetail]
  split
  · rename_i skipped
    simp [skipped]
  · rename_i failed
    simp [failed]

end Restitch.Composition
