import Restitch.Composition.Serve

/-!
# What a step leaves behind (`internal/composition/executor.go`)

Every exit of `executeStepWithErrorHandling`, and the timing it returns.
-/

namespace Restitch.Composition

/-- How a step ends. The error of `url.Parse` and of `Client.Do` names the URL, between two
other texts. -/
inductive StepExit where
  | stepNotFound
  | dependencyFailed
  | upstreamNotFound
  | buildFailed (error : BuildError) (detail : String)
  /-- `http.NewRequestWithContext` refuses the URL. -/
  | urlRefused (before after : String)
  /-- `RequestKey` fails. -/
  | keyFailed (detail : String)
  /-- `Client.Do` fails; `deadline` says whether with `context.DeadlineExceeded`. -/
  | requestFailed (before after : String) (deadline : Bool)
  /-- The body is not read, or too large. -/
  | bodyFailed (error : SendError) (detail : String) (deadline : Bool)
  | cached (status bodySize : Nat)
  | answered (status bodySize : Nat) (ruleMatched : Bool)
deriving DecidableEq

/-- The `Error` of a timing: `err.Error()`, or nothing. -/
def StepExit.error (url : String) : StepExit → String
  | .stepNotFound => StepErr.text .stepNotFound
  | .dependencyFailed => StepErr.text .dependencyFailed
  | .upstreamNotFound => StepErr.text .upstreamNotFound
  | .buildFailed error detail => StepErr.text (.failed (.build error detail))
  | .urlRefused before after =>
      StepErr.text (.failed (.build .request (before ++ url ++ after)))
  | .keyFailed detail => detail
  | .requestFailed before after deadline =>
      StepErr.text (.failed (.send (if deadline then .timeout else .requestFailed)
        (before ++ url ++ after) deadline))
  | .bodyFailed error detail deadline => StepErr.text (.failed (.send error detail deadline))
  | .cached _ _ => ""
  | .answered status _ ruleMatched => if ruleMatched then StepErr.text (.ruleMatched status) else ""

/-- The `Status` of a timing. -/
def StepExit.status : StepExit → String
  | .cached _ _ | .answered _ _ _ => "success"
  | .dependencyFailed => "skipped"
  | _ => "failed"

/-- `Execute` collects an error of the step. -/
def StepExit.hasError : StepExit → Bool
  | .cached _ _ => false
  | .answered _ _ ruleMatched => ruleMatched
  | _ => true

/-- The request was built, so the timing has its URL. -/
def StepExit.recordsURL : StepExit → Bool
  | .keyFailed _ | .requestFailed _ _ _ | .bodyFailed _ _ _ | .cached _ _ | .answered _ _ _ => true
  | _ => false

/-- The error names the URL. -/
def StepExit.namesURL : StepExit → Bool
  | .urlRefused _ _ | .requestFailed _ _ _ => true
  | _ => false

/-- The status of the result. -/
def StepExit.httpStatus : StepExit → Option Nat
  | .cached status _ | .answered status _ _ => some status
  | _ => none

def StepExit.bodySize : StepExit → Nat
  | .cached _ bodySize | .answered _ bodySize _ => bodySize
  | _ => 0

def StepExit.isCached : StepExit → Bool
  | .cached _ _ => true
  | _ => false

/-- One call of `executeStepWithErrorHandling`. `url` is the URL of the request, also if it
is refused. -/
structure StepAttempt where
  name : String
  wave : Nat
  duration : Nat
  startOffset : Nat
  optional : Bool
  upstream : String
  url : String
  exit : StepExit
deriving DecidableEq

/-- The timing that the call returns. Nothing ever sets `Retries`. -/
def StepAttempt.timing (attempt : StepAttempt) : StepTiming where
  name := attempt.name
  wave := attempt.wave
  duration := attempt.duration
  status := attempt.exit.status
  optional := attempt.exit ≠ .stepNotFound && attempt.optional
  upstream := if attempt.exit = .stepNotFound then "" else attempt.upstream
  url := if attempt.exit.recordsURL then attempt.url else ""
  startOffset := attempt.startOffset
  bodySize := attempt.exit.bodySize
  error := attempt.exit.error attempt.url
  cached := attempt.exit.isCached
  retries := 0

/-- The result of an `Execute` with these calls, in the order in which they ended. -/
def servedResult (attempts : List StepAttempt) : ServedResult where
  httpStatus := fun name =>
    ((attempts.map fun attempt => (attempt.name, attempt.exit.httpStatus)).lookup name).join
  isPartial := (attempts.map StepAttempt.exit).any StepExit.hasError
  stepTimings := attempts.map StepAttempt.timing

/-- Only an error that names the URL depends on it. -/
theorem StepExit.error_eq_iff (exit : StepExit) (first second : String) :
    exit.error first = exit.error second ↔ (exit.namesURL = true → first = second) := by
  have surrounded (start before after : String) :
      start ++ (before ++ first ++ after) = start ++ (before ++ second ++ after) ↔
        first = second := by
    rw [String.append_right_inj, String.append_left_inj, String.append_right_inj]
  cases exit with
  | urlRefused before after =>
      rw [namesURL, imp_iff_right rfl]
      exact surrounded _ before after
  | requestFailed before after deadline =>
      rw [namesURL, imp_iff_right rfl]
      cases deadline with
      | false => exact surrounded _ before after
      | true => exact surrounded _ before after
  | _ => simp [StepExit.error, namesURL]

end Restitch.Composition
