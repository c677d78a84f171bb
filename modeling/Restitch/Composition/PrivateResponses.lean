import Restitch.Composition.CallPhases

/-!
# Which responses are never shared

A response enters the cache, or reaches a caller that joined the flight of
another one, only after `isCacheable` accepted its header map. The map is asked
for the first value of a field only, and for whole parts of it.
-/

namespace Restitch.Composition

open Restitch.Std Restitch.Http Restitch.Semantics

variable {Value : Type}

/-- The elements of a comma-separated field value. A comma inside a quoted
string separates nothing. -/
def listElements : Bool → List Char → List Char → List (List Char)
  | _, current, [] => [current.reverse]
  | true, current, '\\' :: c :: rest => listElements true (c :: '\\' :: current) rest
  | quoted, current, '"' :: rest => listElements (!quoted) ('"' :: current) rest
  | false, current, ',' :: rest => current.reverse :: listElements false [] rest
  | quoted, current, c :: rest => listElements quoted (c :: current) rest

/-- The name of a directive, without its argument and in lower case. -/
def directiveName (element : List Char) : List Char :=
  (GoStrings.trimSpace (element.takeWhile fun c => c ≠ '=')).map Char.toLower

/-- A `Cache-Control` value with a private or no-store directive. -/
def hasPrivateDirective (value : String) : Bool :=
  (listElements false [] value.toList).any fun element =>
    ["private".toList, "no-store".toList].contains (directiveName element)

/-- A response for one user: any `Set-Cookie` field, or a private or no-store
directive in any `Cache-Control` line. -/
def UpstreamResponse.IsPrivate (response : UpstreamResponse) : Prop :=
  Header.fieldValues response.lines "Set-Cookie" ≠ [] ∨
    ∃ value ∈ Header.fieldValues response.lines "Cache-Control", hasPrivateDirective value = true

/-- The first line of a field says so: the first `Set-Cookie` line is not empty,
or the first `Cache-Control` line has a part that is the bare directive. -/
def UpstreamResponse.MarkedFirst (response : UpstreamResponse) : Prop :=
  (∃ value ∈ (Header.fieldValues response.lines "Set-Cookie").head?, value ≠ "") ∨
    ∃ value ∈ (Header.fieldValues response.lines "Cache-Control").head?,
      ∃ part ∈ value.toList.splitOn ',', isPrivatePart part = true

/-- The result of a flight that another caller ran. -/
def StepPhase.joinedResult : StepPhase Value → Option (StepResult Value)
  | .returned (.flight _) (.ok result) => some result
  | .finished (.flight _) (.ok result) => some result
  | _ => none

/-- In no run is the response stored in the cache, or the result of a caller
that joined a flight. -/
def NeverShared (decoder : BodyDecoder Value) (response : UpstreamResponse) : Prop :=
  ∀ state, (sharingSystem decoder).Reachable state →
    (∀ key entry, state.cache key = some entry →
      entry.response ≠ ⟨response.status, response.header, response.body⟩) ∧
    ∀ call step result, state.calls call = some step → step.phase.joinedResult = some result →
      ¬ (result.status = response.status ∧ result.headers = response.header ∧
        result.rawBody = response.body)

/-- The header map of a response is refused exactly when its first lines mark it. -/
theorem isCacheable_header (response : UpstreamResponse) :
    isCacheable response.header = false ↔ response.MarkedFirst := by
  have get (name : String) : response.header.get name =
      ((Header.fieldValues response.lines name).head?).getD "" := by
    rw [UpstreamResponse.header, Header.get, Header.values_ofLines, List.headD_eq_head?_getD]
  unfold isCacheable UpstreamResponse.MarkedFirst
  rw [get, get]
  have noPart : ("".toList.splitOn ',').any isPrivatePart = false := by decide
  cases cookie : (Header.fieldValues response.lines "Set-Cookie").head? with
  | some value =>
      cases control : (Header.fieldValues response.lines "Cache-Control").head? with
      | none => by_cases empty : value = "" <;> simp_all
      | some directives => by_cases empty : value = "" <;> simp_all
  | none =>
      cases control : (Header.fieldValues response.lines "Cache-Control").head? with
      | none => simp_all
      | some directives => simp_all

/-- What the shared state never holds. -/
structure SharingInvariant (state : SharedState Value) : Prop where
  cached : ∀ key entry, state.cache key = some entry →
    isCacheable entry.response.headers = true
  joined : ∀ call step result, state.calls call = some step →
    step.phase.joinedResult = some result → isCacheable result.headers = true

/-- The cache fill stores only what `isCacheable` accepts. -/
theorem SharingInvariant.fill {state : SharedState Value} (invariant : SharingInvariant state)
    (step : StepCall Value) (result : StepResult Value) :
    ∀ key entry, fillCache state step result key = some entry →
      isCacheable entry.response.headers = true := by
  intro key entry found
  unfold fillCache at found
  cases stored : fillTTL step.settings result with
  | none =>
      rw [stored] at found
      exact invariant.cached key entry found
  | some ttl =>
      simp only [stored, cacheSet] at found
      by_cases same : key = step.key
      · rw [same, Function.update_self] at found
        cases found
        unfold fillTTL at stored
        split at stored
        · rename_i accepted
          exact accepted.2.2.2
        · cases stored
      · rw [Function.update_of_ne same] at found
        exact invariant.cached key entry found

/-- Only responses that may be cached are stored. -/
theorem SharingInvariant.cacheAfter {state : SharedState Value} (invariant : SharingInvariant state)
    (step : StepCall Value) (phase : StepPhase Value) (key : String) (entry : CacheEntry)
    (found : cacheAfter state step phase key = some entry) :
    isCacheable entry.response.headers = true := by
  unfold Composition.cacheAfter at found
  split at found
  · cases at_ : step.phase <;> rw [at_] at found
    case returned => exact invariant.fill step _ key entry found
    all_goals exact invariant.cached key entry found
  · exact invariant.cached key entry found

/-- A caller keeps the value of a joined flight only if it may be shared. -/
theorem Moves.joinedResult {decoder : BodyDecoder Value} {state : SharedState Value}
    {call : CallId} {step : StepCall Value} {event : SharedEvent Value} {phase : StepPhase Value}
    {result : StepResult Value} (moves : Moves decoder state call step event phase)
    (joined : phase.joinedResult = some result) :
    step.phase.joinedResult = some result ∨ isCacheable result.headers = true := by
  cases moves with
  | hit | miss | join | lead | send | exchange | refuse => cases joined
  | @receive leader value at_ arrived accepted =>
      cases value with
      | error => cases joined
      | ok own =>
          cases joined
          exact .inr (accepted _ rfl)
  | @finish source outcome at_ =>
      left
      rw [at_]
      cases source <;> cases outcome <;> exact joined

/-- Every event keeps the invariant. -/
theorem SharingInvariant.step {decoder : BodyDecoder Value} {state next : SharedState Value}
    {event : SharedEvent Value} (invariant : SharingInvariant state)
    (stepped : sharedStep decoder state event = some next) : SharingInvariant next := by
  cases sharedStep_move stepped with
  | quiet _ calls _ _ cache =>
      refine ⟨fun key entry found => invariant.cached key entry (cache key entry found), ?_⟩
      rw [calls]
      exact invariant.joined
  | @start call settings key absent calls _ _ cache =>
      refine ⟨by rw [cache]; exact invariant.cached, ?_⟩
      intro other step result found joined
      rw [calls] at found
      by_cases same : other = call
      · rw [same, Function.update_self] at found
        cases found
        cases joined
      · rw [Function.update_of_ne same] at found
        exact invariant.joined other step result found joined
  | @move _ call step phase present moves calls _ _ cache =>
      refine ⟨by rw [cache]; exact invariant.cacheAfter step phase, ?_⟩
      intro other otherStep result found joined
      rw [calls] at found
      by_cases same : other = call
      · rw [same, Function.update_self] at found
        cases found
        rcases moves.joinedResult joined with before | accepted
        · exact invariant.joined call step result present before
        · exact accepted
      · rw [Function.update_of_ne same] at found
        exact invariant.joined other otherStep result found joined

/-- The invariant holds in every reachable state. -/
theorem sharingInvariant {decoder : BodyDecoder Value} {state : SharedState Value}
    (reached : (sharingSystem decoder).Reachable state) : SharingInvariant state := by
  refine System.Reachable.induction _ ?_ ?_ reached
  · intro state valid
    cases valid
    refine ⟨?_, ?_⟩
    · intro key entry found
      cases found
    · intro call step result found
      cases found
  · intro state event next _ invariant stepped
    exact invariant.step stepped

/-- A response that `isCacheable` refuses is never shared. -/
theorem neverShared_of_refused (decoder : BodyDecoder Value) {response : UpstreamResponse}
    (refused : isCacheable response.header = false) : NeverShared decoder response := by
  intro state reached
  have invariant := sharingInvariant reached
  refine ⟨?_, ?_⟩
  · intro key entry found stored
    have accepted := invariant.cached key entry found
    rw [stored, refused] at accepted
    cases accepted
  · intro call step result found joined same
    have accepted := invariant.joined call step result found joined
    rw [same.2.1, refused] at accepted
    cases accepted

/-- Two callers of one step with `coalesce`: the first runs the flight, the
second joins it. -/
def joinedFlight (Value : Type) (response : UpstreamResponse) : List (SharedEvent Value) :=
  let settings : StepSettings Value := ⟨"GET", none, true, [], response.body.length⟩
  [.start 0 settings "key", .start 1 settings "key", .lookup 0, .lookup 1, .proceed 0, .proceed 1,
   .respond 0 (.ok response), .receive 1]

/-- A response that `isCacheable` accepts reaches a caller that joined a flight. -/
theorem not_neverShared_of_accepted (decoder : BodyDecoder Value) {response : UpstreamResponse}
    (accepted : isCacheable response.header = true) : ¬ NeverShared decoder response := by
  intro never
  have ends : ∃ final step result,
      System.replay (sharedStep decoder) newExecutor (joinedFlight Value response) = some final ∧
      final.calls 1 = some step ∧ step.phase.joinedResult = some result ∧
      result.status = response.status ∧ result.headers = response.header ∧
      result.rawBody = response.body := by
    simp [joinedFlight, System.replay, sharedStep, callStep, lookupStep, proceedStep, newExecutor,
      SharedState.setPhase, sendStepRequest, matchErrorRule, flightValue, receiveValue, accepted,
      Function.update, StepPhase.joinedResult]
  obtain ⟨final, step, result, replayed, found, joined, same⟩ := ends
  have reached : (sharingSystem decoder).Reachable final :=
    System.reachable_of_replay (joinedFlight Value response) (.initial rfl) replayed
  exact (never final reached).2 1 step result found joined same

/-- A private response is never shared exactly when its first field lines mark
it: for every response, in any interleaving of any number of requests. -/
theorem private_response_never_shared (decoder : BodyDecoder Value)
    (response : UpstreamResponse) :
    (response.IsPrivate → NeverShared decoder response) ↔
      (response.IsPrivate → response.MarkedFirst) := by
  refine forall_congr' fun _ => ?_
  rw [← isCacheable_header]
  constructor
  · intro never
    by_contra accepted
    rw [Bool.not_eq_false] at accepted
    exact not_neverShared_of_accepted decoder accepted never
  · exact neverShared_of_refused decoder

/-- A second `Cache-Control` line is not looked at. -/
theorem private_response_shared :
    ¬ ∀ response : UpstreamResponse, response.IsPrivate →
      NeverShared (⟨fun _ => none, id, List.isEmpty⟩ : BodyDecoder (List UInt8)) response := by
  intro claimed
  let response : UpstreamResponse :=
    ⟨200, [("Cache-Control", "max-age=60"), ("Cache-Control", "private")], []⟩
  have isPrivate : response.IsPrivate :=
    .inr ⟨"private", by decide, by decide⟩
  exact not_neverShared_of_accepted _ (by decide) (claimed response isPrivate)

end Restitch.Composition
