import Restitch.Composition.NilSafeResponse
import Restitch.Composition.Serve
import Restitch.Std.Dyadic

/-!
# Responses that are sent whole (`internal/composition/handler.go`)

`serveComposition` with the response template it evaluates. The status and the headers
are sent before the body is encoded.
-/

namespace Restitch.Composition

open Restitch.Std

variable {Error : Type}

/-- A value with the floats of Go. -/
abbrev ResponseValue := GoValue Float64.Value

mutual

/-- `json.Marshal` takes a value: no NaN or infinity, and no map with other keys than
texts. -/
def GoValue.encodable (encodesOther : String → Bool) : ResponseValue → Bool
  | .null | .bool _ | .int _ | .string _ | .stepErrors _ => true
  | .float value => value.isFinite
  | .list items => encodableItems encodesOther items
  | .map fields => encodableFields encodesOther fields
  | .anyMap _ => false
  | .other description => encodesOther description

def GoValue.encodableItems (encodesOther : String → Bool) : List ResponseValue → Bool
  | [] => true
  | item :: rest => item.encodable encodesOther && encodableItems encodesOther rest

def GoValue.encodableFields (encodesOther : String → Bool) : List (String × ResponseValue) → Bool
  | [] => true
  | (_, value) :: rest => value.encodable encodesOther && encodableFields encodesOther rest

end

/-- What the response template meets in a call: what its templates evaluate to, the failed
steps and the errors of the steps. -/
structure ResponseWorld (Error : Type) where
  evalValue : Template → Except (EvalError Error) ResponseValue
  failedSteps : List String
  stepErrors : List StepErrorDetail

/-- The response of a composition, the float64 of a YAML text, what the processor converts
a float to that is no 64-bit integer, and which other values have a JSON text. -/
structure ResponseSetup where
  template : CompiledResponse
  ofText : String → Float64.Value
  outside : Int
  encodesOther : String → Bool

namespace ResponseSetup

variable (setup : ResponseSetup) (world : ResponseWorld Error)

def evaluator : ResponseEvaluator Float64.Value Error :=
  ⟨world.evalValue, Float64.Value.toInt setup.outside, setup.ofText⟩

/-- `BuildResponse` in a call. -/
def build : Option (BuiltResponse ResponseValue) :=
  match Values.buildResponse (setup.evaluator world) world.failedSteps setup.template
      world.stepErrors with
  | .ok response => some ⟨response.status, response.contentType, response.body⟩
  | .error _ => none

/-- The code around a call, with this response template and encoder. -/
def runtime (world : RequestData ResponseValue → ServedResult → ResponseWorld Error)
    (base : ServeRuntime ResponseValue) : ServeRuntime ResponseValue :=
  { base with
    buildResponse := fun data result => setup.build (world data result)
    encode := GoValue.encodable setup.encodesOther }

/-- The status as the response template gives it: an integer, or a float that is one. -/
def exactStatus : Option Int :=
  match setup.template.status with
  | .unset => some 200
  | .static status => some status
  | .tmpl template =>
      match world.evalValue template with
      | .ok (.int status) => some status
      | .ok (.float status) => status.whole
      | _ => none

/-- The body of the response, once its templates are evaluated. -/
def bodyValue : ResponseValue :=
  Values.writeErrors world.stepErrors
    (Values.bodyValue (setup.evaluator world) setup.template.body)

/-- The templates of the response evaluate: the status to a number, and no template of the
body errors but for a failed step. -/
def Evaluates : Prop :=
  Values.StatusNumeric (setup.evaluator world) setup.template.status ∧
    ∀ template ∈ setup.template.body.templates,
      Values.Excused (setup.evaluator world) world.failedSteps template

/-- A status with a body, and a body with a JSON text. -/
def Sendable : Prop :=
  ∃ status, setup.exactStatus world = some status ∧ 200 ≤ status ∧ status ≤ 599 ∧
    status ≠ 204 ∧ status ≠ 304 ∧ (setup.bodyValue world).encodable setup.encodesOther = true

/-- The response is sent with its status, its headers and its whole body, or the client
gets the error of `serveComposition`. -/
def WholeOrError (result : ServedResult) (effects : ServeEffects ResponseValue) : Prop :=
  (∃ status, setup.exactStatus world = some status ∧ 100 ≤ status ∧ status ≤ 599 ∧
      effects.written = some ⟨status, responseHeader setup.template.contentType result.isPartial,
        .value (setup.bodyValue world)⟩) ∨
    effects.written = (writeJSON 500 (.error "internal error") []).written

end ResponseSetup

/-- A call gets to its response: the body of the request is read and valid, and `Execute`
returns its results. -/
structure GetsToResponse (runtime : ServeRuntime ResponseValue) (comp : CompositionConfig)
    (call : CompositionCall ResponseValue) (data : RequestData ResponseValue)
    (result : ServedResult) : Prop where
  body : ∃ body, readBody runtime comp call.request = .ok body ∧
    (runtime.schema.bind fun validate => validate body) = none ∧ data = call.requestData body
  executes : runtime.execute data = .ok result

section Whole

variable {setup : ResponseSetup} {world : ResponseWorld Error}

/-- A response that evaluates is built with the evaluated status and body. -/
theorem ResponseSetup.build_of_evaluates (evaluates : setup.Evaluates world) :
    ∃ status, Values.evalStatus (setup.evaluator world) setup.template.status = .ok status ∧
      setup.build world = some ⟨status, setup.template.contentType, setup.bodyValue world⟩ := by
  obtain ⟨status, hasStatus⟩ := Values.evalStatus_ok_iff.mpr evaluates.1
  refine ⟨status, hasStatus, ?_⟩
  rw [build, Values.buildResponse, hasStatus]
  dsimp only
  rw [Values.evaluateBodyNode_of_excused [] setup.template.body evaluates.2]
  rfl

/-- A response that does not evaluate is not built. -/
theorem ResponseSetup.build_of_not_evaluates (fails : ¬ setup.Evaluates world) :
    setup.build world = none := by
  rw [build]
  split
  · rename_i response builds
    refine absurd ?_ fails
    have excused := Values.excused_of_buildResponse builds
    rw [CompiledResponse.templates, List.forall_mem_append] at excused
    rw [Values.buildResponse] at builds
    split at builds
    · cases builds
    · exact ⟨Values.evalStatus_ok_iff.mp ⟨_, ‹_›⟩, excused.2⟩
  · rfl

/-- A status that is an integer is evaluated to it. -/
theorem ResponseSetup.evalStatus_of_exact {status evaluated : Int}
    (exact_ : setup.exactStatus world = some status)
    (fits : -9223372036854775808 ≤ status ∧ status < 9223372036854775808)
    (evaluates : Values.evalStatus (setup.evaluator world) setup.template.status =
      .ok evaluated) : evaluated = status := by
  rw [exactStatus] at exact_
  rw [Values.evalStatus.eq_def] at evaluates
  cases source : setup.template.status with
  | unset =>
      rw [source] at exact_ evaluates
      cases exact_
      cases evaluates
      rfl
  | static number =>
      rw [source] at exact_ evaluates
      cases exact_
      cases evaluates
      rfl
  | tmpl template =>
      rw [source] at exact_ evaluates
      dsimp only [evaluator] at exact_ evaluates
      cases value : world.evalValue template with
      | error error =>
          rw [value] at exact_
          cases exact_
      | ok value' =>
          rw [value] at exact_ evaluates
          cases value' with
          | int number =>
              cases exact_
              cases evaluates
              rfl
          | float number =>
              cases evaluates
              exact Float64.Value.toInt_of_whole exact_ fits
          | null | bool | string | list | map | anyMap | stepErrors | other => cases exact_

/-- A call that gets to its response ends with the response or the error. -/
theorem serveComposition_of_getsToResponse
    {worldOf : RequestData ResponseValue → ServedResult → ResponseWorld Error}
    {base : ServeRuntime ResponseValue} {comp : CompositionConfig} {hasRecorder : Bool}
    {call : CompositionCall ResponseValue} {data : RequestData ResponseValue}
    {result : ServedResult}
    (reaches : GetsToResponse (setup.runtime worldOf base) comp call data result) :
    serveComposition (setup.runtime worldOf base) comp hasRecorder call =
      match setup.build (worldOf data result) with
      | none => writeJSON 500 (.error "internal error") []
      | some response =>
          finishResponse (setup.runtime worldOf base) hasRecorder call result response := by
  obtain ⟨body, read, valid, isData⟩ := reaches.body
  have executes := reaches.executes
  rw [isData] at executes
  rw [serveComposition, read]
  dsimp only
  rw [valid]
  dsimp only
  rw [executes, isData]
  have built : (setup.runtime worldOf base).buildResponse (call.requestData body) result =
    setup.build (worldOf (call.requestData body) result) := rfl
  dsimp only
  rw [built]
  cases setup.build (worldOf (call.requestData body) result) <;> rfl

/-- What is written of an evaluated response. -/
theorem written_finishResponse (runtime : ServeRuntime ResponseValue) (hasRecorder : Bool)
    (call : CompositionCall ResponseValue) (result : ServedResult)
    (response : BuiltResponse ResponseValue) :
    (finishResponse runtime hasRecorder call result response).written =
      some ⟨if invalidStatus response.status then 500
          else if informational response.status then 200 else response.status,
        responseHeader response.contentType result.isPartial,
        if invalidStatus response.status || bodyNotAllowed response.status ||
          !runtime.encode response.body then .empty else .value response.body⟩ := by
  rw [finishResponse]
  dsimp only
  cases invalidStatus response.status with
  | true => rfl
  | false =>
      cases bodyNotAllowed response.status <;> cases runtime.encode response.body <;> rfl

/-- All of an evaluated response is written exactly if its status can be sent with a body,
and the body has a JSON text. -/
theorem written_finishResponse_eq_iff {runtime : ServeRuntime ResponseValue} {hasRecorder : Bool}
    {call : CompositionCall ResponseValue} {result : ServedResult}
    {response : BuiltResponse ResponseValue}
    (bounds : 100 ≤ response.status ∧ response.status ≤ 599) :
    (finishResponse runtime hasRecorder call result response).written =
        some ⟨response.status, responseHeader response.contentType result.isPartial,
          .value response.body⟩ ↔
      200 ≤ response.status ∧ response.status ≠ 204 ∧ response.status ≠ 304 ∧
        runtime.encode response.body = true := by
  have valid : invalidStatus response.status = false := by
    simp [invalidStatus]
    omega
  rw [written_finishResponse, valid, Option.some.injEq, WrittenResponse.mk.injEq]
  simp only [Bool.false_eq_true, if_false, Bool.false_or, true_and]
  by_cases interim : informational response.status = true
  · have status := interim
    simp only [informational, Bool.and_eq_true, decide_eq_true_eq] at status
    rw [if_pos interim]
    omega
  · have status := interim
    simp only [informational, Bool.and_eq_true, decide_eq_true_eq] at status
    rw [if_neg interim]
    cases encodes : runtime.encode response.body with
    | false => simp
    | true =>
        cases refused : bodyNotAllowed response.status with
        | true =>
            simp only [bodyNotAllowed, Bool.or_eq_true, decide_eq_true_eq] at refused
            simp
            omega
        | false =>
            simp only [bodyNotAllowed, Bool.or_eq_false_iff, decide_eq_false_iff_not] at refused
            simp
            omega

/-- A call that gets to its response sends it whole or the error exactly if a response that
evaluates has a status from 200 to 599, other than 204 and 304, that is an integer, and a
body with a JSON text. -/
theorem wholeOrError_iff (setup : ResponseSetup)
    (worldOf : RequestData ResponseValue → ServedResult → ResponseWorld Error)
    (base : ServeRuntime ResponseValue) (comp : CompositionConfig) (hasRecorder : Bool)
    (call : CompositionCall ResponseValue) (data : RequestData ResponseValue)
    (result : ServedResult)
    (reaches : GetsToResponse (setup.runtime worldOf base) comp call data result) :
    setup.WholeOrError (worldOf data result) result
        (serveComposition (setup.runtime worldOf base) comp hasRecorder call) ↔
      (setup.Evaluates (worldOf data result) → setup.Sendable (worldOf data result)) := by
  rw [serveComposition_of_getsToResponse reaches]
  by_cases evaluates : setup.Evaluates (worldOf data result)
  · obtain ⟨evaluated, hasStatus, built⟩ := ResponseSetup.build_of_evaluates evaluates
    rw [built, forall_prop_of_true evaluates]
    dsimp only
    constructor
    · rintro (⟨status, exact_, least, most, written⟩ | error)
      · obtain rfl := ResponseSetup.evalStatus_of_exact exact_ (by omega) hasStatus
        obtain ⟨final, empty, notModified, encodes⟩ :=
          (written_finishResponse_eq_iff ⟨least, most⟩).mp written
        exact ⟨evaluated, exact_, final, most, empty, notModified, encodes⟩
      · rw [written_finishResponse] at error
        have body := congrArg WrittenResponse.body (Option.some.inj error)
        dsimp only at body
        split at body <;> cases body
    · rintro ⟨status, exact_, least, most, empty, notModified, encodes⟩
      obtain rfl := ResponseSetup.evalStatus_of_exact exact_ (by omega) hasStatus
      have inRange : 100 ≤ evaluated := by omega
      exact .inl ⟨evaluated, exact_, inRange, most,
        (written_finishResponse_eq_iff ⟨inRange, most⟩).mpr
          ⟨least, empty, notModified, encodes⟩⟩
  · rw [ResponseSetup.build_of_not_evaluates evaluates]
    exact iff_of_true (.inr rfl) fun both => absurd both evaluates

end Whole

/-- A composition without steps. -/
def answeringBase : ServeRuntime ResponseValue where
  nil := .null
  parseMediaType := fun _ => none
  unmarshal := fun _ => none
  schema := none
  execute := fun _ => .ok ⟨fun _ => none, false, []⟩
  clientGone := false
  buildResponse := fun _ _ => none
  encode := fun _ => true
  start := 0
  duration := 0
  traceID := ""
  parseHost := some

def codesComposition : CompositionConfig :=
  ⟨"/codes", "GET", true, [], ⟨.null, "application/json", .null⟩, 0, none, none⟩

def codesCall : CompositionCall ResponseValue :=
  ⟨"codes", ∅, ⟨"GET", "/codes", ∅, ∅, "10.0.0.1", .absent⟩, ⟨some "01J", none⟩⟩

/-- A response with this status and the body `null`. -/
def statusSetup (status : StatusSource) : ResponseSetup where
  template := ⟨status, .literal .null, "application/json"⟩
  ofText _ := .nan
  outside := 0
  encodesOther _ := false

/-- The status is `req.query.code` in braces, converted to a number. -/
def codeTemplate : Template where
  raw := "\x7b\x7b int(req.query.code) \x7d\x7d"
  segments := [.program "int(req.query.code)"
    (.other (.builtin "int")
      [.member (.member (.identifier "req") (.string "query") false) (.string "code") false])]
  deps := []
  isSingle := true

/-- The client asks for this status. -/
def askedFor (code : Int) (_data : RequestData ResponseValue) (_result : ServedResult) :
    ResponseWorld String where
  evalValue _ := .ok (.int code)
  failedSteps := []
  stepErrors := []

theorem codesCall_getsToResponse (status : StatusSource) (code : Int) :
    GetsToResponse ((statusSetup status).runtime (askedFor code) answeringBase) codesComposition
      codesCall (codesCall.requestData .null) ⟨fun _ => none, false, []⟩ :=
  ⟨⟨.null, rfl, rfl, rfl⟩, rfl⟩

/-- The status 404 is answered whole. -/
theorem wholeOrError_404 :
    (statusSetup (.tmpl codeTemplate)).WholeOrError
        (askedFor 404 (codesCall.requestData .null) ⟨fun _ => none, false, []⟩)
        ⟨fun _ => none, false, []⟩
        (serveComposition ((statusSetup (.tmpl codeTemplate)).runtime (askedFor 404) answeringBase)
          codesComposition false codesCall) ↔
      ((statusSetup (.tmpl codeTemplate)).Evaluates
          (askedFor 404 (codesCall.requestData .null) ⟨fun _ => none, false, []⟩) →
        (statusSetup (.tmpl codeTemplate)).Sendable
          (askedFor 404 (codesCall.requestData .null) ⟨fun _ => none, false, []⟩)) :=
  wholeOrError_iff (statusSetup (.tmpl codeTemplate)) (askedFor 404) answeringBase codesComposition
    false codesCall (codesCall.requestData .null) ⟨fun _ => none, false, []⟩
    (codesCall_getsToResponse (.tmpl codeTemplate) 404)

/-- A client that asks for the status 700 gets it. -/
theorem not_wholeOrError_700 :
    GetsToResponse ((statusSetup (.tmpl codeTemplate)).runtime (askedFor 700) answeringBase)
        codesComposition codesCall (codesCall.requestData .null) ⟨fun _ => none, false, []⟩ ∧
      ¬ (statusSetup (.tmpl codeTemplate)).WholeOrError
        (askedFor 700 (codesCall.requestData .null) ⟨fun _ => none, false, []⟩)
        ⟨fun _ => none, false, []⟩
        (serveComposition ((statusSetup (.tmpl codeTemplate)).runtime (askedFor 700) answeringBase)
          codesComposition false codesCall) := by
  refine ⟨codesCall_getsToResponse (.tmpl codeTemplate) 700, ?_⟩
  rintro (⟨status, exact_, -, most, -⟩ | error)
  · cases exact_
    exact absurd most (by decide)
  · rw [serveComposition_of_getsToResponse (codesCall_getsToResponse (.tmpl codeTemplate) 700)]
      at error
    have status := congrArg (Option.map WrittenResponse.status) error
    exact absurd status (by decide)

end Restitch.Composition
