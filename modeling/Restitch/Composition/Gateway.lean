import Restitch.Composition.Response
import Restitch.Composition.Sharing

/-!
# Requests to one gateway (`handler.go`, `executor.go`, `response.go`)

Any number of requests to the compositions of one compiled config, over one store
of JSON objects. The config holds the bodies of its error rules, a step result holds
the object its body was parsed to or the body of a rule, and a caller that joined a
flight holds the result of the leader itself. A step may start at any time: the
waves of the plan only rule out some of the interleavings.
-/

namespace Restitch.Composition

open Restitch.Http Restitch.Semantics Restitch.Std Restitch.Std.ObjectHeap

/-- A parsed JSON text. References are indices into its own cells. -/
structure Document where
  root : Val
  cells : Store
  root_within : Within (fun _ => True) (fun _ => False) cells root
  cells_within : ∀ cell ∈ cells, ∀ v ∈ cell.data,
    Within (fun _ => True) (fun _ => False) cells v

/-- A step as the executor runs it. -/
structure GatewayStep where
  templates : StepTemplates
  optional : Bool
  settings : StepSettings Val

structure GatewayComposition where
  steps : List (String × GatewayStep)
  response : CompiledResponse

/-- A compiled config whose error rules are in a store. -/
structure GatewayConfig where
  store : Store
  compositions : List (String × GatewayComposition)
  store_within : ∀ cell ∈ store, ∀ v ∈ cell.data,
    Within (fun _ => True) (fun _ => False) store v
  rules_within : ∀ comp ∈ compositions, ∀ step ∈ comp.2.steps, ∀ rule ∈ step.2.settings.errorRules,
    Within (fun _ => True) (fun _ => False) store rule.body

/-- The store with the cells of a document, and the value of the document there. -/
def place (document : Document) (store : Store) : Val × Store :=
  (document.root.shift store.length, store ++ document.cells.map (Cell.shift store.length))

/-- One request, with the calls that execute its steps and the errors of steps that
did not get to one. -/
structure RequestRecord where
  composition : GatewayComposition
  inbound : InboundRequest
  calls : List (String × CallId)
  errors : List StepError

structure GatewayState where
  store : Store
  shared : SharedState Val
  requests : RequestId → Option RequestRecord
  /-- The values that step requests and responses were made of. -/
  outputs : List (RequestId × Val)

inductive GatewayEvent where
  /-- A request for a composition arrives. -/
  | begin (rid : RequestId) (composition : String) (leaves : List (String × Leaf))
      (body auth : Option Document)
  /-- The request of a step is built, under this key. -/
  | startStep (rid : RequestId) (step : String) (call : CallId) (key : String)
  /-- A step is skipped, or its request does not build. -/
  | failStep (rid : RequestId) (step : String) (err : StepErr)
  /-- An event of a step execution, of the clock or of the janitor. -/
  | exec (event : SharedEvent Val)
  /-- `BuildResponse`. -/
  | finish (rid : RequestId)

/-- The entry of one call in `results`, once there is one. -/
def callResult (shared : SharedState Val) (call : CallId) : Option (Option (StepResult Val)) :=
  match (shared.calls call).map StepCall.phase with
  | some (.finished _ (.ok result)) => some (some result)
  | some (.finished _ (.error _)) => some none
  | _ => none

/-- Whether the error of a step comes with a nil entry in `results`. -/
def StepErr.leavesNil : StepErr → Bool
  | .dependencyFailed | .failed _ => true
  | .stepNotFound | .upstreamNotFound | .ruleMatched _ => false

/-- `results`. -/
def RequestRecord.results (record : RequestRecord) (shared : SharedState Val) : StepResults :=
  record.calls.filterMap (fun call => (callResult shared call.2).map fun result => (call.1, result))
    ++ (record.errors.filter (·.err.leavesNil)).map fun error => (error.stepName, none)

/-- `step.Optional`. -/
def GatewayComposition.isOptional (composition : GatewayComposition) (name : String) : Bool :=
  ((composition.steps.lookup name).map GatewayStep.optional).getD false

/-- The error of a step whose call has ended. Its text reaches the log only and is
left out. -/
def callError (composition : GatewayComposition) (shared : SharedState Val) (name : String)
    (call : CallId) : Option StepError :=
  match (shared.calls call).map StepCall.phase with
  | some (.finished _ (.ok result)) =>
      if result.errorRuleMatched then some ⟨name, .ruleMatched result.status, true⟩ else none
  | some (.finished _ (.error error)) =>
      some ⟨name, .failed (.send error "" false), composition.isOptional name⟩
  | _ => none

/-- `allErrors`. -/
def RequestRecord.allErrors (record : RequestRecord) (shared : SharedState Val) :
    List StepError :=
  record.calls.filterMap (fun call => callError record.composition shared call.1 call.2) ++
    record.errors

/-- `StepErrors` of the result. -/
def RequestRecord.stepErrors (record : RequestRecord) (shared : SharedState Val) :
    List StepErrorDetail :=
  buildErrorsArray (record.allErrors shared)

/-- `failedSteps`. -/
def failedSteps (results : StepResults) : List String :=
  results.filterMap fun result => if result.2.isNone then some result.1 else none

section Step

variable {Error : Type} (config : GatewayConfig) (runtime : ExprRuntime Error)
  (parse : List UInt8 → Option Document)

/-- `json.Unmarshal` and the other readings of a body, with new objects at the end
of the store. -/
def decoderAt (store : Store) : BodyDecoder Val where
  unmarshal bytes := (parse bytes).map fun document => (place document store).1
  text bytes := .scalar (.text (String.ofList (bytes.map fun byte => Char.ofNat byte.toNat)))
  isNil value := value = .scalar .null

/-- The bytes that an event may parse. Objects that it does not use in the end are
garbage. -/
def parsedBytes (shared : SharedState Val) : SharedEvent Val → Option (List UInt8)
  | .respond _ (.ok response) => some response.body
  | .lookup call =>
      (shared.calls call).bind fun step =>
        (cacheGet shared.cache shared.now step.key).map CachedResponse.body
  | _ => none

/-- The store after an event has parsed what it parses. -/
def parsedStore (shared : SharedState Val) (store : Store) (event : SharedEvent Val) : Store :=
  match (parsedBytes shared event).bind parse with
  | some document => (place document store).2
  | none => store

/-- The segments of all templates of a step, in the order of `buildStepRequest`. -/
def StepTemplates.segments (templates : StepTemplates) : List Segment :=
  templates.pathPart.segments ++ (templates.queryPart.map Template.segments).getD [] ++
    (templates.bodyTmpl.map Template.segments).getD [] ++
    templates.headers.entries.flatMap fun entry => entry.2.segments

/-- The values that the expressions of a request evaluate to. -/
def programValues (env : List (String × Val)) :
    List Segment → Store → Except (EvalError Error) (List Val × Store)
  | [], store => .ok ([], store)
  | .literal _ :: rest, store => programValues env rest store
  | .program expr node :: rest, store =>
      match runOn runtime env expr node store with
      | .error error => .error error
      | .ok (value, grown) =>
          (programValues env rest grown).map fun later => (value :: later.1, later.2)

/-- A value at the end of the store, or nil. -/
def placeOptional (document : Option Document) (store : Store) : Val × Store :=
  match document with
  | some document => place document store
  | none => (.scalar .null, store)

def GatewayState.setRequest (state : GatewayState) (rid : RequestId) (record : RequestRecord) :
    GatewayState :=
  { state with requests := Function.update state.requests rid (some record) }

@[simp] theorem GatewayState.setRequest_requests (state : GatewayState) (rid : RequestId)
    (record : RequestRecord) :
    (state.setRequest rid record).requests = Function.update state.requests rid (some record) :=
  rfl

/-- A request arrives: its body and claims are parsed. -/
def beginRequest (state : GatewayState) (rid : RequestId) (composition : GatewayComposition)
    (leaves : List (String × Leaf)) (body auth : Option Document) : GatewayState :=
  let (body, store) := placeOptional body state.store
  let (auth, store) := placeOptional auth store
  { state with store }.setRequest rid ⟨composition, ⟨leaves, body, auth⟩, [], []⟩

/-- The request of a step is built and its execution starts. -/
def startStep (state : GatewayState) (rid : RequestId) (record : RequestRecord) (name : String)
    (step : GatewayStep) (call : CallId) (key : String) : Option GatewayState :=
  let (env, store) := allocRequestEnv record.inbound (record.results state.shared) state.store
  match programValues runtime env step.templates.segments store with
  | .error _ => none
  | .ok (values, store) =>
      (sharedStep (decoderAt parse state.store) state.shared
        (.start call step.settings key)).map fun shared =>
          { state with
            store
            shared
            outputs := state.outputs ++ values.map fun value => (rid, value) }.setRequest rid
              { record with calls := record.calls ++ [(name, call)] }

/-- `BuildResponse`. When it fails, or `Execute` did, the client gets a fixed text. -/
def finishRequest (state : GatewayState) (rid : RequestId) (record : RequestRecord) :
    GatewayState :=
  let results := record.results state.shared
  if hasRequiredFailure (record.allErrors state.shared) then state
  else
  match buildResponse runtime record.composition.response record.inbound results
    (failedSteps results) rid (record.stepErrors state.shared) state.store with
  | .error _ => state
  | .ok (response, store) =>
      { state with store, outputs := state.outputs ++ [(rid, response.body)] }

/-- One event of the gateway. -/
def gatewayStep (state : GatewayState) : GatewayEvent → Option GatewayState
  | .begin rid composition leaves body auth =>
      match state.requests rid with
      | some _ => none
      | none => (config.compositions.lookup composition).map fun composition =>
          beginRequest state rid composition leaves body auth
  | .startStep rid name call key =>
      (state.requests rid).bind fun record =>
        (record.composition.steps.lookup name).bind fun step =>
          startStep runtime parse state rid record name step call key
  | .failStep rid name err =>
      (state.requests rid).map fun record =>
        let optional := err = .dependencyFailed || record.composition.isOptional name
        state.setRequest rid { record with
          errors := record.errors ++ [⟨name, err, optional⟩] }
  | .exec (.start _ _ _) => none
  | .exec event =>
      (sharedStep (decoderAt parse state.store) state.shared event).map fun shared =>
        { state with shared, store := parsedStore parse state.shared state.store event }
  | .finish rid =>
      (state.requests rid).map fun record => finishRequest runtime state rid record

/-- A gateway right after the config was loaded. -/
def loadedGateway : GatewayState :=
  ⟨config.store, newExecutor, fun _ => none, []⟩

/-- Any number of requests, in any interleaving. -/
def gatewaySystem : System GatewayState GatewayEvent :=
  .ofStep (· = loadedGateway config) (gatewayStep config runtime parse)

end Step

end Restitch.Composition
