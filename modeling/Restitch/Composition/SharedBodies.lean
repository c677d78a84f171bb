import Restitch.Composition.GatewayInvariant

/-!
# Objects that requests share

`BuildResponse` writes `_errors` into the object that the body template evaluated
to. A body that is the value of one expression may be the body of an error rule of
the config, or the body of a step result that other requests joined a flight for.
Where it is neither, handling a request changes nothing that another one has.
-/

namespace Restitch.Composition

open Restitch.Expr Restitch.Semantics Restitch.Std Restitch.Std.ObjectHeap

variable {Error : Type}

/-- The request that an event handles. -/
def GatewayEvent.request : GatewayEvent → Option RequestId
  | .begin rid _ _ _ _ | .startStep rid _ _ _ | .failStep rid _ _ | .finish rid => some rid
  | .exec _ => none

/-- What a request has: the bodies of the step results that its calls have or are
about to receive, its own body and its claims. -/
def HeldBy (state : GatewayState) (rid : RequestId) (v : Val) : Prop :=
  (∃ call leader result, Owns state rid call ∧ Holds state.shared call leader result ∧
    v = result.body) ∨
  ∃ record, state.requests rid = some record ∧
    (v = record.inbound.body ∨ v = record.inbound.auth)

/-- The error rules are as they were loaded, handling a request leaves the objects of
the others as they are, and no step request or response shows the errors of another
request. -/
structure RequestsSeparate (config : GatewayConfig) (runtime : ExprRuntime Error)
    (parse : List UInt8 → Option Document) (state : GatewayState) : Prop where
  rules : ∀ (address : Nat) (cell : Cell Leaf RequestId), config.store[address]? = some cell →
    state.store[address]? = some cell
  frame : ∀ event next, gatewayStep config runtime parse state event = some next →
    SafeResponse state event → ∀ rid v address, event.request ≠ some rid →
      HeldBy state rid v → Reach state.store v (.ref address) →
      next.store[address]? = state.store[address]?
  outputs : ∀ output ∈ state.outputs, ∀ tag, Reach state.store output.2 (.mark tag) →
    tag = output.1

section Separate

variable {config : GatewayConfig} {runtime : ExprRuntime Error}
  {parse : List UInt8 → Option Document} {state next : GatewayState} {event : GatewayEvent}
  {homes : List Home} {rid : RequestId}

/-- The invariant holds of a gateway that was loaded. -/
theorem gatewayInvariant_loaded :
    GatewayInvariant config (loadedGateway config)
      (List.replicate config.store.length .config) where
  layout := by
    refine ⟨List.length_replicate, ?_⟩
    intro address home cell isHome found v member
    cases List.eq_of_mem_replicate (List.mem_of_getElem? isHome)
    have within := config.store_within cell (List.mem_of_getElem? found) v member
    cases v with
    | scalar leaf => trivial
    | mark tag => exact within
    | ref target => exact List.getElem?_replicate_of_lt within.1
  flights := flightInvariant_newExecutor
  config_store := List.prefix_rfl
  config_homes _ bound := List.getElem?_replicate_of_lt bound
  compositions _ _ present := by cases present
  rules _ _ present := by cases present
  settled _ member := by cases List.eq_of_mem_replicate member
  bodies _ _ settled := by cases settled
  inbound _ _ present := by cases present
  outputs _ member := by cases member

/-- An event of a call is one of the executor, with what it decodes in the store. -/
theorem gatewayStep_exec {event : SharedEvent Val}
    (stepped : gatewayStep config runtime parse state (.exec event) = some next) :
    ∃ shared, sharedStep (decoderAt parse state.store) state.shared event = some shared ∧
      (∀ call settings key, event ≠ .start call settings key) ∧
      next = { state with shared, store := parsedStore parse state.shared state.store event } := by
  have running : ∀ call settings key, event ≠ .start call settings key := by
    rintro call settings key rfl
    cases stepped
  have unfolded : gatewayStep config runtime parse state (.exec event) =
      (sharedStep (decoderAt parse state.store) state.shared event).map fun shared =>
        { state with shared, store := parsedStore parse state.shared state.store event } := by
    cases event with
    | start call settings key => exact absurd rfl (running call settings key)
    | lookup | proceed | respond | receive | fill | tick | sweep => rfl
  rw [unfolded] at stepped
  obtain ⟨shared, moved, isNext⟩ := Option.map_eq_some_iff.mp stepped
  exact ⟨shared, moved, running, isNext.symm⟩

/-- Every event whose response is safe keeps the invariant. -/
theorem GatewayInvariant.step (invariant : GatewayInvariant config state homes)
    (stepped : gatewayStep config runtime parse state event = some next)
    (safe : SafeResponse state event) : ∃ homes, GatewayInvariant config next homes := by
  cases event with
  | begin rid name leaves body auth =>
      simp only [gatewayStep] at stepped
      split at stepped
      · cases stepped
      · rename_i absent
        obtain ⟨composition, known, rfl⟩ := Option.map_eq_some_iff.mp stepped
        exact invariant.begin absent known leaves body auth
  | startStep rid name call key =>
      obtain ⟨record, present, stepped⟩ := Option.bind_eq_some_iff.mp stepped
      obtain ⟨step, listed, stepped⟩ := Option.bind_eq_some_iff.mp stepped
      exact (invariant.startStep present listed stepped).2
  | failStep rid name err =>
      obtain ⟨record, present, rfl⟩ := Option.map_eq_some_iff.mp stepped
      exact ⟨homes, invariant.failStep present⟩
  | exec event =>
      obtain ⟨shared, moved, running, rfl⟩ := gatewayStep_exec stepped
      exact invariant.exec moved running
  | finish rid =>
      obtain ⟨record, present, rfl⟩ := Option.map_eq_some_iff.mp stepped
      exact invariant.finish present safe

/-- The invariant holds in every state reached with safe responses. -/
theorem gatewayInvariant
    (reached : ((gatewaySystem config runtime parse).restrict SafeResponse).Reachable state) :
    ∃ homes, GatewayInvariant config state homes := by
  refine reached.induction (fun state => ∃ homes, GatewayInvariant config state homes) ?_ ?_
  · intro state valid
    cases valid
    exact ⟨_, gatewayInvariant_loaded⟩
  · rintro state event next - ⟨homes, invariant⟩ ⟨stepped, safe⟩
    exact invariant.step stepped safe

/-- What a request holds is within what it sees. -/
theorem GatewayInvariant.held_within (invariant : GatewayInvariant config state homes) {v : Val}
    (held : HeldBy state rid v) :
    Within (seenBy (Visible state) homes rid) (· = rid) state.store v := by
  rcases held with ⟨call, leader, result, owns, holds, rfl⟩ | ⟨record, present, rfl | rfl⟩
  · exact invariant.result_within owns holds
  · exact (invariant.inbound_within present).1
  · exact (invariant.inbound_within present).2

/-- Only a response writes a cell that exists. -/
theorem GatewayInvariant.growth (invariant : GatewayInvariant config state homes)
    (stepped : gatewayStep config runtime parse state event = some next)
    (building : ∀ rid, event ≠ .finish rid) : state.store <+: next.store := by
  cases event with
  | begin rid name leaves body auth =>
      simp only [gatewayStep] at stepped
      split at stepped
      · cases stepped
      · obtain ⟨composition, -, rfl⟩ := Option.map_eq_some_iff.mp stepped
        obtain ⟨_, layout, -, first⟩ := invariant.layout.placeOptional rid rfl body
        obtain ⟨_, -, -, second⟩ := layout.placeOptional rid rfl auth
        exact first.trans second
  | startStep rid name call key =>
      obtain ⟨record, present, stepped⟩ := Option.bind_eq_some_iff.mp stepped
      obtain ⟨step, listed, stepped⟩ := Option.bind_eq_some_iff.mp stepped
      exact (invariant.startStep present listed stepped).1
  | failStep rid name err =>
      obtain ⟨record, present, rfl⟩ := Option.map_eq_some_iff.mp stepped
      exact List.prefix_rfl
  | exec event =>
      obtain ⟨shared, -, -, rfl⟩ := gatewayStep_exec stepped
      exact parsedStore_isPrefix _ _ _
  | finish rid => exact absurd rfl (building rid)

/-- A cell that another request sees is not written. -/
theorem GatewayInvariant.frame (invariant : GatewayInvariant config state homes)
    (stepped : gatewayStep config runtime parse state event = some next)
    (safe : SafeResponse state event) {address : Nat} {home : Home}
    (different : event.request ≠ some rid) (isHome : homes[address]? = some home)
    (seen : Visible state rid home) : next.store[address]? = state.store[address]? := by
  have bound : address < state.store.length :=
    invariant.layout.length ▸ (List.getElem?_eq_some_iff.mp isHome).1
  have kept {store : Store} (growth : state.store <+: store) :
      store[address]? = state.store[address]? := by
    obtain ⟨cells, rfl⟩ := growth
    exact List.getElem?_append_left bound
  by_cases finishes : ∃ writer, event = .finish writer
  · obtain ⟨writer, rfl⟩ := finishes
    obtain ⟨record, present, rfl⟩ := Option.map_eq_some_iff.mp stepped
    have finished := invariant.finished runtime present safe
    generalize finishRequest runtime state writer record = next at finished
    cases finished with
    | failed => rfl
    | built layout fits written =>
        rcases written with rfl | ⟨target, targetHome, isTarget, own, rfl⟩
        · exact kept (List.prefix_append _ _)
        · have apart : address ≠ target := by
            rintro rfl
            rw [List.getElem?_append_left (List.getElem?_eq_some_iff.mp isHome).1, isHome]
              at isTarget
            cases isTarget
            exact different (congrArg some (own.2.2 rid seen).symm)
          rw [getElem?_writeMark_of_ne _ _ _ _ apart]
          exact kept (List.prefix_append _ _)
  · refine kept (invariant.growth stepped ?_)
    intro writer isFinish
    exact finishes ⟨writer, isFinish⟩

end Separate

/-- Names and fields, as in `steps.a.body`. -/
def navigate (env : List (String × Val)) (store : Store) : Node → Option Val
  | .identifier name => env.lookup name
  | .member node (.string key) _ =>
      match navigate env store node with
      | some (.ref address) =>
          match store[address]? with
          | some (.object fields) => some ((fields.lookup key).getD (.scalar .null))
          | _ => none
      | _ => none
  | _ => none

/-- What a path leads to is a scalar or is reached from the environment. -/
theorem navigate_reach {env : List (String × Val)} {store : Store} {node : Node} {v : Val}
    (found : navigate env store node = some v) :
    (∃ root ∈ env, Reach store root.2 v) ∨ ∃ leaf, v = .scalar leaf := by
  induction node generalizing v with
  | identifier name => exact .inl ⟨(name, v), mem_of_lookup found, .refl⟩
  | string value => cases found
  | variableDeclarator name value expr => cases found
  | other kind children => cases found
  | member node property optional ih =>
      cases property with
      | string key =>
          rw [navigate] at found
          split at found
          · rename_i address isRef
            split at found
            · rename_i fields isObject
              cases isField : fields.lookup key with
              | none =>
                  rw [isField] at found
                  cases found
                  exact .inr ⟨.null, rfl⟩
              | some value =>
                  rw [isField] at found
                  cases found
                  rcases ih isRef with ⟨root, listed, reach⟩ | ⟨leaf, no⟩
                  · refine .inl ⟨root, listed, reach.tail ⟨address, _, rfl, isObject, ?_⟩⟩
                    exact List.mem_map.mpr ⟨_, mem_of_lookup isField, rfl⟩
                  · cases no
            · cases found
          · cases found
      | identifier | member | variableDeclarator | other => cases found

/-- The evaluator on expressions of names and fields. -/
def fieldRuntime : ExprRuntime Unit where
  run node env store :=
    match navigate env store node with
    | some value => .ok (value, [])
    | none => .error ()
  sprint _ value :=
    match value with
    | .scalar (.text text) => text
    | _ => ""
  truncate text := text.toInt?.getD 0
  confined := by
    intro node env store value built ran v member
    split at ran
    · rename_i found
      cases ran
      cases List.mem_singleton.mp member
      rcases navigate_reach found with reach | leaf
      · exact .inl reach
      · exact .inr (.inl leaf)
    · cases ran

/-- `\x7b\x7b steps.a.body \x7d\x7d` -/
def bodyOfA : Template :=
  { raw := "\x7b\x7b steps.a.body \x7d\x7d"
    segments := [.program "steps.a.body"
      (.member (.member (.identifier "steps") (.string "a") false) (.string "body") false)]
    deps := ["a"]
    isSingle := true }

/-- A template without expressions. -/
def literalTemplate (text : String) : Template := ⟨text, [.literal text], [], false⟩

/-- Step `a` replaces the body of a 404, and step `b` sends on the body of `a`. -/
def ruleConfig (body : BodyNode) : GatewayConfig where
  store := [.object [("error", .scalar (.text "not found"))]]
  compositions := [("users", {
    steps := [
      ("a", ⟨⟨"GET", literalTemplate "/a", none, none, ∅⟩, true,
        ⟨"GET", none, false, [⟨[404], .ref 0⟩], 1024⟩⟩),
      ("b", ⟨⟨"POST", literalTemplate "/b", none, some bodyOfA, ∅⟩, true,
        ⟨"POST", none, false, [], 1024⟩⟩)]
    response := ⟨.unset, body, "application/json"⟩ })]
  store_within := by
    intro cell member v inCell
    cases List.mem_singleton.mp member
    cases List.mem_singleton.mp inCell
    trivial
  rules_within := by
    intro comp member step listed rule isRule
    cases List.mem_singleton.mp member
    simp only [List.mem_cons, List.not_mem_nil, or_false] at listed
    rcases listed with rfl | rfl
    · cases List.mem_singleton.mp isRule
      exact ⟨Nat.one_pos, trivial⟩
    · cases isRule

/-- One request: step `a` is answered with 404, then step `b` is sent, and the
response is built. -/
def oneRequest (rid : RequestId) (first second : CallId) : List GatewayEvent :=
  let notFound : UpstreamResponse := ⟨404, [("Content-Type", "text/plain")], []⟩
  let noContent : UpstreamResponse := ⟨204, [], []⟩
  [.begin rid "users" [("method", .text "GET")] none none,
   .startStep rid "a" first "a", .exec (.lookup first), .exec (.proceed first),
   .exec (.respond first (.ok notFound)), .exec (.fill first),
   .startStep rid "b" second "b", .exec (.lookup second), .exec (.proceed second),
   .exec (.respond second (.ok noContent)), .exec (.fill second), .finish rid]

/-- In every run whose responses are safe, requests leave each other's objects and the
error rules of the config as they are: for every compiled config, any number of
requests and flights, and any interleaving. -/
theorem shared_bodies_unchanged (config : GatewayConfig) (runtime : ExprRuntime Error)
    (parse : List UInt8 → Option Document) (state : GatewayState)
    (reached : ((gatewaySystem config runtime parse).restrict SafeResponse).Reachable state) :
    RequestsSeparate config runtime parse state := by
  obtain ⟨homes, invariant⟩ := gatewayInvariant reached
  refine ⟨?_, ?_, ?_⟩
  · intro address cell found
    obtain ⟨cells, same⟩ := invariant.config_store
    rw [← same, List.getElem?_append_left (List.getElem?_eq_some_iff.mp found).1]
    exact found
  · intro event next stepped safe rid v address different held reach
    obtain ⟨bound, ⟨home, isHome, seen⟩ | beyond⟩ :=
      invariant.room.confined.reach (invariant.held_within held) reach
    · exact invariant.frame stepped safe different isHome seen
    · rw [invariant.layout.length] at beyond
      exact absurd bound (Nat.not_lt_of_le beyond)
  · intro output member tag reach
    have within : Within (seenBy (Visible state) homes output.1) (· = output.1) state.store
        output.2 :=
      (invariant.outputs output member).within invariant.layout.length rfl fun _ same => same
    exact invariant.room.confined.reach within reach

/-- A condition that can be tested, and implies `SafeResponse`. -/
def safeResponse (state : GatewayState) : GatewayEvent → Bool
  | .finish rid =>
      ((state.requests rid).map fun record => !record.composition.response.body.isSingle).getD
        false
  | _ => true

/-- Two requests whose response puts the body of the rule into a new object. -/
theorem shared_bodies_unchanged_of_object :
    ∃ state, state.outputs.length = 4 ∧
      RequestsSeparate (ruleConfig (.map [("data", .tmpl bodyOfA)])) fieldRuntime
        (fun _ => none) state := by
  let config := ruleConfig (.map [("data", .tmpl bodyOfA)])
  have weakens : ∀ state event, safeResponse state event = true → SafeResponse state event := by
    intro state event met
    cases event with
    | finish rid =>
        intro record present
        simp only [safeResponse, present, Option.map_some, Option.getD_some, Bool.not_eq_true'] at met
        exact .inr (.inl met)
    | begin | startStep | failStep | exec => trivial
  have ends : ((System.replay
      (System.guarded (gatewayStep config fieldRuntime fun _ => none) fun state event =>
        safeResponse state event = true)
      (loadedGateway config) (oneRequest 1 1 2 ++ oneRequest 2 3 4)).map
        fun state => state.outputs.length) = some 4 := by
    decide +kernel
  obtain ⟨final, replayed, outputs⟩ := Option.map_eq_some_iff.mp ends
  have reached : ((gatewaySystem config fieldRuntime fun _ => none).restrict
      fun state event => safeResponse state event = true).Reachable final :=
    System.reachable_of_guarded _ (.initial rfl) replayed
  exact ⟨final, outputs, shared_bodies_unchanged config fieldRuntime _ final
    (reached.restrict_mono weakens)⟩

/-- A response that is the body of the matched rule: its errors end up in the config,
and in the step request of the next request. -/
theorem rule_body_written :
    ∃ state, (gatewaySystem (ruleConfig (.tmpl bodyOfA)) fieldRuntime fun _ => none).Reachable
        state ∧
      (∃ (address : Nat) (cell : Cell Leaf RequestId),
        (ruleConfig (.tmpl bodyOfA)).store[address]? = some cell ∧
        state.store[address]? ≠ some cell) ∧
      ∃ output ∈ state.outputs, ∃ tag, tag ≠ output.1 ∧
        Reach state.store output.2 (.mark tag) := by
  let config := ruleConfig (.tmpl bodyOfA)
  let written : Cell Leaf RequestId :=
    .object [("error", .scalar (.text "not found")), ("_errors", .mark 1)]
  have ends : ((System.replay (gatewayStep config fieldRuntime fun _ => none)
      (loadedGateway config) (oneRequest 1 1 2 ++ (oneRequest 2 3 4).take 7)).map
        fun state => (state.store[0]?, decide ((2, .ref 0) ∈ state.outputs))) =
      some (some written, true) := by
    decide +kernel
  obtain ⟨final, replayed, seen⟩ := Option.map_eq_some_iff.mp ends
  rw [Prod.mk.injEq, decide_eq_true_eq] at seen
  obtain ⟨cell, shown⟩ := seen
  refine ⟨final, System.reachable_of_replay _ (.initial rfl) replayed, ⟨0, _, rfl, ?_⟩,
    (2, .ref 0), shown, 1, by decide, ?_⟩
  · rw [cell]
    decide
  · refine Relation.ReflTransGen.single ⟨0, written, rfl, cell, ?_⟩
    decide

end Restitch.Composition
