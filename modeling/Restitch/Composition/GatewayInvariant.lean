import Restitch.Composition.ObjectHomes

/-!
# The objects of a gateway

What every event of the gateway does to the layout of the store, as long as no
response writes `_errors` into an object that its request shares. Objects that a
request builds are its own, a parsed body belongs to the call that has it as its
result, and the cells of the config are as they were loaded.
-/

namespace Restitch.Composition

open Restitch.Semantics Restitch.Std Restitch.Std.ObjectHeap

/-- No step result of the request is the body of an error rule or the result of
another request too. -/
def SharesNothing (state : GatewayState) (rid : RequestId) : Prop :=
  ∀ call leader result, Owns state rid call → Holds state.shared call leader result →
    result.errorRuleMatched = false ∧
    ∀ other otherCall otherResult, Owns state other otherCall →
      Holds state.shared otherCall leader otherResult → other = rid

/-- A response reports no errors, or its body is not the value of one expression, or
its request shares nothing. -/
def SafeResponse (state : GatewayState) : GatewayEvent → Prop
  | .finish rid => ∀ record, state.requests rid = some record →
      record.stepErrors state.shared = [] ∨ record.composition.response.body.isSingle = false ∨
        SharesNothing state rid
  | _ => True

/-- The home of the body of a result. -/
def resultHome (leader : CallId) (result : StepResult Val) : Home :=
  if result.errorRuleMatched then .config else .call leader

/-- What holds in every state of a run whose responses are safe. -/
structure GatewayInvariant (config : GatewayConfig) (state : GatewayState) (homes : List Home) :
    Prop where
  layout : Layout (Visible state) homes state.store
  flights : FlightInvariant state.shared
  config_store : config.store <+: state.store
  config_homes : ∀ address, address < config.store.length → homes[address]? = some .config
  compositions : ∀ rid record, state.requests rid = some record →
    ∃ name, (name, record.composition) ∈ config.compositions
  rules : ∀ call step, state.shared.calls call = some step → ∀ rule ∈ step.settings.errorRules,
    Within (fun _ => True) (fun _ => False) config.store rule.body
  settled : ∀ leader, .call leader ∈ homes → ∃ result, state.shared.ownResult leader = some result
  bodies : ∀ leader result, state.shared.ownResult leader = some result →
    Fits (Visible state) homes (resultHome leader result) result.body
  inbound : ∀ rid record, state.requests rid = some record →
    Fits (Visible state) homes (.request rid) record.inbound.body ∧
      Fits (Visible state) homes (.request rid) record.inbound.auth
  outputs : ∀ output ∈ state.outputs, Fits (Visible state) homes (.request output.1) output.2

/-- Requests keep their calls and what they hold, and nobody gets hold of a result
that was there. -/
structure Evolves (state next : GatewayState) : Prop where
  owns : ∀ rid call, Owns state rid call → Owns next rid call
  owns_before : ∀ rid call leader result, Owns next rid call →
    Holds state.shared call leader result → Owns state rid call
  holds : ∀ call leader result, Holds state.shared call leader result →
    Holds next.shared call leader result
  holds_before : ∀ call leader result settled, state.shared.ownResult leader = some settled →
    Holds next.shared call leader result → Holds state.shared call leader result

section Invariant

variable {config : GatewayConfig} {state next : GatewayState} {homes : List Home} {home : Home}
  {rid : RequestId} {leader : CallId} {v : Val}

/-- What a request sees it goes on seeing. -/
theorem Evolves.visible (evolves : Evolves state next) (seen : Visible state rid home) :
    Visible next rid home := by
  cases home with
  | config =>
      obtain ⟨call, leader, result, owns, holds, matched⟩ := seen
      exact ⟨call, leader, result, evolves.owns rid call owns, evolves.holds _ _ _ holds, matched⟩
  | call leader =>
      obtain ⟨call, result, owns, holds⟩ := seen
      exact ⟨call, result, evolves.owns rid call owns, evolves.holds _ _ _ holds⟩
  | request other => exact seen

/-- A result that was there before was visible before. -/
theorem Evolves.visible_before (evolves : Evolves state next) {settled : StepResult Val}
    (there : state.shared.ownResult leader = some settled)
    (seen : Visible next rid (.call leader)) : Visible state rid (.call leader) := by
  obtain ⟨call, result, owns, holds⟩ := seen
  have held := evolves.holds_before _ _ _ _ there holds
  exact ⟨call, result, evolves.owns_before rid call leader result owns held, held⟩

/-- What fits into a cell of a settled call, or of another home, still does. -/
theorem Evolves.fits (evolves : Evolves state next) (more : List Home)
    (settled : ∀ leader, home = .call leader → ∃ result, state.shared.ownResult leader = some result)
    (fits : Fits (Visible state) homes home v) : Fits (Visible next) (homes ++ more) home v := by
  refine (fits.mono (fun _ _ _ => evolves.visible) ?_).append more
  intro rid leader isCall seen
  obtain ⟨result, there⟩ := settled leader isCall
  exact evolves.visible_before there seen

/-- The store stays laid out as what requests see evolves. -/
theorem GatewayInvariant.layout_evolves (invariant : GatewayInvariant config state homes)
    (evolves : Evolves state next) : Layout (Visible next) homes state.store := by
  refine invariant.layout.mono (fun _ _ _ => evolves.visible) ?_
  intro rid leader member seen
  obtain ⟨result, there⟩ := invariant.settled leader member
  exact evolves.visible_before there seen

/-- The body of a result stays in its home. -/
theorem GatewayInvariant.body_evolves (invariant : GatewayInvariant config state homes)
    (evolves : Evolves state next) (more : List Home) {result : StepResult Val}
    (there : state.shared.ownResult leader = some result) :
    Fits (Visible next) (homes ++ more) (resultHome leader result) result.body := by
  refine evolves.fits more ?_ (invariant.bodies leader result there)
  intro other isCall
  unfold resultHome at isCall
  split at isCall
  · cases isCall
  · cases isCall
    exact ⟨result, there⟩

/-- What fits a request goes on fitting it. -/
theorem Evolves.fits_request (evolves : Evolves state next) (more : List Home)
    (fits : Fits (Visible state) homes (.request rid) v) :
    Fits (Visible next) (homes ++ more) (.request rid) v :=
  evolves.fits more nofun fits

/-- A home that only this request sees. -/
def OwnHome (state : GatewayState) (rid : RequestId) (home : Home) : Prop :=
  home ≠ .config ∧ Visible state rid home ∧ ∀ other, Visible state other home → other = rid

/-- A mark of a request fits the homes that it owns. -/
theorem OwnHome.fits (own : OwnHome state rid home) :
    Fits (Visible state) homes home (.mark rid) := by
  cases home with
  | config => exact absurd rfl own.1
  | call leader => exact own.2.2
  | request other => exact own.2.1.symm

/-- What a request that shares nothing sees is its own. -/
theorem SharesNothing.ownHome (alone : SharesNothing state rid) (seen : Visible state rid home) :
    OwnHome state rid home := by
  cases home with
  | config =>
      obtain ⟨call, leader, result, owns, holds, matched⟩ := seen
      rw [(alone call leader result owns holds).1] at matched
      cases matched
  | call leader =>
      refine ⟨nofun, seen, ?_⟩
      obtain ⟨call, result, owns, holds⟩ := seen
      rintro other ⟨otherCall, otherResult, otherOwns, otherHolds⟩
      exact (alone call leader result owns holds).2 other otherCall otherResult otherOwns otherHolds
  | request other =>
      refine ⟨nofun, seen, ?_⟩
      intro another same
      exact same.symm.trans seen

/-- The results of a request's own calls are within what it sees. -/
theorem GatewayInvariant.result_within (invariant : GatewayInvariant config state homes)
    {call : CallId} {result : StepResult Val} (owns : Owns state rid call)
    (holds : Holds state.shared call leader result) :
    Within (seenBy (Visible state) homes rid) (· = rid) state.store result.body := by
  have fits := invariant.bodies leader result (invariant.flights.holds_own holds)
  refine fits.within invariant.layout.length ?_ fun _ same => same
  unfold resultHome
  split
  · rename_i matched
    exact ⟨call, leader, result, owns, holds, matched⟩
  · exact ⟨call, result, owns, holds⟩

/-- A call that has ended holds its result. -/
theorem callResult_holds {shared : SharedState Val} {call : CallId} {result : StepResult Val}
    (ended : callResult shared call = some (some result)) :
    ∃ leader, Holds shared call leader result := by
  unfold callResult at ended
  cases present : shared.calls call with
  | none =>
      rw [present] at ended
      cases ended
  | some step =>
      simp only [present, Option.map_some] at ended
      cases at_ : step.phase with
      | built | missed | leading | joined | sending | returned =>
          rw [at_] at ended
          cases ended
      | finished source outcome =>
          rw [at_] at ended
          cases outcome with
          | error error => cases ended
          | ok value =>
              cases ended
              cases source with
              | cache => exact ⟨call, .own (by rw [ownResult_eq present, at_]; rfl)⟩
              | own => exact ⟨call, .own (by rw [ownResult_eq present, at_]; rfl)⟩
              | flight leader => exact ⟨leader, .kept present (by rw [at_]; rfl)⟩

/-- The results of a request, as its templates read them. -/
theorem GatewayInvariant.results_within (invariant : GatewayInvariant config state homes)
    {record : RequestRecord} (present : state.requests rid = some record) :
    ∀ entry ∈ record.results state.shared, ∀ result ∈ entry.2,
      Within (seenBy (Visible state) homes rid) (· = rid) state.store result.body := by
  intro entry member result isResult
  rcases List.mem_append.mp member with called | failed
  · obtain ⟨call, listed, made⟩ := List.mem_filterMap.mp called
    obtain ⟨value, ended, rfl⟩ := Option.map_eq_some_iff.mp made
    cases isResult
    obtain ⟨leader, holds⟩ := callResult_holds ended
    exact invariant.result_within ⟨record, call.1, present, listed⟩ holds
  · obtain ⟨error, -, rfl⟩ := List.mem_map.mp failed
    cases isResult

/-- The body and the claims of a request are within what it sees. -/
theorem GatewayInvariant.inbound_within (invariant : GatewayInvariant config state homes)
    {record : RequestRecord} (present : state.requests rid = some record) :
    Within (seenBy (Visible state) homes rid) (· = rid) state.store record.inbound.body ∧
      Within (seenBy (Visible state) homes rid) (· = rid) state.store record.inbound.auth := by
  obtain ⟨body, auth⟩ := invariant.inbound rid record present
  exact ⟨body.within invariant.layout.length rfl fun _ same => same,
    auth.within invariant.layout.length rfl fun _ same => same⟩

/-- The store leaves room for a response of the request. -/
theorem GatewayInvariant.room (invariant : GatewayInvariant config state homes) :
    Room (seenBy (Visible state) homes rid) (· = rid) [] state.store :=
  invariant.layout.room fun _ same => same

section Finish

variable {Error : Type} {runtime : ExprRuntime Error} {record : RequestRecord}

/-- What `BuildResponse` does to the store: it adds cells of the request, and writes
at most a cell that only this request sees. -/
inductive Finished (state : GatewayState) (homes : List Home) (rid : RequestId) :
    GatewayState → Prop where
  | failed : Finished state homes rid state
  | built {cells : Store} {body : Val} {store : Store}
      (layout : Layout (Visible state) (homes ++ List.replicate cells.length (.request rid))
        (state.store ++ cells))
      (fits : Fits (Visible state) (homes ++ List.replicate cells.length (.request rid))
        (.request rid) body)
      (written : store = state.store ++ cells ∨ ∃ address home,
        (homes ++ List.replicate cells.length (.request rid))[address]? = some home ∧
        OwnHome state rid home ∧ store = writeMark (state.store ++ cells) address "_errors" rid) :
      Finished state homes rid
        { state with store, outputs := state.outputs ++ [(rid, body)] }

variable (runtime) in
/-- A safe response leaves all other objects as they are. -/
theorem GatewayInvariant.finished (invariant : GatewayInvariant config state homes)
    (present : state.requests rid = some record) (safe : SafeResponse state (.finish rid)) :
    Finished state homes rid (finishRequest runtime state rid record) := by
  unfold finishRequest
  split
  · exact .failed
  · dsimp only
    cases built : buildResponse runtime record.composition.response record.inbound
        (record.results state.shared) (failedSteps (record.results state.shared)) rid
        (record.stepErrors state.shared) state.store with
    | error error => exact .failed
    | ok value =>
        obtain ⟨⟨response, grown⟩, ran, rfl⟩ := Except.map_eq_ok built
        obtain ⟨body, auth⟩ := invariant.inbound_within present
        obtain ⟨grows, within, new⟩ := evaluateResponse_grows invariant.room body auth
          (invariant.results_within present) ran
        obtain ⟨cells, rfl⟩ := grows.growth
        refine .built (invariant.layout.grow rfl grows)
          (fits_of_within invariant.layout.length rfl within) ?_
        unfold writeErrors
        split
        · exact .inl rfl
        · rename_i someErrors
          cases isBody : response.body with
          | scalar leaf => exact .inl rfl
          | mark tag => exact .inl rfl
          | ref address =>
              rw [isBody] at within
              obtain ⟨bound, ⟨home, found, seen⟩ | beyond⟩ := within
              · have inside : address < homes.length := (List.getElem?_eq_some_iff.mp found).1
                refine .inr ⟨address, home, ?_, ?_, rfl⟩
                · rw [List.getElem?_append_left inside]
                  exact found
                · rcases safe record present with none_ | composed | alone
                  · exact absurd none_ someErrors
                  · have later := new composed address isBody
                    rw [← invariant.layout.length] at later
                    exact absurd inside (Nat.not_lt_of_le later)
                  · exact alone.ownHome seen
              · refine .inr ⟨address, .request rid, ?_, ⟨nofun, rfl, fun _ same => same.symm⟩, rfl⟩
                rw [List.length_append, ← invariant.layout.length] at bound
                rw [List.getElem?_append_right beyond, List.getElem?_replicate, if_pos]
                omega

end Finish

/-- The invariant after an event, from what the event adds. -/
theorem GatewayInvariant.evolve (invariant : GatewayInvariant config state homes)
    (evolves : Evolves state next) (more : List Home)
    (layout : Layout (Visible next) (homes ++ more) next.store)
    (flights : FlightInvariant next.shared) (config_store : config.store <+: next.store)
    (compositions : ∀ rid record, next.requests rid = some record →
      ∃ name, (name, record.composition) ∈ config.compositions)
    (rules : ∀ call step, next.shared.calls call = some step →
      ∀ rule ∈ step.settings.errorRules,
        Within (fun _ => True) (fun _ => False) config.store rule.body)
    (kept : ∀ leader result, state.shared.ownResult leader = some result →
      next.shared.ownResult leader = some result)
    (settled : ∀ leader, .call leader ∈ more →
      ∃ result, next.shared.ownResult leader = some result)
    (bodies : ∀ leader result, next.shared.ownResult leader = some result →
      state.shared.ownResult leader = some result ∨
        Fits (Visible next) (homes ++ more) (resultHome leader result) result.body)
    (inbound : ∀ rid record, next.requests rid = some record →
      (∃ prior, state.requests rid = some prior ∧ prior.inbound = record.inbound) ∨
        (Fits (Visible next) (homes ++ more) (.request rid) record.inbound.body ∧
          Fits (Visible next) (homes ++ more) (.request rid) record.inbound.auth))
    (outputs : ∀ output ∈ next.outputs, output ∈ state.outputs ∨
      Fits (Visible next) (homes ++ more) (.request output.1) output.2) :
    GatewayInvariant config next (homes ++ more) where
  layout := layout
  flights := flights
  config_store := config_store
  config_homes := by
    intro address bound
    have found := invariant.config_homes address bound
    rw [List.getElem?_append_left (List.getElem?_eq_some_iff.mp found).1]
    exact found
  compositions := compositions
  rules := rules
  settled := by
    intro leader member
    rcases List.mem_append.mp member with old | new
    · obtain ⟨result, there⟩ := invariant.settled leader old
      exact ⟨result, kept leader result there⟩
    · exact settled leader new
  bodies := by
    intro leader result there
    rcases bodies leader result there with old | fits
    · exact invariant.body_evolves evolves more old
    · exact fits
  inbound := by
    intro rid record present
    rcases inbound rid record present with ⟨prior, found, same⟩ | fits
    · obtain ⟨body, auth⟩ := invariant.inbound rid prior found
      rw [← same]
      exact ⟨evolves.fits_request more body, evolves.fits_request more auth⟩
    · exact fits
  outputs := by
    intro output member
    rcases outputs output member with old | fits
    · exact evolves.fits_request more (invariant.outputs output old)
    · exact fits

/-- Neither the calls nor the results change. -/
theorem Evolves.of_same (shared : next.shared = state.shared)
    (requests : ∀ rid call, Owns next rid call ↔ Owns state rid call) : Evolves state next where
  owns rid call owns := (requests rid call).mpr owns
  owns_before rid call _ _ owns _ := (requests rid call).mp owns
  holds _ _ _ holds := shared ▸ holds
  holds_before _ _ _ _ _ holds := shared ▸ holds

/-- The homes of a request are none of a call. -/
theorem not_call_mem_replicate {count : Nat} (member : Home.call leader ∈
    List.replicate count (.request rid)) : False := by
  cases List.eq_of_mem_replicate member

/-- A safe response keeps the invariant. -/
theorem GatewayInvariant.finish {Error : Type} {runtime : ExprRuntime Error}
    {record : RequestRecord} (invariant : GatewayInvariant config state homes)
    (present : state.requests rid = some record) (safe : SafeResponse state (.finish rid)) :
    ∃ homes, GatewayInvariant config (finishRequest runtime state rid record) homes := by
  have finished := invariant.finished runtime present safe
  generalize finishRequest runtime state rid record = next at finished
  cases finished with
  | failed => exact ⟨homes, invariant⟩
  | @built cells body store layout fits written =>
      have layoutNext : Layout (Visible state)
          (homes ++ List.replicate cells.length (.request rid)) store := by
        rcases written with rfl | ⟨address, home, isHome, own, rfl⟩
        · exact layout
        · exact layout.writeMark isHome own.fits
      have configNext : config.store <+: store := by
        have grown : config.store <+: state.store ++ cells :=
          invariant.config_store.trans (List.prefix_append _ _)
        rcases written with rfl | ⟨address, home, isHome, own, rfl⟩
        · exact grown
        · refine isPrefix_writeMark _ _ _ _ grown (Nat.le_of_not_lt ?_)
          intro inConfig
          have found := invariant.config_homes address inConfig
          rw [List.getElem?_append_left (List.getElem?_eq_some_iff.mp found).1, found] at isHome
          exact own.1 (Option.some.inj isHome).symm
      have evolves : Evolves state
          { state with store, outputs := state.outputs ++ [(rid, body)] } :=
        .of_same rfl fun _ _ => Iff.rfl
      refine ⟨_, invariant.evolve evolves _ layoutNext invariant.flights configNext
        invariant.compositions invariant.rules (fun _ _ there => there) ?_ ?_ ?_ ?_⟩
      · intro leader member
        exact (not_call_mem_replicate member).elim
      · intro leader result there
        exact .inl there
      · intro other record found
        exact .inl ⟨record, found, rfl⟩
      · intro output member
        rcases List.mem_append.mp member with old | new
        · exact .inl old
        · cases List.mem_singleton.mp new
          exact .inr fits

/-- A request whose calls are as before. -/
theorem owns_setRequest {record : RequestRecord}
    (same : ∀ call, (∃ name, (name, call) ∈ record.calls) ↔ Owns state rid call)
    (other : RequestId) (call : CallId) :
    Owns (state.setRequest rid record) other call ↔ Owns state other call := by
  by_cases isRid : other = rid
  · subst isRid
    rw [← same call]
    constructor
    · rintro ⟨found, name, present, member⟩
      rw [GatewayState.setRequest_requests, Function.update_self] at present
      cases present
      exact ⟨name, member⟩
    · rintro ⟨name, member⟩
      exact ⟨record, name, by rw [GatewayState.setRequest_requests, Function.update_self], member⟩
  · unfold Owns
    rw [GatewayState.setRequest_requests, Function.update_of_ne isRid]

/-- The requests after one of them was set. -/
theorem requests_setRequest {record found : RequestRecord} {other : RequestId}
    (present : (state.setRequest rid record).requests other = some found) :
    (other = rid ∧ found = record) ∨ state.requests other = some found := by
  by_cases isRid : other = rid
  · subst isRid
    rw [GatewayState.setRequest_requests, Function.update_self] at present
    cases present
    exact .inl ⟨rfl, rfl⟩
  · rw [GatewayState.setRequest_requests, Function.update_of_ne isRid] at present
    exact .inr present

/-- A document that a request brings gets homes of the request. -/
theorem Layout.placeOptional {visible : RequestId → Home → Prop} {store : Store}
    (rid : RequestId) (layout : Layout visible homes store) (own : visible rid (.request rid))
    (document : Option Document) :
    ∃ count, Layout visible (homes ++ List.replicate count (.request rid))
        (placeOptional document store).2 ∧
      Fits visible (homes ++ List.replicate count (.request rid)) (.request rid)
        (placeOptional document store).1 ∧
      store <+: (placeOptional document store).2 := by
  cases document with
  | none =>
      refine ⟨0, ?_, trivial, List.prefix_rfl⟩
      rw [List.replicate_zero, List.append_nil]
      exact layout
  | some document =>
      have seen : ∀ other, Home.request rid = .request other → visible other (.request other) := by
        intro other same
        cases same
        exact own
      exact ⟨document.cells.length, layout.place document _ nofun seen,
        fits_shift layout.length nofun seen document.root_within, List.prefix_append _ _⟩

/-- What is found is in the list. -/
theorem mem_of_lookup {α : Type} {entries : List (String × α)} {key : String} {value : α}
    (found : entries.lookup key = some value) : (key, value) ∈ entries := by
  obtain ⟨before, after, rfl, -⟩ := List.lookup_eq_some_iff.mp found
  exact List.mem_append_right _ List.mem_cons_self

/-- A request that begins keeps the invariant. -/
theorem GatewayInvariant.begin {name : String} {composition : GatewayComposition}
    (invariant : GatewayInvariant config state homes) (absent : state.requests rid = none)
    (known : config.compositions.lookup name = some composition)
    (leaves : List (String × Leaf)) (body auth : Option Document) :
    ∃ homes, GatewayInvariant config (beginRequest state rid composition leaves body auth)
      homes := by
  have none_ (call : CallId) : ¬ Owns state rid call := by
    rintro ⟨record, name, present, -⟩
    rw [absent] at present
    cases present
  have evolves : Evolves state (beginRequest state rid composition leaves body auth) := by
    refine .of_same rfl ?_
    refine owns_setRequest fun call => iff_of_false ?_ (none_ call)
    rintro ⟨name, member⟩
    cases member
  have layout := invariant.layout_evolves evolves
  obtain ⟨first, layout, bodyFits, bodyGrowth⟩ := layout.placeOptional rid rfl body
  obtain ⟨second, layout, authFits, authGrowth⟩ := layout.placeOptional rid rfl auth
  rw [List.append_assoc] at layout authFits
  refine ⟨_, invariant.evolve evolves _ layout invariant.flights
    (invariant.config_store.trans (bodyGrowth.trans authGrowth)) ?_ invariant.rules
    (fun _ _ there => there) ?_ (fun _ _ there => .inl there) ?_ (fun _ member => .inl member)⟩
  · intro other record present
    rcases requests_setRequest present with ⟨-, rfl⟩ | old
    · exact ⟨name, mem_of_lookup known⟩
    · exact invariant.compositions other record old
  · intro leader member
    rcases List.mem_append.mp member with member | member <;>
      exact (not_call_mem_replicate member).elim
  · intro other record present
    rcases requests_setRequest present with ⟨rfl, rfl⟩ | old
    · refine .inr ⟨?_, authFits⟩
      rw [← List.append_assoc]
      exact bodyFits.append _
    · exact .inl ⟨record, old, rfl⟩

/-- A step that fails keeps the invariant. -/
theorem GatewayInvariant.failStep {record : RequestRecord} {errors : List StepError}
    (invariant : GatewayInvariant config state homes)
    (present : state.requests rid = some record) :
    GatewayInvariant config (state.setRequest rid { record with errors }) homes := by
  have evolves : Evolves state (state.setRequest rid { record with errors }) := by
    refine .of_same rfl (owns_setRequest fun call => ?_)
    constructor
    · rintro ⟨name, member⟩
      exact ⟨record, name, present, member⟩
    · rintro ⟨found, name, isFound, member⟩
      rw [present] at isFound
      cases isFound
      exact ⟨name, member⟩
  have same := invariant.evolve evolves []
  rw [List.append_nil] at same
  refine same (invariant.layout_evolves evolves) invariant.flights invariant.config_store ?_
    invariant.rules (fun _ _ there => there) nofun (fun _ _ there => .inl there) ?_
    (fun _ member => .inl member)
  · intro other found isFound
    rcases requests_setRequest isFound with ⟨rfl, rfl⟩ | old
    · exact invariant.compositions other record present
    · exact invariant.compositions other found old
  · intro other found isFound
    rcases requests_setRequest isFound with ⟨rfl, rfl⟩ | old
    · exact .inl ⟨record, present, rfl⟩
    · exact .inl ⟨found, old, rfl⟩

section Calls

variable {Error : Type} {runtime : ExprRuntime Error} {parse : List UInt8 → Option Document}
  {record : RequestRecord} {call : CallId}

/-- A call that was not started holds nothing. -/
theorem not_holds_of_absent {shared : SharedState Val} {result : StepResult Val}
    (absent : shared.calls call = none) : ¬ Holds shared call leader result := by
  intro holds
  cases holds with
  | own settled =>
      rw [SharedState.ownResult, absent] at settled
      cases settled
  | joined present | kept present =>
      rw [absent] at present
      cases present

/-- A request builds objects, and values are made of them. -/
theorem GatewayInvariant.grow {cells : Store} {values : List Val}
    (invariant : GatewayInvariant config state homes)
    (grows : Grows (seenBy (Visible state) homes rid) (· = rid) [] state.store
      (state.store ++ cells))
    (within : ∀ v ∈ values, Within (seenBy (Visible state) homes rid) (· = rid)
      (state.store ++ cells) v) :
    GatewayInvariant config
      { state with
        store := state.store ++ cells
        outputs := state.outputs ++ values.map fun value => (rid, value) }
      (homes ++ List.replicate cells.length (.request rid)) := by
  have evolves : Evolves state
      { state with
        store := state.store ++ cells
        outputs := state.outputs ++ values.map fun value => (rid, value) } :=
    .of_same rfl fun _ _ => Iff.rfl
  refine invariant.evolve evolves _ (invariant.layout.grow rfl grows) invariant.flights
    (invariant.config_store.trans (List.prefix_append _ _)) invariant.compositions invariant.rules
    (fun _ _ there => there) (fun _ member => (not_call_mem_replicate member).elim)
    (fun _ _ there => .inl there) (fun _ record found => .inl ⟨record, found, rfl⟩) ?_
  intro output member
  rcases List.mem_append.mp member with old | new
  · exact .inl old
  · obtain ⟨value, listed, rfl⟩ := List.mem_map.mp new
    exact .inr (fits_of_within invariant.layout.length rfl (within value listed))

/-- A new call of a request holds nothing yet. -/
theorem GatewayInvariant.startCall {name key : String} {step : GatewayStep}
    {shared : SharedState Val} {decoder : BodyDecoder Val}
    (invariant : GatewayInvariant config state homes)
    (present : state.requests rid = some record)
    (listed : record.composition.steps.lookup name = some step)
    (started : sharedStep decoder state.shared (.start call step.settings key) = some shared) :
    GatewayInvariant config ({ state with shared }.setRequest rid
      { record with calls := record.calls ++ [(name, call)] }) homes := by
  have move := sharedStep_move started
  obtain ⟨absent, calls⟩ : state.shared.calls call = none ∧ shared.calls =
      Function.update state.shared.calls call (some ⟨step.settings, key, .built⟩) := by
    simp only [sharedStep] at started
    split at started
    · rename_i absent
      cases started
      exact ⟨absent, rfl⟩
    · cases started
  have evolves : Evolves state ({ state with shared }.setRequest rid
      { record with calls := record.calls ++ [(name, call)] }) := by
    refine ⟨?_, ?_, fun _ _ _ => move.holds,
      fun _ _ _ _ there => move.holds_before invariant.flights there⟩
    · rintro other held ⟨found, label, isFound, member⟩
      by_cases same : other = rid
      · subst same
        rw [present] at isFound
        cases isFound
        refine ⟨{ record with calls := record.calls ++ [(name, call)] }, label, ?_,
          List.mem_append_left [(name, call)] member⟩
        rw [GatewayState.setRequest_requests, Function.update_self]
      · refine ⟨found, label, ?_, member⟩
        rw [GatewayState.setRequest_requests, Function.update_of_ne same]
        exact isFound
    · rintro other held leader result ⟨found, label, isFound, member⟩ holds
      rcases requests_setRequest isFound with ⟨rfl, rfl⟩ | old
      · rcases List.mem_append.mp member with old | new
        · exact ⟨record, label, present, old⟩
        · cases List.mem_singleton.mp new
          exact absurd holds (not_holds_of_absent absent)
      · exact ⟨found, label, old, member⟩
  have same := invariant.evolve evolves []
  rw [List.append_nil] at same
  refine same (invariant.layout_evolves evolves) (invariant.flights.move move)
    invariant.config_store ?_ ?_ (fun _ _ => move.ownResult)
    (fun _ member => absurd member List.not_mem_nil) ?_ ?_
    (fun _ member => .inl member)
  · intro other found isFound
    rcases requests_setRequest isFound with ⟨rfl, rfl⟩ | old
    · exact invariant.compositions other record present
    · exact invariant.compositions other found old
  · intro other found isFound rule member
    change shared.calls other = some found at isFound
    rw [calls] at isFound
    by_cases new : other = call
    · subst new
      rw [Function.update_self] at isFound
      cases isFound
      obtain ⟨label, known⟩ := invariant.compositions rid record present
      exact config.rules_within _ known _ (mem_of_lookup listed) rule member
    · rw [Function.update_of_ne new] at isFound
      exact invariant.rules other found isFound rule member
  · intro leader result there
    rcases move.newResult there with old | ⟨-, new⟩
    · exact .inl old
    · cases new
  · intro other found isFound
    rcases requests_setRequest isFound with ⟨rfl, rfl⟩ | old
    · exact .inl ⟨record, present, rfl⟩
    · exact .inl ⟨found, old, rfl⟩

/-- A step that starts keeps the invariant and adds to the store only. -/
theorem GatewayInvariant.startStep {name key : String} {step : GatewayStep}
    (invariant : GatewayInvariant config state homes) (present : state.requests rid = some record)
    (listed : record.composition.steps.lookup name = some step)
    (stepped : startStep runtime parse state rid record name step call key = some next) :
    state.store <+: next.store ∧ ∃ homes, GatewayInvariant config next homes := by
  unfold Composition.startStep at stepped
  cases allocated : allocRequestEnv record.inbound (record.results state.shared) state.store with
  | mk env store =>
      simp only [allocated] at stepped
      split at stepped
      · cases stepped
      · rename_i values grown ran
        obtain ⟨shared, started, rfl⟩ := Option.map_eq_some_iff.mp stepped
        obtain ⟨body, auth⟩ := invariant.inbound_within present
        obtain ⟨growth, room⟩ := allocRequestEnv_grows invariant.room body auth
          (invariant.results_within present) allocated
        obtain ⟨grows, within⟩ := programValues_grows room ran
        have all : Grows (seenBy (Visible state) homes rid) (· = rid) [] state.store grown :=
          ⟨growth.trans grows.growth, grows.room.withEnv nofun⟩
        obtain ⟨cells, rfl⟩ := all.growth
        exact ⟨List.prefix_append _ _, _, (invariant.grow all within).startCall present listed started⟩

/-- The body of a new result is the body of a rule, or is new itself. -/
theorem newResult_body {shared : SharedState Val} {store : Store} {event : SharedEvent Val}
    {result : StepResult Val} (new : NewResult (decoderAt parse store) shared call result event) :
    (result.errorRuleMatched = true ∧ ∃ step rule, shared.calls call = some step ∧
      rule ∈ step.settings.errorRules ∧ result.body = rule.body) ∨
    (result.errorRuleMatched = false ∧ ((∃ leaf, result.body = .scalar leaf) ∨
      ∃ document, (parsedBytes shared event).bind parse = some document ∧
        result.body = document.root.shift store.length)) := by
  have parsed {bytes : List UInt8} {contentType : String} {value : Val}
      (read : parseJSONBody (decoderAt parse store) bytes contentType = some value) :
      ∃ document, parse bytes = some document ∧ value = document.root.shift store.length := by
    unfold parseJSONBody at read
    split at read
    · obtain ⟨document, found, rfl⟩ := Option.map_eq_some_iff.mp read
      exact ⟨document, found, rfl⟩
    · cases read
  cases new with
  | @cached step cached present asked found made =>
      subst made
      refine .inr ⟨rfl, ?_⟩
      have bytes : parsedBytes shared (.lookup call) = some cached.body := by
        rw [parsedBytes, present, Option.bind_some, found, Option.map_some]
      rw [bytes]
      unfold cachedResult
      dsimp only
      split
      · rename_i value read
        split
        · exact .inl ⟨_, rfl⟩
        · exact .inr (parsed read)
      · exact .inl ⟨_, rfl⟩
  | @sent step outcome present made =>
      cases outcome with
      | error error => cases made
      | ok response =>
          simp only [sendStepRequest] at made
          split at made
          · cases made
          · split at made
            · rename_i body matched
              cases made
              obtain ⟨rule, found, rfl⟩ := Option.map_eq_some_iff.mp matched
              exact .inl ⟨rfl, step, rule, present, List.mem_of_find?_eq_some found, rfl⟩
            · cases made
              refine .inr ⟨rfl, ?_⟩
              cases read : parseJSONBody (decoderAt parse store) response.body
                  (response.header.get "Content-Type") with
              | none => exact .inl ⟨_, rfl⟩
              | some value => exact .inr (parsed read)

/-- One event gives one call a result of its own. -/
theorem NewResult.unique {shared : SharedState Val} {decoder : BodyDecoder Val}
    {event : SharedEvent Val} {other : CallId} {result otherResult : StepResult Val}
    (new : NewResult decoder shared call result event)
    (otherNew : NewResult decoder shared other otherResult event) : other = call := by
  cases new <;> cases otherNew <;> rfl

/-- The store after an event: new cells, if a document was parsed. -/
theorem parsedStore_isPrefix (shared : SharedState Val) (store : Store) (event : SharedEvent Val) :
    store <+: parsedStore parse shared store event := by
  unfold parsedStore
  split
  · exact List.prefix_append _ _
  · exact List.prefix_rfl

/-- An event of a running call keeps the invariant. -/
theorem GatewayInvariant.exec {event : SharedEvent Val} {shared : SharedState Val}
    (invariant : GatewayInvariant config state homes)
    (stepped : sharedStep (decoderAt parse state.store) state.shared event = some shared)
    (running : ∀ call settings key, event ≠ .start call settings key) :
    ∃ homes, GatewayInvariant config
      { state with shared, store := parsedStore parse state.shared state.store event } homes := by
  have move := sharedStep_move stepped
  generalize isNext : ({ state with
    shared, store := parsedStore parse state.shared state.store event } : GatewayState) = next
  have sharedNext : next.shared = shared := by rw [← isNext]
  have storeNext : next.store = parsedStore parse state.shared state.store event := by
    rw [← isNext]
  have requestsNext : next.requests = state.requests := by rw [← isNext]
  have outputsNext : next.outputs = state.outputs := by rw [← isNext]
  have evolves : Evolves state next := by
    refine ⟨?_, ?_, ?_, ?_⟩
    · intro rid call
      rw [Owns, Owns, requestsNext]
      exact id
    · intro rid call leader result
      rw [Owns, Owns, requestsNext]
      exact fun owns _ => owns
    · intro call leader result holds
      rw [sharedNext]
      exact move.holds holds
    · intro call leader result settled there
      rw [sharedNext]
      exact move.holds_before invariant.flights there
  have layout := invariant.layout_evolves evolves
  -- The home of a parsed document is the call that has it as its result, if there is one.
  obtain ⟨more, layoutNext, settled, fits⟩ : ∃ more,
      Layout (Visible next) (homes ++ more) next.store ∧
      (∀ leader, .call leader ∈ more → ∃ result, next.shared.ownResult leader = some result) ∧
      ∀ leader result, NewResult (decoderAt parse state.store) state.shared leader result event →
        next.shared.ownResult leader = some result →
        Fits (Visible next) (homes ++ more) (.call leader) result.body ∨
          result.errorRuleMatched = true := by
    rw [sharedNext, storeNext, parsedStore]
    cases parsed : (parsedBytes state.shared event).bind parse with
    | none =>
        refine ⟨[], by rwa [List.append_nil], nofun, ?_⟩
        intro leader result new there
        rcases newResult_body new with ⟨matched, -⟩ | ⟨-, ⟨leaf, isLeaf⟩ | ⟨document, found, -⟩⟩
        · exact .inr matched
        · rw [isLeaf]
          exact .inl trivial
        · rw [parsed] at found
          cases found
    | some document =>
        by_cases some_ : ∃ leader result,
            NewResult (decoderAt parse state.store) state.shared leader result event ∧
            shared.ownResult leader = some result
        · obtain ⟨owner, value, new, there⟩ := some_
          refine ⟨_, layout.place document (.call owner) nofun nofun, ?_, ?_⟩
          · intro leader member
            cases List.eq_of_mem_replicate member
            exact ⟨value, there⟩
          · intro leader result otherNew _
            cases new.unique otherNew
            rcases newResult_body otherNew with ⟨matched, -⟩ | ⟨-, ⟨leaf, isLeaf⟩ | ⟨_, found, isRoot⟩⟩
            · exact .inr matched
            · rw [isLeaf]
              exact .inl trivial
            · rw [parsed] at found
              cases found
              rw [isRoot]
              exact .inl (fits_shift layout.length nofun nofun document.root_within)
        · refine ⟨_, layout.place document (.request 0) nofun ?_, ?_, ?_⟩
          · intro rid same
            exact rfl
          · intro leader member
            exact (not_call_mem_replicate member).elim
          · intro leader result new there
            exact absurd ⟨leader, result, new, there⟩ some_
  refine ⟨_, invariant.evolve evolves more layoutNext (sharedNext ▸ invariant.flights.move move)
    ?_ (requestsNext ▸ invariant.compositions) ?_ ?_ settled ?_ ?_ ?_⟩
  · rw [storeNext]
    exact invariant.config_store.trans (parsedStore_isPrefix _ _ _)
  · intro call step present rule member
    rw [sharedNext] at present
    rcases move.before present with old | ⟨settings, key, isStart, -⟩ | ⟨prior, old, moved, -⟩
    · exact invariant.rules call step old rule member
    · exact absurd isStart (running call settings key)
    · rw [moved] at member
      exact invariant.rules call prior old rule member
  · intro leader result there
    rw [sharedNext]
    exact move.ownResult there
  · intro leader result there
    rw [sharedNext] at there
    rcases move.newResult there with old | ⟨-, new⟩
    · exact .inl old
    · right
      unfold resultHome
      cases matched : result.errorRuleMatched with
      | false =>
          rcases fits leader result new (sharedNext ▸ there) with body | isMatched
          · exact body
          · rw [matched] at isMatched
            cases isMatched
      | true =>
          rcases newResult_body new with ⟨-, step, rule, present, member, isBody⟩ | ⟨unmatched, -⟩
          · rw [isBody]
            have within := invariant.rules leader step present rule member
            cases body : rule.body with
            | scalar leaf => trivial
            | mark tag =>
                rw [body] at within
                exact within.elim
            | ref address =>
                rw [body] at within
                have found := invariant.config_homes address within.1
                change (homes ++ more)[address]? = some .config
                rw [List.getElem?_append_left (List.getElem?_eq_some_iff.mp found).1]
                exact found
          · rw [matched] at unmatched
            cases unmatched
  · intro rid record present
    rw [requestsNext] at present
    exact .inl ⟨record, present, rfl⟩
  · intro output member
    rw [outputsNext] at member
    exact .inl member

end Calls

end Invariant

end Restitch.Composition
