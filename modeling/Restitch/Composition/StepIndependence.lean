import Restitch.Composition.DependencyExactness

/-!
# Requests do not depend on the order inside a wave

A compiled composition run by `Execute`: when all templates of its steps read
steps by name, the request a step sends is the same in every interleaving.
-/

namespace Restitch.Composition

open Restitch.Expr Restitch.Http Restitch.Std Restitch.Semantics

variable {Value Error Scope : Type}

/-- The results map at one moment. Only steps of the composition have entries. -/
def resultsMap (names : List String) (results : Results Value) :
    GoMap String (Option (StepResult Value)) :=
  names.foldr (fun name map =>
    match results name with
    | some entry => map.insert name entry
    | none => map) ∅

/-- The results are found under the names of the steps. -/
theorem lookup_resultsMap (names : List String) (results : Results Value) (name : String) :
    (resultsMap names results).lookup name = if name ∈ names then results name else none := by
  induction names with
  | nil => rfl
  | cons first rest ih =>
      rw [resultsMap, List.foldr_cons, ← resultsMap]
      by_cases equal : name = first
      · subst equal
        cases found : results name with
        | some entry => simp
        | none => simp [ih, found]
      · cases results first with
        | some entry => simp [AList.lookup_insert_ne equal, ih, equal]
        | none => simp [ih, equal]

section Run

variable (operators : Operators Value Error Scope) (printer : Printer Value)
  (context : String → BuildContext Error) (baseURLs : GoMap String String)
  (data : RequestData Value) (send : String → StepRequest → Except StepFailure (StepResult Value))

/-- A compiled composition as `Execute` runs it for one request. -/
def CompiledComposition.run (compiled : CompiledComposition) : CompositionRun StepRequest Value where
  steps := compiled.steps.mapValues fun step => ⟨step.step.upstream, step.step.optional⟩
  plan := compiled.plan
  upstreams := baseURLs.keys
  build := fun name results =>
    match compiled.steps.lookup name with
    | some step => buildStepRequest operators printer (context name)
        (buildRequestEnv operators.toValues data (resultsMap compiled.steps.keys results))
        (baseURLs.getD step.step.upstream "") data step.templates
    -- `Execute` builds no request for a step the composition does not have.
    | none => .error (.build .request "")
  send := send

end Run

/-- A compiled step: its templates are compiled, and it depends on what they name. -/
structure StepCompiled (compiler : ExprCompiler) (step : CompiledStep) : Prop where
  templates : ∀ template ∈ step.templates.all, CompiledFrom compiler template
  deps : ∀ template ∈ step.templates.all, template.deps ⊆ step.deps

section Compile

variable {compiler : ExprCompiler} {stepNames : List String}

/-- A compiled template has the dependencies of its segments. -/
theorem compiledFrom_of_compileAt {place : TemplateError → CompileError} {raw : String}
    {template : Template} (compiled : compileAt compiler stepNames place raw = .ok template) :
    CompiledFrom compiler template := by
  unfold compileAt at compiled
  cases inner : compileTemplate compiler stepNames raw with
  | error error => simp [inner, Except.mapError] at compiled
  | ok result =>
      simp only [inner, Except.mapError, Except.ok.injEq] at compiled
      subst compiled
      exact compiledFrom_of_compileTemplate inner

/-- An optional template has the dependencies of its segments. -/
theorem compiledFrom_of_compileOptional {place : TemplateError → CompileError} {raw : String}
    {result : Option Template}
    (compiled : compileOptional compiler stepNames place raw = .ok result) :
    ∀ template ∈ result, CompiledFrom compiler template := by
  unfold compileOptional at compiled
  split at compiled
  · cases compiled
    intro template none_
    cases none_
  · obtain ⟨template, inner, rfl⟩ := Except.map_eq_ok compiled
    rintro _ ⟨⟩
    exact compiledFrom_of_compileAt inner

/-- The dependencies are those of all templates of the step. -/
theorem templateDeps_eq (templates : StepTemplates) :
    templateDeps templates = templates.all.flatMap Template.deps := by
  rw [templateDeps, StepTemplates.all, List.flatMap_cons, List.flatMap_append, List.flatMap_append,
    List.flatMap_map]
  cases templates.queryPart <;> cases templates.bodyTmpl <;> simp

/-- A compiled step has the templates and the dependencies of the step. -/
theorem stepCompiled_of_compileStep {step : Step} {compiled : CompiledStep}
    (done : compileStep compiler stepNames step = .ok compiled) :
    StepCompiled compiler compiled ∧ compiled.step = step := by
  obtain ⟨pathPart, isPath, done⟩ := Except.bind_eq_ok done
  obtain ⟨queryPart, isQuery, done⟩ := Except.bind_eq_ok done
  obtain ⟨bodyTmpl, isBody, done⟩ := Except.bind_eq_ok done
  obtain ⟨headers, isHeaders, done⟩ := Except.bind_eq_ok done
  cases done
  refine ⟨⟨?_, ?_⟩, rfl⟩
  · intro template member
    simp only [StepTemplates.all, List.mem_cons, List.mem_append, Option.mem_toList,
      List.mem_map] at member
    rcases member with rfl | (query | body) | ⟨entry, listed, rfl⟩
    · exact compiledFrom_of_compileAt isPath
    · exact compiledFrom_of_compileOptional isQuery template query
    · exact compiledFrom_of_compileOptional isBody template body
    · obtain ⟨raw, -, compiled⟩ := GoMap.exists_of_traverse _ isHeaders listed
      exact compiledFrom_of_compileAt compiled
  · intro template member name named
    refine List.mem_dedup.mpr (List.mem_append_right _ ?_)
    rw [templateDeps_eq]
    exact List.mem_flatMap.mpr ⟨template, member, named⟩

/-- Every step of the compiled map is compiled from a step of that name. -/
theorem exists_of_compileSteps {steps : List Step} {compiled : GoMap String CompiledStep}
    (done : compileSteps compiler stepNames steps = .ok compiled) {name : String}
    {result : CompiledStep} (found : compiled.lookup name = some result) :
    ∃ step ∈ steps, compileStep compiler stepNames step = .ok result := by
  have general : ∀ (steps : List Step) (before : GoMap String CompiledStep),
      steps.foldlM (fun compiled step => do
        let next ← compileStep compiler stepNames step
        return compiled.insert step.name next) before = .ok compiled →
      before.lookup name = some result ∨
        ∃ step ∈ steps, compileStep compiler stepNames step = .ok result := by
    intro steps
    induction steps with
    | nil =>
        intro before done
        cases done
        exact .inl found
    | cons step rest ih =>
        intro before done
        rw [List.foldlM_cons] at done
        obtain ⟨after, inserted, done⟩ := Except.bind_eq_ok done
        obtain ⟨next, isNext, inserted⟩ := Except.bind_eq_ok inserted
        cases inserted
        rcases ih _ done with here | ⟨later, listed, isResult⟩
        · by_cases equal : name = step.name
          · rw [equal, AList.lookup_insert] at here
            cases here
            exact .inr ⟨step, List.mem_cons_self, isNext⟩
          · rw [AList.lookup_insert_ne equal] at here
            exact .inl here
        · exact .inr ⟨later, List.mem_cons_of_mem _ listed, isResult⟩
  exact (general steps ∅ done).resolve_left fun here => by cases here

/-- What a compiled composition consists of. -/
theorem compileComposition_cases {checkSchema : Yaml → Option String}
    {order : (deps : StepDependencies) → RangeOrder deps} {comp : CompositionConfig}
    {compiled : CompiledComposition}
    (done : compileComposition compiler checkSchema comp order = some (.ok compiled)) :
    compileSteps compiler (comp.steps.map Step.name) comp.steps = .ok compiled.steps ∧
      buildDAG (stepDependencies compiled.steps) (order _) = some (.ok compiled.plan) := by
  unfold compileComposition at done
  split at done
  · cases done
  · rename_i steps response front
    obtain ⟨steps', isSteps, front⟩ := Except.bind_eq_ok front
    obtain ⟨response', -, front⟩ := Except.bind_eq_ok front
    split at front
    · cases front
    · cases front
      obtain ⟨planned, isPlanned, outcome⟩ := Option.map_eq_some_iff.mp done
      cases planned with
      | error error => cases outcome
      | ok plan =>
          cases outcome
          exact ⟨isSteps, isPlanned⟩

end Compile

section Validated

/-- A checked step has an upstream of the config, and keeps it. -/
theorem upstream_of_validateStep {composition : String} {upstreams seen : List String}
    {index : Nat} {step checked : Step}
    (valid : validateStep composition upstreams seen index step = .ok checked) :
    checked.upstream ∈ upstreams := by
  unfold validateStep at valid
  split at valid
  · cases valid
  · split at valid
    · cases valid
    · split at valid
      · cases valid
      · split at valid
        · cases valid
        · rename_i listed
          split at valid
          · cases valid
          · cases valid
            exact not_not.mp listed

/-- A validated step names an upstream that exists. -/
theorem upstream_of_validateSteps {composition : String} {upstreams seen : List String}
    {index : Nat} {steps checked : List Step}
    (valid : validateSteps composition upstreams seen index steps = .ok checked) :
    ∀ step ∈ checked, step.upstream ∈ upstreams := by
  induction steps generalizing seen index checked with
  | nil =>
      cases valid
      simp
  | cons step rest ih =>
      obtain ⟨first, isFirst, valid⟩ := Except.bind_eq_ok valid
      obtain ⟨later, isLater, valid⟩ := Except.bind_eq_ok valid
      cases valid
      intro step' member
      rcases List.mem_cons.mp member with rfl | after
      · exact upstream_of_validateStep isFirst
      · exact ih isLater step' after

/-- The steps of a validated config run on upstreams of the config. -/
theorem upstream_of_validate {net : NetParser} {config valid : Config}
    (accepted : validateAndApplyDefaults net config = .ok valid) {name : String}
    {comp : CompositionConfig} (found : valid.compositions.lookup name = some comp) :
    ∀ step ∈ comp.steps, step.upstream ∈ valid.upstreams.keys := by
  obtain ⟨-, keys, written, checked⟩ := composition_of_validate accepted found
  obtain ⟨-, steps, isSteps, rfl⟩ := validateComposition_ok checked
  intro step member
  rw [keys]
  exact upstream_of_validateSteps isSteps step member

end Validated

/-- All templates of all steps read steps by name. -/
def CompiledComposition.ReadsStepsByName (compiled : CompiledComposition) : Prop :=
  ∀ name step, compiled.steps.lookup name = some step →
    ∀ template ∈ step.templates.all, template.readsStepsByName = true

section Accepted

variable {compiler : ExprCompiler} {net : NetParser} {checkSchema : Yaml → Option String}
  {order : (deps : StepDependencies) → RangeOrder deps} {config valid : Config} {name : String}
  {comp : CompositionConfig} {compiled : CompiledComposition}
  (operators : Operators Value Error Scope) (printer : Printer Value)
  (context : String → BuildContext Error) (data : RequestData Value)
  (send : String → StepRequest → Except StepFailure (StepResult Value))

/-- The request of a step with the entries of its dependencies is fixed. -/
theorem build_congr_of_readsStepsByName
    (done : compileComposition compiler checkSchema comp order = some (.ok compiled))
    (byName : compiled.ReadsStepsByName) (baseURLs : GoMap String String) {stepName : String}
    {first second : Results Value}
    (same : ∀ dep ∈ (compiled.run operators printer context baseURLs data send).deps stepName,
      ∃ entry, first dep = some entry ∧ second dep = some entry) :
    (compiled.run operators printer context baseURLs data send).build stepName first =
      (compiled.run operators printer context baseURLs data send).build stepName second := by
  obtain ⟨isSteps, planned⟩ := compileComposition_cases done
  simp only [CompiledComposition.run]
  cases found : compiled.steps.lookup stepName with
  | none => rfl
  | some step =>
      obtain ⟨source, -, isStep⟩ := exists_of_compileSteps isSteps found
      have stepCompiled := (stepCompiled_of_compileStep isStep).1
      have deps : (compiled.run operators printer context baseURLs data send).deps stepName =
          step.deps := by
        simp only [CompositionRun.deps, CompiledComposition.run, (plan_of_buildDAG planned).1,
          GoMap.getD, stepDependencies, GoMap.lookup_mapValues, found, Option.map_some,
          Option.getD_some]
      have listed : ∀ dep ∈ step.deps, dep ∈ compiled.steps.keys := by
        intro dep needs
        have exist := dependenciesExist_of_buildDAG planned stepName dep
        rw [stepDependencies, GoMap.keys_mapValues] at exist
        refine exist ?_
        simpa [DependsOn, GoMap.getD, found] using needs
      refine buildStepRequest_congr (fun template member => ?_) _ _
      refine template.sameIn_of_sameEntries (stepCompiled.templates template member)
        (byName _ _ found template member) ?_
      intro dep named
      have needs := stepCompiled.deps template member named
      obtain ⟨entry, isFirst, isSecond⟩ := same dep (deps ▸ needs)
      refine ⟨entry, ?_, ?_⟩
      · rw [lookup_resultsMap, if_pos (listed dep needs), isFirst]
      · rw [lookup_resultsMap, if_pos (listed dep needs), isSecond]

/-- A validated and compiled composition that reads steps by name is one that
`Execute` accepts. -/
theorem accepted_run (isValid : validateAndApplyDefaults net config = .ok valid)
    (found : valid.compositions.lookup name = some comp)
    (done : compileComposition compiler checkSchema comp order = some (.ok compiled))
    (byName : compiled.ReadsStepsByName) :
    Accepted (compiled.run operators printer context (valid.upstreams.mapValues Upstream.url) data
      send) := by
  obtain ⟨isSteps, planned⟩ := compileComposition_cases done
  refine ⟨⟨stepDependencies compiled.steps, order _, ?_, planned⟩, ?_, ?_⟩
  · simp [stepDependencies, CompiledComposition.run]
  · intro stepName info isInfo
    simp only [CompiledComposition.run, GoMap.lookup_mapValues] at isInfo
    obtain ⟨step, isStep, rfl⟩ := Option.map_eq_some_iff.mp isInfo
    obtain ⟨source, member, compiledStep⟩ := exists_of_compileSteps isSteps isStep
    simp only [CompiledComposition.run, GoMap.keys_mapValues,
      (stepCompiled_of_compileStep compiledStep).2]
    exact upstream_of_validate isValid found source member
  · intro stepName first second same
    exact build_congr_of_readsStepsByName operators printer context data send done byName _ same

/-- The request that the goroutine of a step has built is that of the resolution. -/
theorem built_eq (isValid : validateAndApplyDefaults net config = .ok valid)
    (found : valid.compositions.lookup name = some comp)
    (done : compileComposition compiler checkSchema comp order = some (.ok compiled))
    (byName : compiled.ReadsStepsByName) {state : ExecState StepRequest Value}
    (reached : (executeSystem (compiled.run operators printer context
      (valid.upstreams.mapValues Upstream.url) data send)).Reachable state)
    {stepName : String} (isStep : stepName ∈ compiled.steps.keys)
    {request : Except StepFailure StepRequest}
    (built : state.goroutines stepName = .built request) :
    request = (compiled.run operators printer context
      (valid.upstreams.mapValues Upstream.url) data send).builtRequest stepName := by
  have accepted := accepted_run operators printer context data send isValid found done byName
  obtain ⟨finished, invariant⟩ := execInvariant accepted reached
  obtain ⟨step, isFound⟩ := GoMap.mem_keys_iff.mp isStep
  have ok := invariant.ok stepName ⟨step.step.upstream, step.step.optional⟩
    (by simp [CompiledComposition.run, isFound])
  rw [ExecState.Ok, built] at ok
  exact ok.2.2.2.2

end Accepted

/-- A compiled template depends on the steps it is extracted to depend on, for
all operators of the language, exactly when it reads steps by name. In a config
whose steps all do so, the request of a step is the same in every interleaving. -/
theorem extracted_dependencies_sound (compiler : ExprCompiler) :
    (∀ stepNames raw template, compileTemplate compiler stepNames raw = .ok template →
      (template.readsStepsByName = true → template.DeterminedByDeps) ∧
      (template.DeterminedByDeps →
        (∀ expr node, .program expr node ∈ template.segments →
          .identifier envName ∉ node.walk) →
        template.readsStepsByName = true)) ∧
    ∀ {Value Error Scope : Type} (operators : Operators Value Error Scope)
      (printer : Printer Value) (context : String → BuildContext Error)
      (data : RequestData Value)
      (send : String → StepRequest → Except StepFailure (StepResult Value))
      (net : NetParser) (checkSchema : Yaml → Option String)
      (order : (deps : StepDependencies) → RangeOrder deps) (config valid : Config)
      (name : String) (comp : CompositionConfig) (compiled : CompiledComposition),
      validateAndApplyDefaults net config = .ok valid →
      valid.compositions.lookup name = some comp →
      compileComposition compiler checkSchema comp order = some (.ok compiled) →
      compiled.ReadsStepsByName →
      let run := compiled.run operators printer context
        (valid.upstreams.mapValues Upstream.url) data send
      ∀ state state' step request request', (executeSystem run).Reachable state →
        (executeSystem run).Reachable state' → step ∈ compiled.steps.keys →
        state.goroutines step = .built request → state'.goroutines step = .built request' →
        request = request' := by
  refine ⟨?_, ?_⟩
  · intro stepNames raw template compiled
    refine ⟨?_, ?_⟩
    · intro byName Value Error Scope operators printer data results results' same
      exact template.sameIn_of_sameEntries (compiledFrom_of_compileTemplate compiled) byName same
    · intro determined notEnv
      exact Template.readsStepsByName_of_determined notEnv determined
  · intro Value Error Scope operators printer context data send net checkSchema order config valid
      name comp compiled isValid found done byName run state state' step request request'
      reached reached' isStep built built'
    rw [built_eq operators printer context data send isValid found done byName reached isStep built,
      built_eq operators printer context data send isValid found done byName reached' isStep built']

/-- A few values of the language. -/
inductive Sample where
  | nil
  | text (value : String)
  | number (value : Nat)
  | list (items : List Sample)
  | object (fields : String → Option Sample)

/-- Members of maps, as the language has them; no other operator. -/
def sampleOperators : Operators Sample String Unit where
  nil := .nil
  text := .text
  number := .number
  list := .list
  object := .object
  start := ()
  bound := fun _ _ => none
  undefined := fun _ => .ok .nil
  member := fun _ base property =>
    match base, property with
    | .ok (.object fields), .ok (.text key) => .ok ((fields key).getD .nil)
    | .ok _, .ok _ => .error "cannot fetch"
    | .error error, _ => .error error
    | _, .error error => .error error
  declare := fun _ _ expr scope => expr scope
  apply := fun _ _ _ => .error "unsupported"
  member_object := by
    intro _ fields key value found
    simp [found]

/-- `steps.profile.body` -/
def profileBody : Node :=
  .member (.member (.identifier "steps") (.string "profile") false) (.string "body") false

/-- `steps[req.query.pick]` -/
def pickedStep : Node :=
  .member (.identifier "steps") (.member (.member (.identifier "req") (.string "query") false)
    (.string "pick") false) false

/-- The parser on two expressions. -/
def sampleCompiler : ExprCompiler where
  parse := fun expr =>
    if expr = "steps.profile.body" then .ok profileBody
    else if expr = "steps[req.query.pick]" then .ok pickedStep
    else .error "unexpected token"
  check := fun _ _ => none
  optimize := id
  isBuiltin := fun _ => false

def samplePrinter : Printer Sample where
  sprint := fun _ => ""
  marshal := fun _ => .ok "null"

def sampleNet : NetParser where
  parseURL := fun _ => .ok ⟨"http", "api"⟩
  parseIP := fun _ => none

def profileStep : Step :=
  ⟨"profile", "api", "/profile", "GET", ∅, "", [], false, [], none, false⟩

/-- Reads the result of `profile`. -/
def ordersStep : Step :=
  ⟨"orders", "api", "\x7b\x7b steps.profile.body \x7d\x7d", "GET", ∅, "", [], false, [], none,
    false⟩

def overviewConfig : CompositionConfig :=
  ⟨"/overview", "GET", true, [profileStep, ordersStep], ⟨.null, "application/json", .null⟩, 0,
    none, none⟩

def sampleConfig : Config where
  auth := none
  rateLimit := none
  blockPrivateUpstreams := false
  upstreams := AList.singleton "api" ⟨"http://api", 1024⟩
  compositions := AList.singleton "overview" overviewConfig

def profileTemplate : Template where
  raw := "/profile"
  segments := [.literal "/profile"]
  deps := []
  isSingle := false

def ordersTemplate : Template where
  raw := "\x7b\x7b steps.profile.body \x7d\x7d"
  segments := [.program "steps.profile.body" profileBody]
  deps := ["profile"]
  isSingle := true

/-- The compiled composition. -/
def overview : CompiledComposition where
  steps := AList.insert "orders" ⟨ordersStep, ⟨"GET", ordersTemplate, none, none, ∅⟩, ["profile"]⟩
    (AList.insert "profile" ⟨profileStep, ⟨"GET", profileTemplate, none, none, ∅⟩, []⟩ ∅)
  response := ⟨.unset, .literal .null, "application/json"⟩
  plan :=
    { waves := [["profile"], ["orders"]]
      deps := AList.insert "orders" ["profile"] (AList.insert "profile" [] ∅) }

theorem compileStep_profile : compileStep sampleCompiler ["profile", "orders"] profileStep =
    .ok ⟨profileStep, ⟨"GET", profileTemplate, none, none, ∅⟩, []⟩ := by
  have path : compileTemplate sampleCompiler ["profile", "orders"] "/profile" =
      .ok profileTemplate := by rfl
  have split : splitQuery profileStep.path = ("/profile", "") := by rfl
  simp only [compileStep, split, compileAt, path]
  rfl

theorem compileStep_orders : compileStep sampleCompiler ["profile", "orders"] ordersStep =
    .ok ⟨ordersStep, ⟨"GET", ordersTemplate, none, none, ∅⟩, ["profile"]⟩ := by
  have path : compileTemplate sampleCompiler ["profile", "orders"] ordersTemplate.raw =
      .ok ordersTemplate := by rfl
  have split : splitQuery ordersStep.path = (ordersTemplate.raw, "") := by rfl
  simp only [compileStep, split, compileAt, path]
  rfl

theorem compileComposition_overview :
    compileComposition sampleCompiler (fun _ => none) overviewConfig RangeOrder.listed =
      some (.ok overview) := by
  have steps : compileSteps sampleCompiler ["profile", "orders"] [profileStep, ordersStep] =
      .ok overview.steps := by
    simp only [compileSteps, List.foldlM_cons, compileStep_profile, compileStep_orders]
    rfl
  have parts : compileParts sampleCompiler (fun _ => none) overviewConfig =
      .ok (overview.steps, overview.response) := by
    change (compileSteps sampleCompiler ["profile", "orders"] [profileStep, ordersStep] >>=
      fun steps => _) = _
    rw [steps]
    rfl
  have planned : buildDAG (stepDependencies overview.steps) (.listed _) =
      some (.ok overview.plan) := by rfl
  rw [compileComposition, parts]
  simp only [planned, Option.map_some]

/-- A composition whose second step reads the first by name: its template depends
on that step only, and all interleavings build the same requests. -/
theorem extracted_dependencies_sound_of_overview :
    compileTemplate sampleCompiler ["profile", "orders"] ordersTemplate.raw = .ok ordersTemplate ∧
      ordersTemplate.DeterminedByDeps ∧
      validateAndApplyDefaults sampleNet sampleConfig = .ok sampleConfig ∧
      compileComposition sampleCompiler (fun _ => none) overviewConfig RangeOrder.listed =
        some (.ok overview) ∧
      ∀ context data send state state' step request request',
        let run := overview.run sampleOperators samplePrinter context
          (sampleConfig.upstreams.mapValues Upstream.url) data send
        (executeSystem run).Reachable state → (executeSystem run).Reachable state' →
        step ∈ overview.steps.keys →
        state.goroutines step = .built request → state'.goroutines step = .built request' →
        request = request' := by
  have compiled : compileTemplate sampleCompiler ["profile", "orders"] ordersTemplate.raw =
      .ok ordersTemplate := by rfl
  have valid : validateAndApplyDefaults sampleNet sampleConfig = .ok sampleConfig := by rfl
  have byName : overview.ReadsStepsByName := by
    have all : ∀ entry ∈ overview.steps.entries, ∀ template ∈ entry.2.templates.all,
        template.readsStepsByName = true := by
      intro entry member
      have cases_ := List.mem_cons.mp member
      rcases cases_ with rfl | last
      · intro template listed
        cases List.mem_singleton.mp listed
        rfl
      · cases List.mem_singleton.mp last
        intro template listed
        cases List.mem_singleton.mp listed
        rfl
    intro name step found
    exact all ⟨name, step⟩ (GoMap.mem_entries_iff.mpr found)
  obtain ⟨templates, requests⟩ := extracted_dependencies_sound sampleCompiler
  refine ⟨compiled, (templates _ _ _ compiled).1 rfl, valid,
    compileComposition_overview, ?_⟩
  intro context data send state state' step request request' run reached reached'
  exact requests sampleOperators samplePrinter context data send sampleNet _ _ sampleConfig
    sampleConfig "overview" overviewConfig overview valid rfl
    compileComposition_overview byName state state' step request
    request' reached reached'

/-- `GET /items?pick=news`. -/
def sampleRequest : RequestData Sample where
  method := "GET"
  path := "/items"
  params := ∅
  query := AList.singleton "pick" ["news"]
  headers := ∅
  body := .nil
  claims := none

/-- The result of `news`. -/
def newsResult : StepResult Sample := ⟨200, ∅, .text "fresh", [], false⟩

/-- `profile` has failed; `news` has not finished yet. -/
def beforeNews : GoMap String (Option (StepResult Sample)) := AList.singleton "profile" none

/-- Both have finished. -/
def afterNews : GoMap String (Option (StepResult Sample)) := beforeNews.insert "news" (some newsResult)

/-- The template that picks a step by a query parameter. -/
def pickTemplate : Template where
  raw := "\x7b\x7b steps[req.query.pick] \x7d\x7d"
  segments := [.program "steps[req.query.pick]" pickedStep]
  deps := []
  isSingle := true

/-- That template compiles, lists no dependency, and reads differently before and
after a step of its own wave has written its result. -/
theorem picked_step_is_no_dependency :
    compileTemplate sampleCompiler ["profile", "news"]
        "\x7b\x7b steps[req.query.pick] \x7d\x7d" = .ok pickTemplate ∧
      SameEntries pickTemplate.deps beforeNews afterNews ∧
      pickTemplate.evalValue sampleOperators samplePrinter
          (buildRequestEnv sampleOperators.toValues sampleRequest beforeNews) ≠
        pickTemplate.evalValue sampleOperators samplePrinter
          (buildRequestEnv sampleOperators.toValues sampleRequest afterNews) := by
  refine ⟨by rfl, fun dep member => absurd member List.not_mem_nil, ?_⟩
  have before : pickTemplate.evalValue sampleOperators samplePrinter
      (buildRequestEnv sampleOperators.toValues sampleRequest beforeNews) = .ok .nil := by rfl
  have after : pickTemplate.evalValue sampleOperators samplePrinter
      (buildRequestEnv sampleOperators.toValues sampleRequest afterNews) =
        .ok (stepValue sampleOperators.toValues (some newsResult)) := by rfl
  rw [before, after]
  simp [stepValue, record, sampleOperators]

end Restitch.Composition
