import Restitch.Composition.PlanCorrect
import Restitch.Composition.Routes
import Restitch.Import.ImportedRequest

/-!
# The composition of an operation

Every operation that is imported has a composition that compiles and has a plan of one wave.
-/

namespace Restitch.Import

open Relation Restitch.Composition Restitch.Expr Restitch.Http Restitch.Std

/-- `steps.main.body` -/
def resultNode : Node :=
  .member (.member (.identifier "steps") (.string "main") false) (.string "body") false

/-- An operation of a document whose path is made of literals and parameters, and whose required
query parameters have plain names; the expression language reads the members of `req` and the
body of a step as such. -/
structure Importable (compiler : ExprCompiler) (placed : PlacedOperation)
    (parts : List PathPart) : Prop where
  path : placed.path.toList = pathText PathPart.text parts
  noVariable : '$' ∉ placed.path.toList
  nonempty : parts ≠ []
  rooted : leadingEmpty (parts.map PathPart.text) = 0
  method : placed.method.toUpper ≠ "" ∧ placed.method.toUpper.toList.all isTokenChar = true
  queryNamed : ∀ name ∈ placed.operation.requiredQuery, isParamName name.toList = true
  readsParams : ∀ name named, .param name named ∈ parts →
    ReadsMember compiler "params" (.ofList name)
  readsQuery : ∀ name ∈ placed.operation.requiredQuery, ReadsMember compiler "query" name
  readsBody : compiler.parse "steps.main.body" = .ok resultNode ∧
    compiler.check ["main"] resultNode = none ∧ compiler.optimize resultNode = resultNode

/-! ### The query -/

theorem brace_notMem_query : '}' ∉ "query".toList := by decide

/-- `name=\{\{ req.query.name \}\}` -/
def queryField (name : String) (named : isParamName name.toList = true) : QueryField where
  key := name.toList
  slot := memberHole "query".toList name.toList
    ⟨brace_notMem_query, (brace_notMem_of_isParamName named).2⟩
  named := by
    intro empty
    rw [empty] at named
    cases named
  unreserved := by
    rw [List.all_eq_true]
    intro c member
    have accepted := List.all_eq_true.mp ((Bool.and_eq_true _ _).mp named).2 c member
    rcases (Bool.or_eq_true _ _).mp accepted with alphanum | underscore
    · rw [isUnreserved, alphanum, Bool.true_or]
    · rw [of_decide_eq_true underscore]
      rfl

/-- The fields of the required query parameters. -/
def queryFields (names : List String) (named : ∀ name ∈ names, isParamName name.toList = true) :
    List QueryField :=
  names.pmap queryField named

/-- The query of the step is that of its fields. -/
theorem querySource_queryFields {operation : Operation}
    (named : ∀ name ∈ operation.requiredQuery, isParamName name.toList = true) :
    querySource (queryFields operation.requiredQuery named) =
      ['&'].intercalate operation.queryParts := by
  rw [querySource, renderPieces_queryPieces, queryFields, List.map_pmap, Operation.queryParts]
  congr 1
  generalize operation.requiredQuery = names at named ⊢
  induction names with
  | nil => rfl
  | cons name rest ih =>
      rw [List.pmap_cons, List.map_cons, ih]
      simp [QueryField.setting, queryField, source_memberHole]

/-- The hole of a field is in the fields of its name. -/
theorem mem_slots_queryFields {names : List String}
    {named : ∀ name ∈ names, isParamName name.toList = true} {hole : Hole}
    (member : hole ∈ (queryFields names named).map QueryField.slot) :
    ∃ name, ∃ inNames : name ∈ names, hole = (queryField name (named name inNames)).slot := by
  obtain ⟨field, isField, rfl⟩ := List.mem_map.mp member
  obtain ⟨name, inNames, rfl⟩ := List.mem_pmap.mp isField
  exact ⟨name, inNames, rfl⟩

/-! ### The step -/

section Step

variable {compiler : ExprCompiler} {placed : PlacedOperation} {parts : List PathPart}

/-- The hole of a parameter reads `req.params`. -/
theorem expr_paramHole {name : List Char} (named : isParamName name = true) :
    (paramHole name named).expr = "req." ++ "params" ++ "." ++ String.ofList name := by
  rw [paramHole, expr_memberHole _ named, String.ofList_toList]

/-- The hole of a query field reads `req.query`. -/
theorem expr_queryField {name : String} (named : isParamName name.toList = true) :
    (queryField name named).slot.expr = "req." ++ "query" ++ "." ++ name := by
  rw [queryField, expr_memberHole _ named, String.ofList_toList, String.ofList_toList]

/-- Every hole of the path compiles to its member. -/
theorem Importable.compiles_path (importable : Importable compiler placed parts) {hole : Hole}
    (member : hole ∈ holesOf (pathPieces parts)) :
    ∃ name named, .param name named ∈ parts ∧ hole = paramHole name named ∧
      compileExpression compiler ["main"] hole.expr =
        .ok (.program hole.expr (memberNode "params" (.ofList name))) ∧
      extractStepDeps compiler hole.expr = [] := by
  obtain ⟨name, named, inParts, rfl⟩ := mem_holesOf_pathPieces member
  have reads := importable.readsParams name named inParts
  refine ⟨name, named, inParts, rfl, ?_, ?_⟩
  · rw [expr_paramHole]
    exact compileExpression_member reads (.inl rfl)
  · rw [expr_paramHole]
    exact extractStepDeps_member reads

/-- The holes of the query compile. -/
theorem Importable.compiles_query (importable : Importable compiler placed parts) {hole : Hole}
    (member : hole ∈ (queryFields placed.operation.requiredQuery importable.queryNamed).map
      QueryField.slot) :
    ∃ name, ∃ inNames : name ∈ placed.operation.requiredQuery,
      hole = (queryField name (importable.queryNamed name inNames)).slot ∧
      compileExpression compiler ["main"] hole.expr =
        .ok (.program hole.expr (memberNode "query" name)) ∧
      extractStepDeps compiler hole.expr = [] := by
  obtain ⟨name, inNames, rfl⟩ := mem_slots_queryFields member
  have reads := importable.readsQuery name inNames
  refine ⟨name, inNames, rfl, ?_, ?_⟩
  · rw [expr_queryField]
    exact compileExpression_member reads (.inr rfl)
  · rw [expr_queryField]
    exact extractStepDeps_member reads

/-- A template that refers to no steps compiles with no dependencies. -/
theorem exists_template {raw : String} {segments : List Segment}
    (place : TemplateError → CompileError)
    (parsed : parseSegments compiler ["main"] raw = .ok segments)
    (none_ : ∀ segment ∈ segments, segment.stepDeps compiler = []) :
    ∃ template, compileAt compiler ["main"] place raw = .ok template ∧
      template.segments = segments ∧ template.deps = [] := by
  have noDeps : segments.foldl (fun deps segment => appendNew deps (segment.stepDeps compiler)) []
      = [] := by
    clear parsed
    induction segments with
    | nil => rfl
    | cons segment rest ih =>
        rw [List.foldl_cons, none_ segment List.mem_cons_self]
        exact ih fun other member => none_ other (List.mem_cons_of_mem _ member)
  rw [compileAt, compileTemplate, parsed]
  exact ⟨_, rfl, rfl, noDeps⟩

/-- An optional template that parses compiles, and depends on no step if no segment does. -/
theorem exists_optional {raw : String} {segments : List Segment}
    (place : TemplateError → CompileError)
    (parsed : parseSegments compiler ["main"] raw = .ok segments)
    (none_ : ∀ segment ∈ segments, segment.stepDeps compiler = []) :
    ∃ found, compileOptional compiler ["main"] place raw = .ok found ∧
      (found.map Template.deps).getD [] = [] ∧ (raw = "" → found = none) := by
  by_cases empty : raw = ""
  · exact ⟨none, by rw [compileOptional, if_pos empty], rfl, fun _ => rfl⟩
  · obtain ⟨template, compiled, -, deps⟩ := exists_template place parsed none_
    refine ⟨some template, ?_, deps, fun same => absurd same empty⟩
    rw [compileOptional, if_neg empty, compiled]
    rfl

/-- The path that is written has no `?` and no `#`. -/
theorem notMem_pathTemplate {special : Char} (absent : special = '?' ∨ special = '#')
    (parts : List PathPart) : special ∉ pathText PathPart.source parts := by
  intro member
  obtain ⟨part, -, inPart⟩ := List.mem_flatMap.mp member
  rcases List.mem_cons.mp inPart with rfl | inSource
  · revert absent
    decide
  cases part with
  | literal text plain =>
      simp only [literalPart, Bool.and_eq_true, validEncoded] at plain
      have valid := List.all_eq_true.mp plain.1.1.1 special inSource
      rcases absent with rfl | rfl <;> revert valid <;> decide
  | param name named =>
      have all := List.all_eq_true.mp ((Bool.and_eq_true _ _).mp named).2
      rw [PathPart.source, reference] at inSource
      simp only [List.mem_append, List.mem_cons, List.not_mem_nil, or_false] at inSource
      have notName : special ∉ name := by
        intro inName
        have accepted := all special inName
        rcases absent with rfl | rfl <;> revert accepted <;> decide
      have notParams : special ∉ "params".toList := by
        rcases absent with rfl | rfl <;> decide
      rcases absent with rfl | rfl <;> simp_all

end Step

section Compiled

variable {compiler : ExprCompiler} {placed : PlacedOperation} {parts : List PathPart}
  (importable : Importable compiler placed parts)

include importable

/-- The path of the step is split between the path of the document and the query. -/
theorem Importable.splitQuery_stepPath :
    splitQuery placed.stepPath = (.ofList (pathText PathPart.source parts),
      .ofList (querySource (queryFields placed.operation.requiredQuery importable.queryNamed))) := by
  have noQuery : '?' ∉ pathText PathPart.source parts := notMem_pathTemplate (.inl rfl) parts
  have others : ∀ c ∈ pathText PathPart.source parts, decide (c ≠ '?') = true := by
    intro c member
    rw [decide_eq_true_eq]
    rintro rfl
    exact noQuery member
  rw [PlacedOperation.stepPath, pathTemplate_of_parts importable.path, splitQuery,
    querySource_queryFields]
  by_cases empty : placed.operation.queryParts = []
  · rw [if_pos empty, String.toList_ofList, List.takeWhile_eq_self_iff.mpr others,
      List.dropWhile_eq_nil_iff.mpr others, empty]
    rfl
  · rw [if_neg empty, String.toList_ofList, List.takeWhile_append_of_pos others,
      List.dropWhile_append_of_pos others]
    simp

/-- The step of an imported operation compiles and waits for no other step. -/
theorem Importable.exists_compiledStep (upstream : String) :
    ∃ compiled, compileStep compiler ["main"] (placed.step upstream) = .ok compiled ∧
      compiled.deps = [] ∧ compiled.templates.method = placed.method.toUpper ∧
      parseSegments compiler ["main"] (.ofList (pathText PathPart.source parts)) =
        .ok compiled.templates.pathPart.segments ∧
      (placed.operation.requiredQuery = [] → compiled.templates.queryPart = none) ∧
      compiled.templates.bodyTmpl = none ∧ compiled.templates.headers = ∅ := by
  have pathCompiles : ∀ hole ∈ holesOf (pathPieces parts), ∃ segment,
      compileExpression compiler ["main"] hole.expr = .ok segment ∧
        segment.stepDeps compiler = [] := by
    intro hole member
    obtain ⟨name, named, -, -, compiles, none_⟩ := importable.compiles_path member
    exact ⟨_, compiles, none_⟩
  obtain ⟨pathSegments, pathParsed, pathNone⟩ := exists_segments
    (.ofList (pathText PathPart.source parts)) (textsPlain_pathPieces parts) pathCompiles []
  rw [renderPieces_pathPieces] at pathParsed
  have isPathParsed : parseSegments compiler ["main"] (.ofList (pathText PathPart.source parts)) =
      .ok pathSegments := by
    rw [parseSegments, String.toList_ofList, pathParsed]
  obtain ⟨pathPart, isPathPart, isPathSegments, pathDeps⟩ :=
    exists_template (.stepPath "main") isPathParsed pathNone
  have queryCompiles : ∀ hole ∈ holesOf
      (queryPieces (queryFields placed.operation.requiredQuery importable.queryNamed)),
      ∃ segment, compileExpression compiler ["main"] hole.expr = .ok segment ∧
        segment.stepDeps compiler = [] := by
    intro hole member
    rw [holesOf_queryPieces] at member
    obtain ⟨name, inNames, -, compiles, none_⟩ := importable.compiles_query member
    exact ⟨_, compiles, none_⟩
  obtain ⟨segments, queryParsed, queryNone⟩ := exists_segments
    (.ofList (querySource (queryFields placed.operation.requiredQuery importable.queryNamed)))
    (textsPlain_queryPieces _) queryCompiles []
  have isQueryParsed : parseSegments compiler ["main"] (.ofList (querySource
      (queryFields placed.operation.requiredQuery importable.queryNamed))) = .ok segments := by
    rw [parseSegments, String.toList_ofList]
    exact queryParsed
  obtain ⟨found, isFound, queryDeps, ofEmpty⟩ :=
    exists_optional (.stepQuery "main") isQueryParsed queryNone
  have noQuery : placed.operation.requiredQuery = [] → found = none := by
    intro empty
    apply ofEmpty
    simp [querySource, queryFields, queryPieces, empty]
  refine ⟨⟨placed.step upstream, ⟨placed.method.toUpper, pathPart, found, none, ∅⟩, []⟩, ?_, rfl,
    rfl, isPathSegments ▸ isPathParsed, noQuery, rfl, rfl⟩
  have isPath : (placed.step upstream).path = placed.stepPath := rfl
  rw [compileStep, isPath, importable.splitQuery_stepPath]
  dsimp only
  change (compileAt compiler ["main"] (.stepPath "main") _).bind _ = _
  rw [isPathPart]
  change (compileOptional compiler ["main"] (.stepQuery "main") _).bind _ = _
  rw [isFound]
  have noDeps : templateDeps ⟨placed.method.toUpper, pathPart, found, none, ∅⟩ = [] := by
    rw [templateDeps, pathDeps, queryDeps]
    rfl
  change Except.ok (CompiledStep.mk _ _ (mergeDependencies [] (templateDeps
    ⟨placed.method.toUpper, pathPart, found, none, ∅⟩))) = _
  rw [noDeps]
  rfl

end Compiled

/-! ### The composition -/

/-- ` steps.main.body ` -/
def resultHole : Hole := ⟨" steps.main.body ".toList, by decide⟩

/-- A composition as the checks of the artifact leave it. -/
def PlacedOperation.checked (upstream : String) (placed : PlacedOperation) : CompositionConfig :=
  { placed.composition upstream with
    response := { (placed.composition upstream).response with contentType := "application/json" } }

section Plan

/-- One step that waits for nothing is planned in one wave. -/
theorem waves_of_single {deps : StepDependencies} (order : RangeOrder deps) {step : String}
    (isKeys : deps.keys = [step]) (waitsFor : deps.lookup step = some []) :
    ∃ plan, buildDAG deps order = some (.ok plan) ∧ plan.waves = [[step]] := by
  have none_ : ∀ other dep, ¬ Composition.DependsOn deps other dep := by
    intro other dep depends
    have isStep := depends.mem_keys
    rw [isKeys, List.mem_singleton] at isStep
    subst isStep
    simp [Composition.DependsOn, GoMap.getD, waitsFor] at depends
  have acyclic : Acyclic (Composition.DependsOn deps) := by
    intro start path
    obtain ⟨next, here, -⟩ := TransGen.head'_iff.mp path
    exact none_ _ _ here
  obtain ⟨plan, built⟩ := exists_plan order (fun other dep depends =>
    absurd depends (none_ other dep)) acyclic
  refine ⟨plan, built, ?_⟩
  have perm := (plan_of_buildDAG built).2.2.1
  rw [isKeys, List.perm_singleton] at perm
  have nonempty := wave_ne_nil_of_buildDAG built
  generalize plan.waves = waves at perm nonempty ⊢
  cases waves with
  | nil => cases perm
  | cons wave rest =>
      cases wave with
      | nil => exact absurd rfl (nonempty [] List.mem_cons_self)
      | cons first others =>
          obtain ⟨rfl, later⟩ := List.cons.inj perm
          obtain ⟨rfl, flat⟩ := List.append_eq_nil_iff.mp later
          cases rest with
          | nil => rfl
          | cons next rest =>
              have empty := (List.append_eq_nil_iff.mp flat).1
              exact absurd empty (nonempty next (by simp))

end Plan

section Composition

variable {compiler : ExprCompiler} {placed : PlacedOperation} {parts : List PathPart}
  (importable : Importable compiler placed parts)

include importable

/-- The body of the response compiles. -/
theorem Importable.exists_response (upstream : String) :
    ∃ response, compileResponse compiler ["main"] (placed.checked upstream).response =
      .ok response := by
  have compiles : compileExpression compiler ["main"] resultHole.expr =
      .ok (.program resultHole.expr resultNode) := by
    have isExpr : resultHole.expr = "steps.main.body" := by decide
    have accepted : checkReferences compiler.isBuiltin ["main"] false resultNode = none := rfl
    obtain ⟨parsed, checked, kept⟩ := importable.readsBody
    rw [isExpr, compileExpression, parsed]
    simp only [checked, kept, accepted]
  have isText : "\x7b\x7b steps.main.body \x7d\x7d".toList =
      renderPieces Hole.source [.hole resultHole] := by decide
  have parsed : parseSegments compiler ["main"] "\x7b\x7b steps.main.body \x7d\x7d" =
      .ok [.program resultHole.expr resultNode] := by
    rw [parseSegments, isText, parseLiteral_renderPieces _ _ _ rfl (by simp) (by simp) (.inl rfl),
      List.mapM_cons, List.mapM_nil, compilePiece, compiles]
    rfl
  have isExpression_ : isExpression "\x7b\x7b steps.main.body \x7d\x7d" = true := by decide
  have template : ∃ template, compileAt compiler ["main"] (.body ["result"])
      "\x7b\x7b steps.main.body \x7d\x7d" = .ok template := by
    rw [compileAt, compileTemplate, parsed]
    exact ⟨_, rfl⟩
  obtain ⟨template, isTemplate⟩ := template
  have body : compileBodyNode compiler ["main"] [] (placed.checked upstream).response.body =
      .ok (.map [("result", .tmpl template)]) := by
    change (compileFields compiler ["main"] []
      [("result", .string "\x7b\x7b steps.main.body \x7d\x7d")]).map BodyNode.map = _
    have field : compileBodyNode compiler ["main"] ["result"]
        (.string "\x7b\x7b steps.main.body \x7d\x7d") = .ok (.tmpl template) := by
      rw [compileBodyNode, if_pos isExpression_, isTemplate]
      rfl
    simp only [compileFields, List.nil_append, field]
    rfl
  refine ⟨⟨.static 200, .map [("result", .tmpl template)], "application/json"⟩, ?_⟩
  rw [compileResponse, body]
  rfl

/-- The composition compiles, whatever the order of the maps, to one wave with its step. -/
theorem Importable.exists_compiled (upstream : String) (checkSchema : Yaml → Option String)
    (order : (deps : StepDependencies) → RangeOrder deps) :
    ∃ compiled step, compileComposition compiler checkSchema (placed.checked upstream) order =
        some (.ok compiled) ∧ compiled.plan.waves = [["main"]] ∧
      compiled.steps.lookup "main" = some step ∧
      compileStep compiler ["main"] (placed.step upstream) = .ok step := by
  obtain ⟨step, isStep, deps, -⟩ := importable.exists_compiledStep upstream
  obtain ⟨response, isResponse⟩ := importable.exists_response upstream
  have isSteps : compileSteps compiler ["main"] [placed.step upstream] =
      .ok ((∅ : GoMap String CompiledStep).insert "main" step) := by
    rw [compileSteps, List.foldlM_cons, isStep]
    rfl
  have steps : (placed.checked upstream).steps = [placed.step upstream] := rfl
  have names : [placed.step upstream].map Step.name = ["main"] := rfl
  have noSchema : (placed.checked upstream).requestSchema = none := rfl
  have isParts : compileParts compiler checkSchema (placed.checked upstream) =
      .ok ((∅ : GoMap String CompiledStep).insert "main" step, response) := by
    simp only [compileParts, steps, names, noSchema, isSteps, isResponse, Option.bind_none]
    rfl
  have isKeys : (stepDependencies ((∅ : GoMap String CompiledStep).insert "main" step)).keys =
      ["main"] := rfl
  have waitsFor : (stepDependencies ((∅ : GoMap String CompiledStep).insert "main" step)).lookup
      "main" = some [] := by
    rw [← deps]
    rfl
  obtain ⟨plan, built, waves⟩ := waves_of_single (order _) isKeys waitsFor
  refine ⟨⟨(∅ : GoMap String CompiledStep).insert "main" step, response, plan⟩, step, ?_, waves,
    AList.lookup_insert _, isStep⟩
  rw [compileComposition, isParts]
  simp only [built, Option.map_some]

end Composition

end Restitch.Import
