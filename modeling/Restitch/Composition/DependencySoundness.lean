import Restitch.Composition.Compile
import Restitch.Composition.ExecuteInvariant
import Restitch.Std.Results

/-!
# What the extracted dependencies say about an expression

`ExtractDependencies` sees `steps.name` and `steps["name"]`. An expression that
reads the steps in no other way depends on the results it names and on no other;
one that does not can tell any other step apart.
-/

namespace Restitch.Composition

open Restitch.Expr Restitch.Http Restitch.Std Restitch.Semantics

/-- `steps.name` or `steps["name"]`. -/
def isStepByName : Node → Node → Bool
  | .identifier base, .string _ => decide (base = "steps")
  | _, _ => false

mutual

/-- Every use of `steps` names one step with a literal, and nothing reads the
environment as a whole. -/
def readsStepsByName : Node → Bool
  | .identifier value => decide (value ≠ "steps" ∧ value ≠ envName)
  | .string _ => true
  | .member node property _ =>
      isStepByName node property || readsStepsByName node && readsStepsByName property
  | .variableDeclarator _ value expr => readsStepsByName value && readsStepsByName expr
  | .other _ children => allReadStepsByName children

def allReadStepsByName : List Node → Bool
  | [] => true
  | node :: rest => readsStepsByName node && allReadStepsByName rest

end

/-- Several expressions read steps by name if each does. -/
theorem allReadStepsByName_iff {children : List Node} :
    allReadStepsByName children = true ↔ ∀ child ∈ children, readsStepsByName child = true := by
  induction children with
  | nil => simp [allReadStepsByName]
  | cons node rest ih => simp [allReadStepsByName, ih]

/-- A step is read by name if the name is a constant member of `steps`. -/
theorem isStepByName_iff {node property : Node} :
    isStepByName node property = true ↔
      node = .identifier "steps" ∧ ∃ name, property = .string name := by
  cases node <;> cases property <;> simp [isStepByName]

/-- A name is extracted from some node of the tree. -/
theorem mem_extractDependencies {node : Node} {name : String} :
    name ∈ extractDependencies node ↔ ∃ inner ∈ node.walk, visitDependency inner = some name := by
  rw [extractDependencies, List.mem_dedup, List.mem_filterMap]

/-- The dependencies of the parts of a tree are dependencies of the tree. -/
theorem extractDependencies_subset {inner node : Node} (part : ∀ n ∈ inner.walk, n ∈ node.walk) :
    extractDependencies inner ⊆ extractDependencies node := by
  intro name extracted
  obtain ⟨n, member, visited⟩ := mem_extractDependencies.mp extracted
  exact mem_extractDependencies.mpr ⟨n, part n member, visited⟩

section Congruence

variable {Value Error Scope : Type} (operators : Operators Value Error Scope)

/-- Two environments that agree on everything but `steps`, and there on the
entries of the given steps, which both have. -/
structure AgreeOn (deps : List String) (env env' : Env Value) : Prop where
  others : ∀ name, name ≠ "steps" → env name = env' name
  entries : ∀ dep ∈ deps, ∃ fields fields' value,
    env "steps" = some (operators.object fields) ∧ env' "steps" = some (operators.object fields') ∧
      fields dep = some value ∧ fields' dep = some value

variable {operators} {env env' : Env Value}

/-- What agrees on more steps agrees on fewer. -/
theorem AgreeOn.mono {deps deps' : List String} (agree : AgreeOn operators deps env env')
    (subset : deps' ⊆ deps) : AgreeOn operators deps' env env' :=
  ⟨agree.others, fun dep member => agree.entries dep (subset member)⟩

/-- `steps.name` is the entry of the step, unless something rebinds `steps`. -/
theorem member_steps_congr {name : String} (agree : AgreeOn operators [name] env env')
    (optional : Bool) (scope : Scope) :
    operators.member optional (lookupName operators env "steps" scope)
        (.ok (operators.text name)) =
      operators.member optional (lookupName operators env' "steps" scope)
        (.ok (operators.text name)) := by
  obtain ⟨fields, fields', value, is, is', found, found'⟩ := agree.entries name (by simp)
  cases rebound : operators.bound scope "steps" with
  | some other => rw [lookupName, lookupName, rebound]
  | none =>
      have notEnv : "steps" ≠ envName := by decide
      simp only [lookupName, rebound, if_neg notEnv, is, is']
      rw [operators.member_object _ _ _ _ found, operators.member_object _ _ _ _ found']

/-- An expression that reads steps by name evaluates to the same in environments
that agree on its dependencies. -/
theorem eval_congr {node : Node} (byName : readsStepsByName node = true)
    (agree : AgreeOn operators (extractDependencies node) env env') :
    eval operators env node = eval operators env' node := by
  induction node with
  | identifier value =>
      obtain ⟨notSteps, notEnv⟩ := of_decide_eq_true byName
      exact lookupName_congr operators notEnv (agree.others value notSteps)
  | string value => rfl
  | member node property optional ihNode ihProperty =>
      funext scope
      rw [eval, eval]
      rcases Bool.or_eq_true_iff.mp byName with step | parts
      · obtain ⟨rfl, name, rfl⟩ := isStepByName_iff.mp step
        refine member_steps_congr (agree.mono ?_) optional scope
        have extracted : name ∈ extractDependencies
            (.member (.identifier "steps") (.string name) optional) :=
          mem_extractDependencies.mpr ⟨_, Node.mem_walk_self _, rfl⟩
        simpa using extracted
      · obtain ⟨left, right⟩ := Bool.and_eq_true_iff.mp parts
        rw [ihNode left (agree.mono (extractDependencies_subset fun n part => by
            simp [Node.walk, part])),
          ihProperty right (agree.mono (extractDependencies_subset fun n part => by
            simp [Node.walk, part]))]
  | variableDeclarator name value expr ihValue ihExpr =>
      obtain ⟨left, right⟩ := Bool.and_eq_true_iff.mp byName
      rw [eval, eval, ihValue left (agree.mono (extractDependencies_subset fun n part => by
          simp [Node.walk, part])),
        ihExpr right (agree.mono (extractDependencies_subset fun n part => by
          simp [Node.walk, part]))]
  | other kind children ih =>
      have all := allReadStepsByName_iff.mp byName
      rw [eval, eval, evalAll_eq_map, evalAll_eq_map]
      congr 1
      refine List.map_congr_left fun child member => ih child member (all child member) ?_
      refine agree.mono (extractDependencies_subset fun n part => ?_)
      rw [Node.walk, List.mem_append]
      exact .inl (Node.mem_walkAll.mpr ⟨child, member, part⟩)

end Congruence

section Compiled

variable {compiler : ExprCompiler} {stepNames : List String}

/-- The program of a segment is the tree of its expression. -/
def Segment.Parsed (compiler : ExprCompiler) : Segment → Prop
  | .literal _ => True
  | .program expr node => compiler.parse expr = .ok node

/-- A compiled expression was parsed. -/
theorem parsed_of_compileExpression {expr : String} {segment : Segment}
    (compiled : compileExpression compiler stepNames expr = .ok segment) :
    segment.Parsed compiler := by
  obtain ⟨node, parsed, -, -, rfl⟩ := compileExpression_ok compiled
  exact parsed

/-- A segment of literal text is a literal. -/
theorem exists_text_of_mem_literalSegment {text : List Char} {segment : Segment}
    (member : segment ∈ literalSegment text) : ∃ literal, segment = .literal literal := by
  unfold literalSegment at member
  split at member
  · cases member
  · exact ⟨_, List.mem_singleton.mp member⟩

/-- What holds of literals and of what expressions compile to holds of all segments. -/
theorem forall_mem_parseSegments {holds : Segment → Prop} (ofLiteral : ∀ text, holds (.literal text))
    (ofExpression : ∀ expr segment, compileExpression compiler stepNames expr = .ok segment →
      holds segment) {raw : String} {segments : List Segment}
    (parsed : parseSegments compiler stepNames raw = .ok segments) :
    ∀ segment ∈ segments, holds segment := by
  have literals : ∀ text, ∀ segment ∈ literalSegment text, holds segment := by
    intro text segment member
    obtain ⟨literal, rfl⟩ := exists_text_of_mem_literalSegment member
    exact ofLiteral literal
  have both := parseLiteral.mutual_induct
    (fun text rest => ∀ segments, parseLiteral compiler stepNames raw text rest = .ok segments →
      ∀ segment ∈ segments, holds segment)
    (fun text rest => ∀ segments, parseExpression compiler stepNames raw text rest = .ok segments →
      ∀ segment ∈ segments, holds segment)
  refine (both ?_ ?_ ?_ ?_ ?_ ?_).1 [] raw.toList segments parsed
  · intro text rest ih segments parsed
    rw [parseLiteral] at parsed
    obtain ⟨later, inner, joined⟩ := Except.bind_eq_ok parsed
    cases joined
    intro segment member
    rcases List.mem_append.mp member with here | after
    · exact literals text segment here
    · exact ih later inner segment after
  · intro text c rest plain ih segments parsed
    rw [parseLiteral] at parsed
    · exact ih segments parsed
    · exact plain
  · intro text segments parsed
    cases parsed
    exact literals text
  · intro text rest ih segments parsed
    rw [parseExpression] at parsed
    obtain ⟨first, compiled, parsed⟩ := Except.bind_eq_ok parsed
    obtain ⟨later, inner, joined⟩ := Except.bind_eq_ok parsed
    cases joined
    intro segment member
    rcases List.mem_cons.mp member with rfl | after
    · exact ofExpression _ _ compiled
    · exact ih later inner segment after
  · intro text c rest plain ih segments parsed
    rw [parseExpression] at parsed
    · exact ih segments parsed
    · exact plain
  · intro text segments parsed
    cases parsed

/-- The programs of a template were parsed. -/
theorem parsed_of_parseSegments {raw : String} {segments : List Segment}
    (parsed : parseSegments compiler stepNames raw = .ok segments) :
    ∀ segment ∈ segments, segment.Parsed compiler :=
  forall_mem_parseSegments (fun _ => trivial)
    (fun _ _ compiled => parsed_of_compileExpression compiled) parsed

/-- New names are added to those there are. -/
theorem mem_appendNew {names more : List String} {name : String} :
    name ∈ appendNew names more ↔ name ∈ names ∨ name ∈ more := by
  induction more generalizing names with
  | nil => simp [appendNew]
  | cons first rest ih =>
      rw [appendNew, List.foldl_cons, ← appendNew, ih]
      split
      · rename_i listed
        simp only [List.mem_cons]
        constructor
        · rintro (old | new)
          · exact .inl old
          · exact .inr (.inr new)
        · rintro (old | rfl | new)
          · exact .inl old
          · exact .inl listed
          · exact .inr new
      · simp only [List.mem_append, List.mem_cons, List.not_mem_nil, or_false, or_assoc]

/-- The names added are those of the segments. -/
theorem mem_foldl_appendNew {segments : List Segment} {names : List String} {name : String} :
    name ∈ segments.foldl (fun deps segment => appendNew deps (segment.stepDeps compiler)) names ↔
      name ∈ names ∨ ∃ segment ∈ segments, name ∈ segment.stepDeps compiler := by
  induction segments generalizing names with
  | nil => simp
  | cons segment rest ih =>
      rw [List.foldl_cons, ih, mem_appendNew]
      simp [or_assoc]

/-- A compiled template lists the dependencies of its expressions. -/
structure CompiledFrom (compiler : ExprCompiler) (template : Template) : Prop where
  parsed : ∀ segment ∈ template.segments, segment.Parsed compiler
  deps : ∀ name, name ∈ template.deps ↔ ∃ expr node,
    .program expr node ∈ template.segments ∧ name ∈ extractDependencies node

/-- A compiled template has the dependencies of its segments. -/
theorem compiledFrom_of_compileTemplate {raw : String} {template : Template}
    (compiled : compileTemplate compiler stepNames raw = .ok template) :
    CompiledFrom compiler template := by
  obtain ⟨segments, parsed, rfl⟩ := Except.map_eq_ok compiled
  have all := parsed_of_parseSegments parsed
  refine ⟨all, fun name => ?_⟩
  rw [mem_foldl_appendNew]
  constructor
  · rintro (none_ | ⟨segment, member, extracted⟩)
    · cases none_
    · cases segment with
      | literal text => cases extracted
      | program expr node =>
          refine ⟨expr, node, member, ?_⟩
          have tree : compiler.parse expr = .ok node := all _ member
          simpa [Segment.stepDeps, extractStepDeps, tree] using extracted
  · rintro ⟨expr, node, member, extracted⟩
    refine .inr ⟨_, member, ?_⟩
    have tree : compiler.parse expr = .ok node := all _ member
    simpa [Segment.stepDeps, extractStepDeps, tree] using extracted

end Compiled

def Segment.readsStepsByName : Segment → Bool
  | .literal _ => true
  | .program _ node => Composition.readsStepsByName node

/-- All expressions of a template read steps by name. -/
def Template.readsStepsByName (template : Template) : Bool :=
  template.segments.all Segment.readsStepsByName

section Requests

variable {Value Error Scope : Type} (operators : Operators Value Error Scope)
  (printer : Printer Value)

/-- Both results maps have an entry for each of these steps, and the same one. -/
def SameEntries (deps : List String) (results results' : GoMap String (Option (StepResult Value))) :
    Prop :=
  ∀ dep ∈ deps, ∃ entry, results.lookup dep = some entry ∧ results'.lookup dep = some entry

/-- The same results of some steps give environments that agree on these steps. -/
theorem agreeOn_buildRequestEnv {deps : List String} {data : RequestData Value}
    {results results' : GoMap String (Option (StepResult Value))}
    (same : SameEntries deps results results') :
    AgreeOn operators deps (buildRequestEnv operators.toValues data results)
      (buildRequestEnv operators.toValues data results') := by
  refine ⟨fun name other => ?_, fun dep member => ?_⟩
  · simp [buildRequestEnv, other]
  · obtain ⟨entry, found, found'⟩ := same dep member
    have present : ∀ {results : GoMap String (Option (StepResult Value))},
        results.lookup dep = some entry →
        buildRequestEnv operators.toValues data results "steps" =
          some (stepsValue operators.toValues results) := by
      intro results found
      have nonempty : results.entries ≠ [] := by
        rintro empty
        rw [← GoMap.mem_entries_iff, empty] at found
        cases found
      simp [buildRequestEnv, nonempty]
    exact ⟨_, _, stepValue operators.toValues entry, present found, present found',
      by rw [found]; rfl, by rw [found']; rfl⟩

/-- A template reads the same in two environments. -/
structure Template.SameIn (template : Template) (env env' : Env Value) : Prop where
  value : template.evalValue operators printer env = template.evalValue operators printer env'
  string : ∀ mode, template.evalString operators printer env mode =
    template.evalString operators printer env' mode

variable {operators printer} {env env' : Env Value}

/-- A template is the same in two environments if its programs are. -/
theorem Template.SameIn.of_programs {template : Template}
    (same : ∀ expr node, .program expr node ∈ template.segments →
      eval operators env node = eval operators env' node) :
    template.SameIn operators printer env env' := by
  have run : ∀ expr node, .program expr node ∈ template.segments →
      runProgram operators env expr node = runProgram operators env' expr node := by
    intro expr node member
    rw [runProgram, runProgram, same expr node member]
  have strings : ∀ mode segments, segments ⊆ template.segments →
      evalSegments operators printer env mode segments =
        evalSegments operators printer env' mode segments := by
    intro mode segments
    induction segments with
    | nil =>
        intro _
        rfl
    | cons segment rest ih =>
        intro subset
        obtain ⟨here, after⟩ := List.cons_subset.mp subset
        rw [evalSegments, evalSegments, ih after]
        cases segment with
        | literal text => rfl
        | program expr node => rw [Segment.evalString, Segment.evalString, run expr node here]
  have string : ∀ mode, template.evalString operators printer env mode =
      template.evalString operators printer env' mode :=
    fun mode => strings mode template.segments fun _ member => member
  refine ⟨?_, string⟩
  rw [Template.evalValue, Template.evalValue, string .none]
  split
  · rename_i expr node first
    have listed : template.program? = some (expr, node) := by
      split at first
      · exact first
      · cases first
    obtain ⟨segment, member, is⟩ := List.exists_of_findSome?_eq_some listed
    cases segment with
    | literal text => cases is
    | program expr node =>
        cases is
        exact run _ _ member
  · rfl

/-- A compiled template that reads steps by name depends on its dependencies only. -/
theorem Template.sameIn_of_sameEntries {compiler : ExprCompiler} {template : Template}
    (compiled : CompiledFrom compiler template) (byName : template.readsStepsByName = true)
    {data : RequestData Value} {results results' : GoMap String (Option (StepResult Value))}
    (same : SameEntries template.deps results results') :
    template.SameIn operators printer (buildRequestEnv operators.toValues data results)
      (buildRequestEnv operators.toValues data results') := by
  refine .of_programs fun expr node member => eval_congr ?_ ?_
  · exact List.all_eq_true.mp byName _ member
  · refine (agreeOn_buildRequestEnv operators same).mono fun name extracted => ?_
    exact (compiled.deps name).mpr ⟨expr, node, member, extracted⟩

/-- All templates of a step. -/
def StepTemplates.all (step : StepTemplates) : List Template :=
  step.pathPart :: (step.queryPart.toList ++ step.bodyTmpl.toList ++
    step.headers.entries.map fun entry => entry.2)

/-- The path is the same if the templates of the step are. -/
theorem evalPath_congr {context : BuildContext Error} {step : StepTemplates}
    (same : ∀ template ∈ step.all, template.SameIn operators printer env env') :
    evalPath operators printer context env step = evalPath operators printer context env' step := by
  rw [evalPath, evalPath, (same _ (by simp [StepTemplates.all])).string .path]
  cases query : step.queryPart with
  | none => rfl
  | some template => simp only [(same template (by simp [StepTemplates.all, query])).string .query]

/-- The body is the same if the templates of the step are. -/
theorem evalBody_congr {context : BuildContext Error} {step : StepTemplates}
    (same : ∀ template ∈ step.all, template.SameIn operators printer env env') :
    evalBody operators printer context env step = evalBody operators printer context env' step := by
  rw [evalBody, evalBody]
  cases body : step.bodyTmpl with
  | none => rfl
  | some template =>
      have here := same template (by simp [StepTemplates.all, body])
      simp only [here.string .json, here.value]

/-- The headers are the same if the templates of the step are. -/
theorem foldlM_setHeader_congr {context : BuildContext Error} {step : StepTemplates}
    (same : ∀ template ∈ step.all, template.SameIn operators printer env env')
    {entries : List (GoEntry String Template)} (subset : entries ⊆ step.headers.entries)
    (header : Header) :
    entries.foldlM (setHeader operators printer context env) header =
      entries.foldlM (setHeader operators printer context env') header := by
  induction entries generalizing header with
  | nil => rfl
  | cons entry rest ih =>
      obtain ⟨here, after⟩ := List.cons_subset.mp subset
      have listed : entry.2 ∈ step.all := by
        simp only [StepTemplates.all, List.mem_cons, List.mem_append, List.mem_map]
        exact .inr (.inr ⟨entry, here, rfl⟩)
      rw [List.foldlM_cons, List.foldlM_cons, setHeader, setHeader, (same _ listed).string .none]
      congr 1
      exact funext (ih after)

/-- The request of a step depends on what its templates evaluate to. -/
theorem buildStepRequest_congr {context : BuildContext Error} {step : StepTemplates}
    (same : ∀ template ∈ step.all, template.SameIn operators printer env env')
    (baseURL : String) (data : RequestData Value) :
    buildStepRequest operators printer context env baseURL data step =
      buildStepRequest operators printer context env' baseURL data step := by
  have order := (context.order step.headers).property.subset
  simp only [buildStepRequest, evalPath_congr same, evalBody_congr same,
    foldlM_setHeader_congr same order]

end Requests

end Restitch.Composition
