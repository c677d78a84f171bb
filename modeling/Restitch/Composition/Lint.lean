import Restitch.Composition.DependencySoundness

/-!
# The lint of the editor (`internal/composition/references.go`)

The lint checks the step names that are left in the optimized expressions; a publish checks the
dependencies, which are taken from the expressions as they are written.
-/

namespace Restitch.Composition

open Restitch.Expr Restitch.Std

/-! ### The check as a search -/

section Search

variable (isBuiltin : String → Bool) (names stepNames : List String) (checkSteps : Bool)

/-- The name that a node declares. -/
def declaredName : Node → List String
  | .variableDeclarator name _ _ => [name]
  | .identifier _ | .string _ | .member _ _ _ | .other _ _ => []

/-- What `refChecker.Visit` finds at a node, in an environment with these names. -/
def nodeFault (declared : List String) (node : Node) : Option ReferenceError :=
  match node with
  | .identifier value =>
      if value ∉ names ∧ value ∉ declared ∧ !isBuiltin value then some (.unknownName value)
      else none
  | .member _ _ _ => (chain node).bind (checkChain stepNames checkSteps)
  | .string _ | .variableDeclarator _ _ _ | .other _ _ => none

/-- The first fault of the nodes that are visited. -/
def firstFault : List String → List Node → Option ReferenceError
  | _, [] => none
  | declared, node :: rest =>
      (nodeFault isBuiltin names stepNames checkSteps declared node).or
        (firstFault (declaredName node ++ declared) rest)

variable {isBuiltin stepNames checkSteps}

/-- A visit declares the names of its node and keeps the first fault. -/
theorem visitReference_eq (state : List String × Option ReferenceError) (node : Node) :
    visitReference isBuiltin stepNames checkSteps state node =
      (declaredName node ++ state.1,
        state.2.or (nodeFault isBuiltin (baseNames stepNames) stepNames checkSteps state.1 node)) := by
  cases node with
  | identifier value =>
      rw [visitReference, nodeFault]
      split
      · rfl
      · exact Prod.ext rfl (Option.or_none).symm
  | member => rfl
  | string | variableDeclarator | other => exact Prod.ext rfl (Option.or_none).symm

/-- The visits find the first fault. -/
theorem foldl_visitReference (nodes : List Node) (state : List String × Option ReferenceError) :
    (nodes.foldl (visitReference isBuiltin stepNames checkSteps) state).2 =
      state.2.or (firstFault isBuiltin (baseNames stepNames) stepNames checkSteps state.1 nodes) := by
  induction nodes generalizing state with
  | nil => exact (Option.or_none).symm
  | cons node rest ih => rw [List.foldl_cons, ih, visitReference_eq, Option.or_assoc, firstFault]

/-- `checkReferences` returns the first fault. -/
theorem checkReferences_eq (node : Node) :
    checkReferences isBuiltin stepNames checkSteps node =
      firstFault isBuiltin (baseNames stepNames) stepNames checkSteps [] node.walk :=
  foldl_visitReference node.walk ([], none)

end Search

/-! ### Names of steps in a tree -/

/-- A step that the tree names with a literal: `steps.name` or `steps["name"]`. -/
def Mentions (tree : Node) (name : String) : Prop :=
  ∃ optional, .member (.identifier "steps") (.string name) optional ∈ tree.walk

/-- An identifier that the tree uses as an index: `steps[name]`. -/
def Indexes (tree : Node) (name : String) : Prop :=
  ∃ optional, .member (.identifier "steps") (.identifier name) optional ∈ tree.walk

/-- A visit finds a step exactly if the node is a member of `steps`. -/
theorem visitDependency_eq_some_iff {node : Node} {name : String} :
    visitDependency node = some name ↔ ∃ optional,
      node = .member (.identifier "steps") (.string name) optional ∨
        node = .member (.identifier "steps") (.identifier name) optional := by
  unfold visitDependency
  split
  · rename_i base property optional
    by_cases isSteps : base = "steps" <;> simp [isSteps]
  · rename_i base property optional
    by_cases isSteps : base = "steps" <;> simp [isSteps]
  · rename_i identifier string
    refine iff_of_false (by simp) ?_
    rintro ⟨optional, rfl | rfl⟩
    · exact string _ _ _ rfl
    · exact identifier _ _ _ rfl

/-- The dependencies of a tree are the names it mentions and the identifiers it indexes with. -/
theorem mem_extractDependencies_iff {tree : Node} {name : String} :
    name ∈ extractDependencies tree ↔ Mentions tree name ∨ Indexes tree name := by
  rw [mem_extractDependencies]
  constructor
  · rintro ⟨inner, member, visited⟩
    obtain ⟨optional, rfl | rfl⟩ := visitDependency_eq_some_iff.mp visited
    · exact .inl ⟨optional, member⟩
    · exact .inr ⟨optional, member⟩
  · rintro (⟨optional, member⟩ | ⟨optional, member⟩)
    · exact ⟨_, member, visitDependency_eq_some_iff.mpr ⟨optional, .inl rfl⟩⟩
    · exact ⟨_, member, visitDependency_eq_some_iff.mpr ⟨optional, .inr rfl⟩⟩

/-- A node of a subtree is a node of the tree. -/
theorem mem_walk_trans {inner node tree : Node} (part : inner ∈ node.walk)
    (member : node ∈ tree.walk) : inner ∈ tree.walk := by
  induction tree with
  | identifier value =>
      obtain rfl := List.mem_singleton.mp member
      exact part
  | string value =>
      obtain rfl := List.mem_singleton.mp member
      exact part
  | member base property optional baseIH propertyIH =>
      simp only [Node.walk, List.mem_append, List.mem_singleton] at member
      rcases member with (inBase | inProperty) | rfl
      · exact List.mem_append_left _ (List.mem_append_left _ (baseIH inBase))
      · exact List.mem_append_left _ (List.mem_append_right _ (propertyIH inProperty))
      · exact part
  | variableDeclarator name value expr valueIH exprIH =>
      simp only [Node.walk, List.mem_append, List.mem_singleton] at member
      rcases member with (inValue | inExpr) | rfl
      · exact List.mem_append_left _ (List.mem_append_left _ (valueIH inValue))
      · exact List.mem_append_left _ (List.mem_append_right _ (exprIH inExpr))
      · exact part
  | other kind children childIH =>
      simp only [Node.walk, List.mem_append, List.mem_singleton] at member
      rcases member with inChild | rfl
      · obtain ⟨child, isChild, inner⟩ := Node.mem_walkAll.mp inChild
        exact List.mem_append_left _ (Node.mem_walkAll.mpr ⟨child, isChild, childIH child isChild inner⟩)
      · exact part

/-- A chain has a name. -/
theorem ne_nil_of_chain {node : Node} {names : List String} (isChain : chain node = some names) :
    names ≠ [] := by
  unfold chain at isChain
  split at isChain
  · cases isChain
    exact List.cons_ne_nil _ _
  · obtain ⟨base, -, rfl⟩ := Option.map_eq_some_iff.mp isChain
    simp
  · cases isChain

/-- A chain of one name is an identifier. -/
theorem eq_identifier_of_chain {node : Node} {name : String} (isChain : chain node = some [name]) :
    node = .identifier name := by
  unfold chain at isChain
  split at isChain
  · cases isChain
    rfl
  · obtain ⟨base, isBase, joined⟩ := Option.map_eq_some_iff.mp isChain
    have positive := List.length_pos_iff.mpr (ne_nil_of_chain isBase)
    have lengths := congrArg List.length joined
    rw [List.length_append, List.length_singleton, List.length_singleton] at lengths
    omega
  · cases isChain

/-- A chain begins at a member of an identifier. -/
theorem exists_member_of_chain {node : Node} {root field : String} {rest : List String}
    (isChain : chain node = some (root :: field :: rest)) :
    ∃ optional, .member (.identifier root) (.string field) optional ∈ node.walk := by
  induction node generalizing rest with
  | identifier value => simp [chain] at isChain
  | string value => simp [chain] at isChain
  | variableDeclarator => simp [chain] at isChain
  | other => simp [chain] at isChain
  | member base property optional baseIH _ =>
      cases property with
      | string name =>
          obtain ⟨names, isBase, joined⟩ := Option.map_eq_some_iff.mp isChain
          match names, joined with
          | [_], rfl =>
              obtain rfl := eq_identifier_of_chain isBase
              exact ⟨optional, Node.mem_walk_self _⟩
          | _ :: _ :: _, joined =>
              cases joined
              obtain ⟨inner, member⟩ := baseIH isBase
              exact ⟨inner, List.mem_append_left _ (List.mem_append_left _ member)⟩
      | identifier | member | variableDeclarator | other => simp [chain] at isChain

/-! ### The lint -/

section Lint

variable (compiler : ExprCompiler) (steps : List String)

/-- The names of the environment of the lint, which has `steps` also without a step. -/
def lintNames : List String := ["req", "request", "steps"]

/-- The check of one segment, with step names. -/
def lintSegment : Segment → Option TemplateError
  | .literal _ => none
  | .program expr node =>
      (firstFault compiler.isBuiltin lintNames steps true [] (compiler.optimize node).walk).map
        (.reference expr)

/-- `LintTemplate`. -/
def lintTemplate (raw : String) : Option TemplateError :=
  match compileTemplate compiler steps raw with
  | .error error => some error
  | .ok template => template.segments.findSome? (lintSegment compiler steps)

end Lint

/-! ### What the lint and a publish agree on -/

section Agree

variable {compiler : ExprCompiler} {steps : List String}

/-- The names that expressions see are names of the linter. -/
theorem baseNames_subset : baseNames steps ⊆ lintNames := by
  rw [baseNames]
  split <;> simp [lintNames]

/-- With the check of step names, `checkChain` finds something more exactly if a chain of `steps`
names none of them. -/
theorem checkChain_steps {names : List String}
    (unchecked : checkChain steps false names = none) :
    checkChain steps true names = none ↔
      ∀ field rest, names = "steps" :: field :: rest → field ∈ steps := by
  match names with
  | [] | [_] => simp [checkChain]
  | root :: field :: rest =>
      unfold checkChain at unchecked ⊢
      dsimp only at unchecked ⊢
      by_cases isReq : root = "req" ∨ root = "request"
      · rw [if_pos isReq] at unchecked ⊢
        have other : root ≠ "steps" := by rcases isReq with rfl | rfl <;> decide
        simpa [other] using unchecked
      · rw [if_neg isReq] at unchecked ⊢
        by_cases isSteps : root = "steps"
        · rw [if_pos isSteps, if_neg (by simp)] at unchecked
          rw [if_pos isSteps, unchecked]
          by_cases known : field ∈ steps <;> simp [isSteps, known]
        · rw [if_neg isSteps]
          simp [isSteps]

/-- On a tree that the compiler accepts, the lint finds a fault exactly if the tree names what is
no step. -/
theorem firstFault_lint_iff {nodes : List Node} {declared : List String}
    (accepted : firstFault compiler.isBuiltin (baseNames steps) steps false declared nodes = none) :
    firstFault compiler.isBuiltin lintNames steps true declared nodes = none ↔
      ∀ node ∈ nodes, ∀ field rest, chain node = some ("steps" :: field :: rest) →
        field ∈ steps := by
  induction nodes generalizing declared with
  | nil => simp [firstFault]
  | cons node rest ih =>
      rw [firstFault, Option.or_eq_none_iff] at accepted ⊢
      rw [ih accepted.2, List.forall_mem_cons]
      refine and_congr_left fun _ => ?_
      cases node with
      | identifier value =>
          have unbound : ¬ (value ∉ lintNames ∧ value ∉ declared ∧ !compiler.isBuiltin value) := by
            intro unknown
            have base : value ∉ baseNames steps := fun member => unknown.1 (baseNames_subset member)
            have fault := accepted.1
            rw [nodeFault, if_pos ⟨base, unknown.2⟩] at fault
            cases fault
          rw [nodeFault, if_neg unbound]
          simp [chain]
      | member base property optional =>
          have unchecked := accepted.1
          rw [nodeFault] at unchecked ⊢
          cases isChain : chain (.member base property optional) with
          | none => simp
          | some names =>
              rw [isChain, Option.bind_some] at unchecked
              rw [Option.bind_some, checkChain_steps unchecked]
              simp only [Option.some.injEq]
      | string | variableDeclarator | other => simp [nodeFault, chain]

/-- The check of a publish accepts a tree that the lint accepts exactly if the optimized tree
mentions steps only. -/
theorem firstFault_lint_walk_iff {tree : Node}
    (accepted : checkReferences compiler.isBuiltin steps false tree = none) :
    firstFault compiler.isBuiltin lintNames steps true [] tree.walk = none ↔
      ∀ name, Mentions tree name → name ∈ steps := by
  rw [checkReferences_eq] at accepted
  rw [firstFault_lint_iff accepted]
  constructor
  · rintro known name ⟨optional, member⟩
    exact known _ member name [] rfl
  · intro known node member field rest isChain
    obtain ⟨optional, inner⟩ := exists_member_of_chain isChain
    exact known field ⟨optional, mem_walk_trans inner member⟩

/-- The program of a segment has passed the check of its names. -/
def Segment.Checked (compiler : ExprCompiler) (steps : List String) : Segment → Prop
  | .literal _ => True
  | .program _ node =>
      checkReferences compiler.isBuiltin steps false (compiler.optimize node) = none

/-- A compiled expression was checked. -/
theorem checked_of_compileExpression {expr : String} {segment : Segment}
    (compiled : compileExpression compiler steps expr = .ok segment) :
    segment.Checked compiler steps := by
  obtain ⟨node, -, -, accepted, rfl⟩ := compileExpression_ok compiled
  exact accepted

/-- The trees of the expressions. -/
def Template.trees (template : Template) : List Node :=
  template.segments.filterMap fun segment =>
    match segment with
    | .literal _ => none
    | .program _ node => some node

/-- The trees of a template are those of its programs. -/
theorem mem_trees {template : Template} {tree : Node} :
    tree ∈ template.trees ↔ ∃ expr, .program expr tree ∈ template.segments := by
  rw [Template.trees, List.mem_filterMap]
  constructor
  · rintro ⟨segment, member, isTree⟩
    cases segment with
    | literal => cases isTree
    | program expr node =>
        cases isTree
        exact ⟨expr, member⟩
  · rintro ⟨expr, member⟩
    exact ⟨_, member, rfl⟩

/-- The lint of a template that compiles. -/
theorem lintTemplate_eq_none_iff {raw : String} {template : Template}
    (compiled : compileTemplate compiler steps raw = .ok template) :
    lintTemplate compiler steps raw = none ↔
      ∀ tree ∈ template.trees, ∀ name, Mentions (compiler.optimize tree) name → name ∈ steps := by
  have checked : ∀ segment ∈ template.segments, segment.Checked compiler steps := by
    obtain ⟨segments, parsed, rfl⟩ := Except.map_eq_ok compiled
    exact forall_mem_parseSegments (fun _ => trivial)
      (fun _ _ compiled => checked_of_compileExpression compiled) parsed
  rw [lintTemplate, compiled]
  dsimp only
  rw [List.findSome?_eq_none_iff]
  constructor
  · intro clean tree member
    obtain ⟨expr, isSegment⟩ := mem_trees.mp member
    have accepted := checked _ isSegment
    exact (firstFault_lint_walk_iff accepted).mp (Option.map_eq_none_iff.mp (clean _ isSegment))
  · intro known segment member
    cases segment with
    | literal => rfl
    | program expr node =>
        have accepted := checked _ member
        exact Option.map_eq_none_iff.mpr
          ((firstFault_lint_walk_iff accepted).mpr (known node (mem_trees.mpr ⟨expr, member⟩)))

/-- The check of the dependencies of a template that compiles. -/
theorem deps_subset_iff {raw : String} {template : Template}
    (compiled : compileTemplate compiler steps raw = .ok template) :
    template.deps ⊆ steps ↔
      ∀ tree ∈ template.trees, ∀ name, Mentions tree name ∨ Indexes tree name → name ∈ steps := by
  have deps := (compiledFrom_of_compileTemplate compiled).deps
  constructor
  · intro known tree member name named
    obtain ⟨expr, isSegment⟩ := mem_trees.mp member
    exact known ((deps name).mpr ⟨expr, tree, isSegment, mem_extractDependencies_iff.mpr named⟩)
  · intro known name member
    obtain ⟨expr, tree, isSegment, extracted⟩ := (deps name).mp member
    exact known tree (mem_trees.mpr ⟨expr, isSegment⟩) name
      (mem_extractDependencies_iff.mp extracted)

/-- The names by which the lint and the dependencies differ do not decide. -/
structure SameVerdict (compiler : ExprCompiler) (steps : List String) (trees : List Node) : Prop where
  /-- A name that the optimizer takes out, or the identifier of an index, is no step only if a
  name that is left is none either. -/
  hidden : ∀ tree ∈ trees, ∀ name, name ∉ steps →
    Mentions tree name ∧ ¬ Mentions (compiler.optimize tree) name ∨ Indexes tree name →
    ∃ other ∈ trees, ∃ left, left ∉ steps ∧ Mentions (compiler.optimize other) left
  /-- A name that the optimizer puts together is no step only if a name that is written is none
  either. -/
  made : ∀ tree ∈ trees, ∀ name, name ∉ steps →
    Mentions (compiler.optimize tree) name → ¬ Mentions tree name → ¬ Indexes tree name →
    ∃ other ∈ trees, ∃ written, written ∉ steps ∧
      (Mentions other written ∨ Indexes other written)

/-- The lint agrees with a publish exactly if the template is refused, or the names by which they
differ do not decide. -/
theorem lintTemplate_agrees_iff (compiler : ExprCompiler) (raw : String) (steps : List String) :
    (lintTemplate compiler steps raw = none ↔
      ∃ template, compileTemplate compiler steps raw = .ok template ∧ template.deps ⊆ steps) ↔
    ∀ template, compileTemplate compiler steps raw = .ok template →
      SameVerdict compiler steps template.trees := by
  cases compiled : compileTemplate compiler steps raw with
  | error error =>
      rw [lintTemplate, compiled]
      simp
  | ok template =>
      have lint := lintTemplate_eq_none_iff compiled
      have publish := deps_subset_iff compiled
      constructor
      · rintro agree _ ⟨rfl⟩
        have verdicts : lintTemplate compiler steps raw = none ↔ template.deps ⊆ steps := by
          rw [agree]
          simp
        rw [lint, publish] at verdicts
        refine ⟨?_, ?_⟩
        · intro tree member name unknown named
          by_contra none_
          push Not at none_
          have clean := verdicts.mp fun other isTree left mentioned => by
            by_contra isUnknown
            exact none_ other isTree left isUnknown mentioned
          exact unknown (clean tree member name (named.imp_left And.left))
        · intro tree member name unknown mentioned _ _
          by_contra none_
          push Not at none_
          have clean := verdicts.mpr fun other isTree written named => by
            by_contra isUnknown
            obtain ⟨unmentioned, unindexed⟩ := none_ other isTree written isUnknown
            exact named.elim unmentioned unindexed
          exact unknown (clean tree member name mentioned)
      · intro same
        obtain ⟨hidden, made⟩ := same template rfl
        have verdicts : lintTemplate compiler steps raw = none ↔ template.deps ⊆ steps := by
          rw [lint, publish]
          constructor
          · intro clean tree member name named
            by_contra unknown
            have lost : Mentions tree name ∧ ¬ Mentions (compiler.optimize tree) name ∨
                Indexes tree name := by
              refine named.imp_left fun mentioned => ⟨mentioned, fun left => ?_⟩
              exact unknown (clean tree member name left)
            obtain ⟨other, isTree, left, isUnknown, mentioned⟩ := hidden tree member name unknown lost
            exact isUnknown (clean other isTree left mentioned)
          · intro clean tree member name mentioned
            by_contra unknown
            obtain ⟨other, isTree, written, isUnknown, named⟩ := made tree member name unknown mentioned
              (fun inTree => unknown (clean tree member name (.inl inTree)))
              (fun inTree => unknown (clean tree member name (.inr inTree)))
            exact isUnknown (clean other isTree written named)
        rw [verdicts]
        simp

end Agree

/-! ### A name that folding takes out -/

/-- `false && steps.nope.status == 200` -/
def foldedTree : Node :=
  .other (.binary "&&") [.other (.bool false) [],
    .other (.binary "==") [.member (.member (.identifier "steps") (.string "nope") false)
      (.string "status") false, .other (.integer 200) []]]

/-- The compiler, as far as the expression needs it: the optimizer folds a conjunction with
`false`. -/
def foldingCompiler : ExprCompiler where
  parse text := if text = "false && steps.nope.status == 200" then .ok foldedTree
    else .error "unexpected token"
  check _ _ := none
  optimize tree :=
    match tree with
    | .other (.binary "&&") [.other (.bool false) [], _] => .other (.bool false) []
    | tree => tree
  isBuiltin _ := false

/-- The lint accepts a step that does not exist, and a publish refuses it. -/
theorem lint_accepts_folded_step :
    ¬ (lintTemplate foldingCompiler ["user"]
        "\x7b\x7b false && steps.nope.status == 200 \x7d\x7d" = none ↔
      ∃ template, compileTemplate foldingCompiler ["user"]
        "\x7b\x7b false && steps.nope.status == 200 \x7d\x7d" = .ok template ∧
        template.deps ⊆ ["user"]) := by
  intro agree
  have accepted : lintTemplate foldingCompiler ["user"]
      "\x7b\x7b false && steps.nope.status == 200 \x7d\x7d" = none := by decide
  have deps : (compileTemplate foldingCompiler ["user"]
      "\x7b\x7b false && steps.nope.status == 200 \x7d\x7d").map Template.deps = .ok ["nope"] := by
    rfl
  obtain ⟨template, compiled, known⟩ := agree.mp accepted
  rw [compiled] at deps
  have isDeps : template.deps = ["nope"] := Except.ok.inj deps
  have listed := known (isDeps ▸ List.mem_singleton_self "nope")
  exact absurd listed (by decide)

end Restitch.Composition
