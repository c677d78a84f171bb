import Restitch.Composition.EnvironmentShape

/-!
# The scope of an expression (`internal/composition/references.go`)

The check of a template keeps one set of declared names along the walk. Scope follows the tree
instead: a `let` binds its name in its body.
-/

namespace Restitch.Composition

open Restitch.Expr Restitch.Std

/-! ### Well scoped expressions -/

mutual

/-- The dotted or indexed names of a chain, also behind an optional member. -/
def dotted : Node → Option (List String)
  | .identifier value => some [value]
  | .member node (.string name) _ => (dotted node).map (· ++ [name])
  | .other .chain children => dottedOnly children
  | _ => none

/-- The names of the only child. -/
def dottedOnly : List Node → Option (List String)
  | [node] => dotted node
  | _ => none

end

/-- An optional member does not change the names of a chain without one. -/
theorem dotted_of_chain {node : Node} {names : List String} (isChain : chain node = some names) :
    dotted node = some names := by
  induction node generalizing names with
  | identifier value => exact isChain
  | member base property optional baseIH _ =>
      cases property with
      | string name =>
          obtain ⟨base, isBase, rfl⟩ := Option.map_eq_some_iff.mp isChain
          rw [dotted, baseIH isBase, Option.map_some]
      | identifier | member | variableDeclarator | other => simp [chain] at isChain
  | string | variableDeclarator | other => simp [chain] at isChain

section Scope

variable (isBuiltin : String → Bool) (stepNames : List String)

/-- Neither the environment nor a builtin binds the name. -/
def Free (value : String) : Prop :=
  value ∉ baseNames stepNames ∧ isBuiltin value = false

/-- A chain at `req`, `request` or `steps`, which no `let` shadows, names what is produced. -/
def ChainScoped (bound : List String) (node : Node) : Prop :=
  ∀ root field rest, dotted node = some (root :: field :: rest) → root ∈ lintNames →
    root ∉ bound → Produced stepNames (root :: field :: rest)

mutual

/-- Every name of the expression is bound, where the `let`s around it bind these names. -/
def WellScoped : List String → Node → Prop
  | bound, .identifier value => Free isBuiltin stepNames value → value ∈ bound
  | _, .string _ => True
  | bound, .member node property optional =>
      WellScoped bound node ∧ WellScoped bound property ∧
        ChainScoped stepNames bound (.member node property optional)
  | bound, .variableDeclarator name value expr =>
      WellScoped bound value ∧ WellScoped (name :: bound) expr
  | bound, .other _ children => AllWellScoped bound children

/-- Every one of the expressions is well scoped. -/
def AllWellScoped : List String → List Node → Prop
  | _, [] => True
  | bound, node :: rest => WellScoped bound node ∧ AllWellScoped bound rest

end

end Scope

/-! ### The visits of the walk -/

/-- A visit of the walk: the names that the `let`s around the node bind, and the names that are
declared when the walk is there. -/
structure Visit where
  node : Node
  bound : List String
  declared : List String

/-- The names that are declared after these visits. -/
def declaredAfter (declared : List String) (nodes : List Node) : List String :=
  nodes.foldl (fun declared node => declaredName node ++ declared) declared

mutual

/-- The visits of a tree, in the order of the walk. -/
def visits (bound declared : List String) : Node → List Visit
  | .identifier value => [⟨.identifier value, bound, declared⟩]
  | .string value => [⟨.string value, bound, declared⟩]
  | .member node property optional =>
      visits bound declared node ++ visits bound (declaredAfter declared node.walk) property ++
        [⟨.member node property optional, bound,
          declaredAfter declared (node.walk ++ property.walk)⟩]
  | .variableDeclarator name value expr =>
      visits bound declared value ++
        visits (name :: bound) (declaredAfter declared value.walk) expr ++
        [⟨.variableDeclarator name value expr, bound,
          declaredAfter declared (value.walk ++ expr.walk)⟩]
  | .other kind children =>
      visitsAll bound declared children ++
        [⟨.other kind children, bound, declaredAfter declared (Node.walkAll children)⟩]

/-- The visits of several trees. -/
def visitsAll (bound declared : List String) : List Node → List Visit
  | [] => []
  | node :: rest =>
      visits bound declared node ++ visitsAll bound (declaredAfter declared node.walk) rest

end

section Check

variable {isBuiltin : String → Bool} {names stepNames : List String} {checkSteps : Bool}

/-- The first fault is that of the first part, or that of the second one with the names declared
before. -/
theorem firstFault_append (declared : List String) (first second : List Node) :
    firstFault isBuiltin names stepNames checkSteps declared (first ++ second) =
      (firstFault isBuiltin names stepNames checkSteps declared first).or
        (firstFault isBuiltin names stepNames checkSteps (declaredAfter declared first) second) := by
  induction first generalizing declared with
  | nil => rfl
  | cons node rest ih =>
      rw [List.cons_append, firstFault, ih, firstFault, Option.or_assoc]
      rfl

/-- The first fault of one node is its own. -/
theorem firstFault_singleton (declared : List String) (node : Node) :
    firstFault isBuiltin names stepNames checkSteps declared [node] =
      nodeFault isBuiltin names stepNames checkSteps declared node :=
  Option.or_none

/-- The walk finds nothing. -/
def Clean (isBuiltin : String → Bool) (names stepNames : List String) (checkSteps : Bool)
    (visit : Visit) : Prop :=
  nodeFault isBuiltin names stepNames checkSteps visit.declared visit.node = none

/-- The walk of a tree finds nothing exactly if none of its visits does. -/
theorem firstFault_walk_iff (bound declared : List String) (node : Node) :
    firstFault isBuiltin names stepNames checkSteps declared node.walk = none ↔
      ∀ visit ∈ visits bound declared node, Clean isBuiltin names stepNames checkSteps visit := by
  induction node generalizing bound declared with
  | identifier value => simp [Node.walk, visits, firstFault_singleton, Clean]
  | string value => simp [Node.walk, visits, firstFault_singleton, Clean]
  | member base property optional baseIH propertyIH =>
      rw [Node.walk, firstFault_append, firstFault_append, firstFault_singleton,
        Option.or_eq_none_iff, Option.or_eq_none_iff, baseIH bound, propertyIH bound, visits,
        List.forall_mem_append, List.forall_mem_append, List.forall_mem_singleton]
      rfl
  | variableDeclarator name value expr valueIH exprIH =>
      rw [Node.walk, firstFault_append, firstFault_append, firstFault_singleton,
        Option.or_eq_none_iff, Option.or_eq_none_iff, valueIH bound, exprIH (name :: bound), visits,
        List.forall_mem_append, List.forall_mem_append, List.forall_mem_singleton]
      rfl
  | other kind children childIH =>
      have all : ∀ declared,
          firstFault isBuiltin names stepNames checkSteps declared (Node.walkAll children) = none ↔
            ∀ visit ∈ visitsAll bound declared children,
              Clean isBuiltin names stepNames checkSteps visit := by
        induction children with
        | nil => simp [Node.walkAll, firstFault, visitsAll]
        | cons child rest ih =>
            intro declared
            rw [Node.walkAll, firstFault_append, Option.or_eq_none_iff,
              childIH child List.mem_cons_self bound declared,
              ih fun other member => childIH other (List.mem_cons_of_mem _ member),
              visitsAll, List.forall_mem_append]
      rw [Node.walk, firstFault_append, firstFault_singleton, Option.or_eq_none_iff, all, visits,
        List.forall_mem_append, List.forall_mem_singleton]
      rfl

end Check

section Wrong

variable (isBuiltin : String → Bool) (stepNames : List String)

/-- Scope does not allow what is visited. -/
def Wrong (visit : Visit) : Prop :=
  match visit.node with
  | .identifier value => Free isBuiltin stepNames value ∧ value ∉ visit.bound
  | .member _ _ _ => ¬ ChainScoped stepNames visit.bound visit.node
  | .string _ | .variableDeclarator _ _ _ | .other _ _ => False

variable {isBuiltin stepNames}

/-- A tree is well scoped exactly if none of its visits is wrong. -/
theorem wellScoped_iff (bound declared : List String) (node : Node) :
    WellScoped isBuiltin stepNames bound node ↔
      ∀ visit ∈ visits bound declared node, ¬ Wrong isBuiltin stepNames visit := by
  -- Scope does not look at the declared names, so each part may start with those of the walk.
  induction node generalizing bound declared with
  | identifier value => simp [WellScoped, visits, Wrong]
  | string value => simp [WellScoped, visits, Wrong]
  | member base property optional baseIH propertyIH =>
      rw [WellScoped, baseIH bound declared, propertyIH bound (declaredAfter declared base.walk),
        visits, List.forall_mem_append, List.forall_mem_append, List.forall_mem_singleton, Wrong,
        not_not, and_assoc]
  | variableDeclarator name value expr valueIH exprIH =>
      rw [WellScoped, valueIH bound declared,
        exprIH (name :: bound) (declaredAfter declared value.walk), visits,
        List.forall_mem_append, List.forall_mem_append, List.forall_mem_singleton, Wrong]
      simp only [not_false_eq_true, and_true]
  | other kind children childIH =>
      have all : ∀ declared, AllWellScoped isBuiltin stepNames bound children ↔
          ∀ visit ∈ visitsAll bound declared children, ¬ Wrong isBuiltin stepNames visit := by
        induction children with
        | nil => simp [AllWellScoped, visitsAll]
        | cons child rest ih =>
            intro declared
            rw [AllWellScoped, childIH child List.mem_cons_self bound declared,
              ih (fun other member => childIH other (List.mem_cons_of_mem _ member))
                (declaredAfter declared child.walk),
              visitsAll, List.forall_mem_append]
      rw [WellScoped, all declared, visits, List.forall_mem_append, List.forall_mem_singleton, Wrong]
      simp only [not_false_eq_true, and_true]

end Wrong

/-! ### What the walk finds, and what scope refuses -/

section Faults

variable (isBuiltin : String → Bool) (stepNames : List String)

/-- The chain of a node, which names what `checkChain` refuses: a name that is not produced, and
not one that it lets pass. -/
inductive Missing : Node → String → Prop where
  | chain {node : Node} {root field : String} {rest : List String}
      (isChain : chain node = some (root :: field :: rest)) (isRoot : root ∈ lintNames)
      (missing : ¬ Produced stepNames (root :: field :: rest))
      (listed : ¬ Unseen stepNames (root :: field :: rest)) : Missing node root

/-- Scope refuses the visit, and the walk finds it. -/
inductive Caught : Visit → Prop where
  | name {value : String} {bound declared : List String} (free : Free isBuiltin stepNames value)
      (unbound : value ∉ bound) (undeclared : value ∉ declared) :
      Caught ⟨.identifier value, bound, declared⟩
  | path {node : Node} {root : String} {bound declared : List String}
      (missing : Missing stepNames node root) (unshadowed : root ∉ bound) :
      Caught ⟨node, bound, declared⟩

/-- Scope refuses the visit, and the walk does not find it. -/
inductive Hidden : Visit → Prop where
  /-- A `let` of the name stands elsewhere, and its visit came before. -/
  | late {value : String} {bound declared : List String} (free : Free isBuiltin stepNames value)
      (unbound : value ∉ bound) (finished : value ∈ declared) :
      Hidden ⟨.identifier value, bound, declared⟩
  /-- The chain leads nowhere in a way that `checkChain` lets pass. -/
  | unseen {node : Node} {root field : String} {rest bound declared : List String}
      (isChain : chain node = some (root :: field :: rest)) (isRoot : root ∈ lintNames)
      (unshadowed : root ∉ bound) (unseen : Unseen stepNames (root :: field :: rest)) :
      Hidden ⟨node, bound, declared⟩
  /-- The chain leads nowhere, and an optional member ends it for `chain`. -/
  | behind {base property : Node} {optional : Bool} {root field : String}
      {rest bound declared : List String} (ends : chain (.member base property optional) = none)
      (isDotted : dotted (.member base property optional) = some (root :: field :: rest))
      (isRoot : root ∈ lintNames) (unshadowed : root ∉ bound)
      (missing : ¬ Produced stepNames (root :: field :: rest)) :
      Hidden ⟨.member base property optional, bound, declared⟩

/-- Scope allows the visit, and the walk refuses it. -/
inductive Spurious : Visit → Prop where
  /-- The `let` of the name stands around the node, and its visit comes after. -/
  | early {value : String} {bound declared : List String} (free : Free isBuiltin stepNames value)
      (isBound : value ∈ bound) (unfinished : value ∉ declared) :
      Spurious ⟨.identifier value, bound, declared⟩
  /-- A `let` shadows the root of the chain. -/
  | shadowed {node : Node} {root : String} {bound declared : List String}
      (missing : Missing stepNames node root) (isBound : root ∈ bound) :
      Spurious ⟨node, bound, declared⟩

variable {isBuiltin stepNames}

/-- A chain is missing exactly if the check of it fails. -/
theorem missing_iff {node : Node} {root : String} :
    Missing stepNames node root ↔ ∃ field rest, chain node = some (root :: field :: rest) ∧
      checkChain stepNames false (root :: field :: rest) ≠ none := by
  constructor
  · rintro ⟨isChain, isRoot, missing, listed⟩
    exact ⟨_, _, isChain, fun accepted => missing ((produced_iff isRoot).mpr ⟨accepted, listed⟩)⟩
  · rintro ⟨field, rest, isChain, refused⟩
    have isRoot : root ∈ lintNames := by
      by_contra other
      exact refused (checkChain_eq_none_of_not_root other)
    refine ⟨isChain, isRoot, fun produced => ?_, fun unseen => ?_⟩
    · exact refused ((produced_iff isRoot).mp produced).1
    · exact refused (checkChain_of_unseen unseen)

/-- The walk finds an unknown name or a missing one. -/
theorem not_clean_iff {visit : Visit} :
    ¬ Clean isBuiltin (baseNames stepNames) stepNames false visit ↔
      (∃ value, visit.node = .identifier value ∧ Free isBuiltin stepNames value ∧
        value ∉ visit.declared) ∨ ∃ root, Missing stepNames visit.node root := by
  obtain ⟨node, bound, declared⟩ := visit
  cases node with
  | identifier value =>
      have noChain : ¬ ∃ root, Missing stepNames (.identifier value) root := by
        rintro ⟨root, missing⟩
        obtain ⟨_, _, isChain, _⟩ := missing_iff.mp missing
        simp [chain] at isChain
      have unknown : (value ∉ baseNames stepNames ∧ value ∉ declared ∧ !isBuiltin value) ↔
          Free isBuiltin stepNames value ∧ value ∉ declared := by
        rw [Free, Bool.not_eq_true']
        tauto
      rw [or_iff_left noChain, Clean, nodeFault, ite_eq_right_iff, unknown]
      simp
  | member base property optional =>
      rw [or_iff_right (by simp), Clean, nodeFault]
      simp only [missing_iff]
      cases isChain : chain (.member base property optional) with
      | none => simp
      | some names =>
          rcases names with _ | ⟨root, _ | ⟨field, rest⟩⟩
          · simp [checkChain]
          · simp [checkChain]
          · simp
  | string | variableDeclarator | other => simp [Clean, nodeFault, missing_iff, chain]

/-- A visit is wrong exactly if it reads a name that is free or a chain that is not produced. -/
theorem wrong_iff_name_or_chain {visit : Visit} :
    Wrong isBuiltin stepNames visit ↔
      (∃ value, visit.node = .identifier value ∧ Free isBuiltin stepNames value ∧
        value ∉ visit.bound) ∨
      ∃ base property optional root field rest, visit.node = .member base property optional ∧
        dotted visit.node = some (root :: field :: rest) ∧ root ∈ lintNames ∧
        root ∉ visit.bound ∧ ¬ Produced stepNames (root :: field :: rest) := by
  obtain ⟨node, bound, declared⟩ := visit
  cases node with
  | identifier value => simp [Wrong]
  | member base property optional => simp [Wrong, ChainScoped]
  | string | variableDeclarator | other => simp [Wrong]

/-- What the walk finds is what scope refuses too, or allows. -/
theorem not_clean_iff_caught_or_spurious {visit : Visit} :
    ¬ Clean isBuiltin (baseNames stepNames) stepNames false visit ↔
      Caught isBuiltin stepNames visit ∨ Spurious isBuiltin stepNames visit := by
  rw [not_clean_iff]
  obtain ⟨node, bound, declared⟩ := visit
  constructor
  · rintro (⟨value, rfl, free, undeclared⟩ | ⟨root, missing⟩)
    · by_cases isBound : value ∈ bound
      · exact .inr (.early free isBound undeclared)
      · exact .inl (.name free isBound undeclared)
    · by_cases isBound : root ∈ bound
      · exact .inr (.shadowed missing isBound)
      · exact .inl (.path missing isBound)
  · rintro (caught | spurious)
    · cases caught with
      | name free _ undeclared => exact .inl ⟨_, rfl, free, undeclared⟩
      | path missing _ => exact .inr ⟨_, missing⟩
    · cases spurious with
      | early free _ unfinished => exact .inl ⟨_, rfl, free, unfinished⟩
      | shadowed missing _ => exact .inr ⟨_, missing⟩

/-- A chain of two names or more is a member. -/
theorem eq_member_of_chain {node : Node} {root field : String} {rest : List String}
    (isChain : chain node = some (root :: field :: rest)) :
    ∃ base property optional, node = .member base property optional := by
  cases node with
  | member base property optional => exact ⟨_, _, _, rfl⟩
  | identifier | string | variableDeclarator | other => simp [chain] at isChain

/-- What scope refuses is what the walk finds too, or does not find. -/
theorem wrong_iff_caught_or_hidden {visit : Visit} :
    Wrong isBuiltin stepNames visit ↔
      Caught isBuiltin stepNames visit ∨ Hidden isBuiltin stepNames visit := by
  rw [wrong_iff_name_or_chain]
  obtain ⟨node, bound, declared⟩ := visit
  constructor
  · rintro (⟨value, rfl, free, unbound⟩ |
      ⟨base, property, optional, root, field, rest, rfl, isDotted, isRoot, unshadowed, missing⟩)
    · by_cases finished : value ∈ declared
      · exact .inr (.late free unbound finished)
      · exact .inl (.name free unbound finished)
    · cases isChain : chain (.member base property optional) with
      | none => exact .inr (.behind isChain isDotted isRoot unshadowed missing)
      | some names =>
          obtain rfl := Option.some.inj ((dotted_of_chain isChain).symm.trans isDotted)
          by_cases unseen : Unseen stepNames (root :: field :: rest)
          · exact .inr (.unseen isChain isRoot unshadowed unseen)
          · exact .inl (.path ⟨isChain, isRoot, missing, unseen⟩ unshadowed)
  · rintro (caught | hidden)
    · cases caught with
      | name free unbound _ => exact .inl ⟨_, rfl, free, unbound⟩
      | path missing unshadowed =>
          obtain ⟨isChain, isRoot, missing, -⟩ := missing
          obtain ⟨_, _, _, rfl⟩ := eq_member_of_chain isChain
          exact .inr ⟨_, _, _, _, _, _, rfl, dotted_of_chain isChain, isRoot, unshadowed, missing⟩
    · cases hidden with
      | late free unbound _ => exact .inl ⟨_, rfl, free, unbound⟩
      | unseen isChain isRoot unshadowed unseen =>
          obtain ⟨_, _, _, rfl⟩ := eq_member_of_chain isChain
          exact .inr ⟨_, _, _, _, _, _, rfl, dotted_of_chain isChain, isRoot, unshadowed,
            fun produced => ((produced_iff isRoot).mp produced).2 unseen⟩
      | behind _ isDotted isRoot unshadowed missing =>
          exact .inr ⟨_, _, _, _, _, _, rfl, isDotted, isRoot, unshadowed, missing⟩

end Faults

/-! ### The check of an expression -/

section Exact

/-- The walk finds something that scope refuses; or it misses something exactly if it refuses
something that scope allows. -/
def SameFaults (isBuiltin : String → Bool) (stepNames : List String) (tree : Node) : Prop :=
  (∃ visit ∈ visits [] [] tree, Caught isBuiltin stepNames visit) ∨
    ((∃ visit ∈ visits [] [] tree, Hidden isBuiltin stepNames visit) ↔
      ∃ visit ∈ visits [] [] tree, Spurious isBuiltin stepNames visit)

variable {isBuiltin : String → Bool} {stepNames : List String}

/-- The check decides about the tree that it walks exactly if the faults do. -/
theorem checkReferences_decides_iff (tree : Node) :
    (checkReferences isBuiltin stepNames false tree = none ↔
        WellScoped isBuiltin stepNames [] tree) ↔ SameFaults isBuiltin stepNames tree := by
  have found : ¬ (checkReferences isBuiltin stepNames false tree = none) ↔
      (∃ visit ∈ visits [] [] tree, Caught isBuiltin stepNames visit) ∨
        ∃ visit ∈ visits [] [] tree, Spurious isBuiltin stepNames visit := by
    rw [checkReferences_eq, firstFault_walk_iff [] []]
    simp only [not_forall, exists_prop, not_clean_iff_caught_or_spurious, and_or_left, exists_or]
  have refused : ¬ WellScoped isBuiltin stepNames [] tree ↔
      (∃ visit ∈ visits [] [] tree, Caught isBuiltin stepNames visit) ∨
        ∃ visit ∈ visits [] [] tree, Hidden isBuiltin stepNames visit := by
    rw [wellScoped_iff [] []]
    simp only [not_forall, exists_prop, not_not, wrong_iff_caught_or_hidden, and_or_left, exists_or]
  refine not_iff_not.symm.trans ?_
  rw [found, refused, SameFaults]
  by_cases caught : ∃ visit ∈ visits [] [] tree, Caught isBuiltin stepNames visit
  · simp only [caught, true_or]
  · simp only [caught, false_or]
    exact iff_comm

/-- The check walks what the optimizer leaves of an expression. It decides about the expression
exactly if the optimizer keeps the verdict and the faults of the walk decide it, or neither. -/
theorem checkReferences_exact_iff (compiler : ExprCompiler) (stepNames : List String)
    (tree : Node) :
    (checkReferences compiler.isBuiltin stepNames false (compiler.optimize tree) = none ↔
        WellScoped compiler.isBuiltin stepNames [] tree) ↔
      ((WellScoped compiler.isBuiltin stepNames [] (compiler.optimize tree) ↔
          WellScoped compiler.isBuiltin stepNames [] tree) ↔
        SameFaults compiler.isBuiltin stepNames (compiler.optimize tree)) := by
  rw [← checkReferences_decides_iff]
  tauto

end Exact

/-! ### A `let` that uses its name -/

/-- `let x = 1; x` -/
def letTree : Node :=
  .variableDeclarator "x" (.other (.integer 1) []) (.identifier "x")

/-- The compiler, as far as the expression needs it. -/
def letCompiler : ExprCompiler where
  parse text := if text = "let x = 1; x" then .ok letTree else .error "unexpected token"
  check _ _ := none
  optimize tree := tree
  isBuiltin _ := false

/-- The check refuses the only use of a `let`: the walk is at the body before it is at the `let`. -/
theorem checkReferences_refuses_let :
    letCompiler.parse "let x = 1; x" = .ok letTree ∧ letCompiler.check ["user"] letTree = none ∧
      ¬ (checkReferences letCompiler.isBuiltin ["user"] false (letCompiler.optimize letTree) = none ↔
        WellScoped letCompiler.isBuiltin ["user"] [] letTree) := by
  refine ⟨rfl, rfl, fun agree => ?_⟩
  have wellScoped : WellScoped letCompiler.isBuiltin ["user"] [] letTree :=
    ⟨trivial, fun _ => List.mem_singleton_self "x"⟩
  have refused : checkReferences letCompiler.isBuiltin ["user"] false letTree =
      some (.unknownName "x") := by decide
  have accepted : checkReferences letCompiler.isBuiltin ["user"] false letTree = none :=
    agree.mpr wellScoped
  rw [refused] at accepted
  cases accepted

/-- `(let x = 1; 2) + x` passes, although its last name is bound nowhere. -/
example : checkReferences letCompiler.isBuiltin ["user"] false
    (.other (.binary "+") [.variableDeclarator "x" (.other (.integer 1) []) (.other (.integer 2) []),
      .identifier "x"]) = none := by
  decide

end Restitch.Composition
