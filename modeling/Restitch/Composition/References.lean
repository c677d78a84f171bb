import Restitch.Expr.Syntax

/-!
# Names in expressions (`internal/composition/deps.go`, `references.go`)

The step names an expression refers to, and the check of its dotted names
against the environment the executor builds.
-/

namespace Restitch.Composition

open Restitch.Expr

/-- `dependencyVisitor.Visit`. -/
def visitDependency : Node → Option String
  | .member (.identifier base) (.identifier name) _
  | .member (.identifier base) (.string name) _ => if base = "steps" then some name else none
  | _ => none

/-- `ExtractDependencies` on a parsed expression, in the order of the walk. -/
def extractDependencies (node : Node) : List String :=
  (node.walk.filterMap visitDependency).dedup

/-- The members of `req`, as `BuildBaseEnvironment` lists them. -/
def reqFields : List String :=
  ["method", "path", "params", "query", "query_all", "headers", "body", "auth"]

/-- `scalarFields["req"]`. -/
def reqScalar (field : String) : Option String :=
  if field = "method" ∨ field = "path" then some "a string" else none

/-- `stepFields`. -/
def stepFields : List String := ["status", "headers", "body"]

/-- `scalarFields["step"]`. -/
def stepScalar (field : String) : Option String :=
  if field = "status" then some "a number" else none

/-- The names of the compile-time environment for these steps. -/
def baseNames (stepNames : List String) : List String :=
  ["req", "request"] ++ if stepNames = [] then [] else ["steps"]

/-- Why `checkReferences` refuses an expression. -/
inductive ReferenceError where
  /-- `unknown name %q (use req, request or steps)` -/
  | unknownName (name : String)
  /-- `%s has no field %q (it has %s)` -/
  | noField (root field : String)
  /-- `%s is %s and has no member %q` -/
  | scalar (path : List String) (kind member : String)
  /-- `steps has no step %q (it has %s)` -/
  | noStep (step : String)
  /-- `steps.%s has no field %q (it has body, headers and status)` -/
  | noStepField (step field : String)
deriving DecidableEq

/-- The dotted names of a member expression rooted at an identifier. -/
def chain : Node → Option (List String)
  | .identifier value => some [value]
  | .member node (.string name) _ => (chain node).map (· ++ [name])
  | _ => none

/-- `refChecker.checkChain` on the dotted names. `checkSteps` is set by the lint. -/
def checkChain (stepNames : List String) (checkSteps : Bool) :
    List String → Option ReferenceError
  | root :: field :: rest =>
      if root = "req" ∨ root = "request" then
        if field ∉ reqFields then some (.noField root field)
        else (reqScalar field).bind fun kind => rest.head?.map (.scalar [root, field] kind)
      else if root = "steps" then
        if checkSteps ∧ field ∉ stepNames then some (.noStep field)
        else
          match rest with
          | [] => none
          | member :: rest =>
              if member ∉ stepFields then some (.noStepField field member)
              else (stepScalar member).bind fun kind =>
                rest.head?.map (.scalar [root, field, member] kind)
      else none
  | _ => none

section

variable (isBuiltin : String → Bool) (stepNames : List String) (checkSteps : Bool)

/-- `refChecker.Visit`: the names declared so far, and the first error. -/
def visitReference (state : List String × Option ReferenceError) (node : Node) :
    List String × Option ReferenceError :=
  match node with
  | .variableDeclarator name _ _ => (name :: state.1, state.2)
  | .identifier value =>
      if value ∉ baseNames stepNames ∧ value ∉ state.1 ∧ !isBuiltin value then
        (state.1, state.2.or (some (.unknownName value)))
      else state
  | .member _ _ _ =>
      (state.1, state.2.or ((chain node).bind (checkChain stepNames checkSteps)))
  | _ => state

/-- `checkReferences`. -/
def checkReferences (node : Node) : Option ReferenceError :=
  (node.walk.foldl (visitReference isBuiltin stepNames checkSteps) ([], none)).2

end

end Restitch.Composition
