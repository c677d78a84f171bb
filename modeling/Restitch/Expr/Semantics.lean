import Restitch.Expr.Syntax

/-!
# What an expression evaluates to

The operators of the expression language are a parameter. Evaluation itself is
compositional: a node is evaluated from its children, and only identifiers read
the environment. Operators that bind variables or skip a child decide in which
scope they evaluate it, and whether they do.
-/

namespace Restitch.Expr

universe u

/-- The values that the gateway builds. -/
structure Values (Value : Type u) where
  nil : Value
  text : String → Value
  number : Nat → Value
  list : List Value → Value
  /-- A map with text keys, by its entries. -/
  object : (String → Option Value) → Value

/-- The operators of the language. `Scope` holds what `let` and predicates bind. -/
structure Operators (Value Error Scope : Type) extends Values Value where
  /-- The scope in which a program starts. -/
  start : Scope
  bound : Scope → String → Option Value
  /-- An identifier that nothing defines. -/
  undefined : String → Except Error Value
  member : Bool → Except Error Value → Except Error Value → Except Error Value
  declare : String → (Scope → Except Error Value) → (Scope → Except Error Value) →
    Scope → Except Error Value
  apply : Kind → List (Scope → Except Error Value) → Scope → Except Error Value
  /-- A member of a map is the entry of that key. -/
  member_object : ∀ optional fields key value, fields key = some value →
    member optional (.ok (object fields)) (.ok (text key)) = .ok value

variable {Value Error Scope : Type}

/-- The runtime environment (`map[string]any`). -/
abbrev Env (Value : Type) := String → Option Value

/-- The identifier that stands for the whole environment. -/
def envName : String := "$env"

/-- What an identifier stands for. -/
def lookupName (operators : Operators Value Error Scope) (env : Env Value) (name : String)
    (scope : Scope) : Except Error Value :=
  match operators.bound scope name with
  | some value => .ok value
  | none =>
      if name = envName then .ok (operators.object env)
      else
        match env name with
        | some value => .ok value
        | none => operators.undefined name

mutual

/-- Evaluate a tree. -/
def eval (operators : Operators Value Error Scope) (env : Env Value) :
    Node → Scope → Except Error Value
  | .identifier value => lookupName operators env value
  | .string value => fun _ => .ok (operators.text value)
  | .member node property optional => fun scope =>
      operators.member optional (eval operators env node scope) (eval operators env property scope)
  | .variableDeclarator name value expr =>
      operators.declare name (eval operators env value) (eval operators env expr)
  | .other kind children => operators.apply kind (evalAll operators env children)

/-- Evaluate the children of a node. -/
def evalAll (operators : Operators Value Error Scope) (env : Env Value) :
    List Node → List (Scope → Except Error Value)
  | [] => []
  | node :: rest => eval operators env node :: evalAll operators env rest

end

/-- Several expressions are evaluated one by one. -/
theorem evalAll_eq_map (operators : Operators Value Error Scope) (env : Env Value)
    (children : List Node) :
    evalAll operators env children = children.map (eval operators env) := by
  induction children with
  | nil => rfl
  | cons node rest ih => rw [evalAll, ih, List.map_cons]

/-- An identifier reads its own entry of the environment only. -/
theorem lookupName_congr (operators : Operators Value Error Scope) {env env' : Env Value}
    {name : String} (notEnv : name ≠ envName) (same : env name = env' name) :
    lookupName operators env name = lookupName operators env' name := by
  funext scope
  rw [lookupName, lookupName, if_neg notEnv, if_neg notEnv, same]

end Restitch.Expr
