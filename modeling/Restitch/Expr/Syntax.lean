import Mathlib.Data.List.Basic

/-!
# Syntax trees of the expression language

The node kinds of the expression language of the templates. The kinds that the
gateway's own visitors look at are constructors of their own; every other kind is
an `other` node with its children in the order in which `ast.Walk` visits them.
-/

namespace Restitch.Expr

/-- A node kind that no visitor of the gateway looks at, with its own data. -/
inductive Kind where
  | nil
  | integer (value : Int)
  | float (value : String)
  | bool (value : Bool)
  | constant (value : String)
  | unary (operator : String)
  | binary (operator : String)
  | chain
  | slice (hasFrom hasTo : Bool)
  | call
  | builtin (name : String)
  | predicate
  | pointer (name : String)
  | conditional
  | sequence
  | array
  | map
  | pair
deriving DecidableEq

inductive Node where
  | identifier (value : String)
  | string (value : String)
  /-- `node.property`, `node[property]` -/
  | member (node property : Node) (optional : Bool)
  /-- `let name = value; expr` -/
  | variableDeclarator (name : String) (value expr : Node)
  | other (kind : Kind) (children : List Node)

namespace Node

mutual

/-- The nodes of a tree in the order of `ast.Walk`: children first. -/
def walk : Node → List Node
  | .identifier value => [.identifier value]
  | .string value => [.string value]
  | .member node property optional =>
      walk node ++ walk property ++ [.member node property optional]
  | .variableDeclarator name value expr =>
      walk value ++ walk expr ++ [.variableDeclarator name value expr]
  | .other kind children => walkAll children ++ [.other kind children]

/-- The nodes of several trees. -/
def walkAll : List Node → List Node
  | [] => []
  | node :: rest => walk node ++ walkAll rest

end

/-- A node of several trees is a node of one of them. -/
theorem mem_walkAll {node : Node} {children : List Node} :
    node ∈ walkAll children ↔ ∃ child ∈ children, node ∈ walk child := by
  induction children with
  | nil => simp [walkAll]
  | cons child rest ih => simp [walkAll, ih]

/-- Every node is among the nodes of its own tree. -/
theorem mem_walk_self (node : Node) : node ∈ walk node := by
  cases node <;> simp [walk]

/-- Induction on a tree. -/
@[elab_as_elim, induction_eliminator]
theorem induction {motive : Node → Prop}
    (identifier : ∀ value, motive (.identifier value))
    (string : ∀ value, motive (.string value))
    (member : ∀ node property optional, motive node → motive property →
      motive (.member node property optional))
    (variableDeclarator : ∀ name value expr, motive value → motive expr →
      motive (.variableDeclarator name value expr))
    (other : ∀ kind children, (∀ child ∈ children, motive child) → motive (.other kind children))
    (node : Node) : motive node := by
  refine @Node.rec motive (fun children => ∀ child ∈ children, motive child)
    identifier string member variableDeclarator other ?_ ?_ node
  · simp
  · intro child rest first later
    simpa using ⟨first, later⟩

end Node

end Restitch.Expr
