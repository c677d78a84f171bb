import Mathlib.Data.List.Sort
import Mathlib.Data.String.Basic
import Restitch.Composition.References
import Restitch.Expr.Semantics
import Restitch.Http.Url
import Restitch.Std.GoStrings

/-!
# Templates (`internal/composition/template.go`)

A template is a text with `{{ expr }}` parts, compiled once and evaluated for
every request.
-/

namespace Restitch.Composition

open Restitch.Expr Restitch.Http Restitch.Std

/-- The compiler of the expression language: `parser.Parse`, the check of
`expr.Compile` against the environment of these steps, the optimizer, and
`builtin.Index`. -/
structure ExprCompiler where
  parse : String → Except String Node
  check : List String → Node → Option String
  optimize : Node → Node
  isBuiltin : String → Bool

/-- `Segment`. The program of an expression is its syntax tree. -/
inductive Segment where
  | literal (text : String)
  | program (expr : String) (node : Node)

structure Template where
  raw : String
  segments : List Segment
  deps : List String
  isSingle : Bool

inductive TemplateError where
  /-- `unclosed \{\{ in template: %s` -/
  | unclosed (raw : String)
  /-- `expression %q: %w`, from `expr.Compile` -/
  | expression (expr detail : String)
  /-- `expression %q: %w`, from `checkReferences` -/
  | reference (expr : String) (error : ReferenceError)
deriving DecidableEq

section Compile

variable (compiler : ExprCompiler) (stepNames : List String)

/-- The program of one expression. -/
def compileExpression (expr : String) : Except TemplateError Segment :=
  match compiler.parse expr with
  | .error detail => .error (.expression expr detail)
  | .ok node =>
      match compiler.check stepNames node with
      | some detail => .error (.expression expr detail)
      | none =>
          match checkReferences compiler.isBuiltin stepNames false (compiler.optimize node) with
          | some error => .error (.reference expr error)
          | none => .ok (.program expr node)

variable {compiler stepNames} in
/-- An expression compiles to a program, once every check has passed. -/
theorem compileExpression_ok {expr : String} {segment : Segment}
    (compiled : compileExpression compiler stepNames expr = .ok segment) :
    ∃ node, compiler.parse expr = .ok node ∧ compiler.check stepNames node = none ∧
      checkReferences compiler.isBuiltin stepNames false (compiler.optimize node) = none ∧
      segment = .program expr node := by
  unfold compileExpression at compiled
  split at compiled
  · cases compiled
  · rename_i node parsed
    split at compiled
    · cases compiled
    · rename_i checked
      split at compiled
      · cases compiled
      · rename_i accepted
        cases compiled
        exact ⟨node, parsed, checked, accepted, rfl⟩

/-- A literal segment, unless it is empty. -/
def literalSegment (text : List Char) : List Segment :=
  if text = [] then [] else [.literal (.ofList text)]

mutual

/-- `parseSegments` outside an expression, with the text since the last one. -/
def parseLiteral (raw : String) (text : List Char) :
    List Char → Except TemplateError (List Segment)
  | '{' :: '{' :: rest => do
      let segments ← parseExpression raw [] rest
      return literalSegment text ++ segments
  | c :: rest => parseLiteral raw (text ++ [c]) rest
  | [] => return literalSegment text

/-- `parseSegments` inside an expression. -/
def parseExpression (raw : String) (text : List Char) :
    List Char → Except TemplateError (List Segment)
  | '}' :: '}' :: rest => do
      let segment ← compileExpression compiler stepNames (.ofList (GoStrings.trimSpace text))
      let segments ← parseLiteral raw [] rest
      return segment :: segments
  | c :: rest => parseExpression raw (text ++ [c]) rest
  | [] => .error (.unclosed raw)

end

/-- `parseSegments`. -/
def parseSegments (raw : String) : Except TemplateError (List Segment) :=
  parseLiteral compiler stepNames raw [] raw.toList

/-- `extractStepDeps`. -/
def extractStepDeps (expr : String) : List String :=
  match compiler.parse expr with
  | .ok node => (extractDependencies node).insertionSort (· ≤ ·)
  | .error _ => []

/-- The step names of one segment. -/
def Segment.stepDeps : Segment → List String
  | .literal _ => []
  | .program expr _ => extractStepDeps compiler expr

/-- Append the names that are not listed yet. -/
def appendNew (names : List String) (more : List String) : List String :=
  more.foldl (fun names name => if name ∈ names then names else names ++ [name]) names

def Segment.isProgram : Segment → Bool
  | .literal _ => false
  | .program _ _ => true

/-- `CompileTemplate`. -/
def compileTemplate (raw : String) : Except TemplateError Template :=
  (parseSegments compiler stepNames raw).map fun segments =>
    let trimmed := GoStrings.trimSpace raw.toList
    { raw
      segments
      deps := segments.foldl (fun deps segment => appendNew deps (segment.stepDeps compiler)) []
      isSingle :=
        ['{', '{'].isPrefixOf trimmed && ['}', '}'].isSuffixOf trimmed &&
          segments.countP Segment.isProgram == 1 && segments.all Segment.isProgram }

end Compile

/-- `IsExpression`. -/
def isExpression (text : String) : Bool :=
  text.toList.tails.any (['{', '{'].isPrefixOf ·) && text.toList.tails.any (['}', '}'].isPrefixOf ·)

/-- `EscapeMode`. -/
inductive EscapeMode where
  | none
  | path
  | query
  | json
deriving DecidableEq

/-- `fmt.Sprintf("%v", ...)` and `json.Marshal`. -/
structure Printer (Value : Type) where
  sprint : Value → String
  /-- The bytes of that text. A text that is not UTF-8 has no other form. -/
  bytes : Value → List UInt8 := fun value => utf8 (sprint value).toList
  marshal : Value → Except String String

inductive EvalError (Error : Type) where
  /-- `expression %q: %w` -/
  | run (expr : String) (error : Error)
  /-- `expression %q: JSON encode: %w` -/
  | encode (expr detail : String)

section Eval

variable {Value Error Scope : Type} (operators : Operators Value Error Scope)
  (printer : Printer Value) (env : Env Value)

/-- The text of a value. -/
def escapeValue (expr : String) (value : Value) : EscapeMode → Except (EvalError Error) String
  | .none => .ok (printer.sprint value)
  | .path => .ok (.ofList (pathEscapeBytes (printer.bytes value)))
  | .query => .ok (.ofList (queryEscapeBytes (printer.bytes value)))
  | .json =>
      match printer.marshal value with
      | .ok text => .ok text
      | .error detail => .error (.encode expr detail)

/-- `expr.Run`. -/
def runProgram (expr : String) (node : Node) : Except (EvalError Error) Value :=
  match eval operators env node operators.start with
  | .ok value => .ok value
  | .error error => .error (.run expr error)

def Segment.evalString (mode : EscapeMode) : Segment → Except (EvalError Error) String
  | .literal text => .ok text
  | .program expr node => do
      let value ← runProgram operators env expr node
      escapeValue printer expr value mode

/-- The texts of the segments, joined. -/
def evalSegments (mode : EscapeMode) : List Segment → Except (EvalError Error) String
  | [] => .ok ""
  | segment :: rest => do
      let text ← segment.evalString operators printer env mode
      let later ← evalSegments mode rest
      return text ++ later

/-- `Template.EvalString`. Its two early returns give what the loop gives. -/
def Template.evalString (template : Template) (mode : EscapeMode) :
    Except (EvalError Error) String :=
  evalSegments operators printer env mode template.segments

/-- The first expression of a template. -/
def Template.program? (template : Template) : Option (String × Node) :=
  template.segments.findSome? fun segment =>
    match segment with
    | .program expr node => some (expr, node)
    | .literal _ => none

/-- `Template.EvalValue`. -/
def Template.evalValue (template : Template) : Except (EvalError Error) Value :=
  match (if template.isSingle then template.program? else none) with
  | some (expr, node) => runProgram operators env expr node
  | none => (template.evalString operators printer env .none).map operators.text

end Eval

end Restitch.Composition
