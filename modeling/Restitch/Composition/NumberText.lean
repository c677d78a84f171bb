import Restitch.Composition.TemplateText
import Restitch.Http.UrlParse
import Restitch.Std.Float64

/-!
# Numbers in templates

`encoding/json` decodes an integer as a float64, and a template prints it with `%v`.
From a million on that is another notation.
-/

namespace Restitch.Composition

open Restitch.Expr Restitch.Http Restitch.Std

section

variable {Value Error Scope : Type}

/-- `%v` of a float64 is `strconv.FormatFloat(v, 'g', -1, 64)`. -/
structure PrintsFloats (printer : Printer Value) (float : Float64.Whole → Value) : Prop where
  sprint : ∀ v, printer.sprint (float v) = .ofList (Float64.formatFloat v)
  bytes : ∀ v, printer.bytes (float v) = utf8 (Float64.formatFloat v)

/-- Undo the escaping of a path, a query or a header. -/
def unescapeText : EscapeMode → List Char → Option (List UInt8)
  | .path, text => unescapeBytes (utf8 text)
  | .query, text => queryUnescape text
  | .none, text | .json, text => some (utf8 text)

variable {operators : Operators Value Error Scope} {printer : Printer Value} {env : Env Value}
  {float : Float64.Whole → Value}

/-- Outside bodies, a float is written so that undoing the escapes gives its `%v`. -/
theorem exists_escapeValue (prints : PrintsFloats printer float) {mode : EscapeMode}
    (notJson : mode ≠ .json) (expr : String) (v : Float64.Whole) :
    ∃ written, (escapeValue printer expr (float v) mode : Except (EvalError Error) String) =
        .ok written ∧
      unescapeText mode written.toList = some (utf8 (Float64.formatFloat v)) := by
  cases mode with
  | none =>
      refine ⟨_, rfl, ?_⟩
      rw [prints.sprint, String.toList_ofList]
      rfl
  | path =>
      refine ⟨_, rfl, ?_⟩
      rw [prints.bytes, String.toList_ofList]
      exact unescapeBytes_pathEscapeBytes _
  | query =>
      refine ⟨_, rfl, ?_⟩
      rw [prints.bytes, String.toList_ofList]
      exact queryUnescape_queryEscapeBytes _
  | json => exact absurd rfl notJson

/-- Segments are evaluated one part after the other. -/
theorem evalSegments_append (mode : EscapeMode) (first second : List Segment) {text later : String}
    (isText : evalSegments operators printer env mode first = .ok text)
    (isLater : evalSegments operators printer env mode second = .ok later) :
    evalSegments operators printer env mode (first ++ second) = .ok (text ++ later) := by
  induction first generalizing text with
  | nil =>
      cases isText
      rw [List.nil_append, isLater, String.empty_append]
  | cons segment rest ih =>
      obtain ⟨here, isHere, isText⟩ := Except.bind_eq_ok isText
      obtain ⟨following, isFollowing, isText⟩ := Except.bind_eq_ok isText
      cases isText
      rw [List.cons_append, evalSegments, isHere, ih isFollowing]
      simp only [bind, Except.bind, pure, Except.pure, String.append_assoc]

end

/-- For every path, query or header template, every interpolated response string and
every integer that a float64 holds exactly, what the template writes for the integer
stands for its decimal digits exactly if it is below a million. -/
theorem integer_text_iff {Value Error Scope : Type} (operators : Operators Value Error Scope)
    (printer : Printer Value) (env : Env Value) (float : Float64.Whole → Value)
    (prints : PrintsFloats printer float) (mode : EscapeMode) (notJson : mode ≠ .json)
    (template : Template) (before after : List Segment) (expr : String) (node : Node)
    (isSegments : template.segments = before ++ .program expr node :: after) (n : Int)
    (small : n.natAbs ≤ 2 ^ 53)
    (ran : runProgram operators env expr node = .ok (float (Float64.ofInt n)))
    (text later : String) (isText : evalSegments operators printer env mode before = .ok text)
    (isLater : evalSegments operators printer env mode after = .ok later) :
    ∃ written : String,
      template.evalString operators printer env mode = .ok (text ++ (written ++ later)) ∧
      (unescapeText mode written.toList = some (utf8 (Float64.decimal n)) ↔
        n.natAbs < 10 ^ 6) := by
  obtain ⟨written, isWritten, undone⟩ : ∃ written, (escapeValue printer expr
      (float (Float64.ofInt n)) mode : Except (EvalError Error) String) = .ok written ∧ _ :=
    exists_escapeValue prints notJson expr (Float64.ofInt n)
  refine ⟨written, ?_, ?_⟩
  · rw [Template.evalString, isSegments]
    refine evalSegments_append mode before _ isText ?_
    simp only [evalSegments, Segment.evalString, ran, bind, Except.bind, isWritten, isLater]
    rfl
  · rw [undone, ← Float64.formatFloat_ofInt_iff small, Option.some.injEq, utf8_injective.eq_iff]

/-! ### Ids of users -/

/-- The values of a decoded JSON body. -/
inductive Decoded where
  | nil
  | text (value : String)
  | number (value : Nat)
  | float (value : Float64.Whole)
  | list (items : List Decoded)
  | object (fields : String → Option Decoded)

/-- Members of maps, and no other operator. -/
def decodedOperators : Operators Decoded String Unit where
  nil := .nil
  text := .text
  number := .number
  list := .list
  object := .object
  start := ()
  bound := fun _ _ => none
  undefined := fun _ => .ok .nil
  member := fun _ base property =>
    match base, property with
    | .ok (.object fields), .ok (.text key) => .ok ((fields key).getD .nil)
    | .ok _, .ok _ => .error "cannot fetch"
    | .error error, _ => .error error
    | _, .error error => .error error
  declare := fun _ _ expr scope => expr scope
  apply := fun _ _ _ => .error "unsupported"
  member_object := by
    intro _ fields key value found
    simp [found]

def decodedPrinter : Printer Decoded where
  sprint := fun value =>
    match value with
    | .text text => text
    | .number number => toString number
    | .float value => .ofList (Float64.formatFloat value)
    | _ => ""
  marshal := fun _ => .error "unsupported"

theorem decodedPrinter_prints : PrintsFloats decodedPrinter .float where
  sprint := fun _ => rfl
  bytes := by
    intro v
    change utf8 (String.ofList _).toList = _
    rw [String.toList_ofList]

/-- `steps.user.body.id` -/
def userId : Node :=
  .member (.member (.member (.identifier "steps") (.string "user") false) (.string "body") false)
    (.string "id") false

/-- `/users/{{ steps.user.body.id }}` -/
def userPath : Template where
  raw := "/users/\x7b\x7b steps.user.body.id \x7d\x7d"
  segments := [.literal "/users/", .program "steps.user.body.id" userId]
  deps := ["user"]
  isSingle := false

/-- The body of `user` is an object with an id. -/
def idEnv (id : Int) : Env Decoded :=
  buildRequestEnv decodedOperators.toValues ⟨"GET", "/", ∅, ∅, ∅, .nil, none⟩
    (AList.singleton "user" (some ⟨200, ∅, .object fun key =>
      if key = "id" then some (.float (Float64.ofInt id)) else none, [], false⟩))

/-- A small id is written in decimal. -/
theorem integer_text_of_small_id :
    ∃ written : String,
      userPath.evalString decodedOperators decodedPrinter (idEnv 42) .path =
        .ok ("/users/" ++ (written ++ "")) ∧
      unescapeText .path written.toList = some (utf8 (Float64.decimal 42)) := by
  obtain ⟨written, evaluated, decimal⟩ := integer_text_iff decodedOperators decodedPrinter (idEnv 42)
    .float decodedPrinter_prints .path (by decide) userPath [.literal "/users/"] []
    "steps.user.body.id" userId rfl 42 (by decide) rfl "/users/" "" rfl rfl
  exact ⟨written, evaluated, decimal.mpr (by decide)⟩

/-- The user with id 1000000 is addressed as `/users/1e+06`. -/
theorem large_id_in_exponent_form :
    userPath.evalString decodedOperators decodedPrinter (idEnv 1000000) .path =
      .ok ("/users/" ++ "1e+06") ∧
    unescapeText .path "1e+06".toList ≠ some (utf8 (Float64.decimal 1000000)) := by
  have printed : pathEscapeBytes (decodedPrinter.bytes (.float (Float64.ofInt 1000000))) =
      "1e+06".toList := by
    decide +kernel
  refine ⟨?_, by decide +kernel⟩
  have evaluated : userPath.evalString decodedOperators decodedPrinter (idEnv 1000000) .path =
      .ok ("/users/" ++ (String.ofList (pathEscapeBytes
        (decodedPrinter.bytes (.float (Float64.ofInt 1000000)))) ++ "")) := rfl
  rw [evaluated, printed, String.ofList_toList, String.append_empty]

end Restitch.Composition
