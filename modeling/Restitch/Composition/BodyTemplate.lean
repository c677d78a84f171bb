import Restitch.Composition.StepIndependence
import Restitch.Composition.TemplateText
import Restitch.Std.JsonReads

/-!
# JSON body templates

A body is a JSON text with holes in place of some values. The segment scanner knows
nothing of JSON: it finds the holes because `{{` occurs nowhere else, and what it
fills in reads back as the skeleton with the values in place.
-/

namespace Restitch.Composition

open Restitch.Expr Restitch.Std Restitch.Std.Json

mutual

/-- The pieces of a value with holes. -/
def valuePieces : Skeleton Hole → List TemplatePiece
  | .hole slot => [.hole slot]
  | .null => [.text (encode .null)]
  | .bool value => [.text (encode (.bool value))]
  | .number value => [.text value.text]
  | .string token => [.text token.text]
  | .emptyArray space => [.text ('[' :: (space.val ++ [']']))]
  | .array items => .text ['['] :: (itemPieces items ++ [.text [']']])
  | .emptyObject space => [.text ('{' :: (space.val ++ ['}']))]
  | .object members => .text ['{'] :: (memberPieces members ++ [.text ['}']])

def itemPieces : Items Hole → List TemplatePiece
  | .last before item after => .text before.val :: (valuePieces item ++ [.text after.val])
  | .cons before item after rest =>
      .text before.val :: (valuePieces item ++ .text (after.val ++ [',']) :: itemPieces rest)

def memberPieces : Members Hole → List TemplatePiece
  | .last before key colon gap value after =>
      .text (before.val ++ key.text ++ colon.val ++ ':' :: gap.val) ::
        (valuePieces value ++ [.text after.val])
  | .cons before key colon gap value after rest =>
      .text (before.val ++ key.text ++ colon.val ++ ':' :: gap.val) ::
        (valuePieces value ++ .text (after.val ++ [',']) :: memberPieces rest)

end

/-- A body: a value with holes, and the space around it. -/
structure BodyText where
  before : Space
  value : Skeleton Hole
  after : Space

def BodyText.pieces (body : BodyText) : List TemplatePiece :=
  .text body.before.val :: (valuePieces body.value ++ [.text body.after.val])

/-- The body as it is configured. -/
def BodyText.source (body : BodyText) : List Char := renderPieces Hole.source body.pieces

section Pieces

variable (fill : Hole → List Char)

mutual

/-- The pieces of a value render as the value. -/
theorem renderPieces_valuePieces : ∀ value : Skeleton Hole,
    renderPieces fill (valuePieces value) = value.render fill
  | .hole _ | .null | .bool _ | .number _ | .string _ | .emptyArray _ | .emptyObject _ => by
      simp [valuePieces, Skeleton.render]
  | .array items => by
      simp [valuePieces, Skeleton.render, renderPieces_append, renderPieces_itemPieces items]
  | .object members => by
      simp [valuePieces, Skeleton.render, renderPieces_append, renderPieces_memberPieces members]

/-- The pieces of items render as the items. -/
theorem renderPieces_itemPieces : ∀ items : Items Hole,
    renderPieces fill (itemPieces items) = items.render fill
  | .last _ item _ => by
      simp [itemPieces, Items.render, renderPieces_append, renderPieces_valuePieces item]
  | .cons _ item _ rest => by
      simp [itemPieces, Items.render, renderPieces_append, renderPieces_valuePieces item,
        renderPieces_itemPieces rest]

/-- The pieces of members render as the members. -/
theorem renderPieces_memberPieces : ∀ members : Members Hole,
    renderPieces fill (memberPieces members) = members.render fill
  | .last _ _ _ _ value _ => by
      simp [memberPieces, Members.render, renderPieces_append, renderPieces_valuePieces value]
  | .cons _ _ _ _ value _ rest => by
      simp [memberPieces, Members.render, renderPieces_append, renderPieces_valuePieces value,
        renderPieces_memberPieces rest]

end

end Pieces

mutual

/-- The pieces of a value have its holes. -/
theorem holesOf_valuePieces : ∀ value : Skeleton Hole, holesOf (valuePieces value) = value.holes
  | .hole _ | .null | .bool _ | .number _ | .string _ | .emptyArray _ | .emptyObject _ => rfl
  | .array items => by
      simp [valuePieces, Skeleton.holes, holesOf_append, holesOf_itemPieces items]
  | .object members => by
      simp [valuePieces, Skeleton.holes, holesOf_append, holesOf_memberPieces members]

/-- The pieces of items have their holes. -/
theorem holesOf_itemPieces : ∀ items : Items Hole, holesOf (itemPieces items) = items.holes
  | .last _ item _ => by
      simp [itemPieces, Items.holes, holesOf_append, holesOf_valuePieces item]
  | .cons _ item _ rest => by
      simp [itemPieces, Items.holes, holesOf_append, holesOf_valuePieces item,
        holesOf_itemPieces rest]

/-- The pieces of members have their holes. -/
theorem holesOf_memberPieces : ∀ members : Members Hole,
    holesOf (memberPieces members) = members.holes
  | .last _ _ _ _ value _ => by
      simp [memberPieces, Members.holes, holesOf_append, holesOf_valuePieces value]
  | .cons _ _ _ _ value _ rest => by
      simp [memberPieces, Members.holes, holesOf_append, holesOf_valuePieces value,
        holesOf_memberPieces rest]

end

/-- The pieces of a body render as the value with the space around it. -/
theorem BodyText.renderPieces_pieces (body : BodyText) (fill : Hole → List Char) :
    renderPieces fill body.pieces =
      body.before.val ++ body.value.render fill ++ body.after.val := by
  simp [BodyText.pieces, renderPieces_append, renderPieces_valuePieces]

/-- The pieces of a body have the holes of its value. -/
theorem BodyText.holesOf_pieces (body : BodyText) : holesOf body.pieces = body.value.holes := by
  simp [BodyText.pieces, holesOf_append, holesOf_valuePieces]

/-- A body with the encoded values in its holes parses as the value with them. -/
theorem BodyText.parse_filled (body : BodyText) (values : Hole → Json.Value) :
    parse (renderPieces (fun hole => encode (values hole)) body.pieces) =
      some (body.value.value values) := by
  rw [body.renderPieces_pieces]
  have reads : Reads (body.value.render fun hole => encode (values hole))
      (body.value.value values) := body.value.reads fun hole _ => reads_encode (values hole)
  exact reads.parse body.before body.after

/-- A text with a hole is not empty. -/
theorem renderPieces_eq_nil {pieces : List TemplatePiece}
    (empty : renderPieces Hole.source pieces = []) {fill : Hole → List Char} :
    renderPieces fill pieces = [] := by
  induction pieces with
  | nil => rfl
  | cons piece rest ih =>
      cases piece with
      | text chars =>
          rw [renderPieces_text, List.append_eq_nil_iff] at empty ⊢
          exact ⟨empty.1, ih empty.2⟩
      | hole slot => cases empty

section Request

variable {Value Error Scope : Type} {operators : Operators Value Error Scope}
  {printer : Printer Value} {context : BuildContext Error} {env : Env Value}
  {compiler : ExprCompiler} {stepNames : List String}

/-- A compiled template has the segments of its text. -/
theorem parseSegments_of_compileTemplate {raw : String} {template : Template}
    (compiled : compileTemplate compiler stepNames raw = .ok template) :
    parseSegments compiler stepNames raw = .ok template.segments := by
  obtain ⟨segments, parsed, rfl⟩ := Except.map_eq_ok compiled
  exact parsed

/-- An optional template that is not empty is compiled. -/
theorem exists_of_compileOptional {place : TemplateError → CompileError} {raw : String}
    {found : Option Template} (nonempty : raw ≠ "")
    (compiled : compileOptional compiler stepNames place raw = .ok found) :
    ∃ template, found = some template ∧
      compileTemplate compiler stepNames raw = .ok template := by
  rw [compileOptional, if_neg nonempty] at compiled
  obtain ⟨template, isTemplate, rfl⟩ := Except.map_eq_ok compiled
  rw [compileAt] at isTemplate
  cases inner : compileTemplate compiler stepNames raw with
  | error error =>
      rw [inner] at isTemplate
      cases isTemplate
  | ok template' =>
      rw [inner] at isTemplate
      cases isTemplate
      exact ⟨template, rfl, rfl⟩

/-- A template of one expression and nothing else. -/
theorem exists_program_of_isSingle {raw : String} {template : Template}
    (compiled : compileTemplate compiler stepNames raw = .ok template)
    (single : template.isSingle = true) :
    ∃ expr node, template.segments = [.program expr node] := by
  obtain ⟨segments, -, rfl⟩ := Except.map_eq_ok compiled
  simp only [Bool.and_eq_true, beq_iff_eq] at single
  obtain ⟨⟨-, once⟩, programs⟩ := single
  have count : segments.length = 1 := by
    rw [← once, eq_comm, List.countP_eq_length]
    exact List.all_eq_true.mp programs
  obtain ⟨segment, rfl⟩ := List.length_eq_one_iff.mp count
  cases segment with
  | literal text => simp [Segment.isProgram] at programs
  | program expr node => exact ⟨expr, node, rfl⟩

/-- Both ways to build a body send what the template evaluates to. -/
theorem evalBody_of_evalString {raw : String} {template : Template} {text : String}
    {step : StepTemplates} (compiled : compileTemplate compiler stepNames raw = .ok template)
    (isBody : step.bodyTmpl = some template)
    (evaluated : template.evalString operators printer env .json = .ok text) :
    evalBody operators printer context env step = .ok (some text) := by
  simp only [evalBody, isBody]
  split
  · rename_i single
    obtain ⟨expr, node, isSegments⟩ := exists_program_of_isSingle compiled single
    rw [Template.evalString, isSegments] at evaluated
    obtain ⟨first, isFirst, evaluated⟩ := Except.bind_eq_ok evaluated
    obtain ⟨value, isValue, escaped⟩ := Except.bind_eq_ok isFirst
    cases evaluated
    have ran : template.evalValue operators printer env = .ok value := by
      simp [Template.evalValue, single, Template.program?, isSegments, isValue]
    rw [ran]
    simp only [escapeValue] at escaped
    cases marshalled : printer.marshal value with
    | error detail =>
        rw [marshalled] at escaped
        cases escaped
    | ok json =>
        rw [marshalled] at escaped
        cases escaped
        simp only [wrapEval, bind, Except.bind, marshalled, String.append_empty]
        rfl
  · rw [evaluated]
    rfl

/-- The body of a request is the body that was evaluated. -/
theorem body_of_buildStepRequest {baseURL : String} {data : RequestData Value}
    {step : StepTemplates} {request : StepRequest} {body : Option String}
    (isBody : evalBody operators printer context env step = .ok body)
    (built : buildStepRequest operators printer context env baseURL data step = .ok request) :
    request.body = body := by
  obtain ⟨path, -, built⟩ := Except.bind_eq_ok built
  rw [isBody] at built
  simp only [bind, Except.bind] at built
  split at built
  · cases built
  · split at built
    · cases built
    · cases built
      rfl

end Request

/-- For every body that is a JSON text with holes, in which every `{{` opens one of
them, and all values that the expressions evaluate to, the bytes of the request parse
as the JSON with each hole replaced by its value. -/
theorem body_parses_as_filled {Value Error Scope : Type}
    (operators : Operators Value Error Scope) (printer : Printer Value)
    (context : BuildContext Error) (env : Env Value) (compiler : ExprCompiler)
    (stepNames : List String) (step : Step) (compiled : CompiledStep) (body : BodyText)
    (values : Hole → Json.Value)
    (done : compileStep compiler stepNames step = .ok compiled)
    (isBody : step.body.toList = body.source) (plain : textsPlain body.pieces = true)
    (evaluates : ∀ hole ∈ body.value.holes, ∀ expr node,
      compileExpression compiler stepNames hole.expr = .ok (.program expr node) →
      ∃ value, runProgram operators env expr node = .ok value ∧
        printer.marshal value = .ok (.ofList (encode (values hole)))) :
    ∃ bytes : String,
      evalBody operators printer context env compiled.templates = .ok (some bytes) ∧
      parse bytes.toList = some (body.value.value values) ∧
      ∀ baseURL data request, buildStepRequest operators printer context env baseURL data
        compiled.templates = .ok request → request.body = some bytes := by
  obtain ⟨pathPart, -, done⟩ := Except.bind_eq_ok done
  obtain ⟨queryPart, -, done⟩ := Except.bind_eq_ok done
  obtain ⟨bodyTmpl, isTemplate, done⟩ := Except.bind_eq_ok done
  obtain ⟨headers, -, done⟩ := Except.bind_eq_ok done
  cases done
  have nonempty : step.body ≠ "" := by
    intro empty
    rw [empty] at isBody
    have filled := body.parse_filled values
    rw [renderPieces_eq_nil isBody.symm] at filled
    cases filled
  obtain ⟨template, isSome, isCompiled⟩ := exists_of_compileOptional nonempty isTemplate
  have parsed : parseLiteral compiler stepNames step.body []
      (renderPieces Hole.source body.pieces) = .ok template.segments := by
    have parsed := parseSegments_of_compileTemplate isCompiled
    rw [parseSegments, isBody] at parsed
    exact parsed
  have fills : Fills operators printer env compiler stepNames .json
      (fun hole => encode (values hole)) (holesOf body.pieces) := by
    rw [body.holesOf_pieces]
    intro hole member segment isSegment
    obtain ⟨expr, node, rfl⟩ := program_of_compileExpression isSegment
    obtain ⟨value, ran, marshalled⟩ := evaluates hole member expr node isSegment
    simp only [Segment.evalString, ran, escapeValue, bind, Except.bind, marshalled]
  have evaluated := evalSegments_of_parseLiteral body.pieces plain fills [] parsed
  have sent : evalBody operators printer context env
      ⟨step.method, pathPart, queryPart, bodyTmpl, headers⟩ = .ok (some _) :=
    evalBody_of_evalString isCompiled isSome evaluated
  refine ⟨_, sent, ?_, fun baseURL data request built => body_of_buildStepRequest sent built⟩
  rw [String.toList_ofList]
  exact body.parse_filled values

/-! ### A body -/

/-- Texts and numbers in templates. -/
def textPrinter : Printer Sample where
  sprint := fun value =>
    match value with
    | .text text => text
    | .number number => toString number
    | _ => ""
  marshal := fun value =>
    match value with
    | .text text => .ok (.ofList (encodeString text.toList))
    | .number number => .ok (toString number)
    | .nil => .ok "null"
    | _ => .error "unsupported"

def plainContext : BuildContext String where
  errorText := fun _ => ""
  newRequest := fun _ _ => none
  requestID := ""
  inject := id
  order := fun headers => ⟨headers.entries, .refl _⟩

/-- `steps.user?.body` in braces. -/
def userHole : Hole where
  text := " steps.user?.body ".toList
  closed := by decide

/-- An object with one member. -/
def member (key : String) (value : Skeleton Hole) : Skeleton Hole :=
  .object (.last noSpace (encodedToken key.toList) noSpace noSpace value noSpace)

/-- An object in an object around the hole. -/
def nameBody : BodyText := ⟨noSpace, member "user" (member "name" (.hole userHole)), noSpace⟩

def nameStep : Step :=
  ⟨"rename", "api", "/users", "POST", ∅, .ofList nameBody.source, [], false, [], none, false⟩

/-- The result of `user` is a text. -/
def userEnv (text : String) : Env Sample :=
  buildRequestEnv sampleOperators.toValues ⟨"GET", "/", ∅, ∅, ∅, .nil, none⟩
    (AList.singleton "user" (some ⟨200, ∅, .text text, [], false⟩))

/-- A value with quotes is one string of the body. -/
theorem body_parses_of_quotes :
    ∃ compiled bytes, compileStep optionalCompiler ["user"] nameStep = .ok compiled ∧
      evalBody sampleOperators textPrinter plainContext (userEnv "he said \"hi\"")
        compiled.templates = .ok (some bytes) ∧
      parse bytes.toList = some (.object [("user".toList,
        .object [("name".toList, .string "he said \"hi\"".toList)])]) := by
  have isSegment : compileExpression optionalCompiler ["user"] userHole.expr =
      .ok (.program "steps.user?.body" userBody) := rfl
  have compiles : ∃ compiled, compileStep optionalCompiler ["user"] nameStep = .ok compiled :=
    ⟨_, rfl⟩
  obtain ⟨compiled, done⟩ := compiles
  obtain ⟨bytes, sent, parsed, -⟩ := body_parses_as_filled sampleOperators textPrinter plainContext
    (userEnv "he said \"hi\"") optionalCompiler ["user"] nameStep compiled nameBody
    (fun _ => .string "he said \"hi\"".toList) done (String.toList_ofList) (by decide) (by
      intro hole member expr node found
      obtain rfl := List.mem_singleton.mp member
      cases isSegment.symm.trans found
      exact ⟨.text "he said \"hi\"", rfl, rfl⟩)
  exact ⟨compiled, bytes, done, sent, parsed⟩

end Restitch.Composition
