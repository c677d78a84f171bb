import Restitch.Composition.BodyTemplate
import Restitch.Composition.JsonValues

/-!
# Bodies that are passed on

A parsed body that a template hands on whole: as the response of the composition, or as the
body of a later step. What is sent denotes the same value exactly if every number in it is
the shortest decimal of its nearest float64.
-/

namespace Restitch.Composition

open Restitch.Expr Restitch.Http Restitch.Std

/-! ### Which values survive -/

/-- A whole number that a float64 prints: zero, or the shortest decimal of its nearest
float64. -/
def PrintedExactly (n : Nat) : Prop :=
  n = 0 ∨ ∃ zeros, Float64.ShortestDecimal (Float64.round n) n zeros

/-- Integers up to `2 ^ 53` are printed exactly. -/
theorem printedExactly_of_le {n : Nat} (small : n ≤ 2 ^ 53) : PrintedExactly n :=
  Float64.shortestValue_round_iff.mp (Float64.shortestValue_of_le small)

/-- A value comes through the gateway: it is not nested too deep, none of its numbers is out
of range, and these numbers are printed exactly. -/
structure ComesThrough (value : Json.Value) (counted : List Json.Number) : Prop where
  depth : value.depth ≤ maxNestingDepth
  fits : ∀ number ∈ value.numbers, Float64.round number.value.num.natAbs < 2 ^ 1024
  exact : ∀ number ∈ counted, PrintedExactly number.value.num.natAbs

/-- The numbers of a body that are left in the response: `_errors` is written over. -/
def answeredNumbers (stepErrors : List StepErrorDetail) : Json.Value → List Json.Number
  | .object members =>
      if stepErrors = [] then Json.membersCounted members
      else Json.membersCounted (members.filter fun member => member.1 ≠ "_errors".toList)
  | value => value.counted

/-- What the response with a body denotes. -/
def answeredMeaning (stepErrors : List StepErrorDetail) (value : Json.Value) : Json.Meaning :=
  if stepErrors = [] then value.meaning
  else value.meaning.withField "_errors".toList
    (Json.Value.array (stepErrors.map detailJson)).meaning

section Codec

variable {codec : JsonCodec}

/-- An integral number is its numerator. -/
theorem num_of_isInt {q : Rat} (integer : q.isInt = true) : q = (q.num : Rat) := by
  have den : q.den = 1 := by simpa [Rat.isInt] using integer
  exact ((Rat.den_eq_one_iff q).mp den).symm

/-- An integer is written as itself exactly if it is printed exactly. -/
theorem reread_eq_iff {number : Json.Number} (integer : number.value.isInt = true) :
    JsonCodec.reread number = number.value ↔ PrintedExactly number.value.num.natAbs := by
  rw [PrintedExactly, ← Float64.shortestValue_round_iff, num_of_isInt integer, JsonCodec.reread,
    Rat.num_intCast]
  generalize number.value.num = n
  rw [Rat.intCast_inj]
  rcases Int.lt_trichotomy n 0 with negative | rfl | positive
  · rw [Int.sign_eq_neg_one_of_neg negative]
    omega
  · exact iff_of_true rfl rfl
  · rw [Int.sign_eq_one_of_pos positive]
    omega

/-- A JSON text is decoded unless it is nested too deep or a number is out of range. -/
theorem isSome_unmarshal (codec : JsonCodec) {bytes : List UInt8}
    {value : Json.Value} (isValue : Json.parse (runes bytes) = some value)
    (integers : ∀ number ∈ value.numbers, number.value.isInt = true) :
    (codec.unmarshal bytes).isSome = true ↔ value.depth ≤ maxNestingDepth ∧
      ∀ number ∈ value.numbers, Float64.round number.value.num.natAbs < 2 ^ 1024 := by
  have fits : (codec.decodeValue value).isSome = true ↔
      ∀ number ∈ value.numbers, Float64.round number.value.num.natAbs < 2 ^ 1024 := by
    rw [JsonCodec.isSome_decodeValue]
    exact forall₂_congr fun number member => JsonCodec.isSome_readNumber (integers number member)
  rw [JsonCodec.unmarshal, isValue, Option.bind_some]
  by_cases shallow : value.depth ≤ maxNestingDepth
  · rw [if_pos shallow, fits]
    exact (and_iff_right shallow).symm
  · rw [if_neg shallow]
    exact iff_of_false Bool.false_ne_true fun both => shallow both.1

/-- What a step makes of the bytes of a body that says it is JSON. -/
def JsonCodec.body (codec : JsonCodec) (bytes : List UInt8) : ResponseValue :=
  (codec.unmarshal bytes).getD (.string (.ofList (runes bytes)))

/-- A value that is not decoded is no text. -/
theorem ne_string_of_unread (codec : JsonCodec) {bytes : List UInt8}
    {value : Json.Value} (isValue : Json.parse (runes bytes) = some value)
    (integers : ∀ number ∈ value.numbers, number.value.isInt = true)
    (unread : codec.unmarshal bytes = none) (stepErrors : List StepErrorDetail)
    (text : List Char) : Json.Meaning.string text ≠ answeredMeaning stepErrors value := by
  have isRead := isSome_unmarshal codec isValue integers
  rw [unread] at isRead
  intro same
  cases value with
  | string other => exact Bool.false_ne_true (isRead.mpr ⟨Nat.zero_le _, List.forall_mem_nil _⟩)
  | null | bool | number | array | object =>
      rw [answeredMeaning] at same
      split at same <;> cases same

/-- Numbers are read again as they were exactly if they are printed exactly. -/
theorem reread_forall_iff {numbers counted : List Json.Number}
    (integers : ∀ number ∈ numbers, number.value.isInt = true)
    (among : ∀ number ∈ counted, number ∈ numbers) :
    (∀ number ∈ counted, JsonCodec.reread number = number.value) ↔
      ∀ number ∈ counted, PrintedExactly number.value.num.natAbs :=
  forall₂_congr fun number member => reread_eq_iff (integers number (among number member))

/-- A body that is no object takes no errors. -/
theorem writeErrors_of_decodeValue {value : Json.Value} {decoded : ResponseValue}
    (decodes : codec.decodeValue value = some decoded)
    (notObject : ∀ members, value ≠ .object members) (stepErrors : List StepErrorDetail) :
    Values.writeErrors stepErrors decoded = decoded := by
  rw [Values.writeErrors.eq_def]
  split
  · rfl
  · cases value with
    | object members => exact absurd rfl (notObject members)
    | null | bool value | string value =>
        cases decodes
        rfl
    | number number =>
        obtain ⟨float, -, rfl⟩ := Option.map_eq_some_iff.mp decodes
        rfl
    | array items =>
        obtain ⟨values, -, rfl⟩ := Option.map_eq_some_iff.mp decodes
        rfl

/-- A body that takes no errors is passed on whole. -/
theorem exists_encodeValue_of_kept {value : Json.Value} {decoded : ResponseValue}
    (integers : ∀ number ∈ value.numbers, number.value.isInt = true)
    (decodes : codec.decodeValue value = some decoded) :
    ∃ json, codec.encodeValue decoded = some json ∧ (json.meaning = value.meaning ↔
      ∀ number ∈ value.counted, PrintedExactly number.value.num.natAbs) := by
  obtain ⟨json, encodes, isMeaning⟩ :=
    JsonCodec.exists_encodeValue_of_decodeValue value integers decodes
  refine ⟨json, encodes, ?_⟩
  rw [isMeaning, Json.Value.meaning, Json.meaningWith_eq_iff]
  exact reread_forall_iff integers fun _ => Json.mem_numbers_of_mem_counted value

/-- What is passed on whole denotes what the body does. -/
theorem answered_of_kept {value : Json.Value} {stepErrors : List StepErrorDetail}
    (kept : stepErrors = [] ∨ ∀ members, value ≠ .object members) :
    answeredMeaning stepErrors value = value.meaning ∧
      answeredNumbers stepErrors value = value.counted := by
  rcases kept with rfl | notObject
  · refine ⟨if_pos rfl, ?_⟩
    cases value with
    | object members => rw [answeredNumbers, if_pos rfl, Json.Value.counted]
    | null | bool | number | string | array => rfl
  · cases value with
    | object members => exact absurd rfl (notObject members)
    | null | bool | number | string | array => exact ⟨ite_self _, rfl⟩

/-- An object is passed on with its `_errors` set. -/
theorem exists_encodeValue_of_setErrors {members : List (List Char × Json.Value)}
    {decoded : ResponseValue} {stepErrors : List StepErrorDetail}
    (integers : ∀ number ∈ Json.membersNumbers members, number.value.isInt = true)
    (decodes : codec.decodeValue (.object members) = some decoded) (failed : stepErrors ≠ []) :
    ∃ json, codec.encodeValue (Values.writeErrors stepErrors decoded) = some json ∧
      (json.meaning = answeredMeaning stepErrors (.object members) ↔
        ∀ number ∈ answeredNumbers stepErrors (.object members),
          PrintedExactly number.value.num.natAbs) := by
  obtain ⟨fields, decodesFields, rfl⟩ := Option.map_eq_some_iff.mp decodes
  obtain ⟨unique, read, encodesRead, isRead⟩ := JsonCodec.exists_encodeFields_of_decodeMembers
    members integers decodesFields List.nodup_nil rfl
  have isErrors : codec.encodeValue (.stepErrors stepErrors) =
      some (.array (stepErrors.map detailJson)) := rfl
  obtain ⟨written, encodesWritten, isWritten⟩ :=
    JsonCodec.encodeFields_setField "_errors" unique encodesRead isErrors
  have isBody : Values.writeErrors stepErrors (.map fields) =
      (.map (Values.setField fields "_errors" (.stepErrors stepErrors)) : ResponseValue) :=
    if_neg failed
  refine ⟨.object (sortMembers written), ?_, ?_⟩
  · rw [isBody, JsonCodec.encodeValue, encodesWritten]
    rfl
  · have whole : (fun key => (Json.fieldMeaning JsonCodec.reread members key).or
        (Json.fieldMeaning Json.Number.value [] key)) =
          Json.fieldMeaning JsonCodec.reread members := by
      funext key
      exact Option.or_none
    rw [isRead, whole] at isWritten
    have among : ∀ number ∈ Json.membersCounted
        (members.filter fun member => member.1 ≠ "_errors".toList),
          number ∈ Json.membersNumbers members := by
      intro number counted
      obtain ⟨member, kept, isNumber⟩ :=
        Json.mem_membersNumbers.mp (Json.mem_membersNumbers_of_mem_counted _ counted)
      exact Json.mem_membersNumbers.mpr ⟨member, List.mem_of_mem_filter kept, isNumber⟩
    have sent : (Json.Value.object (sortMembers written)).meaning = .object (Function.update
        (Json.fieldMeaning JsonCodec.reread members) "_errors".toList
          (some (Json.Value.array (stepErrors.map detailJson)).meaning)) := by
      refine congrArg Json.Meaning.object ?_
      rw [JsonCodec.fieldMeaning_sortMembers encodesWritten
        (JsonCodec.nodup_setField "_errors" (.stepErrors stepErrors) unique), isWritten]
    have expected : answeredMeaning stepErrors (.object members) = .object (Function.update
        (Json.fieldMeaning Json.Number.value members) "_errors".toList
          (some (Json.Value.array (stepErrors.map detailJson)).meaning)) :=
      if_neg failed
    rw [sent, expected, Json.Meaning.object.injEq, Json.update_fieldMeaning_eq_iff,
      answeredNumbers, if_neg failed]
    exact reread_forall_iff integers among

/-- A decoded value with errors is encoded, with its meaning exactly if its numbers are printed
exactly. -/
theorem exists_encodeValue_of_writeErrors {value : Json.Value} {decoded : ResponseValue}
    (integers : ∀ number ∈ value.numbers, number.value.isInt = true)
    (decodes : codec.decodeValue value = some decoded) (stepErrors : List StepErrorDetail) :
    ∃ json, codec.encodeValue (Values.writeErrors stepErrors decoded) = some json ∧
      (json.meaning = answeredMeaning stepErrors value ↔
        ∀ number ∈ answeredNumbers stepErrors value,
          PrintedExactly number.value.num.natAbs) := by
  by_cases kept : stepErrors = [] ∨ ∀ members, value ≠ .object members
  · have isBody : Values.writeErrors stepErrors decoded = decoded := by
      rcases kept with rfl | notObject
      · exact if_pos rfl
      · exact writeErrors_of_decodeValue decodes notObject stepErrors
    obtain ⟨isMeaning, areNumbers⟩ := answered_of_kept kept
    rw [isBody, isMeaning, areNumbers]
    exact exists_encodeValue_of_kept integers decodes
  · obtain ⟨failed, isObject⟩ := not_or.mp kept
    obtain ⟨members, isValue⟩ := not_forall_not.mp isObject
    subst isValue
    exact exists_encodeValue_of_setErrors integers decodes failed

/-- What is unmarshalled is the decoded value of the text. -/
theorem decodeValue_of_unmarshal {bytes : List UInt8} {value : Json.Value}
    {decoded : ResponseValue} (isValue : Json.parse (runes bytes) = some value)
    (isRead : codec.unmarshal bytes = some decoded) : codec.decodeValue value = some decoded := by
  rw [JsonCodec.unmarshal, isValue, Option.bind_some, Option.ite_none_right_eq_some] at isRead
  exact isRead.2

/-- What is sent for a JSON body denotes the same exactly if it comes through. -/
theorem exists_encodeValue_of_body (codec : JsonCodec) {bytes : List UInt8}
    {value : Json.Value} (isValue : Json.parse (runes bytes) = some value)
    (integers : ∀ number ∈ value.numbers, number.value.isInt = true)
    (stepErrors : List StepErrorDetail) :
    ∃ json, codec.encodeValue (Values.writeErrors stepErrors (codec.body bytes)) = some json ∧
      (json.meaning = answeredMeaning stepErrors value ↔
        ComesThrough value (answeredNumbers stepErrors value)) := by
  have readable := isSome_unmarshal codec isValue integers
  rw [JsonCodec.body]
  cases isRead : codec.unmarshal bytes with
  | none =>
      rw [isRead] at readable
      have isText : Values.writeErrors stepErrors (.string (.ofList (runes bytes))) =
          (.string (.ofList (runes bytes)) : ResponseValue) := ite_self _
      refine ⟨.string (runes bytes), ?_, ?_⟩
      · rw [Option.getD_none, isText, JsonCodec.encodeValue, String.toList_ofList]
      · refine iff_of_false (ne_string_of_unread codec isValue integers isRead stepErrors _) ?_
        intro through
        exact Bool.false_ne_true (readable.mpr ⟨through.depth, through.fits⟩)
  | some decoded =>
      rw [isRead] at readable
      obtain ⟨shallow, fits⟩ := readable.mp rfl
      have decodes := decodeValue_of_unmarshal isValue isRead
      rw [Option.getD_some]
      obtain ⟨json, encodes, isMeaning⟩ :=
        exists_encodeValue_of_writeErrors integers decodes stepErrors
      refine ⟨json, encodes, isMeaning.trans ?_⟩
      exact ⟨fun own => ⟨shallow, fits, own⟩, ComesThrough.exact⟩

/-- The same for a body that is sent as it is. -/
theorem exists_encodeValue_of_whole (codec : JsonCodec) {bytes : List UInt8}
    {value : Json.Value} (isValue : Json.parse (runes bytes) = some value)
    (integers : ∀ number ∈ value.numbers, number.value.isInt = true) :
    ∃ json, codec.encodeValue (codec.body bytes) = some json ∧
      (json.meaning = value.meaning ↔ ComesThrough value value.counted) := by
  obtain ⟨json, encodes, isMeaning⟩ :=
    exists_encodeValue_of_body codec isValue integers []
  obtain ⟨meaning, numbers⟩ : answeredMeaning [] value = value.meaning ∧
      answeredNumbers [] value = value.counted := answered_of_kept (.inl rfl)
  rw [meaning, numbers] at isMeaning
  exact ⟨json, encodes, isMeaning⟩

end Codec

/-- A text is the JSON of something that denotes this. -/
def Denotes (text : List Char) (meaning : Json.Meaning) : Prop :=
  ∃ sent, Json.parse text = some sent ∧ sent.meaning = meaning

/-- An encoded value denotes its meaning only. -/
theorem denotes_encode_iff {json : Json.Value} {meaning : Json.Meaning} (after : Json.Space) :
    Denotes (Json.encode json ++ after.val) meaning ↔ json.meaning = meaning := by
  have parsed := (Json.reads_encode json).parse Json.noSpace after
  rw [Json.noSpace, List.nil_append] at parsed
  rw [Denotes, parsed]
  simp

/-! ### Templates that are one expression -/

/-- A template compiled from `{{ expr }}`, where this is the tree of the expression. -/
def Template.IsWhole (compiler : ExprCompiler) (stepNames : List String) (node : Node)
    (template : Template) : Prop :=
  ∃ hole : Hole, compiler.parse hole.expr = .ok node ∧
    compileTemplate compiler stepNames (.ofList hole.source) = .ok template

/-- `steps.x.body` -/
def stepBodyNode (step : String) : Node :=
  .member (.member (.identifier "steps") (.string step) false) (.string "body") false

/-- `req.body` -/
def requestBodyNode : Node := .member (.identifier "req") (.string "body") false

section Templates

variable {compiler : ExprCompiler} {stepNames : List String}

/-- Nothing is trimmed of a hole. -/
theorem trimSpace_hole (hole : Hole) : GoStrings.trimSpace hole.source = hole.source := by
  have front : hole.source.dropWhile GoStrings.isSpace = hole.source :=
    List.dropWhile_cons_of_neg (by decide)
  have ends : hole.source = '{' :: '{' :: (hole.text ++ ['}']) ++ ['}'] := by
    simp [Hole.source]
  rw [GoStrings.trimSpace, front, ends]
  exact List.rdropWhile_concat_neg _ _ _ (by decide)

/-- A compiled expression is the program of its tree. -/
theorem eq_program_of_compileExpression {expr : String} {node : Node} {segment : Segment}
    (parses : compiler.parse expr = .ok node)
    (compiled : compileExpression compiler stepNames expr = .ok segment) :
    segment = .program expr node := by
  obtain ⟨parsed, isParsed, -, -, rfl⟩ := compileExpression_ok compiled
  rw [Except.ok.inj (parses.symm.trans isParsed)]

/-- Its only segment is the expression. -/
theorem Template.IsWhole.segments {node : Node} {template : Template}
    (whole : template.IsWhole compiler stepNames node) :
    template.isSingle = true ∧ ∃ expr, template.segments = [.program expr node] := by
  obtain ⟨hole, isNode, compiles⟩ := whole
  obtain ⟨segments, parsed, rfl⟩ := Except.map_eq_ok compiles
  have source : (String.ofList hole.source).toList = hole.source := String.toList_ofList
  have braces : hole.source = '{' :: '{' :: (hole.text ++ '}' :: '}' :: []) := rfl
  have opens : ['{', '{'].isPrefixOf hole.source = true := rfl
  have closes : ['}', '}'].isSuffixOf hole.source = true := by
    rw [List.isSuffixOf_iff_suffix, braces]
    exact List.suffix_append ('{' :: '{' :: hole.text) ['}', '}']
  rw [parseSegments, source, braces] at parsed
  obtain ⟨inside, isInside, rfl⟩ := parseLiteral_open_iff.mp parsed
  rw [parseExpression_text _ _ hole.closed, List.nil_append] at isInside
  obtain ⟨segment, later, compiled, isLater, rfl⟩ := parseExpression_close_iff.mp isInside
  cases isLater
  obtain rfl := eq_program_of_compileExpression isNode compiled
  refine ⟨?_, hole.expr, rfl⟩
  rw [source, trimSpace_hole]
  dsimp only
  rw [opens, closes]
  rfl

/-- It evaluates to what the expression does. -/
theorem Template.IsWhole.evalValue {Value Error Scope : Type}
    {operators : Operators Value Error Scope} {printer : Printer Value} {env : Env Value}
    {node : Node} {template : Template} {value : Value}
    (whole : template.IsWhole compiler stepNames node)
    (evaluates : eval operators env node operators.start = .ok value) :
    template.evalValue operators printer env = .ok value := by
  obtain ⟨single, expr, segments⟩ := whole.segments
  have program : template.program? = some (expr, node) := by
    rw [Template.program?, segments]
    rfl
  rw [Template.evalValue, if_pos single, program]
  dsimp only
  rw [runProgram, evaluates]

end Templates

section Environment

variable {Value Error Scope : Type} {operators : Operators Value Error Scope}

/-- Nothing is bound where a program starts. -/
def Unbound (operators : Operators Value Error Scope) : Prop :=
  ∀ name, operators.bound operators.start name = none

/-- A name of the environment is looked up there if nothing else binds it. -/
theorem lookupName_of_unbound (unbound : Unbound operators) {env : Env Value} {name : String}
    {value : Value} (notEnv : name ≠ envName) (isValue : env name = some value) :
    lookupName operators env name operators.start = .ok value := by
  rw [lookupName, unbound]
  dsimp only
  rw [if_neg notEnv, isValue]

/-- The body of the request evaluates to it. -/
theorem eval_requestBodyNode (unbound : Unbound operators) (data : RequestData Value)
    (results : GoMap String (Option (StepResult Value))) :
    eval operators (buildRequestEnv operators.toValues data results) requestBodyNode
      operators.start = .ok data.body := by
  have isReq : lookupName operators (buildRequestEnv operators.toValues data results) "req"
      operators.start = .ok (reqData operators.toValues data) :=
    lookupName_of_unbound unbound (by decide) rfl
  change operators.member false (lookupName operators _ "req" operators.start)
    (.ok (operators.text "body")) = _
  rw [isReq]
  exact operators.member_object false _ "body" data.body rfl

/-- The body of a step evaluates to that of its result. -/
theorem eval_stepBodyNode (unbound : Unbound operators) (data : RequestData Value)
    {results : GoMap String (Option (StepResult Value))} {step : String}
    {result : StepResult Value} (isResult : results.lookup step = some (some result)) :
    eval operators (buildRequestEnv operators.toValues data results) (stepBodyNode step)
      operators.start = .ok result.body := by
  have nonempty : results.entries ≠ [] := by
    intro empty
    rw [AList.lookup, empty] at isResult
    cases isResult
  have isSteps : buildRequestEnv operators.toValues data results "steps" =
      some (stepsValue operators.toValues results) := by
    rw [buildRequestEnv, if_neg (by decide), if_pos ⟨rfl, nonempty⟩]
  have found : lookupName operators (buildRequestEnv operators.toValues data results) "steps"
      operators.start = .ok (stepsValue operators.toValues results) :=
    lookupName_of_unbound unbound (by decide) isSteps
  have entry : operators.member false (.ok (stepsValue operators.toValues results))
      (.ok (operators.text step)) = .ok (stepValue operators.toValues (some result)) := by
    refine operators.member_object false _ step _ ?_
    rw [isResult]
    rfl
  change operators.member false (operators.member false
    (lookupName operators _ "steps" operators.start) (.ok (operators.text step)))
      (.ok (operators.text "body")) = _
  rw [found, entry]
  exact operators.member_object false _ "body" result.body rfl

end Environment

/-! ### The ways a body is passed on -/

/-- The values of the expression language with the JSON values among them, decoded and
encoded by one library. -/
structure JsonGateway (Value Error Scope : Type) where
  operators : Operators Value Error Scope
  printer : Printer Value
  decoder : BodyDecoder Value
  codec : JsonCodec
  embed : ResponseValue → Value
  project : Value → ResponseValue
  unbound : Unbound operators
  project_embed : ∀ value, project (embed value) = value
  unmarshal_eq : ∀ bytes, decoder.unmarshal bytes = (codec.unmarshal bytes).map embed
  text_eq : ∀ bytes, decoder.text bytes = embed (.string (.ofList (runes bytes)))
  marshal_eq : ∀ value text, codec.marshal value = some text →
    printer.marshal (embed value) = .ok (.ofList text)

variable {Value Error Scope : Type}

/-- A step with this JSON value as the body of its response. -/
structure JsonStep (gateway : JsonGateway Value Error Scope) (value : Json.Value) where
  name : String
  settings : StepSettings Value
  response : UpstreamResponse
  result : StepResult Value
  results : GoMap String (Option (StepResult Value))
  isJSON : isJSONContentType (response.header.get "Content-Type") = true
  isValue : Json.parse (runes response.body) = some value
  sends : sendStepRequest gateway.decoder settings (.ok response) = .ok result
  notReplaced : result.errorRuleMatched = false
  isResult : results.lookup name = some (some result)

/-- A composition with `{{ steps.x.body }}` as the body of its response, and a status that
is sent with a body. -/
structure PassedResponse (gateway : JsonGateway Value Error Scope) (value : Json.Value) where
  step : JsonStep gateway value
  compiler : ExprCompiler
  stepNames : List String
  template : Template
  isWhole : template.IsWhole compiler stepNames (stepBodyNode step.name)
  setup : ResponseSetup
  isBody : setup.template.body = .tmpl template
  encodesOther : setup.encodesOther = fun description => (gateway.codec.other description).isSome
  worldOf : RequestData ResponseValue → ServedResult → ResponseWorld Error
  base : ServeRuntime ResponseValue
  comp : CompositionConfig
  hasRecorder : Bool
  call : CompositionCall ResponseValue
  data : RequestData ResponseValue
  result : ServedResult
  reaches : GetsToResponse (setup.runtime worldOf base) comp call data result
  /-- The request as the expressions see it. -/
  request : RequestData Value
  evaluates : (worldOf data result).evalValue template =
    (template.evalValue gateway.operators gateway.printer
      (buildRequestEnv gateway.operators.toValues request step.results)).map gateway.project
  status : Int
  isStatus : Values.evalStatus (setup.evaluator (worldOf data result)) setup.template.status =
    .ok status
  sendable : 200 ≤ status ∧ status ≤ 599 ∧ status ≠ 204 ∧ status ≠ 304

/-- The client gets what the body of the step denotes. -/
def PassedResponse.SendsSame {gateway : JsonGateway Value Error Scope} {value : Json.Value}
    (passed : PassedResponse gateway value) : Prop :=
  ∃ reply body text,
    (serveComposition (passed.setup.runtime passed.worldOf passed.base) passed.comp
      passed.hasRecorder passed.call).written = some reply ∧
    reply.body = .value body ∧ gateway.codec.marshal body = some text ∧
    Denotes (text ++ ['\n'])
      (answeredMeaning (passed.worldOf passed.data passed.result).stepErrors value)

/-- A later step with `{{ steps.x.body }}` as its body. -/
structure PassedStepBody (gateway : JsonGateway Value Error Scope) (value : Json.Value) where
  step : JsonStep gateway value
  compiler : ExprCompiler
  stepNames : List String
  template : Template
  isWhole : template.IsWhole compiler stepNames (stepBodyNode step.name)
  later : StepTemplates
  isBody : later.bodyTmpl = some template
  context : BuildContext Error
  request : RequestData Value

/-- The later step sends what the body of the step denotes. -/
def PassedStepBody.SendsSame {gateway : JsonGateway Value Error Scope} {value : Json.Value}
    (passed : PassedStepBody gateway value) : Prop :=
  ∃ text, evalBody gateway.operators gateway.printer passed.context
      (buildRequestEnv gateway.operators.toValues passed.request passed.step.results)
      passed.later = .ok (some text) ∧
    Denotes text.toList value.meaning

/-- A step with `{{ req.body }}` as its body, and a request with this JSON value. -/
structure PassedRequestBody (gateway : JsonGateway Value Error Scope) (value : Json.Value) where
  runtime : ServeRuntime Value
  decodes : runtime.unmarshal = gateway.decoder.unmarshal
  comp : CompositionConfig
  call : CompositionCall Value
  bytes : List UInt8
  isBytes : call.request.body = .bytes bytes true
  small : bytes.length ≤ maxRequestBytes comp
  isJSON : isJSONMediaType runtime (call.request.header.get "Content-Type") = true
  isValue : Json.parse (runes bytes) = some value
  compiler : ExprCompiler
  stepNames : List String
  template : Template
  isWhole : template.IsWhole compiler stepNames requestBodyNode
  later : StepTemplates
  isBody : later.bodyTmpl = some template
  context : BuildContext Error
  results : GoMap String (Option (StepResult Value))

/-- The body is read, and the step sends what it denotes. -/
def PassedRequestBody.SendsSame {gateway : JsonGateway Value Error Scope} {value : Json.Value}
    (passed : PassedRequestBody gateway value) : Prop :=
  ∃ body text, readBody passed.runtime passed.comp passed.call.request = .ok body ∧
    evalBody gateway.operators gateway.printer passed.context
      (buildRequestEnv gateway.operators.toValues (passed.call.requestData body) passed.results)
      passed.later = .ok (some text) ∧
    Denotes text.toList value.meaning

section Paths

variable {gateway : JsonGateway Value Error Scope} {value : Json.Value}

/-- A text that is a value is not empty. -/
theorem ne_nil_of_parse {bytes : List UInt8} (isValue : Json.parse (runes bytes) = some value) :
    bytes ≠ [] := by
  rintro rfl
  cases isValue

/-- The body that the step has is the one that was read. -/
theorem JsonStep.body_eq (step : JsonStep gateway value) :
    step.result.body = gateway.embed (gateway.codec.body step.response.body) := by
  have parsed : parseJSONBody gateway.decoder step.response.body
      (step.response.header.get "Content-Type") =
        (gateway.codec.unmarshal step.response.body).map gateway.embed := by
    rw [parseJSONBody, if_pos ⟨step.isJSON, ne_nil_of_parse step.isValue⟩, gateway.unmarshal_eq]
  have sends := step.sends
  have notReplaced := step.notReplaced
  rw [sendStepRequest, parsed, gateway.text_eq] at sends
  dsimp only at sends
  split at sends
  · cases sends
  split at sends
  · rw [← Except.ok.inj sends] at notReplaced
    cases notReplaced
  · rw [← Except.ok.inj sends, JsonCodec.body]
    cases gateway.codec.unmarshal step.response.body <;> rfl

/-- A step whose body is one expression sends the JSON of its value. -/
theorem evalBody_of_isWhole {compiler : ExprCompiler} {stepNames : List String} {node : Node}
    {template : Template} (whole : template.IsWhole compiler stepNames node)
    {later : StepTemplates} (isBody : later.bodyTmpl = some template) (context : BuildContext Error)
    {env : Env Value} {body : ResponseValue}
    (evaluates : eval gateway.operators env node gateway.operators.start =
      .ok (gateway.embed body)) {json : Json.Value}
    (encodes : gateway.codec.encodeValue body = some json) :
    evalBody gateway.operators gateway.printer context env later =
      .ok (some (.ofList (Json.encode json))) := by
  have isText : gateway.codec.marshal body = some (Json.encode json) := by
    rw [JsonCodec.marshal, encodes]
    rfl
  have ran : template.evalValue gateway.operators gateway.printer env =
      .ok (gateway.embed body) := whole.evalValue evaluates
  rw [evalBody, isBody]
  dsimp only
  rw [if_pos whole.segments.1, ran]
  simp only [wrapEval, bind, Except.bind, gateway.marshal_eq body _ isText]
  rfl

/-- The text of an encoded value denotes its meaning only. -/
theorem denotes_ofList_iff {json : Json.Value} {meaning : Json.Meaning} :
    Denotes (String.ofList (Json.encode json)).toList meaning ↔ json.meaning = meaning := by
  have encoded : Denotes (Json.encode json ++ Json.noSpace.val) meaning ↔ json.meaning = meaning :=
    denotes_encode_iff Json.noSpace
  rw [Json.noSpace, List.append_nil] at encoded
  rw [String.toList_ofList, encoded]

/-- What is sent denotes a meaning exactly if it is that of the value. -/
theorem exists_denotes_iff {json : Json.Value} {meaning : Json.Meaning}
    {sent : Except StepFailure (Option String)}
    (isSent : sent = .ok (some (.ofList (Json.encode json)))) :
    (∃ text, sent = .ok (some text) ∧ Denotes text.toList meaning) ↔ json.meaning = meaning := by
  rw [← denotes_ofList_iff, isSent]
  constructor
  · rintro ⟨text, isText, denotes⟩
    cases isText
    exact denotes
  · intro denotes
    exact ⟨_, rfl, denotes⟩

/-- A response body that is passed on to a step comes through exactly if its numbers do. -/
theorem PassedStepBody.sendsSame_iff (passed : PassedStepBody gateway value)
    (integers : ∀ number ∈ value.numbers, number.value.isInt = true) :
    passed.SendsSame ↔ ComesThrough value value.counted := by
  obtain ⟨json, encodes, isMeaning⟩ :=
    exists_encodeValue_of_whole gateway.codec passed.step.isValue integers
  have evaluates := eval_stepBodyNode gateway.unbound passed.request passed.step.isResult
  rw [passed.step.body_eq] at evaluates
  exact (exists_denotes_iff (evalBody_of_isWhole passed.isWhole passed.isBody passed.context
    evaluates encodes)).trans isMeaning

/-- A request body that is decoded is read, one that is not is refused. -/
theorem PassedRequestBody.readBody_ok_iff (passed : PassedRequestBody gateway value)
    {body : Value} : readBody passed.runtime passed.comp passed.call.request = .ok body ↔
      (gateway.codec.unmarshal passed.bytes).map gateway.embed = some body := by
  rw [readBody, passed.isBytes]
  dsimp only
  rw [if_neg (Nat.not_lt.mpr passed.small), if_neg (by decide),
    if_neg (ne_nil_of_parse passed.isValue), if_pos passed.isJSON, passed.decodes,
    gateway.unmarshal_eq]
  cases (gateway.codec.unmarshal passed.bytes).map gateway.embed with
  | none => exact iff_of_false (by intro same; cases same) (by intro same; cases same)
  | some decoded => rw [Except.ok.injEq, Option.some.injEq]

/-- A request body that is passed on to a step comes through exactly if its numbers do. -/
theorem PassedRequestBody.sendsSame_iff (passed : PassedRequestBody gateway value)
    (integers : ∀ number ∈ value.numbers, number.value.isInt = true) :
    passed.SendsSame ↔ ComesThrough value value.counted := by
  obtain ⟨json, encodes, isMeaning⟩ :=
    exists_encodeValue_of_whole gateway.codec passed.isValue integers
  have readable := isSome_unmarshal gateway.codec passed.isValue integers
  rw [SendsSame]
  simp only [passed.readBody_ok_iff]
  cases isRead : gateway.codec.unmarshal passed.bytes with
  | none =>
      rw [isRead] at readable
      refine iff_of_false ?_ ?_
      · rintro ⟨body, text, isBody, -⟩
        cases isBody
      · intro through
        exact Bool.false_ne_true (readable.mpr ⟨through.depth, through.fits⟩)
  | some decoded =>
      have isBody : gateway.codec.body passed.bytes = decoded := by
        rw [JsonCodec.body, isRead, Option.getD_some]
      rw [isBody] at encodes
      have evaluates := eval_requestBodyNode gateway.unbound
        (passed.call.requestData (gateway.embed decoded)) passed.results
      rw [← isMeaning, ← exists_denotes_iff (evalBody_of_isWhole passed.isWhole passed.isBody
        passed.context evaluates encodes)]
      constructor
      · rintro ⟨body, text, isRead, sent⟩
        cases isRead
        exact ⟨text, sent⟩
      · rintro ⟨text, sent⟩
        exact ⟨_, text, rfl, sent⟩

/-- The response is built with the body of the step. -/
theorem PassedResponse.build_eq (passed : PassedResponse gateway value) :
    passed.setup.build (passed.worldOf passed.data passed.result) =
      some ⟨passed.status, passed.setup.template.contentType,
        Values.writeErrors (passed.worldOf passed.data passed.result).stepErrors
          (gateway.codec.body passed.step.response.body)⟩ := by
  have evaluates := eval_stepBodyNode gateway.unbound passed.request passed.step.isResult
  rw [passed.step.body_eq] at evaluates
  have ran : (passed.worldOf passed.data passed.result).evalValue passed.template =
      .ok (gateway.codec.body passed.step.response.body) := by
    rw [passed.evaluates, passed.isWhole.evalValue evaluates]
    exact congrArg Except.ok (gateway.project_embed _)
  rw [ResponseSetup.build, Values.buildResponse, passed.isStatus]
  dsimp only
  rw [passed.isBody, Values.evaluateBodyNode, ResponseSetup.evaluator]
  dsimp only
  rw [ran]

/-- A response body that is answered comes through exactly if its numbers do. -/
theorem PassedResponse.sendsSame_iff (passed : PassedResponse gateway value)
    (integers : ∀ number ∈ value.numbers, number.value.isInt = true) :
    passed.SendsSame ↔ ComesThrough value
      (answeredNumbers (passed.worldOf passed.data passed.result).stepErrors value) := by
  obtain ⟨json, encodes, isMeaning⟩ := exists_encodeValue_of_body gateway.codec
    passed.step.isValue integers (passed.worldOf passed.data passed.result).stepErrors
  have encodable : (Values.writeErrors (passed.worldOf passed.data passed.result).stepErrors
      (gateway.codec.body passed.step.response.body)).encodable passed.setup.encodesOther =
        true := by
    rw [passed.encodesOther, ← JsonCodec.isSome_encodeValue, encodes, Option.isSome_some]
  obtain ⟨least, most, notEmpty, notModified⟩ := passed.sendable
  rw [← isMeaning, SendsSame, serveComposition_of_getsToResponse passed.reaches, passed.build_eq]
  dsimp only
  rw [(written_finishResponse_eq_iff ⟨by dsimp only; omega, most⟩).mpr
    ⟨least, notEmpty, notModified, encodable⟩]
  rw [← denotes_encode_iff (⟨['\n'], by decide⟩ : Json.Space)]
  constructor
  · rintro ⟨reply, body, text, isReply, isBody, isText, denotes⟩
    cases isReply
    cases isBody
    rw [JsonCodec.marshal, encodes] at isText
    cases isText
    exact denotes
  · intro denotes
    refine ⟨_, _, Json.encode json, rfl, rfl, ?_, denotes⟩
    rw [JsonCodec.marshal, encodes]
    rfl

end Paths

/-- For every JSON value whose numbers are integers, the response of a composition and the
bodies of later steps that hand it on denote the same value exactly if it is not nested too
deep, no number is out of the range of a float64, and every number that is left in what is
sent is zero or the shortest decimal of its nearest float64. -/
theorem passedBodies_sendSame_iff {Value Error Scope : Type}
    (gateway : JsonGateway Value Error Scope) (value : Json.Value)
    (integers : ∀ number ∈ value.numbers, number.value.isInt = true) :
    (∀ passed : PassedResponse gateway value, passed.SendsSame ↔ ComesThrough value
        (answeredNumbers (passed.worldOf passed.data passed.result).stepErrors value)) ∧
      (∀ passed : PassedStepBody gateway value,
        passed.SendsSame ↔ ComesThrough value value.counted) ∧
      ∀ passed : PassedRequestBody gateway value,
        passed.SendsSame ↔ ComesThrough value value.counted :=
  ⟨fun passed => passed.sendsSame_iff integers, fun passed => passed.sendsSame_iff integers,
    fun passed => passed.sendsSame_iff integers⟩

/-! ### An id -/

/-- The values of the expression language. -/
inductive PassedValue where
  | json (value : ResponseValue)
  | text (value : String)
  | number (value : Nat)
  | list (items : List PassedValue)
  | object (fields : String → Option PassedValue)

/-- Members of maps, and no other operator. -/
def passedOperators : Operators PassedValue String Unit where
  nil := .json .null
  text := .text
  number := .number
  list := .list
  object := .object
  start := ()
  bound := fun _ _ => none
  undefined := fun _ => .error "cannot fetch"
  member := fun _ base property =>
    match base, property with
    | .ok (.object fields), .ok (.text key) => .ok ((fields key).getD (.json .null))
    | .ok _, .ok _ => .error "cannot fetch"
    | .error error, _ => .error error
    | _, .error error => .error error
  declare := fun _ _ expr scope => expr scope
  apply := fun _ _ _ => .error "unsupported"
  member_object := by
    intro _ fields key value found
    simp [found]

/-- Integers and no other numbers. -/
def integerCodec : JsonCodec where
  read := fun _ => none
  write := fun n _ => Json.writeInt n
  other := fun _ => none

def passedGateway : JsonGateway PassedValue String Unit where
  operators := passedOperators
  printer := {
    sprint := fun _ => ""
    marshal := fun value =>
      match value with
      | .json value =>
          match integerCodec.marshal value with
          | some text => .ok (.ofList text)
          | none => .error "unsupported value"
      | _ => .error "unsupported type" }
  decoder := {
    unmarshal := fun bytes => (integerCodec.unmarshal bytes).map .json
    text := fun bytes => .json (.string (.ofList (runes bytes)))
    isNil := fun value =>
      match value with
      | .json .null => true
      | _ => false }
  codec := integerCodec
  embed := .json
  project := fun value =>
    match value with
    | .json value => value
    | .text text => .string text
    | .number number => .int number
    | _ => .null
  unbound := fun _ => rfl
  project_embed := fun _ => rfl
  unmarshal_eq := fun _ => rfl
  text_eq := fun _ => rfl
  marshal_eq := by
    intro value text isText
    dsimp only
    rw [isText]

/-- `{"id": ...}` -/
def userObject (id : Nat) : Json.Value := .object [("id".toList, .number (Json.writeInt id))]

def userResponse (id : Nat) : UpstreamResponse :=
  ⟨200, [("Content-Type", "application/json")], utf8 (Json.encode (userObject id))⟩

theorem parse_userResponse (id : Nat) :
    Json.parse (runes (userResponse id).body) = some (userObject id) := by
  have parsed := (Json.reads_encode (userObject id)).parse Json.noSpace Json.noSpace
  rw [Json.noSpace, List.nil_append, List.append_nil] at parsed
  rw [userResponse, runes_utf8, parsed]

def userResult (id : Nat) : StepResult PassedValue :=
  ⟨200, (userResponse id).header, .json (integerCodec.body (userResponse id).body),
    (userResponse id).body, false⟩

theorem userResponse_isJSON (id : Nat) :
    isJSONContentType ((userResponse id).header.get "Content-Type") = true := by
  change isJSONContentType ((Header.ofLines [("Content-Type", "application/json")]).get
    "Content-Type") = true
  decide +kernel

theorem sendStepRequest_userResponse (id : Nat) :
    sendStepRequest passedGateway.decoder
      ⟨"GET", none, false, [], (userResponse id).body.length⟩ (.ok (userResponse id)) =
        .ok (userResult id) := by
  have parsed : parseJSONBody passedGateway.decoder (userResponse id).body
      ((userResponse id).header.get "Content-Type") =
        (integerCodec.unmarshal (userResponse id).body).map .json :=
    if_pos ⟨userResponse_isJSON id, ne_nil_of_parse (parse_userResponse id)⟩
  have isBody : ((integerCodec.unmarshal (userResponse id).body).map PassedValue.json).getD
      (passedGateway.decoder.text (userResponse id).body) =
        .json (integerCodec.body (userResponse id).body) := by
    rw [JsonCodec.body]
    cases integerCodec.unmarshal (userResponse id).body <;> rfl
  rw [sendStepRequest]
  dsimp only
  rw [if_neg (Nat.lt_irrefl _), parsed, isBody]
  rfl

def userStep (id : Nat) : JsonStep passedGateway (userObject id) where
  name := "user"
  settings := ⟨"GET", none, false, [], (userResponse id).body.length⟩
  response := userResponse id
  result := userResult id
  results := AList.singleton "user" (some (userResult id))
  isJSON := userResponse_isJSON id
  isValue := parse_userResponse id
  sends := sendStepRequest_userResponse id
  notReplaced := rfl
  isResult := rfl

/-- The parser on two expressions. -/
def bodyCompiler : ExprCompiler where
  parse := fun expr =>
    if expr = "steps.user.body" then .ok (stepBodyNode "user")
    else if expr = "req.body" then .ok requestBodyNode
    else .error "unexpected token"
  check := fun _ _ => none
  optimize := id
  isBuiltin := fun _ => false

def userBodyTemplate : Template where
  raw := "\x7b\x7b steps.user.body \x7d\x7d"
  segments := [.program "steps.user.body" (stepBodyNode "user")]
  deps := ["user"]
  isSingle := true

def requestBodyTemplate : Template where
  raw := "\x7b\x7b req.body \x7d\x7d"
  segments := [.program "req.body" requestBodyNode]
  deps := []
  isSingle := true

theorem userBodyTemplate_isWhole :
    userBodyTemplate.IsWhole bodyCompiler ["user"] (stepBodyNode "user") :=
  ⟨⟨" steps.user.body ".toList, by decide⟩, rfl, rfl⟩

theorem requestBodyTemplate_isWhole :
    requestBodyTemplate.IsWhole bodyCompiler ["user"] requestBodyNode :=
  ⟨⟨" req.body ".toList, by decide⟩, rfl, rfl⟩

def userRequest : RequestData PassedValue := ⟨"GET", "/users", ∅, ∅, ∅, .json .null, none⟩

/-- The response is the body of `user`, and no step failed. -/
def passedResponse (id : Nat) : PassedResponse passedGateway (userObject id) where
  step := userStep id
  compiler := bodyCompiler
  stepNames := ["user"]
  template := userBodyTemplate
  isWhole := userBodyTemplate_isWhole
  setup := ⟨⟨.unset, .tmpl userBodyTemplate, "application/json"⟩, fun _ => .nan, 0, fun _ => false⟩
  isBody := rfl
  encodesOther := rfl
  worldOf := fun _ _ => ⟨fun template => (template.evalValue passedOperators passedGateway.printer
    (buildRequestEnv passedOperators.toValues userRequest (userStep id).results)).map
      passedGateway.project, [], []⟩
  base := answeringBase
  comp := codesComposition
  hasRecorder := false
  call := codesCall
  data := codesCall.requestData .null
  result := ⟨fun _ => none, false, []⟩
  reaches := ⟨⟨.null, rfl, rfl, rfl⟩, rfl⟩
  request := userRequest
  evaluates := rfl
  status := 200
  isStatus := rfl
  sendable := by omega

/-- What the later step needs besides its body. -/
def laterStep (template : Template) : StepTemplates := ⟨"POST", template, none, some template, ∅⟩

def passedStepBody (id : Nat) : PassedStepBody passedGateway (userObject id) where
  step := userStep id
  compiler := bodyCompiler
  stepNames := ["user"]
  template := userBodyTemplate
  isWhole := userBodyTemplate_isWhole
  later := laterStep userBodyTemplate
  isBody := rfl
  context := plainContext
  request := userRequest

def decodingRuntime : ServeRuntime PassedValue where
  nil := .json .null
  parseMediaType := some
  unmarshal := passedGateway.decoder.unmarshal
  schema := none
  execute := fun _ => .ok ⟨fun _ => none, false, []⟩
  clientGone := false
  buildResponse := fun _ _ => none
  encode := fun _ => true
  start := 0
  duration := 0
  traceID := ""
  parseHost := some

/-- A request with the object as its body. -/
def postedCall (id : Nat) : CompositionCall PassedValue :=
  ⟨"codes", ∅, ⟨"POST", "/codes", ∅, Header.set ∅ "Content-Type" "application/json", "10.0.0.1",
    .bytes (userResponse id).body true⟩, ⟨some "01J", none⟩⟩

theorem postedCall_isJSON (id : Nat) : isJSONMediaType decodingRuntime
    ((postedCall id).request.header.get "Content-Type") = true := by
  change isJSONMediaType decodingRuntime
    ((Header.set ∅ "Content-Type" "application/json").get "Content-Type") = true
  decide +kernel

def passedRequestBody (id : Nat) : PassedRequestBody passedGateway (userObject id) where
  runtime := decodingRuntime
  decodes := rfl
  comp := { codesComposition with maxRequestBytes := (userResponse id).body.length }
  call := postedCall id
  bytes := (userResponse id).body
  isBytes := rfl
  small := by
    rw [maxRequestBytes]
    split
    · exact Nat.le_refl _
    · rename_i empty
      dsimp only at empty
      omega
  isJSON := postedCall_isJSON id
  isValue := parse_userResponse id
  compiler := bodyCompiler
  stepNames := ["user"]
  template := requestBodyTemplate
  isWhole := requestBodyTemplate_isWhole
  later := laterStep requestBodyTemplate
  isBody := rfl
  context := plainContext
  results := ∅

theorem integers_userObject (id : Nat) :
    ∀ number ∈ (userObject id).numbers, number.value.isInt = true := by
  intro number member
  rw [List.mem_singleton.mp member, Json.value_writeInt]
  rfl

theorem comesThrough_userObject {id : Nat} (small : id ≤ 2 ^ 53) :
    ComesThrough (userObject id) (userObject id).counted := by
  have isId : ∀ number ∈ (userObject id).numbers, number.value.num.natAbs = id := by
    intro number member
    rw [List.mem_singleton.mp member, Json.value_writeInt, Rat.num_intCast, Int.natAbs_natCast]
  have shallow : 1 ≤ maxNestingDepth := by decide
  refine ⟨shallow, ?_, ?_⟩
  · intro number member
    rw [isId number member, Float64.round_of_le small]
    refine small.trans_lt ?_
    apply Nat.pow_lt_pow_right
    · decide
    · decide
  · intro number member
    rw [isId number member]
    exact printedExactly_of_le small

/-- A small id comes through on all three ways. -/
theorem sendsSame_of_small_id :
    (passedResponse 42).SendsSame ∧ (passedStepBody 42).SendsSame ∧
      (passedRequestBody 42).SendsSame := by
  obtain ⟨response, stepBody, requestBody⟩ :=
    passedBodies_sendSame_iff passedGateway (userObject 42) (integers_userObject 42)
  have small : ComesThrough (userObject 42) (userObject 42).counted :=
    comesThrough_userObject (by decide)
  exact ⟨(response _).mpr small, (stepBody _).mpr small, (requestBody _).mpr small⟩

/-- The first whole number that is no float64 is passed on as the one before it. -/
theorem large_id_changes :
    (∀ number ∈ (userObject 9007199254740993).numbers, number.value.isInt = true) ∧
      integerCodec.marshal (integerCodec.body (userResponse 9007199254740993).body) =
        some "\x7b\"id\":9007199254740992\x7d".toList ∧
      ¬ (passedResponse 9007199254740993).SendsSame ∧
      ¬ (passedStepBody 9007199254740993).SendsSame ∧
      ¬ (passedRequestBody 9007199254740993).SendsSame := by
  have integers := integers_userObject 9007199254740993
  have changed : ¬ ComesThrough (userObject 9007199254740993)
      (userObject 9007199254740993).counted := by
    intro through
    have own := through.exact _ List.mem_cons_self
    rw [PrintedExactly, ← Float64.shortestValue_round_iff, Json.value_writeInt] at own
    revert own
    decide +kernel
  refine ⟨integers, by decide +kernel, ?_, ?_, ?_⟩
  · exact fun sends => changed (((passedResponse _).sendsSame_iff integers).mp sends)
  · exact fun sends => changed (((passedStepBody _).sendsSame_iff integers).mp sends)
  · exact fun sends => changed (((passedRequestBody _).sendsSame_iff integers).mp sends)

end Restitch.Composition
