import Restitch.Composition.PlanCorrect
import Restitch.Import.ImportedPath

/-!
# The request of an imported step

An imported step sends the path and the required query of its own request to the upstream. The
expressions are members of `req`; what `expr-lang` makes of them is a hypothesis.
-/

namespace Restitch.Import

open Restitch.Composition Restitch.Expr Restitch.Http Restitch.Std

/-! ### Members of `req` -/

/-- `req.field.name` -/
def memberNode (field name : String) : Node :=
  .member (.member (.identifier "req") (.string field) false) (.string name) false

/-- The expression language reads `req.field.name` as a member, accepts it and leaves it. -/
structure ReadsMember (compiler : ExprCompiler) (field name : String) : Prop where
  parse : compiler.parse ("req." ++ field ++ "." ++ name) = .ok (memberNode field name)
  check : compiler.check ["main"] (memberNode field name) = none
  optimize : compiler.optimize (memberNode field name) = memberNode field name

section Member

variable {compiler : ExprCompiler} {field name : String}

/-- A member of `params` or of `query` compiles. -/
theorem compileExpression_member (reads : ReadsMember compiler field name)
    (known : field = "params" ∨ field = "query") :
    compileExpression compiler ["main"] ("req." ++ field ++ "." ++ name) =
      .ok (.program ("req." ++ field ++ "." ++ name) (memberNode field name)) := by
  have accepted : checkReferences compiler.isBuiltin ["main"] false (memberNode field name) =
      none := by
    rcases known with rfl | rfl <;> rfl
  rw [compileExpression, reads.parse]
  simp only [reads.check, reads.optimize, accepted]

/-- A member of `req` refers to no step. -/
theorem extractStepDeps_member (reads : ReadsMember compiler field name) :
    extractStepDeps compiler ("req." ++ field ++ "." ++ name) = [] := by
  rw [extractStepDeps, reads.parse]
  rfl

variable {Value Error Scope : Type} {operators : Operators Value Error Scope}

variable (free : operators.bound operators.start "req" = none) {data : RequestData Value}
  {results : GoMap String (Option (StepResult Value))} (expr : String)

include free

/-- A member of a map in `req` is the entry of that name. -/
theorem runProgram_member {entries : String → Option Value} (fields : String → Option Value)
    {value : Value}
    (isReq : reqData operators.toValues data = operators.object entries)
    (isField : entries field = some (operators.object fields)) (found : fields name = some value) :
    runProgram operators (buildRequestEnv operators.toValues data results) expr
      (memberNode field name) = .ok value := by
  have root : eval operators (buildRequestEnv operators.toValues data results) (.identifier "req")
      operators.start = .ok (operators.object entries) := by
    rw [eval, lookupName, free, ← isReq]
    rfl
  have whole : eval operators (buildRequestEnv operators.toValues data results)
      (memberNode field name) operators.start = .ok value := by
    simp only [memberNode, eval] at root ⊢
    rw [root, operators.member_object false entries field _ isField,
      operators.member_object false fields name value found]
  rw [runProgram, whole]

/-- A parameter evaluates to its value. -/
theorem runProgram_param {value : String} (found : data.params.lookup name = some value) :
    runProgram operators (buildRequestEnv operators.toValues data results) expr
      (memberNode "params" name) = .ok (operators.text value) :=
  runProgram_member free expr (fun key => (data.params.lookup key).map operators.text)
    rfl rfl (by rw [found, Option.map_some])

/-- A query parameter evaluates to its first value. -/
theorem runProgram_query {value : String}
    (found : (data.query.lookup name).bind List.head? = some value) :
    runProgram operators (buildRequestEnv operators.toValues data results) expr
      (memberNode "query" name) = .ok (operators.text value) :=
  runProgram_member free expr
    (fun key => ((data.query.lookup key).bind List.head?).map operators.text)
    rfl rfl (by rw [found, Option.map_some])

end Member

/-! ### The route -/

section Route

variable {classes : CharClasses}

/-- The multiplexer reads a route with a method from the path behind it. -/
theorem parseParts_of_handle {router : Router} {method path : String} {rest : List Char}
    {pattern : Pattern} (isMethod : method ≠ "" ∧ method.toList.all isTokenChar = true)
    (isPath : path.toList = '/' :: rest)
    (registered : router.handle classes method path = some (router ++ [pattern])) :
    parseParts classes [] (rest.splitOn '/') = .ok pattern.segments := by
  have noBlank : ∀ c ∈ method.toList, (c ≠ ' ' && c ≠ '\t') = true := by
    intro c member
    have token := List.all_eq_true.mp isMethod.2 c member
    rw [Bool.and_eq_true, decide_eq_true_eq, decide_eq_true_eq]
    constructor <;> rintro rfl <;> revert token <;> decide
  have isText : (method ++ " " ++ path).toList = method.toList ++ ' ' :: '/' :: rest := by
    simp [isPath]
  have split : splitMethod (method.toList ++ ' ' :: '/' :: rest) =
      (method.toList, '/' :: rest) := by
    rw [splitMethod, List.dropWhile_append_of_pos noBlank, List.takeWhile_append_of_pos noBlank]
    simp
  have parsed : parsePattern classes (method ++ " " ++ path) = .ok pattern := by
    rw [Router.handle, if_pos isMethod.1, handleFunc] at registered
    split at registered
    · cases registered
    · next parsed =>
        split at registered
        · cases registered
        · rw [parsed, List.singleton_inj.mp (List.append_cancel_left (Option.some.inj registered))]
  unfold parsePattern at parsed
  split at parsed
  · cases parsed
  rw [isText, split] at parsed
  have noHost : ('/' :: rest).takeWhile (· ≠ '/') = [] := by simp
  have whole : ('/' :: rest).dropWhile (· ≠ '/') = '/' :: rest := by simp
  simp only [noHost, whole] at parsed
  split at parsed
  · cases parsed
  split at parsed
  · cases parsed
  split at parsed
  · cases parsed
  split at parsed
  · cases parsed
  obtain ⟨⟨segments, _⟩, isSegments, rfl⟩ := Except.map_eq_ok parsed
  unfold parsePath at isSegments
  split at isSegments
  · next found =>
      cases isSegments
      exact found
  · cases isSegments

/-- The segment that the multiplexer reads a part as. -/
def PathPart.segment : PathPart → PathSegment
  | .literal text _ => .literal (pathUnescape text)
  | .param name _ => .wild name

/-- The segments of the parts: an empty last one stands for the rest of the path. -/
def routeSegments : List PathPart → List PathSegment
  | [] => []
  | part :: rest =>
      (if part.text = [] ∧ rest = [] then .multi [] else part.segment) :: routeSegments rest

/-- A name is neither `$` nor the end of dots. -/
theorem parseInner_of_isParamName {seen : List (List Char)} {isLast : Bool} {name : List Char}
    {segment : PathSegment} (named : isParamName name = true)
    (parsed : parseInner classes seen isLast name = .ok segment) : segment = .wild name := by
  have all := List.all_eq_true.mp ((Bool.and_eq_true _ _).mp named).2
  unfold parseInner at parsed
  split at parsed
  · next dollar =>
      subst dollar
      cases named
  split at parsed
  · next dots =>
      have suffix := List.isSuffixOf_iff_suffix.mp dots
      have dot := all '.' (suffix.subset (by simp))
      cases dot
  split at parsed
  · cases parsed
  · cases parsed
    rfl

/-- The part of a path is parsed as its segment. -/
theorem parsePart_eq_segment {seen : List (List Char)} {isLast : Bool} {part : PathPart}
    {segment : PathSegment} (parsed : parsePart classes seen isLast part.text = .ok segment) :
    segment = part.segment := by
  cases part with
  | literal text plain =>
      unfold parsePart at parsed
      rw [PathPart.text, if_pos (brace_notMem_of_literalPart plain).1] at parsed
      cases parsed
      rfl
  | param name named =>
      have inner : (PathPart.param name named).text.tail.dropLast = name := by
        simp [PathPart.text]
      unfold parsePart at parsed
      split at parsed
      · next free => exact absurd List.mem_cons_self free
      split at parsed
      · cases parsed
      split at parsed
      · cases parsed
      · rw [inner] at parsed
        exact parseInner_of_isParamName named parsed

/-- The multiplexer reads the parts of a path as its segments. -/
theorem segments_of_parseParts {seen : List (List Char)} {parts : List PathPart}
    {segments : List PathSegment}
    (parsed : parseParts classes seen (parts.map PathPart.text) = .ok segments) :
    segments = routeSegments parts := by
  induction parts generalizing seen segments with
  | nil =>
      cases parsed
      rfl
  | cons part rest ih =>
      rw [List.map_cons, parseParts] at parsed
      rw [routeSegments]
      by_cases last : part.text = [] ∧ rest = []
      · obtain ⟨empty, rfl⟩ := last
        rw [if_pos ⟨empty, rfl⟩] at parsed ⊢
        cases parsed
        rfl
      · rw [if_neg (by simpa using last)] at parsed
        obtain ⟨segment, isSegment, parsed⟩ := Except.bind_eq_ok parsed
        obtain ⟨later, isLater, done⟩ := Except.bind_eq_ok parsed
        cases done
        rw [if_neg last, parsePart_eq_segment isSegment, ih isLater]

/-- What is sent for a segment of the route: nothing for what a request has behind a trailing
slash. -/
def servedSegment {pattern : Pattern} (matched : PatternMatch pattern) :
    PathSegment → List UInt8
  | .literal bytes => bytes
  | .wild name => utf8 (matched.pathValue (.ofList name)).toList
  | .multi _ => []

/-- What is sent for a part with these parameters. -/
def PathPart.served (value : String → String) : PathPart → List UInt8
  | .literal text _ => pathUnescape text
  | .param name _ => utf8 (value (.ofList name)).toList

/-- What the segments of a route match is what its parts are served with. -/
theorem map_servedSegment {pattern : Pattern} (matched : PatternMatch pattern)
    (parts : List PathPart) :
    (routeSegments parts).map (servedSegment matched) =
      parts.map (PathPart.served matched.pathValue) := by
  induction parts with
  | nil => rfl
  | cons part rest ih =>
      rw [routeSegments, List.map_cons, List.map_cons, ih]
      congr 1
      split
      · next last =>
          cases part with
          | literal text plain =>
              obtain rfl : text = [] := last.1
              rfl
          | param name named => cases last.1
      · cases part <;> rfl

end Route

/-! ### The path that is sent -/

section Path

variable (value : String → String)

/-- A part of the template with the value of its parameter. -/
def PathPart.symbols : PathPart → List Symbol
  | .literal text _ => text.map .literal
  | .param name _ => [.value (utf8 (value (.ofList name)).toList)]

/-- The path of the template with the values of its parameters. -/
def pathSymbols (parts : List PathPart) : List Symbol :=
  (parts.map (PathPart.symbols value)).flatMap (.literal '/' :: ·)

/-- The holes of the template have the values of their parameters. -/
theorem flatMap_pieceSymbols (parts : List PathPart) :
    (pathPieces parts).flatMap (pieceSymbols fun hole =>
      utf8 (value (.ofList (Hole.memberName "params".toList hole))).toList) =
      pathSymbols value parts := by
  induction parts with
  | nil => rfl
  | cons part rest ih =>
      rw [pathPieces, List.flatMap_cons, List.flatMap_append]
      change _ ++ (pathPieces rest).flatMap _ = _
      rw [ih, pathSymbols, pathSymbols, List.map_cons, List.flatMap_cons]
      cases part with
      | literal text plain => simp [PathPart.pieces, pieceSymbols, PathPart.symbols]
      | param name named =>
          simp [PathPart.pieces, pieceSymbols, PathPart.symbols, paramHole, memberName_memberHole]

/-- No part of a path has a literal slash. -/
theorem PathPart.slash_notMem_symbols (part : PathPart) :
    .literal '/' ∉ part.symbols value := by
  cases part with
  | literal text plain =>
      simp only [literalPart, Bool.and_eq_true, decide_eq_true_eq] at plain
      intro member
      obtain ⟨c, inText, same⟩ := List.mem_map.mp member
      cases same
      exact plain.1.1.2 inText
  | param name named => simp [PathPart.symbols]

/-- The template is cut into its parts. -/
theorem templateSegments_pathSymbols (parts : List PathPart) :
    templateSegments (pathSymbols value parts) = parts.map (PathPart.symbols value) := by
  rw [templateSegments, pathSymbols, splitOn_flatMap_cons, List.tail_cons]
  intro segment member
  obtain ⟨part, -, rfl⟩ := List.mem_map.mp member
  exact part.slash_notMem_symbols value

/-- The path may be sent as it is given. -/
theorem valid_pathSymbols (parts : List PathPart) :
    (pathSymbols value parts).all Symbol.valid = true := by
  rw [List.all_eq_true]
  intro symbol member
  obtain ⟨segment, isSegment, inSegment⟩ := List.mem_flatMap.mp member
  obtain ⟨part, -, rfl⟩ := List.mem_map.mp isSegment
  rcases List.mem_cons.mp inSegment with rfl | inPart
  · rfl
  cases part with
  | literal text plain =>
      simp only [literalPart, Bool.and_eq_true] at plain
      obtain ⟨c, inText, rfl⟩ := List.mem_map.mp inPart
      exact List.all_eq_true.mp plain.1.1.1 c inText ▸ by simp [Symbol.valid, validEncoded]
  | param name named =>
      cases List.mem_singleton.mp inPart
      rfl

/-- Literal symbols are decoded as the text before and after them. -/
theorem decodeSymbols_literals (before text : List Char) :
    decodeSymbols before (text.map .literal) = decodeSegment (before ++ text) := by
  induction text generalizing before with
  | nil => rw [List.append_nil]; rfl
  | cons c rest ih => rw [List.map_cons, decodeSymbols, ih, List.append_assoc]; rfl

/-- A part is decoded to what it is in the path of the request. -/
theorem PathPart.decodeSymbols_symbols (part : PathPart) :
    decodeSymbols [] (part.symbols value) = some (part.served value) := by
  cases part with
  | literal text plain =>
      simp only [literalPart, Bool.and_eq_true] at plain
      obtain ⟨bytes, decoded⟩ := Option.isSome_iff_exists.mp plain.1.2
      rw [PathPart.symbols, decodeSymbols_literals, List.nil_append, decoded, PathPart.served,
        pathUnescape]
      change _ = some ((decodeSegment text).getD _)
      rw [decoded, Option.getD_some]
  | param name named => simp [PathPart.symbols, PathPart.served, decodeSymbols, decodeSegment, utf8,
      unescapeBytes]

/-- The path decodes as a whole. -/
theorem exists_decoded_pathSymbols (parts : List PathPart) :
    ∃ bytes, decodeSegment (symbolsText (pathSymbols value parts)) = some bytes := by
  induction parts with
  | nil => exact ⟨[], rfl⟩
  | cons part rest ih =>
      obtain ⟨later, isLater⟩ := ih
      have isPart : decodeSegment (symbolsText (part.symbols value)) = some (part.served value) :=
        decodeSegment_symbolsText (part.decodeSymbols_symbols value)
      have whole : symbolsText (pathSymbols value (part :: rest)) =
          '/' :: (symbolsText (part.symbols value) ++ symbolsText (pathSymbols value rest)) := by
        rw [pathSymbols, List.map_cons, List.flatMap_cons, symbolsText_append]
        rfl
      rw [whole, decodeSegment_slash, decodeSegment_append isPart, isLater]
      exact ⟨_, rfl⟩

/-- Every part of the path is a segment of its own. -/
theorem ownSegments_pathSymbols (parts : List PathPart) :
    ownSegments (pathSymbols value parts) = some (parts.map (PathPart.served value)) := by
  rw [ownSegments, templateSegments_pathSymbols]
  apply mapM_eq_some_iff.mpr
  rw [List.forall₂_map_left_iff, List.forall₂_map_right_iff]
  exact List.forall₂_same.mpr fun part _ => part.decodeSymbols_symbols value

end Path

/-- A value in a path is a dot segment only if it is one. -/
theorem textDots_pathEscapeBytes (value : String) :
    textDots (pathEscapeBytes (utf8 value.toList)) = .none ↔ value ≠ "." ∧ value ≠ ".." := by
  have same (text : String) (plain : pathEscapeBytes (utf8 text.toList) = text.toList)
      (decoded : decodeSegment text.toList = some (utf8 text.toList)) :
      pathEscapeBytes (utf8 value.toList) = text.toList ↔ value = text := by
    constructor
    · intro escaped
      have back : decodeSegment (pathEscapeBytes (utf8 value.toList)) = some (utf8 value.toList) :=
        unescapeBytes_pathEscapeBytes _
      rw [escaped, decoded] at back
      exact String.toList_inj.mp (utf8_injective (Option.some_inj.mp back)).symm
    · rintro rfl
      exact plain
  have one := same "." (by decide) (by decide)
  have two := same ".." (by decide) (by decide)
  change _ = ['.'] ↔ _ at one
  change _ = ['.', '.'] ↔ _ at two
  unfold textDots
  rw [Ne, Ne, ← one, ← two]
  split
  · next here => simp [here]
  · next notHere =>
      split
      · next up => simp [up]
      · next notUp => simp [notHere, notUp]

/-- A value that is not empty is escaped to a text that is not. -/
theorem pathEscapeBytes_ne_nil {value : String} (filled : value ≠ "") :
    pathEscapeBytes (utf8 value.toList) ≠ [] := by
  intro empty
  have back : decodeSegment (pathEscapeBytes (utf8 value.toList)) = some (utf8 value.toList) :=
    unescapeBytes_pathEscapeBytes _
  rw [empty] at back
  have isEmpty : utf8 value.toList = utf8 "".toList := (Option.some_inj.mp back).symm
  exact filled (String.toList_inj.mp (utf8_injective isEmpty))

section Harmless

variable (value : String → String)

/-- A part is a dot segment exactly if it is a parameter with a value of dots. -/
theorem PathPart.textDots_symbolsText (part : PathPart) :
    textDots (symbolsText (part.symbols value)) = .none ↔
      ∀ name named, part = .param name named →
        value (.ofList name) ≠ "." ∧ value (.ofList name) ≠ ".." := by
  cases part with
  | literal text plain =>
      simp only [literalPart, Bool.and_eq_true, decide_eq_true_eq] at plain
      simp [PathPart.symbols, symbolsText_literals, plain.2]
  | param name named =>
      have isText : symbolsText ((PathPart.param name named).symbols value) =
          pathEscapeBytes (utf8 (value (.ofList name)).toList) := by
        simp [PathPart.symbols, symbolsText, Symbol.text]
      rw [isText, textDots_pathEscapeBytes]
      constructor
      · rintro own name' named' same
        cases same
        exact own
      · intro all
        exact all name named rfl

theorem leadingEmpty_cons_cons (first next : List Char) (rest : List (List Char)) :
    leadingEmpty (first :: next :: rest) = 0 ↔ first ≠ [] := by
  cases first with
  | nil => simp [leadingEmpty]
  | cons c first => simp [leadingEmpty]

/-- With a value for each parameter, no segment is empty that is not empty in the document. -/
theorem leadingEmpty_symbolsText {parts : List PathPart}
    (rooted : leadingEmpty (parts.map PathPart.text) = 0)
    (filled : ∀ name named, .param name named ∈ parts → value (.ofList name) ≠ "") :
    leadingEmpty (parts.map fun part => symbolsText (part.symbols value)) = 0 := by
  cases parts with
  | nil => rfl
  | cons first rest =>
      cases rest with
      | nil =>
          rw [List.map_singleton]
          cases symbolsText (first.symbols value) <;> rfl
      | cons next rest =>
          rw [List.map_cons, List.map_cons, leadingEmpty_cons_cons] at rooted ⊢
          cases first with
          | literal text plain => rwa [PathPart.symbols, symbolsText_literals]
          | param name named =>
              have own := pathEscapeBytes_ne_nil (filled name named List.mem_cons_self)
              simpa [PathPart.symbols, symbolsText, Symbol.text] using own

/-- Of a path that the gateway serves, only dots in a parameter do harm. -/
theorem harmless_pathSymbols {base : URL} {parts : List PathPart}
    (valid : validEncoded .path base.basePath = true)
    (rooted : leadingEmpty (parts.map PathPart.text) = 0)
    (filled : ∀ name named, .param name named ∈ parts → value (.ofList name) ≠ "") :
    harmless base (pathSymbols value parts) = true ↔
      ∀ name named, .param name named ∈ parts →
        value (.ofList name) ≠ "." ∧ value (.ofList name) ≠ ".." := by
  have given : sentAsGiven base (pathSymbols value parts) = true := by
    rw [sentAsGiven, valid, Bool.true_and]
    exact valid_pathSymbols value parts
  have trimmed : trimmedSegments (pathSymbols value parts) = 0 := by
    rw [trimmedSegments, templateSegments_pathSymbols, List.map_map]
    exact leadingEmpty_symbolsText value rooted filled
  rw [harmless, ownSegments_pathSymbols, Option.any_some, given, if_pos rfl, trimmed,
    templateSegments_pathSymbols]
  simp only [decide_true, Bool.and_true, List.all_map, List.all_eq_true, Function.comp_apply,
    decide_eq_true_eq]
  constructor
  · intro all name named member
    exact (PathPart.textDots_symbolsText value _).mp (all _ member) name named rfl
  · intro all part member
    refine (PathPart.textDots_symbolsText value part).mpr fun name named same => ?_
    exact all name named (same ▸ member)

end Harmless

end Restitch.Import
