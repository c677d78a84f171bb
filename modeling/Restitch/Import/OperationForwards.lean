import Restitch.Import.ImportedArtifact

/-!
# An imported operation forwards its requests

A request of an imported operation is sent to the same operation of the upstream: the route, with
the values that the multiplexer matched, is put behind the base URL, and the required query
parameters follow.
-/

namespace Restitch.Import

open Restitch.Composition Restitch.Expr Restitch.Http Restitch.Inbound Restitch.Std

/-! ### The call -/

section Call

variable {Value : Type} {library : JWTLibrary Value}
  {authenticator : Option (Authenticator library)} {arrival : Arrival} {request : HttpRequest}
  {context : Context Value} {call : CompositionCall Value}

/-- What a route passes on is the request and its own parameters. -/
theorem call_of_routeHandler {name : String} {comp : CompositionConfig}
    (served : routeHandler authenticator arrival name comp request context =
      .served (.composition call)) :
    call.request = request ∧ call.params = pathParams arrival comp.path request := by
  have checked := Ratelimit.limited_served served
  unfold checkedHandler at checked
  split at checked
  · cases checked
    exact ⟨rfl, rfl⟩
  split at checked
  · rw [Authenticator.middleware] at checked
    split at checked
    · cases checked
      exact ⟨rfl, rfl⟩
    split at checked
    · cases checked
      exact ⟨rfl, rfl⟩
    · cases checked
  · cases checked

end Call

/-! ### The parameters -/

section Params

variable {path : String} {parts : List PathPart} (isPath : path.toList = pathText PathPart.text parts)

/-- No part of a path has a slash. -/
theorem PathPart.slash_notMem_text (part : PathPart) : '/' ∉ part.text := by
  cases part with
  | literal text plain =>
      simp only [literalPart, Bool.and_eq_true, decide_eq_true_eq] at plain
      exact plain.1.1.2
  | param name named =>
      have all := List.all_eq_true.mp ((Bool.and_eq_true _ _).mp named).2
      simp only [PathPart.text, List.mem_cons, List.mem_append, List.not_mem_nil, or_false]
      rintro (opens | inName | closes)
      · cases opens
      · exact Bool.false_ne_true (all '/' inName)
      · cases closes

include isPath

/-- A path is cut into its parts. -/
theorem splitOn_of_parts : path.toList.splitOn '/' = [] :: parts.map PathPart.text := by
  have isFlat : pathText PathPart.text parts = (parts.map PathPart.text).flatMap ('/' :: ·) := by
    rw [pathText, List.flatMap_map]
  rw [isPath, isFlat, splitOn_flatMap_cons]
  intro segment member
  obtain ⟨part, -, rfl⟩ := List.mem_map.mp member
  exact part.slash_notMem_text

/-- A parameter of the path is one of the route. -/
theorem mem_paramNames {name : List Char} {named : isParamName name = true}
    (member : .param name named ∈ parts) : .ofList name ∈ paramNames path.toList := by
  have found : paramAt (name ++ ['}']) = some (.ofList name) := by
    obtain ⟨captures, matched, isName⟩ := matchFront_param named []
    rw [paramAt_eq_matchFront, matched, Option.map_some, isName]
  rw [paramNames_eq_flatMap_splitOn, splitOn_of_parts isPath, List.mem_flatMap]
  refine ⟨_, List.mem_cons_of_mem _ (List.mem_map_of_mem member), ?_⟩
  rw [PathPart.text, paramNames, if_pos rfl, found]
  exact List.mem_append_left _ List.mem_cons_self

variable {classes : CharClasses}

/-- The multiplexer reads the parts of the path. -/
theorem segments_of_handle (nonempty : parts ≠ []) {router : Router} {method : String}
    {pattern : Pattern} (isMethod : method ≠ "" ∧ method.toList.all isTokenChar = true)
    (registered : router.handle classes method path = some (router ++ [pattern])) :
    pattern.segments = routeSegments parts := by
  obtain ⟨rest, isRest⟩ : ∃ rest, path.toList = '/' :: rest := by
    obtain ⟨first, others, rfl⟩ := List.exists_cons_of_ne_nil nonempty
    rw [pathText_cons] at isPath
    exact ⟨_, isPath⟩
  have split := splitOn_of_parts isPath
  rw [isRest, List.splitOn_cons_eq_if_modifyHead, if_pos (by simp)] at split
  have parsed := parseParts_of_handle isMethod isRest registered
  rw [(List.cons.inj split).2] at parsed
  exact segments_of_parseParts parsed

end Params

/-- The wildcards of the route are the parameters of the path. -/
theorem mem_routeSegments {parts : List PathPart} {name : List Char} :
    .wild name ∈ routeSegments parts ↔ ∃ named, .param name named ∈ parts := by
  induction parts with
  | nil => simp [routeSegments]
  | cons part rest ih =>
      rw [routeSegments, List.mem_cons, ih]
      cases part with
      | literal text plain =>
          by_cases last : text = [] ∧ rest = []
          · simp [PathPart.text, last]
          · simp [PathPart.text, PathPart.segment, last]
      | param other named =>
          have notLast : ¬ ((PathPart.param other named).text = [] ∧ rest = []) := by
            simp [PathPart.text]
          rw [if_neg notLast]
          simp only [PathPart.segment, PathSegment.wild.injEq, List.mem_cons, PathPart.param.injEq]
          constructor
          · rintro (rfl | ⟨named, later⟩)
            · exact ⟨named, .inl rfl⟩
            · exact ⟨named, .inr later⟩
          · rintro ⟨named, same | later⟩
            · exact .inl same
            · exact .inr ⟨named, later⟩

/-- The wildcards of the route are the parameters of the path. -/
theorem mem_wildcards_of_parts {pattern : Pattern} {parts : List PathPart}
    (segments : pattern.segments = routeSegments parts) {name : List Char} :
    name ∈ pattern.wildcards ↔ ∃ named, .param name named ∈ parts := by
  rw [mem_wildcards_iff, segments, mem_routeSegments]
  constructor
  · rintro ⟨wild | multi, filled⟩
    · exact wild
    · -- the end of the path has no name
      exfalso
      clear segments
      induction parts with
      | nil => cases multi
      | cons part rest ih =>
          rw [routeSegments] at multi
          rcases List.mem_cons.mp multi with here | later
          · split at here
            · cases here
              exact filled rfl
            · cases part <;> cases here
          · exact ih later
  · rintro ⟨named, member⟩
    refine ⟨.inl ⟨named, member⟩, ?_⟩
    rintro rfl
    cases named

/-! ### The URL -/

section Sent

variable {parseHost : List Char → Option (List Char)}

/-- The request goes to the host of the base: to its path with these segments behind it, and with
this query. -/
structure SentOn (base url : URL) (path : List (List UInt8))
    (query : List (List UInt8 × List UInt8)) : Prop where
  scheme : url.scheme = base.scheme
  user : url.user = base.user
  host : url.host = base.host
  path : ∃ before, baseSegments base = some before ∧
    cleanSegments url.escapedPath = some (before ++ path)
  query : parseQuery url.rawQuery = query

/-- A text without a query is parsed to a URL without one. -/
theorem rawQuery_of_parsePrefix {text : List Char} {url : URL}
    (parsed : parsePrefix parseHost text = some url) : url.rawQuery = [] := by
  unfold parsePrefix at parsed
  split at parsed
  · cases parsed
  obtain ⟨⟨scheme, rest⟩, -, isHierarchy⟩ := Option.bind_eq_some_iff.mp parsed
  change parseHierarchy parseHost (scheme.map Char.toLower) ([], false) rest = some url
    at isHierarchy
  have same := parseHierarchy_query parseHost (scheme.map Char.toLower) ([], false) rest
  rw [isHierarchy, Option.map_some] at same
  exact congrArg URL.rawQuery (Option.some.inj same)

section Symbols

variable (base : UpstreamBase parseHost) {rest : List Symbol}
  (plain : .literal '?' ∉ Symbol.literal '/' :: rest ∧ .literal '#' ∉ Symbol.literal '/' :: rest)

/-- The path is joined to the base with one slash. -/
theorem toList_fullURL (text : String) (rest : List Symbol) :
    (fullURL text (.ofList (symbolsText (.literal '/' :: rest)))).toList =
      text.toList.rdropWhile (· = '/') ++ '/' :: (symbolsText rest).dropWhile (· = '/') := by
  have isText : symbolsText (.literal '/' :: rest) = '/' :: symbolsText rest := rfl
  rw [fullURL, String.toList_ofList, String.toList_ofList, isText,
    List.dropWhile_cons_of_pos (by simp)]

include plain

/-- The values bring no `?` and no `#`. -/
theorem notMem_symbolsText :
    '?' ∉ (symbolsText rest).dropWhile (· = '/') ∧
      '#' ∉ (symbolsText rest).dropWhile (· = '/') := by
  have absent {special : Char} (escapes : escapeAlphabet special = false)
      (inSymbols : .literal special ∉ .literal '/' :: rest) :
      special ∉ (symbolsText rest).dropWhile (· = '/') := by
    intro member
    refine not_mem_symbolsText escapes ?_ ((List.dropWhile_sublist _).subset member)
    exact fun inRest => inSymbols (List.mem_cons_of_mem _ inRest)
  exact ⟨absent (by decide) plain.1, absent (by decide) plain.2⟩

/-- The URL of such a path is its own prefix. -/
theorem parseURL_of_symbols :
    parseURL parseHost (fullURL base.text (.ofList (symbolsText (.literal '/' :: rest)))).toList =
      parsePrefix parseHost
        (fullURL base.text (.ofList (symbolsText (.literal '/' :: rest)))).toList := by
  have outside {special : Char} (slash : special ≠ '/') (inBase : special ∉ base.text.toList)
      (inPath : special ∉ (symbolsText rest).dropWhile (· = '/')) :
      special ∉ base.text.toList.rdropWhile (· = '/') ++
        '/' :: (symbolsText rest).dropWhile (· = '/') := by
    rw [List.mem_append, List.mem_cons, not_or, not_or]
    exact ⟨fun member => inBase ((List.rdropWhile_prefix _ _).subset member), slash, inPath⟩
  obtain ⟨noQuery, noFragment⟩ := notMem_symbolsText plain
  rw [toList_fullURL]
  apply parseURL_eq_parsePrefix
  · exact outside (by decide) base.plain.1 noQuery
  · exact outside (by decide) base.plain.2 noFragment
  · intro star
    have slash : '/' ∈ ['*'] := star ▸ List.mem_append_right _ List.mem_cons_self
    cases List.mem_singleton.mp slash

/-- A path that decodes and may be sent as it is given is parsed behind the base. -/
theorem exists_parsed (noHost : parseHost [] = some [])
    (valid : (Symbol.literal '/' :: rest).all Symbol.valid = true) {bytes : List UInt8}
    (decoded : decodeSegment (symbolsText (.literal '/' :: rest)) = some bytes) :
    ∃ url, parsePrefix parseHost
      (fullURL base.text (.ofList (symbolsText (.literal '/' :: rest)))).toList = some url := by
  have printable : containsCTL ((symbolsText rest).dropWhile (· = '/')) = false := by
    refine containsCTL_of_validEncoded ?_
    rw [validEncoded_dropWhile, validEncoded_symbolsText]
    exact valid
  obtain ⟨before, isBefore⟩ := exists_decoded_basePath noHost base.parsed base.scheme_ne_nil
    base.hasHost base.plain
  obtain ⟨later, isLater⟩ : ∃ later,
      decodeSegment ((symbolsText rest).dropWhile (· = '/')) = some later := by
    have own := exists_decoded_dropWhile decoded
    have isText : symbolsText (.literal '/' :: rest) = '/' :: symbolsText rest := rfl
    rwa [isText, List.dropWhile_cons_of_pos (by simp)] at own
  have joined : decodeSegment (base.url.basePath ++ '/' :: (symbolsText rest).dropWhile (· = '/')) =
      some (before ++ 0x2f :: later) := by
    rw [decodeSegment_append isBefore, decodeSegment_slash, isLater]
    rfl
  rw [← parseURL_of_symbols base plain, toList_fullURL, parseURL_join_eq noHost base.parsed
    base.scheme_ne_nil base.hasHost base.plain (notMem_symbolsText plain) printable, withPath,
    setEscaped]
  rw [decodeSegment] at joined
  rw [joined]
  exact ⟨_, rfl⟩

/-- With any query behind it, the URL is that of the base with the path of the template exactly
if the template is harmless. -/
theorem sentOn_iff_harmless (noHost : parseHost [] = some []) {own : List (List UInt8)}
    (isOwn : ownSegments (.literal '/' :: rest) = some own) {url : URL}
    (parsed : parsePrefix parseHost
      (fullURL base.text (.ofList (symbolsText (.literal '/' :: rest)))).toList = some url)
    {text : List Char} {query : List (List UInt8 × List UInt8)} (isQuery : parseQuery text = query) :
    SentOn base.url { url with rawQuery := text } own query ↔
      harmless base.url (.literal '/' :: rest) = true := by
  rw [← parseURL_of_symbols base plain, toList_fullURL] at parsed
  obtain ⟨scheme, user, host, isAbsolute, isEscaped⟩ := parseURL_join noHost base.parsed
    base.scheme_ne_nil base.hasHost base.plain (notMem_symbolsText plain) parsed
  have pathIff := path_iff_harmless isAbsolute isEscaped
  rw [← pathIff]
  constructor
  · intro sent
    obtain ⟨before, isBefore, clean⟩ := sent.path
    exact ⟨before, own, isBefore, isOwn, clean⟩
  · rintro ⟨before, other, isBefore, isOther, clean⟩
    cases isOwn.symm.trans isOther
    exact ⟨scheme, user, host, ⟨before, isBefore, clean⟩, isQuery⟩

end Symbols

end Sent

/-! ### The request -/

/-- The first value of a query parameter. -/
def firstQuery (request : HttpRequest) (name : String) : Option String :=
  (request.query.lookup name).bind List.head?

/-- The query of a request as far as the operation requires it. -/
def requiredPairs (request : HttpRequest) (names : List String) :
    List (List UInt8 × List UInt8) :=
  names.map fun name => (utf8 name.toList, utf8 ((firstQuery request name).getD "").toList)

/-- The literals of the path that is sent have no `?` and no `#`. -/
theorem literal_notMem_pathSymbols (value : String → String) (parts : List PathPart)
    {special : Char} (absent : special = '?' ∨ special = '#') :
    .literal special ∉ pathSymbols value parts := by
  intro member
  obtain ⟨segment, isSegment, inSegment⟩ := List.mem_flatMap.mp member
  obtain ⟨part, -, rfl⟩ := List.mem_map.mp isSegment
  rcases List.mem_cons.mp inSegment with isSlash | inPart
  · cases isSlash
    revert absent
    decide
  cases part with
  | literal text plain =>
      obtain ⟨c, inText, isSpecial⟩ := List.mem_map.mp inPart
      cases isSpecial
      simp only [literalPart, Bool.and_eq_true, validEncoded] at plain
      have valid := List.all_eq_true.mp plain.1.1.1 special inText
      rcases absent with rfl | rfl <;> revert valid <;> decide
  | param name named => cases List.mem_singleton.mp inPart

/-- The path that is sent starts with a slash. -/
theorem exists_rest_pathSymbols (value : String → String) {parts : List PathPart}
    (nonempty : parts ≠ []) : ∃ rest, pathSymbols value parts = .literal '/' :: rest := by
  obtain ⟨first, others, rfl⟩ := List.exists_cons_of_ne_nil nonempty
  rw [pathSymbols, List.map_cons, List.flatMap_cons, List.cons_append]
  exact ⟨_, rfl⟩

/-- `http.NewRequestWithContext` takes every method that is a token and every URL that parses. -/
def AcceptsParsed {Error : Type} (parseHost : List Char → Option (List Char))
    (context : BuildContext Error) : Prop :=
  ∀ method text, method ≠ "" → method.toList.all isTokenChar = true →
    (parseURL parseHost text.toList).isSome → context.newRequest method text = none

/-- The path that is sent starts no query and no fragment. -/
theorem plain_pathSymbols (value : String → String) {parts : List PathPart} {rest : List Symbol}
    (isRest : pathSymbols value parts = .literal '/' :: rest) :
    .literal '?' ∉ Symbol.literal '/' :: rest ∧ .literal '#' ∉ Symbol.literal '/' :: rest := by
  rw [← isRest]
  exact ⟨literal_notMem_pathSymbols value parts (.inl rfl),
    literal_notMem_pathSymbols value parts (.inr rfl)⟩

/-- The fields of required parameters parse as these with their first values. -/
theorem parseQuery_sentQuery_queryFields (request : HttpRequest) {names : List String}
    (named : ∀ name ∈ names, isParamName name.toList = true) (nonempty : names ≠ []) :
    parseQuery (sentQuery (queryFields names named) fun hole =>
        utf8 ((firstQuery request (.ofList (Hole.memberName "query".toList hole))).getD "").toList) =
      requiredPairs request names := by
  have someFields : queryFields names named ≠ [] := by
    simpa [queryFields] using nonempty
  rw [sentQuery, parseQuery_settings someFields, queryFields, List.map_pmap, requiredPairs]
  have own : ∀ name named, (utf8 (queryField name named).key, utf8 ((firstQuery request
      (.ofList (Hole.memberName "query".toList (queryField name named).slot))).getD "").toList) =
      (utf8 name.toList, utf8 ((firstQuery request name).getD "").toList) := by
    intro name named
    dsimp only [queryField]
    rw [memberName_memberHole, String.ofList_toList]
  simp only [own]
  exact List.pmap_eq_map _

/-- The URL of a path without a query has no query. -/
theorem parseURL_of_pathSymbols (target : UpstreamBase parseHost) (value : String → String)
    {parts : List PathPart} (nonempty : parts ≠ []) :
    parseURL parseHost (fullURL target.text
        (.ofList (symbolsText (pathSymbols value parts)))).toList =
      (parsePrefix parseHost (fullURL target.text
        (.ofList (symbolsText (pathSymbols value parts)))).toList).map
          (fun before => { before with rawQuery := [] }) := by
  obtain ⟨rest, isRest⟩ := exists_rest_pathSymbols value nonempty
  rw [isRest, parseURL_of_symbols target (plain_pathSymbols value isRest)]
  cases parsed : parsePrefix parseHost
      (fullURL target.text (.ofList (symbolsText (.literal '/' :: rest)))).toList with
  | none => rfl
  | some url => rw [Option.map_some, ← rawQuery_of_parsePrefix parsed]

section Request

variable {compiler : ExprCompiler} {placed : PlacedOperation} {parts : List PathPart}
  (importable : Importable compiler placed parts)

include importable

section Evaluates

variable {Value Error Scope : Type} {operators : Operators Value Error Scope}
  {printer : Printer Value} (unbound : operators.bound operators.start "req" = none)
  (prints : ∀ text, printer.bytes (operators.text text) = utf8 text.toList)
  (data : RequestData Value) (results : GoMap String (Option (StepResult Value)))

include unbound prints

/-- The holes of the path evaluate to the values of the parameters. -/
theorem Importable.evaluates_path {value : String → String}
    (params : ∀ name named, .param name named ∈ parts →
      data.params.lookup (.ofList name) = some (value (.ofList name))) :
    Evaluates operators printer (buildRequestEnv operators.toValues data results) compiler
      ["main"] (holesOf (pathPieces parts))
      fun hole => utf8 (value (.ofList (Hole.memberName "params".toList hole))).toList := by
  intro hole member expr node compiled
  obtain ⟨name, named, inParts, rfl, compiles, -⟩ := importable.compiles_path member
  cases compiled.symm.trans compiles
  refine ⟨_, runProgram_param unbound _ (params name named inParts), ?_⟩
  dsimp only
  rw [prints, paramHole, memberName_memberHole]

/-- The holes of the query evaluate to the values of the request. -/
theorem Importable.evaluates_query (value : String → String)
    (query : ∀ name ∈ placed.operation.requiredQuery,
      (data.query.lookup name).bind List.head? = some (value name)) :
    Evaluates operators printer (buildRequestEnv operators.toValues data results) compiler
      ["main"] ((queryFields placed.operation.requiredQuery importable.queryNamed).map
        QueryField.slot)
      fun hole => utf8 (value (.ofList (Hole.memberName "query".toList hole))).toList := by
  intro hole member expr node compiled
  obtain ⟨name, inNames, rfl, compiles, -⟩ := importable.compiles_query member
  cases compiled.symm.trans compiles
  refine ⟨_, runProgram_query unbound _ (query name inNames), ?_⟩
  dsimp only [queryField]
  rw [prints, memberName_memberHole, String.ofList_toList]

end Evaluates

section Built

variable {Value Error Scope : Type} {operators : Operators Value Error Scope}
  {printer : Printer Value} (unbound : operators.bound operators.start "req" = none)
  (prints : ∀ text, printer.bytes (operators.text text) = utf8 text.toList)
  {parseHost : List Char → Option (List Char)} (target : UpstreamBase parseHost)
  {context : BuildContext Error} {results : GoMap String (Option (StepResult Value))}
  {data : RequestData Value} {step : CompiledStep} {upstream : String} {sent : StepRequest}
  {url : URL}

include unbound prints

variable (results) in
/-- The part of the path before the query evaluates to the path of the parameters. -/
theorem Importable.evalString_pathPart {value : String → String}
    (params : ∀ name named, .param name named ∈ parts →
      data.params.lookup (.ofList name) = some (value (.ofList name)))
    (compiled : compileStep compiler ["main"] (placed.step upstream) = .ok step) :
    step.templates.pathPart.evalString operators printer
      (buildRequestEnv operators.toValues data results) .path =
        .ok (.ofList (symbolsText (pathSymbols value parts))) := by
  obtain ⟨_, same, -, -, isPathParsed, -⟩ := importable.exists_compiledStep upstream
  cases compiled.symm.trans same
  refine evalSegments_path operators printer _ ?_
  rw [parseSegments, String.toList_ofList, ← renderPieces_pathPieces] at isPathParsed
  have evaluated := evalSymbols_of_parseLiteral (textsPlain_pathPieces parts)
    (importable.evaluates_path unbound prints data results params) [] isPathParsed
  rw [evaluated, List.map_nil, List.nil_append, flatMap_pieceSymbols]

variable (context results) in
/-- The path evaluates to that of the parameters, with the required query behind it. -/
theorem Importable.exists_evalPath {request : HttpRequest} {value : String → String}
    (params : ∀ name named, .param name named ∈ parts →
      data.params.lookup (.ofList name) = some (value (.ofList name)))
    (query : ∀ name ∈ placed.operation.requiredQuery, firstQuery request name ≠ none)
    (isQuery : data.query = request.query)
    (compiled : compileStep compiler ["main"] (placed.step upstream) = .ok step) :
    ∃ path text, evalPath operators printer context
        (buildRequestEnv operators.toValues data results) step.templates = .ok path ∧
      parseURL parseHost (fullURL target.text path).toList =
        (parsePrefix parseHost (fullURL target.text
          (.ofList (symbolsText (pathSymbols value parts)))).toList).map
            (fun before => { before with rawQuery := text }) ∧
      parseQuery text = requiredPairs request placed.operation.requiredQuery := by
  obtain ⟨_, same, -, -, isPathParsed, noQuery, -, -⟩ := importable.exists_compiledStep upstream
  cases compiled.symm.trans same
  have evaluatedPath := importable.evalString_pathPart unbound prints results params compiled
  by_cases empty : placed.operation.requiredQuery = []
  · refine ⟨.ofList (symbolsText (pathSymbols value parts)), [], ?_, ?_, ?_⟩
    · rw [evalPath, evaluatedPath]
      simp only [noQuery empty]
      rfl
    · exact parseURL_of_pathSymbols target value importable.nonempty
    · rw [empty]
      rfl
  · have evaluates := importable.evaluates_query unbound prints data results
      (fun name => (firstQuery request name).getD "") (by
        intro name member
        obtain ⟨found, isFound⟩ := Option.ne_none_iff_exists'.mp (query name member)
        rw [isQuery, isFound, Option.getD_some]
        exact isFound)
    have nonempty : queryFields placed.operation.requiredQuery importable.queryNamed ≠ [] := by
      simpa [queryFields] using empty
    have noFragment : ∀ literal, .literal literal ∈ step.templates.pathPart.segments →
        '#' ∉ literal.toList := by
      intro literal member occurs
      rcases mem_of_mem_literal _ _ isPathParsed member occurs with none_ | inside
      · cases none_
      · rw [String.toList_ofList] at inside
        exact notMem_pathTemplate (.inr rfl) parts inside
    have isSource : (splitQuery (placed.step upstream).path).2.toList =
        querySource (queryFields placed.operation.requiredQuery importable.queryNamed) := by
      change (splitQuery placed.stepPath).2.toList = _
      rw [importable.splitQuery_stepPath, String.toList_ofList]
    have evaluated : evalPath operators printer context
        (buildRequestEnv operators.toValues data results) step.templates = _ :=
      evalPath_of_compileStep compiled nonempty isSource evaluates evaluatedPath
    obtain ⟨before, isBefore, isURL⟩ := parseURL_of_evalPath compiled nonempty isSource evaluates
      parseHost noFragment target.plain evaluated
    cases isBefore.symm.trans evaluatedPath
    exact ⟨_, _, evaluated, isURL,
      parseQuery_sentQuery_queryFields request importable.queryNamed empty⟩

variable (results) in
/-- The request is built, with the method of the operation and no body, and its URL is that of
the path of its parameters, with the required query behind it. -/
theorem Importable.exists_sent {request : HttpRequest} {value : String → String}
    (noHost : parseHost [] = some []) (accepts : AcceptsParsed parseHost context)
    (params : ∀ name named, .param name named ∈ parts →
      data.params.lookup (.ofList name) = some (value (.ofList name)))
    (query : ∀ name ∈ placed.operation.requiredQuery, firstQuery request name ≠ none)
    (isQuery : data.query = request.query)
    (compiled : compileStep compiler ["main"] (placed.step upstream) = .ok step) :
    ∃ sent before text, buildStepRequest operators printer context
        (buildRequestEnv operators.toValues data results) target.text data step.templates =
          .ok sent ∧
      sent.method = placed.method.toUpper ∧ sent.body = none ∧
      parsePrefix parseHost
        (fullURL target.text (.ofList (symbolsText (pathSymbols value parts)))).toList =
          some before ∧
      parseURL parseHost sent.url.toList = some { before with rawQuery := text } ∧
      parseQuery text = requiredPairs request placed.operation.requiredQuery := by
  obtain ⟨path, text, evaluated, isURL, pairs⟩ :=
    importable.exists_evalPath unbound prints target context results params query isQuery compiled
  obtain ⟨bytes, decoded⟩ := exists_decoded_pathSymbols value parts
  have valid := valid_pathSymbols value parts
  obtain ⟨rest, isRest⟩ := exists_rest_pathSymbols value importable.nonempty
  have plain := plain_pathSymbols value isRest
  rw [isRest] at isURL decoded valid ⊢
  obtain ⟨before, isPrefix⟩ := exists_parsed target plain noHost valid decoded
  rw [isPrefix, Option.map_some] at isURL
  obtain ⟨_, same, -, method, -, -, noBody, noHeaders⟩ := importable.exists_compiledStep upstream
  cases compiled.symm.trans same
  have accepted : context.newRequest step.templates.method (fullURL target.text path) = none := by
    rw [method]
    exact accepts _ _ importable.method.1 importable.method.2 (Option.isSome_of_eq_some isURL)
  have noEntries : (context.order step.templates.headers).val = [] := by
    have ranges := (context.order step.templates.headers).property
    rw [noHeaders] at ranges ⊢
    exact List.perm_nil.mp ranges
  refine ⟨⟨step.templates.method, fullURL target.text path,
    context.inject (propagateHeaders context.requestID data.headers ∅), none⟩, before, text, ?_,
    method, rfl, isPrefix, isURL, pairs⟩
  rw [buildStepRequest, evaluated]
  simp only [bind, Except.bind, evalBody, noBody, accepted, noEntries]
  rfl

end Built

end Request

/-- The URL of the upstream, without a variable and with a path that needs no other encoding. -/
structure ImportedBase (parseHost : List Char → Option (List Char)) (flags : ImportFlags)
    (doc : Document) extends UpstreamBase parseHost where
  isBase : text = base flags doc
  noVariable : '$' ∉ text.toList
  valid : validEncoded .path url.basePath = true

/-- An imported operation compiles to a plan of one wave, whatever order the maps are visited in,
and forwards the requests that reach it. Take any route that the multiplexer accepts for it, any
values that it matched for the wildcards, none of them empty, and any request with a value for
each required query parameter. A request is built with the method of the operation and no body,
and its URL is the base with the segments of the route, each wildcard in its own with the value
that was matched, and with the required query, exactly if no parameter of the path is a dot
segment. -/
theorem imported_operation_forwards {Value Error Scope : Type} (library : JWTLibrary Value)
    (parseHost : List Char → Option (List Char)) (noHost : parseHost [] = some [])
    (operators : Operators Value Error Scope) (printer : Printer Value)
    (unbound : operators.bound operators.start "req" = none)
    (prints : ∀ text, printer.bytes (operators.text text) = utf8 text.toList)
    (compiler : ExprCompiler) (checkSchema : Yaml → Option String)
    (ranges : (deps : StepDependencies) → RangeOrder deps) (flags : ImportFlags) (doc : Document)
    (target : ImportedBase parseHost flags doc) (placed : PlacedOperation) (parts : List PathPart)
    (importable : Importable compiler placed parts) :
    ∃ compiled step, compileComposition compiler checkSchema (placed.checked flags.upstream)
        ranges = some (.ok compiled) ∧
      compiled.plan.waves = [["main"]] ∧ compiled.steps.lookup "main" = some step ∧
      ∀ (classes : CharClasses) (router : Router) (pattern : Pattern)
        (matched : PatternMatch pattern) (authenticator : Option (Authenticator library))
        (arrival : Arrival) (request : HttpRequest) (inner : Context Value)
        (call : CompositionCall Value) (body : Value)
        (results : GoMap String (Option (StepResult Value))) (context : BuildContext Error),
        router.handle classes placed.method.toUpper placed.path = some (router ++ [pattern]) →
        routeHandler authenticator arrival placed.name (placed.checked flags.upstream) request
          inner = .served (.composition call) →
        arrival.pathValue request = matched.pathValue →
        (∀ name ∈ pattern.wildcards, matched.pathValue (.ofList name) ≠ "") →
        (∀ name ∈ placed.operation.requiredQuery, firstQuery request name ≠ none) →
        AcceptsParsed parseHost context →
        ∃ sent url, buildStepRequest operators printer context
            (buildRequestEnv operators.toValues (call.requestData body) results) (base flags doc)
            (call.requestData body) step.templates = .ok sent ∧
          parseURL parseHost sent.url.toList = some url ∧
          sent.method = placed.method.toUpper ∧ sent.body = none ∧
          (SentOn target.url url (pattern.segments.map (servedSegment matched))
              (requiredPairs request placed.operation.requiredQuery) ↔
            ∀ name ∈ pattern.wildcards, matched.pathValue (.ofList name) ≠ "." ∧
              matched.pathValue (.ofList name) ≠ "..") := by
  obtain ⟨compiled, step, isCompiled, waves, found, isStep⟩ :=
    importable.exists_compiled flags.upstream checkSchema ranges
  refine ⟨compiled, step, isCompiled, waves, found, ?_⟩
  intro classes router pattern matched authenticator arrival request inner call body results
    context registered served routed filled query accepts
  obtain ⟨isRequest, isParams⟩ := call_of_routeHandler served
  have segments := segments_of_handle importable.path importable.nonempty importable.method
    registered
  have wildcards {name : List Char} : name ∈ pattern.wildcards ↔
      ∃ named, .param name named ∈ parts := mem_wildcards_of_parts segments
  -- the parameters are the values that the multiplexer matched
  have params : ∀ name named, .param name named ∈ parts →
      (call.requestData body).params.lookup (.ofList name) =
        some (matched.pathValue (.ofList name)) := by
    intro name named member
    have isPath : (placed.checked flags.upstream).path = placed.path := rfl
    change call.params.lookup _ = _
    rw [isParams, isPath, lookup_pathParams, if_pos (mem_paramNames importable.path member), routed]
  rw [← target.isBase]
  obtain ⟨sent, before, text, built, method, noBody, isPrefix, parsed, isQuery⟩ :=
    importable.exists_sent unbound prints target.toUpstreamBase results noHost accepts params query
      (congrArg HttpRequest.query isRequest) isStep
  refine ⟨sent, _, built, parsed, method, noBody, ?_⟩
  obtain ⟨rest, isRest⟩ := exists_rest_pathSymbols matched.pathValue importable.nonempty
  have plain := plain_pathSymbols matched.pathValue isRest
  have own := ownSegments_pathSymbols matched.pathValue parts
  rw [isRest] at isPrefix own
  have given : ∀ name named, .param name named ∈ parts → matched.pathValue (.ofList name) ≠ "" :=
    fun name named member => filled name (wildcards.mpr ⟨named, member⟩)
  rw [segments, map_servedSegment,
    sentOn_iff_harmless target.toUpstreamBase plain noHost own isPrefix isQuery, ← isRest,
    harmless_pathSymbols matched.pathValue target.valid importable.rooted given]
  constructor
  · intro all name isWildcard
    obtain ⟨named, member⟩ := wildcards.mp isWildcard
    exact all name named member
  · intro all name named member
    exact all name (wildcards.mpr ⟨named, member⟩)

/-- `/users/{id}` -/
def userParts : List PathPart :=
  [.literal "users".toList (by decide), .param "id".toList (by decide)]

/-- The parser on the expressions of this operation. -/
def userCompiler : ExprCompiler where
  parse := fun expr =>
    if expr = "req.params.id" then .ok (memberNode "params" "id")
    else if expr = "req.query.of" then .ok (memberNode "query" "of")
    else if expr = "steps.main.body" then .ok resultNode
    else .error "unexpected token"
  check := fun _ _ => none
  optimize := id
  isBuiltin := fun _ => false

theorem importable_getUser : Importable userCompiler getUser userParts where
  path := by decide
  noVariable := by decide
  nonempty := by simp [userParts]
  rooted := by decide
  method := by
    change "GET".toUpper ≠ "" ∧ "GET".toUpper.toList.all isTokenChar = true
    rw [toUpper_get]
    decide
  queryNamed := by decide
  readsParams := by
    intro name named member
    simp only [userParts, List.mem_cons, PathPart.param.injEq, List.not_mem_nil, or_false,
      reduceCtorEq, false_or] at member
    subst member
    exact ⟨rfl, rfl, rfl⟩
  readsQuery := by
    intro name member
    cases List.mem_singleton.mp member
    exact ⟨rfl, rfl, rfl⟩
  readsBody := ⟨rfl, rfl, rfl⟩

/-- A library that knows no token. -/
def noTokens : JWTLibrary Sample where
  Keys := Unit
  keyfunc := fun _ => .error "unreachable"
  parse := fun _ _ _ _ => .error "token is malformed"

/-- An id with a slash in it. -/
def slashMatch : PatternMatch userPattern := ⟨["a/b"], by decide⟩

/-- A request with the key, and with a query value that looks like two. -/
def keyRequest : HttpRequest where
  method := "GET"
  path := "/users/a/b"
  query := AList.singleton "of" ["x&y"]
  header := .ofLines [("X-API-Key", "k1")]
  remoteIP := "10.0.0.1"
  body := .absent

def userCall : CompositionCall Sample where
  composition := "get-user"
  params := AList.singleton "id" "a/b"
  request := keyRequest
  context := .background

def compiledGetUser : CompiledStep where
  step := getUser.step "api"
  templates :=
    ⟨getUser.method.toUpper, ⟨"/users/\x7b\x7b req.params.id \x7d\x7d",
      [.literal "/users/", .program "req.params.id" (memberNode "params" "id")], [], false⟩,
      some ⟨"of=\x7b\x7b req.query.of \x7d\x7d",
        [.literal "of=", .program "req.query.of" (memberNode "query" "of")], [], false⟩, none, ∅⟩
  deps := []

/-- The request is sent to the user of that id. -/
theorem imported_operation_forwards_getUser :
    ∃ sent url, buildStepRequest sampleOperators textPrinter plainContext
        (buildRequestEnv sampleOperators.toValues (userCall.requestData .nil) ∅)
        (base apiFlags userDocument) (userCall.requestData .nil) compiledGetUser.templates =
          .ok sent ∧
      parseURL some sent.url.toList = some url ∧
      SentOn apiBase.url url (userPattern.segments.map (servedSegment slashMatch))
        (requiredPairs keyRequest ["of"]) := by
  have method : getUser.method.toUpper = "GET" := toUpper_get
  obtain ⟨compiled, step, isCompiled, -, found, forwards⟩ :=
    imported_operation_forwards noTokens some rfl sampleOperators textPrinter rfl (fun _ => rfl)
      userCompiler (fun _ => none) RangeOrder.listed apiFlags userDocument
      ⟨apiBase, rfl, by decide, by decide +kernel⟩ getUser userParts importable_getUser
  have isStep : compileStep userCompiler ["main"] (getUser.step "api") = .ok compiledGetUser := by
    rfl
  have same : step = compiledGetUser := by
    have steps := (compileComposition_cases isCompiled).1
    change compileSteps userCompiler ["main"] [getUser.step "api"] = _ at steps
    rw [compileSteps, List.foldlM_cons, isStep] at steps
    rw [← Except.ok.inj steps] at found
    exact (Option.some.inj found).symm
  subst same
  rw [method] at forwards
  obtain ⟨sent, url, built, parsed, -, -, isSent⟩ := forwards asciiClasses [] userPattern slashMatch
    (some ⟨["k1"], none⟩) (arrivalOf slashMatch) keyRequest .background userCall .nil ∅ plainContext
    (by decide +kernel) rfl rfl (by decide +kernel) (by decide) fun _ _ _ _ _ => rfl
  exact ⟨sent, url, built, parsed, isSent.mpr (by decide +kernel)⟩

end Restitch.Import
