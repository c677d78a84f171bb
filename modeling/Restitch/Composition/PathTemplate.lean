import Restitch.Composition.QueryTemplate

/-!
# Path templates

The values of a path are escaped one by one, and the path is then trimmed, put behind
the base URL and parsed. The segments of the URL are those of the base and of the
template with each value in its own segment, unless a value makes a dot segment or an
empty first one, or `net/url` decodes the path to encode it again.
-/

namespace Restitch.Composition

open Restitch.Expr Restitch.Http Restitch.Std

/-- A character of a literal, or a value. -/
inductive Symbol where
  | literal (c : Char)
  | value (bytes : List UInt8)
deriving DecidableEq

def Symbol.text : Symbol → List Char
  | .literal c => [c]
  | .value bytes => pathEscapeBytes bytes

/-- The text with the values escaped. -/
def symbolsText (symbols : List Symbol) : List Char := symbols.flatMap Symbol.text

section Eval

variable {Value Error Scope : Type} (operators : Operators Value Error Scope)
  (printer : Printer Value) (env : Env Value)

/-- A template with its values, before they are escaped. -/
def evalSymbols : List Segment → Except (EvalError Error) (List Symbol)
  | [] => .ok []
  | .literal text :: rest => do
      let later ← evalSymbols rest
      return text.toList.map .literal ++ later
  | .program expr node :: rest => do
      let value ← runProgram operators env expr node
      let later ← evalSymbols rest
      return .value (printer.bytes value) :: later

/-- The text of symbols is that of their parts. -/
theorem symbolsText_append (first second : List Symbol) :
    symbolsText (first ++ second) = symbolsText first ++ symbolsText second :=
  List.flatMap_append

/-- The text of literals is what they are. -/
theorem symbolsText_literals (text : List Char) : symbolsText (text.map .literal) = text := by
  rw [symbolsText, List.flatMap_map]
  exact List.flatMap_singleton' text

/-- `EvalString` escapes the values where they stand. -/
theorem evalSegments_path {segments : List Segment} {symbols : List Symbol}
    (evaluated : evalSymbols operators printer env segments = .ok symbols) :
    evalSegments operators printer env .path segments = .ok (.ofList (symbolsText symbols)) := by
  induction segments generalizing symbols with
  | nil =>
      cases evaluated
      rfl
  | cons segment rest ih =>
      cases segment with
      | literal text =>
          obtain ⟨later, isLater, done⟩ := Except.bind_eq_ok evaluated
          cases done
          rw [symbolsText_append, symbolsText_literals, evalSegments, ih isLater]
          simp [Segment.evalString, bind, Except.bind, pure, Except.pure, String.ofList_append]
      | program expr node =>
          obtain ⟨value, ran, evaluated⟩ := Except.bind_eq_ok evaluated
          obtain ⟨later, isLater, done⟩ := Except.bind_eq_ok evaluated
          cases done
          rw [evalSegments, ih isLater]
          simp [Segment.evalString, ran, escapeValue, symbolsText, Symbol.text, bind, Except.bind,
            pure, Except.pure, String.ofList_append]

end Eval

/-! ### Segments of a template -/

/-- The segments of a template: it is cut at the slashes of its literals. -/
def templateSegments (symbols : List Symbol) : List (List Symbol) :=
  (symbols.splitOn (.literal '/')).tail

/-- A segment of a template, decoded: literals by themselves, and the values as they are. -/
def decodeSymbols (literal : List Char) : List Symbol → Option (List UInt8)
  | [] => decodeSegment literal
  | .literal c :: rest => decodeSymbols (literal ++ [c]) rest
  | .value bytes :: rest => do
      let before ← decodeSegment literal
      let after ← decodeSymbols [] rest
      return before ++ bytes ++ after

/-- What the template says the segments are. -/
def ownSegments (symbols : List Symbol) : Option (List (List UInt8)) :=
  (templateSegments symbols).mapM (decodeSymbols [])

/-- The segments of a base path, without dots and decoded. -/
def baseSegments (base : URL) : Option (List (List UInt8)) :=
  (pushSegments textDots [] (segmentsOf base.basePath)).reverse.mapM decodeSegment

/-- The URL leads to the base path, followed by the segments of the template with every
value in its own, on the host of the base. -/
structure InjectionFree (base url : URL) (symbols : List Symbol) : Prop where
  scheme : url.scheme = base.scheme
  user : url.user = base.user
  host : url.host = base.host
  path : ∃ before own, baseSegments base = some before ∧ ownSegments symbols = some own ∧
    cleanSegments url.escapedPath = some (before ++ own)

/-! ### When this is so -/

/-- A character that may stand in a path as it is; values are escaped. -/
def Symbol.valid : Symbol → Bool
  | .literal c => validEncoded .path [c]
  | .value _ => true

/-- The path is sent as it is given, not decoded and encoded again. -/
def sentAsGiven (base : URL) (symbols : List Symbol) : Bool :=
  validEncoded .path base.basePath && symbols.all Symbol.valid

/-- The segments of a base path after it was decoded as a whole. -/
def recodedBase (base : URL) : Option (List (List UInt8)) :=
  (decodeSegment base.basePath).map fun bytes =>
    (pushSegments byteDots [] (bytes.splitOn 0x2f).tail).reverse

/-- The empty segments at the start that `strings.TrimLeft` removes. -/
def trimmedSegments (symbols : List Symbol) : Nat :=
  leadingEmpty ((templateSegments symbols).map symbolsText)

/-- Every literal decodes by itself. In a path that is sent as it is given, no segment is
a dot and none is trimmed; in one that is encoded again, no decoded segment is a dot or
has a slash, and the base path gains as many empty segments as are trimmed. -/
def harmless (base : URL) (symbols : List Symbol) : Bool :=
  (ownSegments symbols).any fun own =>
    if sentAsGiven base symbols then
      (templateSegments symbols).all (fun segment => textDots (symbolsText segment) = .none) &&
        trimmedSegments symbols = 0
    else
      own.all (fun segment => byteDots segment = .none && 0x2f ∉ segment) &&
        recodedBase base =
          (baseSegments base).map (· ++ List.replicate (trimmedSegments symbols) [])

/-! ### The segments of the text -/

/-- A text is decoded one part after the other. -/
theorem decodeSegment_append {first : List Char} {bytes : List UInt8}
    (decoded : decodeSegment first = some bytes) (second : List Char) :
    decodeSegment (first ++ second) = (decodeSegment second).map (bytes ++ ·) := by
  rw [decodeSegment, utf8, List.flatMap_append]
  exact unescapeBytes_append decoded (utf8 second)

/-- The text of a segment decodes to what the template says. -/
theorem decodeSegment_symbolsText {literal : List Char} {symbols : List Symbol}
    {bytes : List UInt8} (decoded : decodeSymbols literal symbols = some bytes) :
    decodeSegment (literal ++ symbolsText symbols) = some bytes := by
  induction symbols generalizing literal bytes with
  | nil =>
      rw [symbolsText, List.flatMap_nil, List.append_nil]
      exact decoded
  | cons symbol rest ih =>
      cases symbol with
      | literal c =>
          have later := ih decoded
          rwa [List.append_assoc] at later
      | value value =>
          obtain ⟨before, isBefore, decoded⟩ := Option.bind_eq_some_iff.mp decoded
          obtain ⟨after, isAfter, done⟩ := Option.bind_eq_some_iff.mp decoded
          cases done
          have isText : symbolsText (.value value :: rest) =
              pathEscapeBytes value ++ symbolsText rest := rfl
          have isValue : decodeSegment (pathEscapeBytes value) = some value :=
            unescapeBytes_pathEscapeBytes value
          have isRest : decodeSegment (symbolsText rest) = some after := ih isAfter
          rw [decodeSegment_append isBefore, isText, decodeSegment_append isValue, isRest]
          simp

/-- Values do not cut a path. -/
theorem splitOn_symbolsText (symbols : List Symbol) :
    (symbolsText symbols).splitOn '/' = (symbols.splitOn (.literal '/')).map symbolsText := by
  have slash : Symbol.text (.literal '/') = ['/'] := rfl
  refine splitOn_flatMap slash ?_ symbols
  intro symbol other member
  cases symbol with
  | literal c =>
      cases List.mem_singleton.mp member
      exact other rfl
  | value bytes => cases escapeAlphabet_of_mem_pathEscapeBytes member

/-- A path keeps what its segments keep. -/
theorem valid_of_isPathSegment {c : Char} (keeps : isPathSegment c = true) :
    (c ∈ ['!', '$', '&', '\'', '(', ')', '*', '+', ',', ';', '=', ':', '@', '[', ']', '%'] ||
      Encoding.path.keeps c) = true := by
  rw [isPathSegment, Bool.or_eq_true, decide_eq_true_eq] at keeps
  rw [Encoding.keeps]
  rcases keeps with unreserved | listed
  · rw [unreserved, Bool.true_or, Bool.or_true]
  · simp only [List.mem_cons, List.not_mem_nil, or_false] at listed
    rcases listed with rfl | rfl | rfl | rfl | rfl | rfl <;> rfl

/-- Escapes may stand in a path as they are. -/
theorem validEncoded_symbolsText (symbols : List Symbol) :
    validEncoded .path (symbolsText symbols) = symbols.all Symbol.valid := by
  induction symbols with
  | nil => rfl
  | cons symbol rest ih =>
      have isText : symbolsText (symbol :: rest) = symbol.text ++ symbolsText rest := rfl
      rw [isText, validEncoded_append, ih, List.all_cons]
      cases symbol with
      | literal c => rfl
      | value bytes =>
          have valid : validEncoded .path (pathEscapeBytes bytes) = true := by
            rw [validEncoded, List.all_eq_true]
            intro c member
            rcases mem_pathEscapeBytes member with keeps | rfl
            · exact valid_of_isPathSegment keeps
            · decide
          rw [Symbol.text, valid, Symbol.valid]

theorem templateSegments_cons (rest : List Symbol) :
    templateSegments (.literal '/' :: rest) = rest.splitOn (.literal '/') := by
  rw [templateSegments, List.splitOn_cons_eq_if_modifyHead, if_pos (by simp), List.tail_cons]

/-- The segments that the template decodes to are those of its text. -/
theorem decoded_of_ownSegments {rest : List Symbol} {own : List (List UInt8)}
    (isOwn : ownSegments (.literal '/' :: rest) = some own) :
    DecodesTo ((symbolsText rest).splitOn '/') own := by
  rw [ownSegments, templateSegments_cons] at isOwn
  rw [splitOn_symbolsText, DecodesTo, List.forall₂_map_left_iff]
  refine (mapM_eq_some_iff.mp isOwn).imp ?_
  intro segment part decoded
  exact decodeSegment_symbolsText decoded

/-- Empty segments are decoded as empty ones. -/
theorem decoded_replicate_append {count : Nat} {segments : List (List Char)}
    {own : List (List UInt8)} (isOwn : DecodesTo (List.replicate count [] ++ segments) own) :
    ∃ parts, own = List.replicate count [] ++ parts ∧ DecodesTo segments parts := by
  induction count generalizing own with
  | zero => exact ⟨own, rfl, isOwn⟩
  | succ count ih =>
      rw [List.replicate_succ, List.cons_append] at isOwn
      cases isOwn with
      | cons isEmpty later =>
          cases isEmpty
          obtain ⟨parts, rfl, pairs⟩ := ih later
          exact ⟨parts, rfl, pairs⟩

section Joined

variable {base url : URL} {rest : List Symbol}

/-- A base that can be decoded has segments. -/
theorem exists_baseSegments {bytes : List UInt8}
    (decoded : decodeSegment base.basePath = some bytes) : ∃ before, baseSegments base = some before := by
  obtain ⟨parts, pairs, -⟩ := decodeSegment_splitOn decoded
  refine exists_mapM_of_isSome fun segment member => ?_
  rcases mem_pushSegments (List.mem_reverse.mp member) with nothing | inPath
  · cases nothing
  · obtain ⟨part, isPart⟩ := exists_of_mem_forall₂ pairs (List.mem_of_mem_tail inPath)
    exact Option.isSome_of_eq_some isPart

/-- A joined path is sent as given exactly if it is encoded validly. -/
theorem validEncoded_join (base : URL) (rest : List Symbol) :
    validEncoded .path
        (base.basePath ++ '/' :: (symbolsText rest).dropWhile (· = '/')) =
      sentAsGiven base (.literal '/' :: rest) := by
  have slash : validEncoded .path ('/' :: (symbolsText rest).dropWhile (· = '/')) =
      validEncoded .path ((symbolsText rest).dropWhile (· = '/')) := rfl
  rw [validEncoded_append, slash, validEncoded_dropWhile, validEncoded_symbolsText, sentAsGiven]
  rfl

theorem trimmedSegments_cons (rest : List Symbol) :
    trimmedSegments (.literal '/' :: rest) = leadingEmpty ((symbolsText rest).splitOn '/') := by
  rw [trimmedSegments, templateSegments_cons, splitOn_symbolsText]

/-- A path that is sent as given is harmless exactly if it has no dot segment and nothing is
trimmed. -/
theorem harmless_iff_of_given {own : List (List UInt8)}
    (isOwn : ownSegments (.literal '/' :: rest) = some own)
    (given : sentAsGiven base (.literal '/' :: rest) = true) :
    harmless base (.literal '/' :: rest) = true ↔
      (∀ segment ∈ (symbolsText rest).splitOn '/', textDots segment = .none) ∧
        trimmedSegments (.literal '/' :: rest) = 0 := by
  rw [harmless, isOwn, Option.any_some, given, if_pos rfl, templateSegments_cons,
    splitOn_symbolsText]
  simp

/-- A path that is encoded again is harmless exactly if it has no dot segment, no encoded slash, and
nothing of the base is lost. -/
theorem harmless_iff_of_recoded {own before : List (List UInt8)} {bytes : List UInt8}
    (isOwn : ownSegments (.literal '/' :: rest) = some own)
    (recoded : sentAsGiven base (.literal '/' :: rest) = false)
    (isBefore : baseSegments base = some before)
    (isBytes : decodeSegment base.basePath = some bytes) :
    harmless base (.literal '/' :: rest) = true ↔
      (∀ segment ∈ own, byteDots segment = .none ∧ 0x2f ∉ segment) ∧
        (pushSegments byteDots [] (bytes.splitOn 0x2f).tail).reverse =
          before ++ List.replicate (trimmedSegments (.literal '/' :: rest)) [] := by
  rw [harmless, isOwn, Option.any_some, recoded, if_neg Bool.false_ne_true, isBefore, recodedBase,
    isBytes]
  simp

/-- The path behind the base leads where the template says, exactly if it is harmless. -/
theorem path_iff_harmless
    (absolute : (base.basePath ++ '/' :: (symbolsText rest).dropWhile (· = '/')).head? = some '/')
    (isPath : setEscaped .path (base.basePath ++ '/' :: (symbolsText rest).dropWhile (· = '/')) =
      some (url.path, url.rawPath)) :
    (∃ before own, baseSegments base = some before ∧
      ownSegments (.literal '/' :: rest) = some own ∧
      cleanSegments url.escapedPath = some (before ++ own)) ↔
    harmless base (.literal '/' :: rest) = true := by
  obtain ⟨baseBytes, pathBytes, isBaseBytes, isPathBytes, -⟩ :=
    decodeSegment_join (escapedPath_of_setEscaped isPath absolute).1
  obtain ⟨before, isBefore⟩ := exists_baseSegments isBaseBytes
  cases isOwn : ownSegments (.literal '/' :: rest) with
  | none => simp [harmless, isOwn]
  | some own =>
      have texts := splitOn_dropWhile (symbolsText rest)
      rw [← trimmedSegments_cons] at texts
      have decoded := decoded_of_ownSegments isOwn
      have nonempty : ((symbolsText rest).dropWhile (· = '/')).splitOn '/' ≠ [] :=
        List.splitOn_ne_nil _ _
      have only : (∃ before own', baseSegments base = some before ∧ some own = some own' ∧
          cleanSegments url.escapedPath = some (before ++ own')) ↔
          cleanSegments url.escapedPath = some (before ++ own) := by
        simp [isBefore]
      rw [only]
      cases given : sentAsGiven base (.literal '/' :: rest) with
      | true =>
          rw [cleanSegments_of_valid absolute isPath (validEncoded_join base rest ▸ given),
            harmless_iff_of_given isOwn given, texts]
          rw [texts] at decoded
          exact mapM_eq_some_iff.trans
            (removeDotSegments_text_iff nonempty (mapM_eq_some_iff.mp isBefore) decoded)
      | false =>
          rw [texts] at decoded
          obtain ⟨parts, rfl, pairs⟩ := decoded_replicate_append decoded
          obtain ⟨parts', pairs', rfl⟩ := decodeSegment_splitOn isPathBytes
          cases (mapM_eq_some_iff.mpr pairs).symm.trans (mapM_eq_some_iff.mpr pairs')
          have partsNonempty : parts ≠ [] := by
            rintro rfl
            exact nonempty (List.forall₂_nil_right_iff.mp pairs)
          rw [cleanSegments_of_invalid absolute isPath (validEncoded_join base rest ▸ given)
              isBaseBytes isPathBytes,
            harmless_iff_of_recoded isOwn given isBefore isBaseBytes, Option.some_inj]
          exact removeDotSegments_bytes_iff partsNonempty

end Joined

/-- An upstream URL that a configuration may have, without query and fragment, and with a
host to send to. -/
structure UpstreamBase (parseHost : List Char → Option (List Char)) where
  text : String
  url : URL
  parsed : parseURL parseHost text.toList = some url
  scheme : url.scheme = "http".toList ∨ url.scheme = "https".toList
  hasHost : url.host ≠ []
  plain : '?' ∉ text.toList ∧ '#' ∉ text.toList

/-- The base of an upstream has a scheme. -/
theorem UpstreamBase.scheme_ne_nil {parseHost : List Char → Option (List Char)}
    (base : UpstreamBase parseHost) : base.url.scheme ≠ [] := by
  rcases base.scheme with isScheme | isScheme <;> simp [isScheme]

/-- An escape has no characters that end a path. -/
theorem not_mem_symbolsText {special : Char} (escapes : escapeAlphabet special = false)
    {symbols : List Symbol} (absent : .literal special ∉ symbols) :
    special ∉ symbolsText symbols := by
  intro member
  obtain ⟨symbol, isSymbol, occurs⟩ := List.mem_flatMap.mp member
  cases symbol with
  | literal c =>
      cases List.mem_singleton.mp occurs
      exact absent isSymbol
  | value bytes =>
      rw [escapeAlphabet_of_mem_pathEscapeBytes occurs] at escapes
      cases escapes

/-- For every path template that starts with a slash and has no `?` and no `#` in its
literals, every upstream URL and all values: the URL of the request is that of the
upstream with the segments of the template and each value in its own, exactly if the
values are harmless in this template. -/
theorem injectionFree_iff_harmless {Value Error Scope : Type}
    (parseHost : List Char → Option (List Char)) (noHost : parseHost [] = some [])
    (operators : Operators Value Error Scope) (printer : Printer Value)
    (context : BuildContext Error) (env : Env Value) (base : UpstreamBase parseHost)
    (data : RequestData Value) (step : StepTemplates) (symbols : List Symbol)
    (request : StepRequest) (url : URL) (noQuery : step.queryPart = none)
    (evaluated : evalSymbols operators printer env step.pathPart.segments = .ok symbols)
    (absolute : symbols.head? = some (.literal '/'))
    (plain : .literal '?' ∉ symbols ∧ .literal '#' ∉ symbols)
    (built : buildStepRequest operators printer context env base.text data step = .ok request)
    (parsed : parseURL parseHost request.url.toList = some url) :
    InjectionFree base.url url symbols ↔ harmless base.url symbols = true := by
  obtain ⟨rest, rfl⟩ : ∃ rest, symbols = .literal '/' :: rest := by
    cases symbols with
    | nil => cases absolute
    | cons first rest =>
        cases absolute
        exact ⟨rest, rfl⟩
  obtain ⟨path, isPath, isURL⟩ := url_of_buildStepRequest built
  have isText : path.toList = '/' :: symbolsText rest := by
    obtain ⟨before, isBefore, done⟩ := Except.bind_eq_ok isPath
    simp only [noQuery] at done
    cases done
    have evaluatedPath := evalSegments_path operators printer env evaluated
    cases (eq_ok_of_wrapEval isBefore).symm.trans evaluatedPath
    exact String.toList_ofList
  have absent {special : Char} (escapes : escapeAlphabet special = false)
      (inSymbols : .literal special ∉ .literal '/' :: rest) :
      special ∉ (symbolsText rest).dropWhile (· = '/') := by
    intro member
    refine not_mem_symbolsText escapes ?_ ((List.dropWhile_sublist _).subset member)
    exact fun inRest => inSymbols (List.mem_cons_of_mem _ inRest)
  rw [isURL, fullURL, String.toList_ofList, isText, List.dropWhile_cons_of_pos (by simp)] at parsed
  obtain ⟨sameScheme, sameUser, sameHost, isAbsolute, isEscaped⟩ := parseURL_join noHost base.parsed
    base.scheme_ne_nil base.hasHost base.plain
    ⟨absent (by decide) plain.1, absent (by decide) plain.2⟩ parsed
  have pathIff := path_iff_harmless isAbsolute isEscaped
  constructor
  · intro free
    exact pathIff.mp free.path
  · intro safe
    exact ⟨sameScheme, sameUser, sameHost, pathIff.mpr safe⟩

/-! ### A value in a path -/

/-- `steps.user.body` -/
def userBodyOf : Node :=
  .member (.member (.identifier "steps") (.string "user") false) (.string "body") false

/-- The parser on one expression. -/
def memberCompiler : ExprCompiler where
  parse := fun expr =>
    if expr = "steps.user.body" then .ok userBodyOf else .error "unexpected token"
  check := fun _ _ => none
  optimize := id
  isBuiltin := fun _ => false

/-- A value between two literals. -/
def userOrders : Step := ordersOf "/users/\x7b\x7b steps.user.body \x7d\x7d/orders"

def compiledUserOrders : CompiledStep where
  step := userOrders
  templates :=
    ⟨"GET", ⟨"/users/\x7b\x7b steps.user.body \x7d\x7d/orders",
      [.literal "/users/", .program "steps.user.body" userBodyOf, .literal "/orders"],
      ["user"], false⟩, none, none, ∅⟩
  deps := ["user"]

def userOrdersSymbols (text : String) : List Symbol :=
  "/users/".toList.map .literal ++ .value (utf8 text.toList) :: "/orders".toList.map .literal

/-- A URL with nothing but a host and a path. -/
def plainURL (host path rawPath : String) : URL :=
  ⟨"http".toList, [], none, host.toList, utf8 path.toList, rawPath.toList, false, false, [], [], []⟩

def apiBase : UpstreamBase some where
  text := "http://api/v1/"
  url := plainURL "api" "/v1/" ""
  parsed := by decide +kernel
  scheme := .inl rfl
  hasHost := by decide
  plain := by decide

/-- A slash in a value stays in its segment. -/
theorem injectionFree_of_slash :
    compileStep memberCompiler ["user"] userOrders = .ok compiledUserOrders ∧
    buildStepRequest sampleOperators textPrinter plainContext (userEnv "a/b") apiBase.text noData
      compiledUserOrders.templates = .ok (requestWithOf "http://api/v1/users/a%2Fb/orders") ∧
    ∃ url, parseURL some "http://api/v1/users/a%2Fb/orders".toList = some url ∧
      InjectionFree apiBase.url url (userOrdersSymbols "a/b") := by
  have built : buildStepRequest sampleOperators textPrinter plainContext (userEnv "a/b")
      apiBase.text noData compiledUserOrders.templates =
        .ok (requestWithOf "http://api/v1/users/a%2Fb/orders") := rfl
  have parsed : parseURL some "http://api/v1/users/a%2Fb/orders".toList =
      some (plainURL "api" "/v1/users/a/b/orders" "/v1/users/a%2Fb/orders") := by decide +kernel
  refine ⟨rfl, built, _, parsed, ?_⟩
  exact (injectionFree_iff_harmless some rfl sampleOperators textPrinter plainContext
    (userEnv "a/b") apiBase noData compiledUserOrders.templates (userOrdersSymbols "a/b") _ _ rfl
    rfl rfl (by decide) built parsed).mpr (by decide +kernel)

/-- Two dots in a value climb out of it. -/
theorem not_injectionFree_of_dots :
    compileStep memberCompiler ["user"] userOrders = .ok compiledUserOrders ∧
    buildStepRequest sampleOperators textPrinter plainContext (userEnv "..") apiBase.text noData
      compiledUserOrders.templates = .ok (requestWithOf "http://api/v1/users/../orders") ∧
    ∃ url, parseURL some "http://api/v1/users/../orders".toList = some url ∧
      cleanSegments url.escapedPath = some [utf8 "v1".toList, utf8 "orders".toList] ∧
      ¬ InjectionFree apiBase.url url (userOrdersSymbols "..") := by
  have parsed : parseURL some "http://api/v1/users/../orders".toList =
      some (plainURL "api" "/v1/users/../orders" "") := by decide +kernel
  have clean : cleanSegments (plainURL "api" "/v1/users/../orders" "").escapedPath =
      some [utf8 "v1".toList, utf8 "orders".toList] := by decide +kernel
  have isOwn : ownSegments (userOrdersSymbols "..") =
      some [utf8 "users".toList, utf8 "..".toList, utf8 "orders".toList] := by decide +kernel
  refine ⟨rfl, rfl, _, parsed, clean, ?_⟩
  intro free
  obtain ⟨before, own, -, isOwn', clean'⟩ := free.path
  cases isOwn.symm.trans isOwn'
  have lengths := congrArg (Option.map List.length) (clean.symm.trans clean')
  simp at lengths

end Restitch.Composition
