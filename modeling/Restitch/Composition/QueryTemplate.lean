import Restitch.Composition.BodyTemplate
import Restitch.Http.UrlJoin

/-!
# Query templates

The query of a step is cut off before its templates are compiled, and the two are put
together again around a `?`. No value reaches over a separator: the query parses into
the keys and the values, and what stands before it stays as it was.
-/

namespace Restitch.Composition

open Restitch.Expr Restitch.Http Restitch.Std

/-- The characters that the escapes of a path or of a query leave behind. -/
def escapeAlphabet (c : Char) : Bool := c = '%' || isPathSegment c

/-- An escaped path segment is in the alphabet of escapes. -/
theorem escapeAlphabet_of_mem_pathEscapeBytes {c : Char} {bytes : List UInt8}
    (member : c ∈ pathEscapeBytes bytes) : escapeAlphabet c = true := by
  rcases mem_pathEscapeBytes member with keeps | rfl
  · rw [escapeAlphabet, keeps, Bool.or_true]
  · rfl

/-- An escaped query value is in the alphabet of escapes. -/
theorem escapeAlphabet_of_mem_queryEscapeBytes {c : Char} {bytes : List UInt8}
    (member : c ∈ queryEscapeBytes bytes) : escapeAlphabet c = true := by
  rcases mem_queryEscapeBytes member with rfl | rfl | unreserved
  · rfl
  · rfl
  · rw [escapeAlphabet, isPathSegment, unreserved, Bool.true_or, Bool.or_true]

section Characters

variable {compiler : ExprCompiler} {stepNames : List String}

/-- The segment of literal text is that text. -/
theorem eq_of_mem_literalSegment {literal : String} {text : List Char}
    (member : .literal literal ∈ literalSegment text) : literal.toList = text := by
  unfold literalSegment at member
  split at member
  · cases member
  · cases List.mem_singleton.mp member
    exact String.toList_ofList

/-- The literals of a template are made of its characters. -/
theorem mem_of_mem_literal {raw : String} (text chars : List Char) {segments : List Segment}
    (parsed : parseLiteral compiler stepNames raw text chars = .ok segments) {literal : String}
    (member : .literal literal ∈ segments) {c : Char} (occurs : c ∈ literal.toList) :
    c ∈ text ∨ c ∈ chars := by
  revert segments
  refine parseLiteral.induct
    (fun text chars => ∀ {segments}, parseLiteral compiler stepNames raw text chars = .ok segments →
      .literal literal ∈ segments → c ∈ text ∨ c ∈ chars)
    (fun text chars => ∀ {segments},
      parseExpression compiler stepNames raw text chars = .ok segments →
      .literal literal ∈ segments → c ∈ chars)
    ?_ ?_ ?_ ?_ ?_ ?_ text chars
  · intro text rest ih segments parsed member
    obtain ⟨later, isLater, rfl⟩ := parseLiteral_open_iff.mp parsed
    rcases List.mem_append.mp member with first | behind
    · exact .inl (eq_of_mem_literalSegment first ▸ occurs)
    · exact .inr (List.mem_cons_of_mem _ (List.mem_cons_of_mem _ (ih isLater behind)))
  · intro text first rest single ih segments parsed member
    rw [parseLiteral.eq_2 _ _ _ _ _ _ single] at parsed
    have found := ih parsed member
    simp only [List.mem_append, List.mem_cons] at found ⊢
    tauto
  · intro text segments parsed member
    cases parsed
    exact .inl (eq_of_mem_literalSegment member ▸ occurs)
  · intro text rest ih segments parsed member
    obtain ⟨segment, later, isSegment, isLater, rfl⟩ := parseExpression_close_iff.mp parsed
    obtain ⟨expr, node, rfl⟩ := program_of_compileExpression isSegment
    rcases List.mem_cons.mp member with isLiteral | behind
    · cases isLiteral
    · have found := ih isLater behind
      simp only [List.not_mem_nil, false_or] at found
      exact List.mem_cons_of_mem _ (List.mem_cons_of_mem _ found)
  · intro text first rest single ih segments parsed member
    rw [parseExpression.eq_2 _ _ _ _ _ _ single] at parsed
    exact List.mem_cons_of_mem _ (ih parsed member)
  · intro text segments parsed
    cases parsed

variable {Value Error Scope : Type} {operators : Operators Value Error Scope}
  {printer : Printer Value} {env : Env Value}

/-- A character of an evaluated path or query is one of a literal or of an escape. -/
theorem mem_evalSegments {mode : EscapeMode} (escapes : mode = .path ∨ mode = .query)
    {segments : List Segment} {text : String}
    (evaluated : evalSegments operators printer env mode segments = .ok text) {c : Char}
    (occurs : c ∈ text.toList) :
    escapeAlphabet c = true ∨ ∃ literal, .literal literal ∈ segments ∧ c ∈ literal.toList := by
  induction segments generalizing text with
  | nil =>
      cases evaluated
      cases occurs
  | cons segment rest ih =>
      obtain ⟨first, isFirst, evaluated⟩ := Except.bind_eq_ok evaluated
      obtain ⟨later, isLater, done⟩ := Except.bind_eq_ok evaluated
      cases done
      rw [String.toList_append, List.mem_append] at occurs
      rcases occurs with here | behind
      · cases segment with
        | literal literal =>
            cases isFirst
            exact .inr ⟨first, List.mem_cons_self, here⟩
        | program expr node =>
            obtain ⟨value, -, escaped⟩ := Except.bind_eq_ok isFirst
            refine .inl ?_
            rcases escapes with rfl | rfl
            · cases escaped
              rw [String.toList_ofList] at here
              exact escapeAlphabet_of_mem_pathEscapeBytes here
            · cases escaped
              rw [String.toList_ofList] at here
              exact escapeAlphabet_of_mem_queryEscapeBytes here
      · rcases ih isLater behind with inEscape | ⟨literal, member, inside⟩
        · exact .inl inEscape
        · exact .inr ⟨literal, List.mem_cons_of_mem _ member, inside⟩

end Characters

/-! ### The text of a query -/

/-- `key={{ expr }}`, with a key that needs no escapes. -/
structure QueryField where
  key : List Char
  slot : Hole
  named : key ≠ []
  unreserved : key.all isUnreserved = true

def QueryField.pieces (field : QueryField) : List TemplatePiece :=
  [.text (field.key ++ ['=']), .hole field.slot]

/-- The field with a text in its hole. -/
def QueryField.setting (fill : Hole → List Char) (field : QueryField) : List Char :=
  field.key ++ '=' :: fill field.slot

/-- The fields with `&` between them. -/
def queryPieces (fields : List QueryField) : List TemplatePiece :=
  [.text ['&']].intercalate (fields.map QueryField.pieces)

/-- The query as it is configured. -/
def querySource (fields : List QueryField) : List Char :=
  renderPieces Hole.source (queryPieces fields)

theorem queryPieces_cons (field next : QueryField) (rest : List QueryField) :
    queryPieces (field :: next :: rest) =
      field.pieces ++ .text ['&'] :: queryPieces (next :: rest) := by
  simp [queryPieces, List.intercalate_cons_cons]

/-- The pieces of a query render as its settings. -/
theorem renderPieces_queryPieces (fill : Hole → List Char) (fields : List QueryField) :
    renderPieces fill (queryPieces fields) =
      ['&'].intercalate (fields.map (QueryField.setting fill)) := by
  induction fields with
  | nil => rfl
  | cons field rest ih =>
      cases rest with
      | nil => simp [queryPieces, QueryField.pieces, QueryField.setting]
      | cons next rest =>
          rw [queryPieces_cons, renderPieces_append, renderPieces_text, ih]
          simp [QueryField.pieces, QueryField.setting, List.intercalate_cons_cons]

/-- The holes of a query are those of its fields. -/
theorem holesOf_queryPieces (fields : List QueryField) :
    holesOf (queryPieces fields) = fields.map QueryField.slot := by
  induction fields with
  | nil => rfl
  | cons field rest ih =>
      cases rest with
      | nil => rfl
      | cons next rest =>
          rw [queryPieces_cons, holesOf_append, holesOf_text, ih]
          rfl

/-- A text without a character has no pair of it. -/
theorem pairFree_of_not_mem {c : Char} {chars : List Char} (absent : c ∉ chars)
    (next : List Char) : pairFree c (chars ++ next.take 1) = true := by
  induction chars with
  | nil => cases next <;> rfl
  | cons first rest ih =>
      have later := ih fun member => absent (List.mem_cons_of_mem first member)
      have different : first ≠ c := fun same => absent (same ▸ List.mem_cons_self)
      cases hrest : rest ++ next.take 1 with
      | nil => rw [List.cons_append, hrest]; rfl
      | cons second tail =>
          rw [List.cons_append, hrest, pairFree, ← hrest, later]
          simp [different]

/-- A text without braces is plain, whatever follows it. -/
theorem textsPlain_of_not_mem {chars : List Char} (absent : '{' ∉ chars)
    (rest : List TemplatePiece) : textsPlain (.text chars :: rest) = textsPlain rest := by
  rw [textsPlain, pairFree_of_not_mem absent, Bool.true_and]

/-- A key has none of the characters that need an escape. -/
theorem QueryField.not_mem_key (field : QueryField) {c : Char} (reserved : isUnreserved c = false) :
    c ∉ field.key := by
  intro member
  have unreserved := List.all_eq_true.mp field.unreserved c member
  rw [reserved] at unreserved
  cases unreserved

/-- The texts between the holes of a query open no hole. -/
theorem textsPlain_queryPieces (fields : List QueryField) :
    textsPlain (queryPieces fields) = true := by
  have plain (field : QueryField) (rest : List TemplatePiece) :
      textsPlain (field.pieces ++ rest) = textsPlain rest := by
    refine (textsPlain_of_not_mem ?_ _).trans rfl
    rw [List.mem_append, not_or]
    exact ⟨field.not_mem_key (by decide), by decide⟩
  induction fields with
  | nil => rfl
  | cons field rest ih =>
      cases rest with
      | nil => exact plain field []
      | cons next rest =>
          rw [queryPieces_cons, plain, textsPlain_of_not_mem (by decide), ih]

/-- A key is its own escape. -/
theorem QueryField.queryUnescape_key (field : QueryField) :
    queryUnescape field.key = some (utf8 field.key) := by
  have read := queryUnescape_queryEscapeBytes (utf8 field.key)
  rwa [queryEscapeBytes_unreserved field.unreserved] at read

/-- A field reads back as its key and the value that was escaped. -/
theorem QueryField.parsePair_setting (field : QueryField) (values : Hole → List UInt8) :
    parsePair (field.setting fun slot => queryEscapeBytes (values slot)) =
      some (utf8 field.key, values field.slot) := by
  have noSemicolon : ';' ∉ field.setting fun slot => queryEscapeBytes (values slot) := by
    simp only [QueryField.setting, List.mem_append, List.mem_cons, not_or]
    exact ⟨field.not_mem_key (by decide), by decide, not_mem_queryEscapeBytes (by decide) _⟩
  have nonempty : (field.setting fun slot => queryEscapeBytes (values slot)) ≠ [] := by
    simp [QueryField.setting]
  have isCut : GoStrings.cut '=' (field.key ++ '=' :: queryEscapeBytes (values field.slot)) = _ :=
    GoStrings.cut_append (field.not_mem_key (by decide))
  rw [parsePair, if_neg (by simp [noSemicolon, nonempty])]
  rw [QueryField.setting, isCut]
  simp [field.queryUnescape_key, queryUnescape_queryEscapeBytes]

/-- A query reads back as its keys and the values that were escaped. -/
theorem parseQuery_settings {fields : List QueryField} (nonempty : fields ≠ [])
    (values : Hole → List UInt8) :
    parseQuery (['&'].intercalate
        (fields.map (QueryField.setting fun slot => queryEscapeBytes (values slot)))) =
      fields.map fun field => (utf8 field.key, values field.slot) := by
  have separate : ∀ setting ∈ fields.map
      (QueryField.setting fun slot => queryEscapeBytes (values slot)), '&' ∉ setting := by
    intro setting member
    obtain ⟨field, -, rfl⟩ := List.mem_map.mp member
    simp only [QueryField.setting, List.mem_append, List.mem_cons, not_or]
    exact ⟨field.not_mem_key (by decide), by decide, not_mem_queryEscapeBytes (by decide) _⟩
  rw [parseQuery, List.splitOn_intercalate _ separate (by simpa using nonempty)]
  rw [List.filterMap_map]
  rw [← List.filterMap_eq_map']
  exact List.filterMap_congr fun field _ => field.parsePair_setting values

/-! ### The URL of a request -/

section Request

variable {Value Error Scope : Type} {operators : Operators Value Error Scope}
  {printer : Printer Value} {context : BuildContext Error} {env : Env Value}
  {compiler : ExprCompiler} {stepNames : List String}

/-- The URL of a request is the base with the path that was evaluated. -/
theorem url_of_buildStepRequest {baseURL : String} {data : RequestData Value}
    {step : StepTemplates} {request : StepRequest}
    (built : buildStepRequest operators printer context env baseURL data step = .ok request) :
    ∃ path, evalPath operators printer context env step = .ok path ∧
      request.url = fullURL baseURL path := by
  obtain ⟨path, isPath, built⟩ := Except.bind_eq_ok built
  obtain ⟨body, -, built⟩ := Except.bind_eq_ok built
  refine ⟨path, isPath, ?_⟩
  split at built
  · cases built
  · obtain ⟨header, -, done⟩ := Except.bind_eq_ok built
    cases done
    rfl

/-- What is wrapped and succeeds has succeeded. -/
theorem eq_ok_of_wrapEval {α : Type} {error : BuildError} {result : Except (EvalError Error) α}
    {value : α} (wrapped : wrapEval context error result = .ok value) : result = .ok value := by
  cases result with
  | error cause => cases wrapped
  | ok found =>
      cases wrapped
      rfl

/-- The path comes first, whatever the query is. -/
theorem evalPath_query {step : StepTemplates} {query : Template} {path : String}
    (hasQuery : step.queryPart = some query)
    (evaluated : evalPath operators printer context env step = .ok path) :
    ∃ before text, step.pathPart.evalString operators printer env .path = .ok before ∧
      query.evalString operators printer env .query = .ok text ∧
      path.toList = before.toList ++ '?' :: text.toList := by
  obtain ⟨before, isBefore, evaluated⟩ := Except.bind_eq_ok evaluated
  simp only [hasQuery] at evaluated
  obtain ⟨text, isText, done⟩ := Except.bind_eq_ok evaluated
  cases done
  exact ⟨before, text, eq_ok_of_wrapEval isBefore, eq_ok_of_wrapEval isText, by simp⟩

/-- The query stays behind the path when the base is put before it. -/
theorem fullURL_query (base : String) {path before : String} {query : List Char}
    (isPath : path.toList = before.toList ++ '?' :: query) :
    (fullURL base path).toList = (fullURL base before).toList ++ '?' :: query := by
  simp only [fullURL, String.toList_ofList, isPath]
  rw [dropWhile_append_stop (by decide)]
  simp

/-- The parts that `compileStep` compiles of a path with a query. -/
theorem templates_of_compileStep {step : Step} {compiled : CompiledStep}
    (done : compileStep compiler stepNames step = .ok compiled)
    (hasQuery : (splitQuery step.path).2 ≠ "") :
    parseSegments compiler stepNames (splitQuery step.path).1 =
        .ok compiled.templates.pathPart.segments ∧
      ∃ query, compiled.templates.queryPart = some query ∧
        parseSegments compiler stepNames (splitQuery step.path).2 = .ok query.segments := by
  obtain ⟨pathPart, isPath, done⟩ := Except.bind_eq_ok done
  obtain ⟨queryPart, isQuery, done⟩ := Except.bind_eq_ok done
  obtain ⟨bodyTmpl, -, done⟩ := Except.bind_eq_ok done
  obtain ⟨headers, -, done⟩ := Except.bind_eq_ok done
  cases done
  obtain ⟨query, isSome, isCompiled⟩ := exists_of_compileOptional hasQuery isQuery
  exact ⟨parseSegments_of_compileAt isPath, query, isSome,
    parseSegments_of_compileTemplate isCompiled⟩

/-- The holes evaluate to these bytes. -/
def Evaluates (operators : Operators Value Error Scope) (printer : Printer Value)
    (env : Env Value) (compiler : ExprCompiler) (stepNames : List String)
    (holes : List Hole) (values : Hole → List UInt8) : Prop :=
  ∀ hole ∈ holes, ∀ expr node,
    compileExpression compiler stepNames hole.expr = .ok (.program expr node) →
    ∃ value, runProgram operators env expr node = .ok value ∧ printer.bytes value = values hole

/-- Holes that evaluate are filled with their escaped values. -/
theorem fills_of_evaluates {holes : List Hole} {values : Hole → List UInt8}
    (evaluates : Evaluates operators printer env compiler stepNames holes values) :
    Fills operators printer env compiler stepNames .query
      (fun hole => queryEscapeBytes (values hole)) holes := by
  intro hole member segment compiled
  obtain ⟨expr, node, rfl⟩ := program_of_compileExpression compiled
  obtain ⟨value, ran, isBytes⟩ := evaluates hole member expr node compiled
  simp only [Segment.evalString, ran, escapeValue, bind, Except.bind, isBytes]

/-- The query that is sent for these values. -/
def sentQuery (fields : List QueryField) (values : Hole → List UInt8) : List Char :=
  ['&'].intercalate (fields.map (QueryField.setting fun slot => queryEscapeBytes (values slot)))

theorem sentQuery_cons_cons (field next : QueryField) (rest : List QueryField)
    (values : Hole → List UInt8) :
    sentQuery (field :: next :: rest) values =
      field.setting (fun slot => queryEscapeBytes (values slot)) ++
        '&' :: sentQuery (next :: rest) values := by
  simp [sentQuery, List.intercalate_cons_cons]

/-- A query with a field is not empty. -/
theorem sentQuery_ne_nil {fields : List QueryField} (nonempty : fields ≠ [])
    (values : Hole → List UInt8) : sentQuery fields values ≠ [] := by
  cases fields with
  | nil => exact absurd rfl nonempty
  | cons field rest =>
      cases rest with
      | nil => simp [sentQuery, QueryField.setting]
      | cons next rest => simp [sentQuery_cons_cons, QueryField.setting]

/-- A setting is in the alphabet of escapes. -/
theorem mem_setting {field : QueryField} {values : Hole → List UInt8} {c : Char}
    (member : c ∈ field.setting fun slot => queryEscapeBytes (values slot)) :
    escapeAlphabet c = true := by
  rw [QueryField.setting, List.mem_append, List.mem_cons] at member
  rcases member with inKey | rfl | inValue
  · have unreserved := List.all_eq_true.mp field.unreserved c inKey
    simp [escapeAlphabet, isPathSegment, unreserved]
  · decide
  · exact escapeAlphabet_of_mem_queryEscapeBytes inValue

/-- Everything in a query that is sent is unreserved, an escape or a separator. -/
theorem mem_sentQuery {fields : List QueryField} {values : Hole → List UInt8} {c : Char}
    (member : c ∈ sentQuery fields values) : escapeAlphabet c = true := by
  induction fields with
  | nil => cases member
  | cons field rest ih =>
      cases rest with
      | nil =>
          rw [sentQuery, List.map_singleton, List.intercalate_singleton] at member
          exact mem_setting member
      | cons next rest =>
          rw [sentQuery_cons_cons, List.mem_append, List.mem_cons] at member
          rcases member with first | rfl | later
          · exact mem_setting first
          · decide
          · exact ih later

/-- A query has no control character. -/
theorem containsCTL_sentQuery (fields : List QueryField) (values : Hole → List UInt8) :
    containsCTL (sentQuery fields values) = false := by
  rw [containsCTL, List.any_eq_false]
  intro c member control
  have printable : ∀ n < 128, escapeAlphabet (Char.ofNat n) = true → ¬ (n < 0x20 ∨ n = 0x7f) := by
    decide +kernel
  simp only [Bool.or_eq_true, decide_eq_true_eq] at control
  have here := printable c.toNat (by omega)
  rw [Char.ofNat_toNat] at here
  exact here (mem_sentQuery member) control

/-- A path before a query has no `?`, and no `#` that is not a literal. -/
theorem not_mem_fullURL {baseURL before : String} {segments : List Segment} {special : Char}
    (escapes : escapeAlphabet special = false) (slash : special ≠ '/')
    (absentBase : special ∉ baseURL.toList)
    (absent : ∀ literal, .literal literal ∈ segments → special ∉ literal.toList)
    (evaluated : evalSegments operators printer env .path segments = .ok before) :
    special ∉ (fullURL baseURL before).toList := by
  rw [fullURL, String.toList_ofList, List.mem_append, List.mem_cons, not_or, not_or]
  refine ⟨fun member => absentBase ((List.rdropWhile_prefix _ _).subset member), slash, ?_⟩
  intro member
  have occurs := (List.dropWhile_sublist _).subset member
  rcases mem_evalSegments (.inl rfl) evaluated occurs with inEscape | ⟨literal, isLiteral, inside⟩
  · rw [escapes] at inEscape
    cases inEscape
  · exact absent literal isLiteral inside

section Sent

variable {step : Step} {compiled : CompiledStep} {fields : List QueryField}
  {values : Hole → List UInt8} (done : compileStep compiler stepNames step = .ok compiled)
  (nonempty : fields ≠ []) (isQuery : (splitQuery step.path).2.toList = querySource fields)
  (evaluates : Evaluates operators printer env compiler stepNames (fields.map QueryField.slot)
    values)

include done nonempty isQuery evaluates

/-- The query of a step is filled with its values, and its path has no `?` of its own. -/
theorem exists_query_of_compileStep :
    ∃ query, compiled.templates.queryPart = some query ∧
      query.evalString operators printer env .query = .ok (.ofList (sentQuery fields values)) ∧
      ∀ literal, .literal literal ∈ compiled.templates.pathPart.segments →
        '?' ∉ literal.toList := by
  have hasQuery : (splitQuery step.path).2 ≠ "" := by
    intro empty
    rw [empty] at isQuery
    refine sentQuery_ne_nil nonempty values ?_
    exact (renderPieces_queryPieces _ fields).symm.trans (renderPieces_eq_nil isQuery.symm)
  obtain ⟨isPath, query, isSome, queryParsed⟩ := templates_of_compileStep done hasQuery
  refine ⟨query, isSome, ?_, fun literal member occurs => ?_⟩
  · rw [parseSegments, isQuery] at queryParsed
    have filled := evalSegments_of_parseLiteral (queryPieces fields) (textsPlain_queryPieces fields)
      (fills_of_evaluates (holesOf_queryPieces fields ▸ evaluates)) [] queryParsed
    rw [Template.evalString, filled, List.nil_append, renderPieces_queryPieces]
    rfl
  · rcases mem_of_mem_literal _ _ isPath member occurs with none | inside
    · cases none
    · rw [splitQuery, String.toList_ofList] at inside
      have other := List.mem_takeWhile_imp inside
      simp at other

/-- A path that evaluates has the query behind it. -/
theorem evalPath_of_compileStep {before : String}
    (isBefore : compiled.templates.pathPart.evalString operators printer env .path = .ok before) :
    evalPath operators printer context env compiled.templates =
      .ok (before ++ "?" ++ .ofList (sentQuery fields values)) := by
  obtain ⟨query, isSome, isText, -⟩ :=
    exists_query_of_compileStep done nonempty isQuery evaluates
  rw [evalPath, isBefore]
  simp only [isSome, isText]
  rfl

/-- The URL of a path with a query is the URL without it, and the query. -/
theorem parseURL_of_evalPath (parseHost : List Char → Option (List Char)) {baseURL path : String}
    (noFragment : ∀ literal, .literal literal ∈ compiled.templates.pathPart.segments →
      '#' ∉ literal.toList)
    (plainBase : '?' ∉ baseURL.toList ∧ '#' ∉ baseURL.toList)
    (evaluated : evalPath operators printer context env compiled.templates = .ok path) :
    ∃ before, compiled.templates.pathPart.evalString operators printer env .path = .ok before ∧
      parseURL parseHost (fullURL baseURL path).toList =
        (parsePrefix parseHost (fullURL baseURL before).toList).map fun url =>
          { url with rawQuery := sentQuery fields values } := by
  obtain ⟨query, isSome, isSent, noQuestion⟩ :=
    exists_query_of_compileStep done nonempty isQuery evaluates
  obtain ⟨before, text, isBefore, isText, joined⟩ := evalPath_query isSome evaluated
  cases isText.symm.trans isSent
  rw [String.toList_ofList] at joined
  refine ⟨before, isBefore, ?_⟩
  rw [fullURL_query baseURL joined]
  refine parseURL_query parseHost ?_ ?_ ?_ (containsCTL_sentQuery fields values)
    (sentQuery_ne_nil nonempty values)
  · exact not_mem_fullURL (by decide) (by decide) plainBase.1 noQuestion isBefore
  · exact not_mem_fullURL (by decide) (by decide) plainBase.2 noFragment isBefore
  · intro member
    cases mem_sentQuery member

/-- The URL of a request is that of its path. -/
theorem parseURL_of_buildStepRequest (parseHost : List Char → Option (List Char))
    {baseURL : String} {data : RequestData Value} {request : StepRequest}
    (noFragment : ∀ literal, .literal literal ∈ compiled.templates.pathPart.segments →
      '#' ∉ literal.toList)
    (plainBase : '?' ∉ baseURL.toList ∧ '#' ∉ baseURL.toList)
    (built : buildStepRequest operators printer context env baseURL data compiled.templates =
      .ok request) :
    ∃ before, compiled.templates.pathPart.evalString operators printer env .path = .ok before ∧
      parseURL parseHost request.url.toList =
        (parsePrefix parseHost (fullURL baseURL before).toList).map fun url =>
          { url with rawQuery := sentQuery fields values } := by
  obtain ⟨path, evaluated, isURL⟩ := url_of_buildStepRequest built
  rw [isURL]
  exact parseURL_of_evalPath done nonempty isQuery evaluates parseHost noFragment plainBase evaluated

end Sent

end Request

/-- For every query of fields with unreserved keys and all bytes that the expressions
evaluate to, behind a path without a `#` of its own and a base without query and
fragment: the query of the URL parses into the keys and the values in order, and other
values change nothing else of the URL. -/
theorem query_round_trips {Value Error Scope : Type}
    (parseHost : List Char → Option (List Char)) (operators : Operators Value Error Scope)
    (printer : Printer Value) (context : BuildContext Error) (env : Env Value)
    (compiler : ExprCompiler) (stepNames : List String) (step : Step) (compiled : CompiledStep)
    (fields : List QueryField) (values : Hole → List UInt8) (baseURL : String)
    (data : RequestData Value) (request : StepRequest) (url : URL)
    (done : compileStep compiler stepNames step = .ok compiled) (nonempty : fields ≠ [])
    (isQuery : (splitQuery step.path).2.toList = querySource fields)
    (noFragment : ∀ literal, .literal literal ∈ compiled.templates.pathPart.segments →
      '#' ∉ literal.toList)
    (plainBase : '?' ∉ baseURL.toList ∧ '#' ∉ baseURL.toList)
    (evaluates : Evaluates operators printer env compiler stepNames
      (fields.map QueryField.slot) values)
    (built : buildStepRequest operators printer context env baseURL data compiled.templates =
      .ok request)
    (parsed : parseURL parseHost request.url.toList = some url) :
    parseQuery url.rawQuery = fields.map (fun field => (utf8 field.key, values field.slot)) ∧
    ∀ env' values' data' request',
      compiled.templates.pathPart.evalString operators printer env' .path =
        compiled.templates.pathPart.evalString operators printer env .path →
      Evaluates operators printer env' compiler stepNames (fields.map QueryField.slot) values' →
      buildStepRequest operators printer context env' baseURL data' compiled.templates =
        .ok request' →
      ∃ query, parseURL parseHost request'.url.toList = some { url with rawQuery := query } := by
  obtain ⟨before, isBefore, isURL⟩ := parseURL_of_buildStepRequest done nonempty isQuery
    evaluates parseHost noFragment plainBase built
  rw [parsed] at isURL
  obtain ⟨found, isPrefix, rfl⟩ := Option.map_eq_some_iff.mp isURL.symm
  refine ⟨parseQuery_settings nonempty values, ?_⟩
  intro env' values' data' request' samePath evaluates' built'
  obtain ⟨before', isBefore', isURL'⟩ := parseURL_of_buildStepRequest done nonempty isQuery
    evaluates' parseHost noFragment plainBase built'
  rw [samePath, isBefore] at isBefore'
  cases isBefore'
  rw [isPrefix, Option.map_some] at isURL'
  exact ⟨_, isURL'⟩

/-- `of={{ steps.user?.body }}` -/
def ofField : QueryField where
  key := "of".toList
  slot := userHole
  named := by decide
  unreserved := by decide

theorem evaluates_userHole (text : String) :
    Evaluates sampleOperators textPrinter (userEnv text) optionalCompiler ["user"]
      ([ofField].map QueryField.slot) fun _ => utf8 text.toList := by
  have isSegment : compileExpression optionalCompiler ["user"] userHole.expr =
      .ok (.program "steps.user?.body" userBody) := rfl
  intro hole member expr node found
  obtain rfl := List.mem_singleton.mp member
  cases isSegment.symm.trans found
  exact ⟨.text text, rfl, rfl⟩

/-- A request without data. -/
def noData : RequestData Sample := ⟨"GET", "/", ∅, ∅, ∅, .nil, none⟩

/-- A path with the field behind it. -/
def withOf (path : String) : Step :=
  ordersOf (path ++ "?of=\x7b\x7b steps.user?.body \x7d\x7d")

def compiledWithOf (path : String) : CompiledStep where
  step := withOf path
  templates :=
    ⟨"GET", ⟨path, [.literal path], [], false⟩,
      some ⟨"of=\x7b\x7b steps.user?.body \x7d\x7d",
        [.literal "of=", .program "steps.user?.body" userBody], ["user"], false⟩, none, ∅⟩
  deps := ["user"]

def requestWithOf (url : String) : StepRequest :=
  ⟨"GET", url, Header.set ∅ "X-Request-ID" "", none⟩

/-- A value that looks like the rest of a URL is one value of the query. -/
theorem query_round_trips_of_separators :
    compileStep optionalCompiler ["user"] (withOf "/orders") = .ok (compiledWithOf "/orders") ∧
    buildStepRequest sampleOperators textPrinter plainContext (userEnv "a&b=c #?") "http://api"
      noData (compiledWithOf "/orders").templates =
        .ok (requestWithOf "http://api/orders?of=a%26b%3Dc+%23%3F") ∧
    ∃ url, parseURL some "http://api/orders?of=a%26b%3Dc+%23%3F".toList = some url ∧
      parseQuery url.rawQuery = [(utf8 "of".toList, utf8 "a&b=c #?".toList)] := by
  have compiles : compileStep optionalCompiler ["user"] (withOf "/orders") =
      .ok (compiledWithOf "/orders") := rfl
  have built : buildStepRequest sampleOperators textPrinter plainContext (userEnv "a&b=c #?")
      "http://api" noData (compiledWithOf "/orders").templates =
        .ok (requestWithOf "http://api/orders?of=a%26b%3Dc+%23%3F") := rfl
  obtain ⟨url, parsed⟩ : ∃ url,
      parseURL some "http://api/orders?of=a%26b%3Dc+%23%3F".toList = some url :=
    Option.isSome_iff_exists.mp (by decide +kernel)
  have noFragment : ∀ literal, .literal literal ∈
      (compiledWithOf "/orders").templates.pathPart.segments → '#' ∉ literal.toList := by
    intro literal member
    cases List.mem_singleton.mp member
    decide
  refine ⟨compiles, built, url, parsed, ?_⟩
  exact (query_round_trips some sampleOperators textPrinter plainContext (userEnv "a&b=c #?")
    optionalCompiler ["user"] (withOf "/orders") (compiledWithOf "/orders") [ofField]
    (fun _ => utf8 "a&b=c #?".toList) "http://api" noData _ url compiles (by simp) rfl noFragment
    (by decide) (evaluates_userHole _) built parsed).1

/-- Behind a `#` in the path or in the base there is no query, and behind a `?` in the base the
path and the query are both part of the base's query. -/
theorem query_lost_behind_fragment :
    (compileStep optionalCompiler ["user"] (withOf "/orders#all") =
        .ok (compiledWithOf "/orders#all") ∧
      (splitQuery (withOf "/orders#all").path).2.toList = querySource [ofField] ∧
      buildStepRequest sampleOperators textPrinter plainContext (userEnv "7") "http://api"
        noData (compiledWithOf "/orders#all").templates =
          .ok (requestWithOf "http://api/orders#all?of=7") ∧
      ∃ url, parseURL some "http://api/orders#all?of=7".toList = some url ∧
        parseQuery url.rawQuery ≠ [(utf8 "of".toList, utf8 "7".toList)]) ∧
    ∀ base ∈ ["http://api#top", "http://api?v=1"],
      buildStepRequest sampleOperators textPrinter plainContext (userEnv "7") base
        noData (compiledWithOf "/orders").templates =
          .ok (requestWithOf (base ++ "/orders?of=7")) ∧
      ∃ url, parseURL some (base ++ "/orders?of=7").toList = some url ∧
        parseQuery url.rawQuery ≠ [(utf8 "of".toList, utf8 "7".toList)] := by
  refine ⟨⟨rfl, rfl, rfl, ⟨"http".toList, [], none, "api".toList, utf8 "/orders".toList, [], false,
    false, [], utf8 "all?of=7".toList, []⟩, ?_, ?_⟩, ?_⟩
  · decide +kernel
  · decide +kernel
  · intro base member
    rw [List.mem_cons, List.mem_singleton] at member
    rcases member with rfl | rfl
    · refine ⟨rfl, ⟨"http".toList, [], none, "api".toList, [], [], false, false, [],
        utf8 "top/orders?of=7".toList, []⟩, ?_, ?_⟩
      · decide +kernel
      · decide +kernel
    · refine ⟨rfl, ⟨"http".toList, [], none, "api".toList, [], [], false, false,
        "v=1/orders?of=7".toList, [], []⟩, ?_, ?_⟩
      · decide +kernel
      · decide +kernel

end Restitch.Composition
