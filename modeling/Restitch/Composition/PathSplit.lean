import Restitch.Composition.Compile

/-!
# The path and the query of a step

`compileStep` cuts a step path at its first `?` before the templates are parsed.
The two scanners agree as long as that `?` is not inside an expression.
-/

namespace Restitch.Composition

open Restitch.Expr Restitch.Std

variable {compiler : ExprCompiler} {stepNames : List String}

mutual

/-- The first `?` of a text is inside an expression; the text starts outside. -/
def questionInside : List Char → Bool
  | '{' :: '{' :: rest => questionWithin rest
  | '?' :: _ => false
  | _ :: rest => questionInside rest
  | [] => false

/-- The same for a text that starts inside an expression. -/
def questionWithin : List Char → Bool
  | '}' :: '}' :: rest => questionInside rest
  | '?' :: _ => true
  | _ :: rest => questionWithin rest
  | [] => false

end

/-- The segments before and behind the first `?` of a literal. -/
def splitSegments : List Segment → List Segment × List Segment
  | [] => ([], [])
  | .literal text :: rest =>
      match GoStrings.cut '?' text.toList with
      | (before, some after) => (literalSegment before, literalSegment after ++ rest)
      | (_, none) => (.literal text :: (splitSegments rest).1, (splitSegments rest).2)
  | segment :: rest => (segment :: (splitSegments rest).1, (splitSegments rest).2)

/-- The templates of a step are the two parts of its path. -/
def SplitsAtLiteral (segments : List Segment) (templates : StepTemplates) : Prop :=
  templates.pathPart.segments = (splitSegments segments).1 ∧
  templates.queryPart.map Template.segments =
    if (splitSegments segments).2 = [] then none else some (splitSegments segments).2

/-- Literal text without a question mark stays in front of the split. -/
theorem splitSegments_literalSegment {text : List Char} (absent : '?' ∉ text)
    (segments : List Segment) :
    splitSegments (literalSegment text ++ segments) =
      (literalSegment text ++ (splitSegments segments).1, (splitSegments segments).2) := by
  unfold literalSegment
  split
  · rfl
  · simp only [List.cons_append, List.nil_append, splitSegments, String.toList_ofList,
      GoStrings.cut_of_not_mem absent]

/-- The segments are split at the first question mark. -/
theorem splitSegments_question {before : List Char} (absent : '?' ∉ before) (after : List Char)
    (segments : List Segment) :
    splitSegments (literalSegment (before ++ '?' :: after) ++ segments) =
      (literalSegment before, literalSegment after ++ segments) := by
  have nonempty : before ++ '?' :: after ≠ [] := by simp
  rw [literalSegment, if_neg nonempty]
  simp only [List.cons_append, List.nil_append, splitSegments, String.toList_ofList,
    GoStrings.cut_append absent]

/-- A compiled expression is a program. -/
theorem program_of_compileExpression {expr : String} {segment : Segment}
    (compiled : compileExpression compiler stepNames expr = .ok segment) :
    ∃ expr node, segment = .program expr node := by
  obtain ⟨node, -, -, -, isProgram⟩ := compileExpression_ok compiled
  exact ⟨expr, node, isProgram⟩

/-- An expression opens: the text before it is a literal. -/
theorem parseLiteral_open_iff {raw : String} {text rest : List Char} {segments : List Segment} :
    parseLiteral compiler stepNames raw text ('{' :: '{' :: rest) = .ok segments ↔
      ∃ later, parseExpression compiler stepNames raw [] rest = .ok later ∧
        segments = literalSegment text ++ later := by
  rw [parseLiteral]
  constructor
  · intro parsed
    obtain ⟨later, isLater, done⟩ := Except.bind_eq_ok parsed
    cases done
    exact ⟨later, isLater, rfl⟩
  · rintro ⟨later, isLater, rfl⟩
    rw [isLater]
    rfl

/-- An expression closes: its text is compiled. -/
theorem parseExpression_close_iff {raw : String} {text rest : List Char} {segments : List Segment} :
    parseExpression compiler stepNames raw text ('}' :: '}' :: rest) = .ok segments ↔
      ∃ segment later, compileExpression compiler stepNames
          (.ofList (GoStrings.trimSpace text)) = .ok segment ∧
        parseLiteral compiler stepNames raw [] rest = .ok later ∧ segments = segment :: later := by
  rw [parseExpression]
  constructor
  · intro parsed
    obtain ⟨segment, isSegment, parsed⟩ := Except.bind_eq_ok parsed
    obtain ⟨later, isLater, done⟩ := Except.bind_eq_ok parsed
    cases done
    exact ⟨segment, later, isSegment, isLater, rfl⟩
  · rintro ⟨segment, later, isSegment, isLater, rfl⟩
    rw [isSegment, isLater]
    rfl

/-- What a template parses into depends on its text only; the raw text is for errors. -/
theorem parseLiteral_raw (raw raw' : String) (text chars : List Char) {segments : List Segment}
    (parsed : parseLiteral compiler stepNames raw text chars = .ok segments) :
    parseLiteral compiler stepNames raw' text chars = .ok segments := by
  revert segments
  refine parseLiteral.induct
    (fun text chars => ∀ {segments}, parseLiteral compiler stepNames raw text chars = .ok segments →
      parseLiteral compiler stepNames raw' text chars = .ok segments)
    (fun text chars => ∀ {segments},
      parseExpression compiler stepNames raw text chars = .ok segments →
      parseExpression compiler stepNames raw' text chars = .ok segments)
    ?_ ?_ ?_ ?_ ?_ ?_ text chars
  · intro text rest ih segments parsed
    obtain ⟨later, isLater, rfl⟩ := parseLiteral_open_iff.mp parsed
    exact parseLiteral_open_iff.mpr ⟨later, ih isLater, rfl⟩
  · intro text c rest single ih segments parsed
    rw [parseLiteral.eq_2 _ _ _ _ _ _ single] at parsed ⊢
    exact ih parsed
  · intro text segments parsed
    exact parsed
  · intro text rest ih segments parsed
    obtain ⟨segment, later, isSegment, isLater, rfl⟩ := parseExpression_close_iff.mp parsed
    exact parseExpression_close_iff.mpr ⟨segment, later, isSegment, ih isLater, rfl⟩
  · intro text c rest single ih segments parsed
    rw [parseExpression.eq_2 _ _ _ _ _ _ single] at parsed ⊢
    exact ih parsed
  · intro text segments parsed
    cases parsed

/-- The text behind a `?` of a literal parses by itself. -/
theorem parseLiteral_question {raw : String} {before after rest : List Char}
    (absent : '?' ∉ before) {segments : List Segment}
    (parsed : parseLiteral compiler stepNames raw (before ++ '?' :: after) rest = .ok segments) :
    (splitSegments segments).1 = literalSegment before ∧
      parseLiteral compiler stepNames raw after rest = .ok (splitSegments segments).2 := by
  induction rest generalizing after with
  | nil =>
      rw [parseLiteral] at parsed
      cases parsed
      have split := splitSegments_question absent after []
      simp only [List.append_nil] at split
      rw [split, parseLiteral]
      exact ⟨rfl, rfl⟩
  | cons c rest ih =>
      by_cases opens : c = '{' ∧ rest.head? = some '{'
      · obtain ⟨rfl, head⟩ := opens
        obtain ⟨rest, rfl⟩ : ∃ tail, rest = '{' :: tail := by
          cases rest with
          | nil => cases head
          | cons d tail =>
              cases head
              exact ⟨tail, rfl⟩
        obtain ⟨later, isLater, rfl⟩ := parseLiteral_open_iff.mp parsed
        rw [splitSegments_question absent]
        exact ⟨rfl, parseLiteral_open_iff.mpr ⟨later, isLater, rfl⟩⟩
      · have single : ∀ tail, c = '{' → rest = '{' :: tail → False := by
          rintro tail rfl rfl
          exact opens ⟨rfl, rfl⟩
        rw [parseLiteral.eq_2 _ _ _ _ _ _ single] at parsed ⊢
        rw [List.append_assoc] at parsed
        exact ih parsed

/-- The characters before the first `?`. -/
def beforeQuestion (chars : List Char) : List Char := chars.takeWhile (· ≠ '?')

/-- The characters behind the first `?`. -/
def behindQuestion (chars : List Char) : List Char := (chars.dropWhile (· ≠ '?')).tail

@[simp] theorem beforeQuestion_cons {c : Char} (other : c ≠ '?') (rest : List Char) :
    beforeQuestion (c :: rest) = c :: beforeQuestion rest := by
  simp [beforeQuestion, other]

@[simp] theorem behindQuestion_cons {c : Char} (other : c ≠ '?') (rest : List Char) :
    behindQuestion (c :: rest) = behindQuestion rest := by
  simp [behindQuestion, other]

/-- Cutting at a `?` makes no new pair of braces. -/
theorem single_beforeQuestion {c brace : Char} {rest : List Char}
    (single : ∀ tail, c = brace → rest = brace :: tail → False) :
    ∀ tail, c = brace → beforeQuestion rest = brace :: tail → False := by
  intro tail isBrace cut
  cases rest with
  | nil => cases cut
  | cons d rest =>
      by_cases question : d = '?'
      · subst question
        simp [beforeQuestion] at cut
      · rw [beforeQuestion_cons question] at cut
        cases cut
        exact single rest isBrace rfl

theorem questionInside_cons {c : Char} {rest : List Char}
    (single : ∀ tail, c = '{' → rest = '{' :: tail → False) (other : c ≠ '?') :
    questionInside (c :: rest) = questionInside rest := by
  rw [questionInside]
  · exact single
  · exact other

theorem questionWithin_cons {c : Char} {rest : List Char}
    (single : ∀ tail, c = '}' → rest = '}' :: tail → False) (other : c ≠ '?') :
    questionWithin (c :: rest) = questionWithin rest := by
  rw [questionWithin]
  · exact single
  · exact other

/-- If the first `?` is not inside an expression, the two parts of the text parse into
the two parts of the segments. -/
theorem parseLiteral_split {raw : String} (text chars : List Char) (absent : '?' ∉ text)
    (outside : questionInside chars = false) {segments : List Segment}
    (parsed : parseLiteral compiler stepNames raw text chars = .ok segments) :
    parseLiteral compiler stepNames raw text (beforeQuestion chars) = .ok (splitSegments segments).1 ∧
      parseLiteral compiler stepNames raw [] (behindQuestion chars) =
        .ok (splitSegments segments).2 := by
  revert absent outside segments
  refine parseLiteral.induct
    (fun text chars => '?' ∉ text → questionInside chars = false → ∀ {segments},
      parseLiteral compiler stepNames raw text chars = .ok segments →
      parseLiteral compiler stepNames raw text (beforeQuestion chars) =
          .ok (splitSegments segments).1 ∧
        parseLiteral compiler stepNames raw [] (behindQuestion chars) =
          .ok (splitSegments segments).2)
    (fun text chars => questionWithin chars = false → ∀ {segments},
      parseExpression compiler stepNames raw text chars = .ok segments →
      parseExpression compiler stepNames raw text (beforeQuestion chars) =
          .ok (splitSegments segments).1 ∧
        parseLiteral compiler stepNames raw [] (behindQuestion chars) =
          .ok (splitSegments segments).2)
    ?_ ?_ ?_ ?_ ?_ ?_ text chars
  · intro text rest ih absent outside segments parsed
    obtain ⟨later, isLater, rfl⟩ := parseLiteral_open_iff.mp parsed
    rw [questionInside] at outside
    obtain ⟨before, behind⟩ := ih outside isLater
    rw [splitSegments_literalSegment absent, beforeQuestion_cons (by decide),
      beforeQuestion_cons (by decide), behindQuestion_cons (by decide),
      behindQuestion_cons (by decide)]
    exact ⟨parseLiteral_open_iff.mpr ⟨_, before, rfl⟩, behind⟩
  · intro text c rest single ih absent outside segments parsed
    rw [parseLiteral.eq_2 _ _ _ _ _ _ single] at parsed
    by_cases question : c = '?'
    · subst question
      obtain ⟨before, behind⟩ := parseLiteral_question absent parsed
      rw [before]
      exact ⟨rfl, behind⟩
    · rw [questionInside_cons single question] at outside
      rw [beforeQuestion_cons question, behindQuestion_cons question,
        parseLiteral.eq_2 _ _ _ _ _ _ (single_beforeQuestion single)]
      refine ih ?_ outside parsed
      simp only [List.mem_append, List.mem_singleton, not_or]
      exact ⟨absent, fun same => question same.symm⟩
  · intro text absent _ segments parsed
    rw [parseLiteral] at parsed
    cases parsed
    have split := splitSegments_literalSegment absent []
    simp only [List.append_nil] at split
    rw [split]
    exact ⟨by simp [beforeQuestion, parseLiteral, splitSegments]; rfl, rfl⟩
  · intro text rest ih outside segments parsed
    obtain ⟨segment, later, isSegment, isLater, rfl⟩ := parseExpression_close_iff.mp parsed
    rw [questionWithin] at outside
    obtain ⟨before, behind⟩ := ih (List.not_mem_nil) outside isLater
    rw [beforeQuestion_cons (by decide), beforeQuestion_cons (by decide),
      behindQuestion_cons (by decide), behindQuestion_cons (by decide)]
    obtain ⟨expr, node, rfl⟩ := program_of_compileExpression isSegment
    exact ⟨parseExpression_close_iff.mpr ⟨_, _, isSegment, before, rfl⟩, behind⟩
  · intro text c rest single ih outside segments parsed
    rw [parseExpression.eq_2 _ _ _ _ _ _ single] at parsed
    have question : c ≠ '?' := by
      rintro rfl
      cases outside
    rw [questionWithin_cons single question] at outside
    rw [beforeQuestion_cons question, behindQuestion_cons question,
      parseExpression.eq_2 _ _ _ _ _ _ (single_beforeQuestion single)]
    exact ih outside parsed
  · intro text _ segments parsed
    cases parsed

/-- If the first `?` is inside an expression, the text before it does not parse. -/
theorem parseLiteral_cut {raw : String} (text chars : List Char)
    (inside : questionInside chars = true) (segments : List Segment) :
    parseLiteral compiler stepNames raw text (beforeQuestion chars) ≠ .ok segments := by
  revert inside segments
  refine parseLiteral.induct
    (fun text chars => questionInside chars = true → ∀ segments,
      parseLiteral compiler stepNames raw text (beforeQuestion chars) ≠ .ok segments)
    (fun text chars => questionWithin chars = true → ∀ segments,
      parseExpression compiler stepNames raw text (beforeQuestion chars) ≠ .ok segments)
    ?_ ?_ ?_ ?_ ?_ ?_ text chars
  · intro text rest ih inside segments parsed
    rw [questionInside] at inside
    rw [beforeQuestion_cons (by decide), beforeQuestion_cons (by decide)] at parsed
    obtain ⟨later, isLater, -⟩ := parseLiteral_open_iff.mp parsed
    exact ih inside later isLater
  · intro text c rest single ih inside segments parsed
    have question : c ≠ '?' := by
      rintro rfl
      cases inside
    rw [questionInside_cons single question] at inside
    rw [beforeQuestion_cons question,
      parseLiteral.eq_2 _ _ _ _ _ _ (single_beforeQuestion single)] at parsed
    exact ih inside segments parsed
  · intro text inside
    cases inside
  · intro text rest ih inside segments parsed
    rw [questionWithin] at inside
    rw [beforeQuestion_cons (by decide), beforeQuestion_cons (by decide)] at parsed
    obtain ⟨_, later, -, isLater, -⟩ := parseExpression_close_iff.mp parsed
    exact ih inside later isLater
  · intro text c rest single ih inside segments parsed
    by_cases question : c = '?'
    · subst question
      cases parsed
    · rw [questionWithin_cons single question] at inside
      rw [beforeQuestion_cons question,
        parseExpression.eq_2 _ _ _ _ _ _ (single_beforeQuestion single)] at parsed
      exact ih inside segments parsed
  · intro text inside
    cases inside

/-- Only the empty text has no segments. -/
theorem eq_nil_of_parseLiteral {raw : String} (text chars : List Char)
    (parsed : parseLiteral compiler stepNames raw text chars = .ok []) :
    text = [] ∧ chars = [] := by
  revert parsed
  refine parseLiteral.induct
    (fun text chars => parseLiteral compiler stepNames raw text chars = .ok [] →
      text = [] ∧ chars = [])
    (fun text chars => parseExpression compiler stepNames raw text chars ≠ .ok [])
    ?_ ?_ ?_ ?_ ?_ ?_ text chars
  · intro text rest ih parsed
    obtain ⟨later, isLater, empty⟩ := parseLiteral_open_iff.mp parsed
    rw [(List.append_eq_nil_iff.mp empty.symm).2] at isLater
    exact absurd isLater ih
  · intro text c rest single ih parsed
    rw [parseLiteral.eq_2 _ _ _ _ _ _ single] at parsed
    exact absurd (ih parsed).1 (by simp)
  · intro text parsed
    refine ⟨?_, rfl⟩
    by_contra nonempty
    rw [parseLiteral, literalSegment, if_neg nonempty] at parsed
    cases parsed
  · intro text rest _ parsed
    obtain ⟨_, _, -, -, empty⟩ := parseExpression_close_iff.mp parsed
    cases empty
  · intro text c rest single ih parsed
    rw [parseExpression.eq_2 _ _ _ _ _ _ single] at parsed
    exact ih parsed
  · intro text parsed
    cases parsed

/-- A template that parses compiles to its segments. -/
theorem compileAt_of_parseSegments (place : TemplateError → CompileError) {raw : String}
    {segments : List Segment} (parsed : parseSegments compiler stepNames raw = .ok segments) :
    ∃ template, compileAt compiler stepNames place raw = .ok template ∧
      template.segments = segments := by
  rw [compileAt, compileTemplate, parsed]
  exact ⟨_, rfl, rfl⟩

/-- A compiled template has the segments of its text. -/
theorem parseSegments_of_compileAt {place : TemplateError → CompileError} {raw : String}
    {template : Template} (compiled : compileAt compiler stepNames place raw = .ok template) :
    parseSegments compiler stepNames raw = .ok template.segments := by
  rw [compileAt, compileTemplate] at compiled
  cases parsed : parseSegments compiler stepNames raw with
  | error error =>
      rw [parsed] at compiled
      cases compiled
  | ok segments =>
      rw [parsed] at compiled
      cases compiled
      rfl

/-- An optional template that parses compiles, to none if it is empty. -/
theorem compileOptional_of_parseSegments (place : TemplateError → CompileError) {raw : String}
    {segments : List Segment} (parsed : parseSegments compiler stepNames raw = .ok segments) :
    ∃ template, compileOptional compiler stepNames place raw = .ok template ∧
      template.map Template.segments = if segments = [] then none else some segments := by
  by_cases empty : raw = ""
  · subst empty
    cases parsed
    exact ⟨none, rfl, rfl⟩
  · have nonempty : segments ≠ [] := by
      rintro rfl
      have chars := (eq_nil_of_parseLiteral _ _ parsed).2
      exact empty (String.toList_inj.mp chars)
    obtain ⟨template, compiled, isSegments⟩ := compileAt_of_parseSegments place parsed
    rw [compileOptional, if_neg empty, compiled]
    refine ⟨some template, rfl, ?_⟩
    rw [if_neg nonempty, Option.map_some, isSegments]

/-- A step path is split where its templates are, exactly when its first `?` is not
inside an expression; otherwise the step does not compile. -/
theorem compileStep_splits_iff (compiler : ExprCompiler) (stepNames : List String) (step : Step)
    (segments : List Segment) (bodyTmpl : Option Template) (headers : GoMap String Template)
    (parsed : parseSegments compiler stepNames step.path = .ok segments)
    (isBody : compileOptional compiler stepNames (.stepBody step.name) step.body = .ok bodyTmpl)
    (isHeaders : GoMap.traverse (fun key value =>
      compileAt compiler stepNames (.stepHeader step.name key) value) step.headers = .ok headers) :
    (∃ compiled, compileStep compiler stepNames step = .ok compiled ∧
      SplitsAtLiteral segments compiled.templates) ↔
      questionInside step.path.toList = false := by
  constructor
  · rintro ⟨compiled, done, -⟩
    obtain ⟨pathPart, isPath, -⟩ := Except.bind_eq_ok done
    have cut := parseSegments_of_compileAt isPath
    rw [parseSegments, String.toList_ofList] at cut
    by_contra inside
    exact parseLiteral_cut [] step.path.toList (Bool.not_eq_false _ ▸ inside) _ cut
  · intro outside
    obtain ⟨before, behind⟩ := parseLiteral_split [] step.path.toList List.not_mem_nil outside parsed
    have isBefore : parseSegments compiler stepNames (splitQuery step.path).1 =
        .ok (splitSegments segments).1 := by
      rw [parseSegments, splitQuery, String.toList_ofList]
      exact parseLiteral_raw _ _ _ _ before
    have isBehind : parseSegments compiler stepNames (splitQuery step.path).2 =
        .ok (splitSegments segments).2 := by
      rw [parseSegments, splitQuery, String.toList_ofList]
      exact parseLiteral_raw _ _ _ _ behind
    obtain ⟨pathPart, isPath, pathSegments⟩ :=
      compileAt_of_parseSegments (.stepPath step.name) isBefore
    obtain ⟨queryPart, isQuery, querySegments⟩ :=
      compileOptional_of_parseSegments (.stepQuery step.name) isBehind
    simp only [compileStep, isPath, isQuery, isBody, isHeaders]
    exact ⟨_, rfl, pathSegments, querySegments⟩

/-- `steps.user?.body` -/
def userBody : Node :=
  .member (.member (.identifier "steps") (.string "user") false) (.string "body") true

/-- The parser on one expression. -/
def optionalCompiler : ExprCompiler where
  parse := fun expr =>
    if expr = "steps.user?.body" then .ok userBody else .error "unexpected token"
  check := fun _ _ => none
  optimize := id
  isBuiltin := fun _ => false

def ordersOf (path : String) : Step :=
  ⟨"orders", "api", path, "GET", ∅, "", [], false, [], none, false⟩

/-- Behind the `?` of the query, an expression may have others. -/
theorem compileStep_splits_of_query :
    ∃ compiled, compileStep optionalCompiler ["user"]
        (ordersOf "/orders?of=\x7b\x7b steps.user?.body \x7d\x7d") = .ok compiled ∧
      SplitsAtLiteral [.literal "/orders?of=", .program "steps.user?.body" userBody]
        compiled.templates :=
  (compileStep_splits_iff optionalCompiler ["user"] _ _ none ∅ rfl rfl rfl).mpr rfl

/-- An expression that compiles in a template does not compile in a path. -/
theorem compileStep_cuts_expression :
    parseSegments optionalCompiler ["user"] "/orders/\x7b\x7b steps.user?.body \x7d\x7d" =
      .ok [.literal "/orders/", .program "steps.user?.body" userBody] ∧
    ¬ ∃ compiled, compileStep optionalCompiler ["user"]
        (ordersOf "/orders/\x7b\x7b steps.user?.body \x7d\x7d") = .ok compiled ∧
      SplitsAtLiteral [.literal "/orders/", .program "steps.user?.body" userBody]
        compiled.templates := by
  refine ⟨rfl, ?_⟩
  rintro ⟨compiled, done, -⟩
  cases done

end Restitch.Composition
