import Restitch.Composition.PathSplit

/-!
# Template texts

A template written down: texts and holes. If no `{{` starts in a text,
`parseSegments` finds exactly these holes, and `EvalString` puts the text of each
value in its place.
-/

namespace Restitch.Composition

open Restitch.Expr Restitch.Std

/-- A character does not occur twice in a row. -/
def pairFree (c : Char) : List Char → Bool
  | first :: second :: rest => !(first = c && second = c) && pairFree c (second :: rest)
  | _ => true

/-- What stands between `{{` and `}}`: the braces that close it are the first ones. -/
structure Hole where
  text : List Char
  closed : pairFree '}' (text ++ ['}']) = true
deriving DecidableEq

/-- The hole with its braces. -/
def Hole.source (hole : Hole) : List Char := '{' :: '{' :: (hole.text ++ ['}', '}'])

/-- The expression in a hole. -/
def Hole.expr (hole : Hole) : String := .ofList (GoStrings.trimSpace hole.text)

inductive TemplatePiece where
  | text (chars : List Char)
  | hole (hole : Hole)

def TemplatePiece.render (fill : Hole → List Char) : TemplatePiece → List Char
  | .text chars => chars
  | .hole slot => fill slot

/-- The pieces one after the other, with a text for each hole. -/
def renderPieces (fill : Hole → List Char) (pieces : List TemplatePiece) : List Char :=
  pieces.flatMap (TemplatePiece.render fill)

/-- The holes, from left to right. -/
def holesOf (pieces : List TemplatePiece) : List Hole :=
  pieces.filterMap fun piece =>
    match piece with
    | .text _ => none
    | .hole hole => some hole

/-- No `{{` starts in a text. -/
def textsPlain : List TemplatePiece → Bool
  | [] => true
  | .text chars :: rest =>
      pairFree '{' (chars ++ (renderPieces Hole.source rest).take 1) && textsPlain rest
  | .hole _ :: rest => textsPlain rest

/-- A text without pairs has none at its front and none in the rest. -/
theorem pairFree_cons {c first : Char} {rest : List Char}
    (free : pairFree c (first :: rest) = true) :
    (first = c → rest.head? ≠ some c) ∧ pairFree c rest = true := by
  cases rest with
  | nil => exact ⟨fun _ => by simp, rfl⟩
  | cons second rest =>
      simp only [pairFree, Bool.and_eq_true, Bool.not_eq_true', Bool.and_eq_false_iff,
        decide_eq_false_iff_not] at free
      refine ⟨?_, free.2⟩
      rintro rfl same
      cases same
      rcases free.1 with different | different <;> exact different rfl

/-- One character more decides the front of a text. -/
theorem head?_append_take (chars rest : List Char) :
    (chars ++ rest.take 1).head? = (chars ++ rest).head? := by
  cases chars with
  | nil => cases rest <;> rfl
  | cons c chars => rfl

@[simp] theorem renderPieces_nil (fill : Hole → List Char) : renderPieces fill [] = [] := rfl

/-- A text renders as itself. -/
@[simp] theorem renderPieces_text (fill : Hole → List Char) (chars : List Char)
    (rest : List TemplatePiece) :
    renderPieces fill (.text chars :: rest) = chars ++ renderPieces fill rest :=
  List.flatMap_cons

/-- A hole renders as what fills it. -/
@[simp] theorem renderPieces_hole (fill : Hole → List Char) (hole : Hole)
    (rest : List TemplatePiece) :
    renderPieces fill (.hole hole :: rest) = fill hole ++ renderPieces fill rest :=
  List.flatMap_cons

/-- Pieces render one part after the other. -/
theorem renderPieces_append (fill : Hole → List Char) (first second : List TemplatePiece) :
    renderPieces fill (first ++ second) = renderPieces fill first ++ renderPieces fill second :=
  List.flatMap_append

/-- The holes are those of both parts. -/
theorem holesOf_append (first second : List TemplatePiece) :
    holesOf (first ++ second) = holesOf first ++ holesOf second :=
  List.filterMap_append

@[simp] theorem holesOf_text (chars : List Char) (rest : List TemplatePiece) :
    holesOf (.text chars :: rest) = holesOf rest := rfl

@[simp] theorem holesOf_nil : holesOf [] = [] := rfl

/-- A character of a plain text does not open a hole, and the text behind it is plain. -/
theorem textsPlain_char {c : Char} {chars : List Char} {rest : List TemplatePiece}
    (plain : textsPlain (.text (c :: chars) :: rest) = true) :
    (∀ tail, c = '{' → chars ++ renderPieces Hole.source rest = '{' :: tail → False) ∧
      textsPlain (.text chars :: rest) = true := by
  rw [textsPlain, Bool.and_eq_true, List.cons_append] at plain
  obtain ⟨single, free⟩ := pairFree_cons plain.1
  refine ⟨?_, ?_⟩
  · intro tail isBrace isTail
    apply single isBrace
    rw [head?_append_take, isTail]
    rfl
  · rw [textsPlain, Bool.and_eq_true]
    exact ⟨free, plain.2⟩

section Parse

variable {compiler : ExprCompiler} {stepNames : List String} {raw : String}

/-- The text of a hole is read up to its closing braces. -/
theorem parseExpression_text (text rest : List Char) {before : List Char}
    (closed : pairFree '}' (text ++ ['}']) = true) :
    parseExpression compiler stepNames raw before (text ++ '}' :: '}' :: rest) =
      parseExpression compiler stepNames raw (before ++ text) ('}' :: '}' :: rest) := by
  induction text generalizing before with
  | nil => rw [List.nil_append, List.append_nil]
  | cons c text ih =>
      obtain ⟨single, free⟩ := pairFree_cons closed
      have alone : ∀ tail, c = '}' → text ++ '}' :: '}' :: rest = '}' :: tail → False := by
        intro tail isBrace isTail
        apply single isBrace
        have head := head?_append_take text ('}' :: '}' :: rest)
        rw [isTail] at head
        exact head
      rw [List.cons_append, parseExpression.eq_2 _ _ _ _ _ _ alone, ih free, List.append_assoc]
      rfl

end Parse

section Eval

variable {compiler : ExprCompiler} {stepNames : List String} {raw : String}
  {Value Error Scope : Type} (operators : Operators Value Error Scope) (printer : Printer Value)
  (env : Env Value)

/-- Literal text evaluates to itself. -/
theorem evalSegments_literalSegment (mode : EscapeMode) (text : List Char)
    (segments : List Segment) :
    evalSegments operators printer env mode (literalSegment text ++ segments) =
      (evalSegments operators printer env mode segments).map (String.ofList text ++ ·) := by
  unfold literalSegment
  split
  · rename_i empty
    rw [empty, List.nil_append]
    cases evalSegments operators printer env mode segments <;> simp [Except.map]
  · cases evaluated : evalSegments operators printer env mode segments <;>
      simp [evalSegments, Segment.evalString, evaluated, Except.map] <;> rfl

/-- What each hole evaluates to, if it compiles. -/
def Fills (compiler : ExprCompiler) (stepNames : List String) (mode : EscapeMode)
    (fill : Hole → List Char) (holes : List Hole) : Prop :=
  ∀ hole ∈ holes, ∀ segment, compileExpression compiler stepNames hole.expr = .ok segment →
    segment.evalString operators printer env mode = .ok (.ofList (fill hole))

variable {operators printer env}

/-- A template evaluates to its text with each hole filled in. -/
theorem evalSegments_of_parseLiteral {mode : EscapeMode} {fill : Hole → List Char}
    (pieces : List TemplatePiece) (plain : textsPlain pieces = true)
    (fills : Fills operators printer env compiler stepNames mode fill (holesOf pieces))
    (text : List Char) {segments : List Segment}
    (parsed : parseLiteral compiler stepNames raw text (renderPieces Hole.source pieces) =
      .ok segments) :
    evalSegments operators printer env mode segments =
      .ok (.ofList (text ++ renderPieces fill pieces)) := by
  induction pieces generalizing text segments with
  | nil =>
      cases parsed
      have evaluated := evalSegments_literalSegment operators printer env mode text []
      rw [List.append_nil] at evaluated
      rw [evaluated]
      simp [evalSegments, Except.map]
  | cons piece rest ih =>
      cases piece with
      | text chars =>
          induction chars generalizing text with
          | nil =>
              rw [textsPlain, Bool.and_eq_true] at plain
              exact ih plain.2 fills text parsed
          | cons c chars inner =>
              obtain ⟨single, plain⟩ := textsPlain_char plain
              rw [renderPieces_text, List.cons_append,
                parseLiteral.eq_2 _ _ _ _ _ _ single] at parsed
              have evaluated := inner (text ++ [c]) plain fills (by
                rw [renderPieces_text]
                exact parsed)
              rw [evaluated, renderPieces_text, renderPieces_text, List.append_assoc]
              rfl
      | hole slot =>
          rw [renderPieces_hole, Hole.source, List.cons_append, List.cons_append] at parsed
          obtain ⟨inside, isInside, rfl⟩ := parseLiteral_open_iff.mp parsed
          rw [List.append_assoc, List.cons_append, List.cons_append, List.nil_append,
            parseExpression_text _ _ slot.closed, List.nil_append] at isInside
          obtain ⟨segment, later, compiled, isLater, rfl⟩ := parseExpression_close_iff.mp isInside
          have value := fills slot List.mem_cons_self segment compiled
          have following := ih plain
            (fun other member => fills other (List.mem_cons_of_mem _ member)) [] isLater
          rw [evalSegments_literalSegment]
          simp only [evalSegments, value, following]
          simp [Except.map, bind, Except.bind, pure, Except.pure, String.ofList_append]

end Eval

end Restitch.Composition
