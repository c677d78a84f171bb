import Restitch.Composition.PathTemplate
import Restitch.Composition.TemplateSplit
import Restitch.Import.OpenApi

/-!
# The path of an imported step

A path of a document is literals and parameters between slashes. The import writes every
parameter as an expression and leaves the literals alone, and the gateway reads the same parts
in the route and in the template.
-/

namespace Restitch.Import

open Restitch.Composition Restitch.Expr Restitch.Http Restitch.Std

/-! ### Parts of a path -/

/-- A name that `paramPattern` reads. -/
def isParamName (name : List Char) : Bool := name.head?.any paramStart && name.all paramChar

/-- A part that stays as it is in a URL. -/
def literalPart (part : List Char) : Bool :=
  validEncoded .path part && '/' ∉ part && (decodeSegment part).isSome && textDots part = .none

/-- A part of a path: a literal or one parameter. -/
inductive PathPart where
  | literal (text : List Char) (plain : literalPart text = true)
  | param (name : List Char) (named : isParamName name = true)

namespace PathPart

/-- The part in a path of the document. -/
def text : PathPart → List Char
  | .literal text _ => text
  | .param name _ => '{' :: (name ++ ['}'])

/-- The part in the path of the step. -/
def source : PathPart → List Char
  | .literal text _ => text
  | .param name _ => reference "params".toList name

end PathPart

/-- The text of a path whose parts have these texts. -/
def pathText (text : PathPart → List Char) (parts : List PathPart) : List Char :=
  parts.flatMap fun part => '/' :: text part

theorem pathText_cons (text : PathPart → List Char) (part : PathPart) (rest : List PathPart) :
    pathText text (part :: rest) = '/' :: (text part ++ pathText text rest) := by
  rw [pathText, List.flatMap_cons, List.cons_append]
  rfl

/-- A character of a name is no brace. -/
theorem ne_brace_of_paramChar {c : Char} (accepted : paramChar c = true) : c ≠ '{' ∧ c ≠ '}' := by
  constructor <;> rintro rfl <;> cases accepted

/-- A parameter name has no brace. -/
theorem brace_notMem_of_isParamName {name : List Char} (named : isParamName name = true) :
    '{' ∉ name ∧ '}' ∉ name := by
  have all := List.all_eq_true.mp ((Bool.and_eq_true _ _).mp named).2
  exact ⟨fun member => (ne_brace_of_paramChar (all _ member)).1 rfl,
    fun member => (ne_brace_of_paramChar (all _ member)).2 rfl⟩

/-- A path of a URL has no braces. -/
theorem brace_notMem_of_literalPart {text : List Char} (plain : literalPart text = true) :
    '{' ∉ text ∧ '}' ∉ text := by
  simp only [literalPart, Bool.and_eq_true, validEncoded] at plain
  have all := List.all_eq_true.mp plain.1.1.1
  constructor
  · intro member
    have impossible := all _ member
    revert impossible
    decide
  · intro member
    have impossible := all _ member
    revert impossible
    decide

/-! ### What the import writes -/

/-- The match of `paramPattern` at a parameter. -/
theorem matchFront_param {name : List Char} (named : isParamName name = true) (rest : List Char) :
    ∃ captures, paramPattern.matchFront ('{' :: (name ++ '}' :: rest)) = some (captures, rest) ∧
      groupOf captures = name := by
  have all := ((Bool.and_eq_true _ _).mp named).2
  have run : (name ++ '}' :: rest).takeWhile paramChar = name := by
    rw [takeWhile_append_stop (by decide)]
    exact List.takeWhile_eq_self_iff.mpr (List.all_eq_true.mp all)
  have after : (name ++ '}' :: rest).dropWhile paramChar = '}' :: rest := by
    rw [dropWhile_append_stop (by decide),
      List.dropWhile_eq_nil_iff.mpr (List.all_eq_true.mp all), List.nil_append]
  rw [matchFront_paramPattern, run, after]
  cases name with
  | nil => cases named
  | cons first others =>
      have start := ((Bool.and_eq_true _ _).mp named).1
      rw [List.head?_cons, Option.any_some, paramStart_eq, Bool.and_eq_true, Bool.not_eq_true']
        at start
      exact ⟨[['{'], [first], others, ['}']], if_neg (by simp [start.2]), rfl⟩

section Replace

variable (replacement : List (List Char) → List Char)

/-- A text without an opening brace is kept. -/
theorem replaceAll_append_of_notMem {text : List Char} (free : '{' ∉ text) (rest : List Char) :
    paramPattern.replaceAll replacement (text ++ rest) =
      text ++ paramPattern.replaceAll replacement rest := by
  induction text with
  | nil => rfl
  | cons c text ih =>
      rw [List.mem_cons, not_or] at free
      have absent : paramPattern.matchFront (c :: (text ++ rest)) = none := by
        rw [ClassPattern.matchFront, matchItems]
        exact if_neg (by simpa [paramPattern] using fun same => free.1 same.symm)
      rw [List.cons_append, ClassPattern.replaceAll, paramPattern.scan_cons_of_none absent]
      exact congrArg (c :: ·) (ih free.2)

/-- A parameter is replaced. -/
theorem replaceAll_param {name : List Char} (named : isParamName name = true) (rest : List Char) :
    ∃ captures, groupOf captures = name ∧
      paramPattern.replaceAll replacement ('{' :: (name ++ '}' :: rest)) =
        replacement captures ++ paramPattern.replaceAll replacement rest := by
  obtain ⟨captures, matched, isName⟩ := matchFront_param named rest
  refine ⟨captures, isName, ?_⟩
  rw [ClassPattern.replaceAll, paramPattern.scan_cons_of_some matched]
  rfl

end Replace

/-- The import replaces the parameters, part by part. -/
theorem pathTemplate_of_parts {path : String} {parts : List PathPart}
    (isPath : path.toList = pathText PathPart.text parts) :
    pathTemplate path = pathText PathPart.source parts := by
  rw [pathTemplate, isPath]
  clear isPath
  induction parts with
  | nil => rfl
  | cons part rest ih =>
      rw [pathText_cons, pathText_cons, ← List.singleton_append,
        replaceAll_append_of_notMem _ (by decide)]
      cases part with
      | literal text plain =>
          rw [PathPart.text, replaceAll_append_of_notMem _ (brace_notMem_of_literalPart plain).1, ih]
          rfl
      | param name named =>
          have isText : (PathPart.param name named).text ++ pathText PathPart.text rest =
              '{' :: (name ++ '}' :: pathText PathPart.text rest) := by simp [PathPart.text]
          obtain ⟨captures, isName, replaced⟩ := replaceAll_param
            (fun captures => reference "params".toList (groupOf captures)) named
            (pathText PathPart.text rest)
          rw [isText, replaced, isName, ih]
          rfl

/-! ### The template that is written -/

/-- `req.field.name` in a hole. -/
def memberHole (field name : List Char) (free : '}' ∉ field ∧ '}' ∉ name) : Hole where
  text := [' ', 'r', 'e', 'q', '.'] ++ field ++ '.' :: name ++ [' ']
  closed := by
    refine pairFree_of_not_mem ?_ ['}']
    simp [free.1, free.2]

theorem source_memberHole (field name : List Char) (free : '}' ∉ field ∧ '}' ∉ name) :
    (memberHole field name free).source = reference field name := by
  simp [Hole.source, memberHole, reference]

/-- A name has no spaces. -/
theorem isSpace_of_paramChar {c : Char} (accepted : paramChar c = true) :
    GoStrings.isSpace c = false := by
  have ascii := lt_of_paramChar accepted
  have low : ¬ '\u2000' ≤ c := by
    intro high
    have := UInt32.le_iff_toNat_le.mp high
    change 8192 ≤ c.toNat at this
    omega
  rw [GoStrings.isSpace, Bool.or_eq_false_iff]
  refine ⟨?_, by simp [low]⟩
  rw [decide_eq_false_iff_not]
  intro member
  simp only [List.mem_cons, List.not_mem_nil, or_false] at member
  rcases member with rfl | rfl | rfl | rfl | rfl | rfl | rfl | rfl | rfl | rfl | rfl | rfl | rfl | rfl
    <;> revert accepted <;> decide

/-- The expression of a hole, without the spaces around it. -/
theorem expr_memberHole {field name : List Char} (free : '}' ∉ field ∧ '}' ∉ name)
    (named : isParamName name = true) :
    (memberHole field name free).expr =
      "req." ++ String.ofList field ++ "." ++ String.ofList name := by
  have all := List.all_eq_true.mp ((Bool.and_eq_true _ _).mp named).2
  obtain ⟨front, last, rfl⟩ : ∃ front last, name = front ++ [last] := by
    rcases List.eq_nil_or_concat name with rfl | ⟨front, last, same⟩
    · cases named
    · exact ⟨front, last, by rw [same, List.concat_eq_append]⟩
  have noSpace := isSpace_of_paramChar (all last (by simp))
  have trimmed : GoStrings.trimSpace (memberHole field (front ++ [last]) free).text =
      ['r', 'e', 'q', '.'] ++ field ++ '.' :: front ++ [last] := by
    have start : (memberHole field (front ++ [last]) free).text.dropWhile GoStrings.isSpace =
        ['r', 'e', 'q', '.'] ++ field ++ '.' :: front ++ [last] ++ [' '] := by
      simp only [memberHole, List.cons_append, List.nil_append]
      rw [List.dropWhile_cons_of_pos (by decide), List.dropWhile_cons_of_neg (by decide)]
      simp
    rw [GoStrings.trimSpace, start, List.rdropWhile_concat_pos _ _ _ (by decide),
      List.rdropWhile_concat_neg _ _ _ (by simp [noSpace])]
  rw [Hole.expr, trimmed]
  apply String.toList_inj.mp
  simp

theorem brace_notMem_params : '}' ∉ "params".toList := by decide

/-- The hole of a parameter. -/
def paramHole (name : List Char) (named : isParamName name = true) : Hole :=
  memberHole "params".toList name ⟨brace_notMem_params, (brace_notMem_of_isParamName named).2⟩

/-- The name in the hole of a member. -/
def Hole.memberName (field : List Char) (hole : Hole) : List Char :=
  (hole.text.drop (field.length + 6)).dropLast

/-- The hole of a field reads that field. -/
theorem memberName_memberHole (field name : List Char) (free : '}' ∉ field ∧ '}' ∉ name) :
    Hole.memberName field (memberHole field name free) = name := by
  have split : (memberHole field name free).text =
      ([' ', 'r', 'e', 'q', '.'] ++ field ++ ['.']) ++ (name ++ [' ']) := by
    simp [memberHole]
  have long : ([' ', 'r', 'e', 'q', '.'] ++ field ++ ['.']).length = field.length + 6 := by
    simp
  rw [Hole.memberName, split, ← long, List.drop_left, List.dropLast_concat]

namespace PathPart

def pieces : PathPart → List TemplatePiece
  | .literal text _ => [.text ('/' :: text)]
  | .param name named => [.text ['/'], .hole (paramHole name named)]

end PathPart

/-- The pieces of the template. -/
def pathPieces (parts : List PathPart) : List TemplatePiece := parts.flatMap PathPart.pieces

/-- The pieces of a path render as its template. -/
theorem renderPieces_pathPieces (parts : List PathPart) :
    renderPieces Hole.source (pathPieces parts) = pathText PathPart.source parts := by
  induction parts with
  | nil => rfl
  | cons part rest ih =>
      rw [pathPieces, List.flatMap_cons, renderPieces_append, pathText_cons]
      change _ ++ renderPieces Hole.source (pathPieces rest) = _
      rw [ih]
      cases part with
      | literal text plain => simp [PathPart.pieces, PathPart.source]
      | param name named =>
          simp [PathPart.pieces, PathPart.source, paramHole, source_memberHole]

/-- The texts between the holes of a path open no hole. -/
theorem textsPlain_pathPieces (parts : List PathPart) : textsPlain (pathPieces parts) = true := by
  induction parts with
  | nil => rfl
  | cons part rest ih =>
      cases part with
      | literal text plain =>
          have free : '{' ∉ '/' :: text := by
            simpa using (brace_notMem_of_literalPart plain).1
          exact (textsPlain_of_not_mem free _).trans ih
      | param name named =>
          -- the slash and the hole behind it
          exact (textsPlain_of_not_mem (by decide) _).trans ih

/-- The holes of a path are those of its parameters. -/
theorem mem_holesOf_pathPieces {parts : List PathPart} {hole : Hole}
    (member : hole ∈ holesOf (pathPieces parts)) :
    ∃ name named, .param name named ∈ parts ∧ hole = paramHole name named := by
  obtain ⟨piece, isPiece, isHole⟩ := List.mem_filterMap.mp member
  obtain ⟨part, isPart, inPart⟩ := List.mem_flatMap.mp isPiece
  cases part with
  | literal text plain =>
      cases List.mem_singleton.mp inPart
      cases isHole
  | param name named =>
      rcases List.mem_pair.mp inPart with rfl | rfl
      · cases isHole
      · cases isHole
        exact ⟨name, named, isPart, rfl⟩

/-! ### What templates compile and evaluate to -/

section Template

variable {compiler : ExprCompiler} {stepNames : List String} {raw : String}

/-- A template whose holes compile is compiled, and refers to the steps of its holes. -/
theorem exists_segments (raw : String) {pieces : List TemplatePiece} (plain : textsPlain pieces = true)
    (compiles : ∀ hole ∈ holesOf pieces, ∃ segment,
      compileExpression compiler stepNames hole.expr = .ok segment ∧
        segment.stepDeps compiler = [])
    (text : List Char) :
    ∃ segments, parseLiteral compiler stepNames raw text (renderPieces Hole.source pieces) =
        .ok segments ∧ ∀ segment ∈ segments, segment.stepDeps compiler = [] := by
  have literal (text : List Char) :
      ∀ segment ∈ literalSegment text, segment.stepDeps compiler = [] := by
    intro segment member
    unfold literalSegment at member
    split at member
    · cases member
    · cases List.mem_singleton.mp member
      rfl
  induction pieces generalizing text with
  | nil => exact ⟨literalSegment text, rfl, literal text⟩
  | cons piece rest ih =>
      cases piece with
      | text chars =>
          rw [textsPlain, Bool.and_eq_true] at plain
          obtain ⟨segments, parsed, none_⟩ := ih plain.2 compiles (text ++ chars)
          refine ⟨segments, ?_, none_⟩
          rw [renderPieces_text, parseLiteral_text _ _ _ _ _ plain.1]
          exact parsed
      | hole slot =>
          obtain ⟨segment, compiled, here⟩ := compiles slot List.mem_cons_self
          obtain ⟨segments, parsed, none_⟩ := ih plain
            (fun other member => compiles other (List.mem_cons_of_mem _ member)) []
          refine ⟨literalSegment text ++ segment :: segments, ?_, ?_⟩
          · have shape : renderPieces Hole.source (.hole slot :: rest) =
                '{' :: '{' :: (slot.text ++ '}' :: '}' :: renderPieces Hole.source rest) := by
              simp [Hole.source]
            rw [shape, parseLiteral, parseExpression_text _ _ slot.closed, List.nil_append,
              parseExpression, parsed]
            rw [Hole.expr] at compiled
            rw [compiled]
            rfl
          · intro other member
            rcases List.mem_append.mp member with early | late
            · exact literal text other early
            · rcases List.mem_cons.mp late with rfl | late
              · exact here
              · exact none_ other late

variable {Value Error Scope : Type} {operators : Operators Value Error Scope}
  {printer : Printer Value} {env : Env Value}

/-- A piece with the value of its hole. -/
def pieceSymbols (values : Hole → List UInt8) : TemplatePiece → List Symbol
  | .text chars => chars.map .literal
  | .hole slot => [.value (values slot)]

/-- Literal text evaluates to its characters. -/
theorem evalSymbols_literalSegment (text : List Char) (segments : List Segment) :
    evalSymbols operators printer env (literalSegment text ++ segments) =
      (evalSymbols operators printer env segments).map (text.map .literal ++ ·) := by
  unfold literalSegment
  split
  · next empty =>
      subst empty
      rw [List.nil_append]
      cases evalSymbols operators printer env segments <;> rfl
  · rw [List.cons_append, List.nil_append, evalSymbols, String.toList_ofList]
    cases evalSymbols operators printer env segments <;> rfl

/-- A template evaluates to its texts and the values of its holes. -/
theorem evalSymbols_of_parseLiteral {values : Hole → List UInt8} {pieces : List TemplatePiece}
    (plain : textsPlain pieces = true)
    (evaluates : Evaluates operators printer env compiler stepNames (holesOf pieces) values)
    (text : List Char) {segments : List Segment}
    (parsed : parseLiteral compiler stepNames raw text (renderPieces Hole.source pieces) =
      .ok segments) :
    evalSymbols operators printer env segments =
      .ok (text.map .literal ++ pieces.flatMap (pieceSymbols values)) := by
  induction pieces generalizing text segments with
  | nil =>
      cases parsed
      rw [← List.append_nil (literalSegment text), evalSymbols_literalSegment]
      rfl
  | cons piece rest ih =>
      cases piece with
      | text chars =>
          rw [textsPlain, Bool.and_eq_true] at plain
          rw [renderPieces_text, parseLiteral_text _ _ _ _ _ plain.1] at parsed
          rw [ih plain.2 evaluates _ parsed]
          simp [pieceSymbols]
      | hole slot =>
          rw [renderPieces_hole, Hole.source, List.cons_append, List.cons_append] at parsed
          obtain ⟨inside, isInside, rfl⟩ := parseLiteral_open_iff.mp parsed
          rw [List.append_assoc, List.cons_append, List.cons_append, List.nil_append,
            parseExpression_text _ _ slot.closed, List.nil_append] at isInside
          obtain ⟨segment, later, compiled, isLater, rfl⟩ := parseExpression_close_iff.mp isInside
          obtain ⟨expr, node, rfl⟩ := program_of_compileExpression compiled
          obtain ⟨value, ran, isBytes⟩ := evaluates slot List.mem_cons_self expr node compiled
          have following := ih plain
            (fun other member => evaluates other (List.mem_cons_of_mem _ member)) [] isLater
          rw [evalSymbols_literalSegment, evalSymbols, ran, following]
          simp [Except.map, bind, Except.bind, pure, Except.pure, pieceSymbols, isBytes]

end Template

end Restitch.Import
