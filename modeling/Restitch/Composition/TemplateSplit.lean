import Restitch.Composition.TemplateText
import Restitch.Std.Results

/-!
# A template is cut without loss

Every text has braces that are never closed, or it is cut into texts and holes in one
way: the first `{{` opens a hole and the next `}}` closes it. `parseSegments` finds this
cut, and `EvalString` writes one piece of text for each part of it.
-/

namespace Restitch.Composition

open Restitch.Expr Restitch.Std

/-- Some `{{` has no `}}` behind it. -/
def Unclosed (raw : List Char) : Prop :=
  ∃ before after, raw = before ++ '{' :: '{' :: after ∧ ¬ ['}', '}'] <:+: after

def TemplatePiece.isHole : TemplatePiece → Bool
  | .text _ => false
  | .hole _ => true

/-- Texts and holes that a text is made of: the first `{{` of what is left opens the
next hole, the next `}}` closes it, and between two holes there is one text at most. -/
structure IsSplit (raw : List Char) (pieces : List TemplatePiece) : Prop where
  whole : renderPieces Hole.source pieces = raw
  plain : textsPlain pieces = true
  nonempty : ∀ chars, .text chars ∈ pieces → chars ≠ []
  apart : pieces.IsChain fun first second => first.isHole = true ∨ second.isHole = true

section Pairs

variable {c : Char}

/-- A text is free of pairs exactly if no pair is in it. -/
theorem pairFree_iff {list : List Char} : pairFree c list = true ↔ ¬ [c, c] <:+: list := by
  induction list with
  | nil => simp [pairFree]
  | cons first rest ih =>
      cases rest with
      | nil => simp [pairFree, List.infix_cons_iff]
      | cons second rest =>
          rw [List.infix_cons_iff, not_or, ← ih, pairFree, Bool.and_eq_true]
          refine and_congr ?_ Iff.rfl
          simp only [Bool.not_eq_true', Bool.and_eq_false_iff, decide_eq_false_iff_not,
            List.cons_prefix_cons, List.nil_prefix, and_true, not_and_or]
          exact or_congr (not_congr eq_comm) (not_congr eq_comm)

/-- A character occurs nowhere twice in a row, or there is a first place where it does. -/
theorem pairFree_or_split (c : Char) (list : List Char) :
    pairFree c list = true ∨
      ∃ before after, list = before ++ c :: c :: after ∧ pairFree c (before ++ [c]) = true := by
  induction list with
  | nil => exact .inl rfl
  | cons first rest ih =>
      cases rest with
      | nil => exact .inl rfl
      | cons second rest =>
          by_cases here : first = c ∧ second = c
          · obtain ⟨rfl, rfl⟩ := here
            exact .inr ⟨[], rest, rfl, rfl⟩
          · have single : (!(decide (first = c) && decide (second = c))) = true := by
              rw [Bool.not_eq_true', Bool.and_eq_false_iff, decide_eq_false_iff_not,
                decide_eq_false_iff_not, ← not_and_or]
              exact here
            rcases ih with free | ⟨before, after, shape, free⟩
            · exact .inl (by rw [pairFree, single, free]; rfl)
            · refine .inr ⟨first :: before, after, by rw [shape]; rfl, ?_⟩
              cases before with
              | nil =>
                  obtain ⟨rfl, -⟩ := List.cons.inj shape
                  simpa [pairFree] using here
              | cons third before =>
                  obtain ⟨rfl, -⟩ := List.cons.inj shape
                  rw [List.cons_append, List.cons_append, pairFree, single]
                  exact free

end Pairs

/-- Two pairs of different characters do not overlap. -/
theorem exists_later_of_pairs {c d : Char} (different : c ≠ d) {between rest after : List Char}
    (same : c :: c :: rest = between ++ d :: d :: after) :
    ∃ later, rest = later ++ d :: d :: after := by
  cases between with
  | nil => exact absurd (List.cons.inj same).1 different
  | cons first between =>
      cases between with
      | nil => exact absurd (List.cons.inj (List.cons.inj same).2).1 different
      | cons second later => exact ⟨later, (List.cons.inj (List.cons.inj same).2).2⟩

/-- Braces that open are in front of braces that close, or behind them. -/
theorem opens_before_or_after {before after text rest : List Char}
    (same : text ++ '}' :: '}' :: rest = before ++ '{' :: '{' :: after) :
    (∃ between, after = between ++ '}' :: '}' :: rest) ∨
      ∃ later, rest = later ++ '{' :: '{' :: after := by
  rcases List.append_eq_append_iff.mp same with ⟨between, -, shape⟩ | ⟨between, -, shape⟩
  · exact .inr (exists_later_of_pairs (by decide) shape)
  · exact .inl (exists_later_of_pairs (by decide) shape)

/-- Two neighbours are in the text. -/
theorem infix_of_append {c d : Char} (before after : List Char) :
    [c, d] <:+: before ++ c :: d :: after :=
  ⟨before, after, by simp⟩

/-- What is unclosed behind closing braces is unclosed. -/
theorem unclosed_append_iff (text rest : List Char) :
    Unclosed (text ++ '}' :: '}' :: rest) ↔ Unclosed rest := by
  constructor
  · rintro ⟨before, after, same, never⟩
    rcases opens_before_or_after same with ⟨between, rfl⟩ | ⟨later, rfl⟩
    · exact absurd (infix_of_append between rest) never
    · exact ⟨later, after, rfl, never⟩
  · rintro ⟨before, after, rfl, never⟩
    exact ⟨text ++ '}' :: '}' :: before, after, by simp, never⟩

section Split

/-- A text in front of a hole, unless it is empty. -/
def textPiece (chars : List Char) : List TemplatePiece :=
  if chars = [] then [] else [.text chars]

/-- A text piece renders as its text, also if it is left out. -/
theorem renderPieces_textPiece (fill : Hole → List Char) (chars : List Char)
    (rest : List TemplatePiece) :
    renderPieces fill (textPiece chars ++ rest) = chars ++ renderPieces fill rest := by
  unfold textPiece
  split
  · rename_i empty
    rw [empty]
    rfl
  · rfl

/-- A text without holes. -/
theorem isSplit_text {chars : List Char} (free : pairFree '{' chars = true) :
    IsSplit chars (textPiece chars) := by
  have whole := renderPieces_textPiece Hole.source chars []
  rw [List.append_nil, renderPieces_nil, List.append_nil] at whole
  unfold textPiece at whole ⊢
  split
  · rename_i empty
    rw [if_pos empty] at whole
    exact ⟨whole, rfl, by simp, .nil⟩
  · rename_i nonempty
    rw [if_neg nonempty] at whole
    refine ⟨whole, ?_, ?_, .singleton _⟩
    · simpa [textsPlain] using free
    · intro others member
      cases List.mem_singleton.mp member
      exact nonempty

/-- A text, a hole, and what is behind it. -/
theorem IsSplit.open {rest : List Char} {pieces : List TemplatePiece} (split : IsSplit rest pieces)
    {chars : List Char} (free : pairFree '{' (chars ++ ['{']) = true) (hole : Hole) :
    IsSplit (chars ++ hole.source ++ rest) (textPiece chars ++ .hole hole :: pieces) := by
  have later : (TemplatePiece.hole hole :: pieces).IsChain
      fun first second => first.isHole = true ∨ second.isHole = true := by
    rw [List.isChain_cons]
    exact ⟨fun _ _ => .inl rfl, split.apart⟩
  refine ⟨?_, ?_, ?_, ?_⟩
  · rw [renderPieces_textPiece, renderPieces_hole, split.whole, List.append_assoc]
  · unfold textPiece
    split
    · exact split.plain
    · rw [List.singleton_append, textsPlain, renderPieces_hole, textsPlain, split.plain]
      simpa [Hole.source] using free
  · intro others member
    rcases List.mem_append.mp member with front | behind
    · unfold textPiece at front
      split at front
      · cases front
      · cases List.mem_singleton.mp front
        assumption
    · rcases List.mem_cons.mp behind with impossible | inRest
      · cases impossible
      · exact split.nonempty others inRest
  · unfold textPiece
    split
    · exact later
    · rw [List.singleton_append, List.isChain_cons]
      refine ⟨?_, later⟩
      intro second isHead
      cases isHead
      exact .inr rfl

/-- Braces that open behind a plain text open behind all of it. -/
theorem unclosed_of_plain {chars rest : List Char}
    (free : pairFree '{' (chars ++ rest.take 1) = true) (unclosed : Unclosed (chars ++ rest)) :
    Unclosed rest := by
  have never := pairFree_iff.mp free
  obtain ⟨before, after, same, open_⟩ := unclosed
  rcases List.append_eq_append_iff.mp same with ⟨between, -, shape⟩ | ⟨between, rfl, shape⟩
  · exact ⟨between, after, shape, open_⟩
  · cases between with
    | nil => exact ⟨[], after, shape.symm, open_⟩
    | cons first between =>
        rw [List.cons_append, List.cons_eq_cons] at shape
        obtain ⟨rfl, shape⟩ := shape
        cases between with
        | nil =>
            rw [List.nil_append] at shape
            refine absurd ⟨before, [], ?_⟩ never
            rw [← shape]
            simp
        | cons second between =>
            rw [List.cons_append, List.cons_eq_cons] at shape
            obtain ⟨rfl, -⟩ := shape
            exact absurd ⟨before, between ++ rest.take 1, by simp⟩ never

/-- A text that is cut into texts and holes has no unclosed braces. -/
theorem not_unclosed_of_textsPlain {pieces : List TemplatePiece}
    (plain : textsPlain pieces = true) : ¬ Unclosed (renderPieces Hole.source pieces) := by
  induction pieces with
  | nil =>
      rintro ⟨before, after, same, -⟩
      simp at same
  | cons piece rest ih =>
      cases piece with
      | text chars =>
          rw [textsPlain, Bool.and_eq_true] at plain
          rw [renderPieces_text]
          exact fun unclosed => ih plain.2 (unclosed_of_plain plain.1 unclosed)
      | hole hole =>
          have shape : renderPieces Hole.source (.hole hole :: rest) =
              ('{' :: '{' :: hole.text) ++ '}' :: '}' :: renderPieces Hole.source rest := by
            simp [Hole.source]
          rw [shape, unclosed_append_iff]
          exact ih plain

end Split

section Parse

variable (compiler : ExprCompiler) (stepNames : List String) (raw : String)

/-- The segment of a piece. -/
def compilePiece : TemplatePiece → Except TemplateError Segment
  | .text chars => .ok (.literal (.ofList chars))
  | .hole hole => compileExpression compiler stepNames hole.expr

/-- A plain text is read up to its end. -/
theorem parseLiteral_text (text rest : List Char) {before : List Char}
    (free : pairFree '{' (text ++ rest.take 1) = true) :
    parseLiteral compiler stepNames raw before (text ++ rest) =
      parseLiteral compiler stepNames raw (before ++ text) rest := by
  induction text generalizing before with
  | nil => rw [List.nil_append, List.append_nil]
  | cons c text ih =>
      rw [List.cons_append] at free
      obtain ⟨single, free⟩ := pairFree_cons free
      have alone : ∀ tail, c = '{' → text ++ rest = '{' :: tail → False := by
        intro tail isBrace isTail
        apply single isBrace
        rw [head?_append_take, isTail]
        rfl
      rw [List.cons_append, parseLiteral.eq_2 _ _ _ _ _ _ alone, ih free, List.append_assoc]
      rfl

/-- An expression without closing braces is refused. -/
theorem parseExpression_unclosed (text : List Char) {before : List Char}
    (free : pairFree '}' text = true) :
    parseExpression compiler stepNames raw before text = .error (.unclosed raw) := by
  induction text generalizing before with
  | nil => rfl
  | cons c text ih =>
      obtain ⟨single, free⟩ := pairFree_cons free
      have alone : ∀ tail, c = '}' → text = '}' :: tail → False := by
        intro tail isBrace isTail
        apply single isBrace
        rw [isTail]
        rfl
      rw [parseExpression.eq_2 _ _ _ _ _ _ alone]
      exact ih free

/-- The pieces of a text compile one by one to what the text parses into. -/
theorem parseLiteral_renderPieces {pieces : List TemplatePiece} (plain : textsPlain pieces = true)
    (nonempty : ∀ chars, .text chars ∈ pieces → chars ≠ [])
    (apart : pieces.IsChain fun first second => first.isHole = true ∨ second.isHole = true)
    {before : List Char} (fresh : before = [] ∨ ∀ piece ∈ pieces.head?, piece.isHole = true) :
    parseLiteral compiler stepNames raw before (renderPieces Hole.source pieces) =
      (pieces.mapM (compilePiece compiler stepNames)).map (literalSegment before ++ ·) := by
  induction pieces generalizing before with
  | nil =>
      rw [renderPieces_nil, parseLiteral, List.mapM_nil]
      exact congrArg Except.ok (List.append_nil _).symm
  | cons piece rest ih =>
      have later := fun chars member => nonempty chars (List.mem_cons_of_mem piece member)
      rw [List.isChain_cons] at apart
      cases piece with
      | text chars =>
          rw [textsPlain, Bool.and_eq_true] at plain
          have isFresh : before = [] := by
            rcases fresh with empty | hole
            · exact empty
            · cases hole _ rfl
          subst isFresh
          have holes : ∀ piece ∈ rest.head?, piece.isHole = true := by
            intro piece isHead
            rcases apart.1 piece isHead with impossible | isHole
            · cases impossible
            · exact isHole
          rw [renderPieces_text, parseLiteral_text _ _ _ _ _ plain.1, List.nil_append,
            ih plain.2 later apart.2 (.inr holes), List.mapM_cons]
          have literal : literalSegment chars = [.literal (.ofList chars)] :=
            if_neg (nonempty chars List.mem_cons_self)
          rw [literal]
          cases rest.mapM (compilePiece compiler stepNames) <;> rfl
      | hole hole =>
          have shape : renderPieces Hole.source (.hole hole :: rest) =
              '{' :: '{' :: (hole.text ++ '}' :: '}' :: renderPieces Hole.source rest) := by
            simp [Hole.source]
          rw [shape, parseLiteral, parseExpression_text _ _ hole.closed, List.nil_append,
            parseExpression, ih plain later apart.2 (.inl rfl), List.mapM_cons, compilePiece]
          unfold Hole.expr
          cases compileExpression compiler stepNames (.ofList (GoStrings.trimSpace hole.text)) with
          | error error => rfl
          | ok segment =>
              cases rest.mapM (compilePiece compiler stepNames) <;> rfl

/-- A text is cut into texts and holes, or it has unclosed braces and is refused. -/
theorem split_or_refused (chars : List Char) :
    (∃ pieces, IsSplit chars pieces) ∨
      (Unclosed chars ∧ ∃ error, parseLiteral compiler stepNames raw [] chars = .error error) := by
  generalize bound : chars.length = n
  induction n using Nat.strongRecOn generalizing chars with
  | ind n ih =>
      rcases pairFree_or_split '{' chars with free | ⟨text, inside, rfl, free⟩
      · exact .inl ⟨_, isSplit_text free⟩
      · have opened : parseLiteral compiler stepNames raw [] (text ++ '{' :: '{' :: inside) =
            parseLiteral compiler stepNames raw text ('{' :: '{' :: inside) := by
          rw [parseLiteral_text _ _ _ _ _ free, List.nil_append]
        rw [opened, parseLiteral]
        rcases pairFree_or_split '}' inside with never | ⟨expr, rest, rfl, closed⟩
        · refine .inr ⟨⟨text, inside, rfl, pairFree_iff.mp never⟩, .unclosed raw, ?_⟩
          rw [parseExpression_unclosed _ _ _ _ never]
          rfl
        · have shape : text ++ '{' :: '{' :: (expr ++ '}' :: '}' :: rest) =
              text ++ (⟨expr, closed⟩ : Hole).source ++ rest := by
            simp [Hole.source]
          have shorter : rest.length < n := by
            rw [← bound]
            simp only [List.length_append, List.length_cons]
            omega
          rcases ih rest.length shorter rest rfl with ⟨pieces, split⟩ | ⟨unclosed, error, refused⟩
          · left
            rw [shape]
            exact ⟨_, split.open free ⟨expr, closed⟩⟩
          · right
            refine ⟨?_, ?_⟩
            · have behind := (unclosed_append_iff (text ++ '{' :: '{' :: expr) rest).mpr unclosed
              rwa [List.append_assoc] at behind
            · rw [parseExpression_text _ _ closed, parseExpression, refused]
              cases compileExpression compiler stepNames
                (.ofList (GoStrings.trimSpace ([] ++ expr))) with
              | error detail => exact ⟨detail, rfl⟩
              | ok segment => exact ⟨error, rfl⟩

variable {compiler stepNames raw}

/-- The pieces of a text compile one by one to its segments. -/
theorem parseSegments_of_split {raw : String} {pieces : List TemplatePiece}
    (split : IsSplit raw.toList pieces) :
    parseSegments compiler stepNames raw = pieces.mapM (compilePiece compiler stepNames) := by
  have parsed := parseLiteral_renderPieces compiler stepNames raw split.plain split.nonempty
    split.apart (.inl rfl)
  rw [split.whole] at parsed
  rw [parseSegments, parsed]
  cases pieces.mapM (compilePiece compiler stepNames) <;> rfl

/-- A piece does not compile exactly if one of the holes does not. -/
theorem compilePiece_eq_error_iff {pieces : List TemplatePiece} :
    (∃ piece ∈ pieces, ∃ error, compilePiece compiler stepNames piece = .error error) ↔
      ∃ hole ∈ holesOf pieces, ∃ error,
        compileExpression compiler stepNames hole.expr = .error error := by
  constructor
  · rintro ⟨piece, member, error, refused⟩
    cases piece with
    | text chars => cases refused
    | hole hole => exact ⟨hole, List.mem_filterMap.mpr ⟨_, member, rfl⟩, error, refused⟩
  · rintro ⟨hole, member, error, refused⟩
    obtain ⟨piece, listed, isHole⟩ := List.mem_filterMap.mp member
    cases piece with
    | text chars => cases isHole
    | hole other =>
        cases isHole
        exact ⟨_, listed, error, refused⟩

/-- Parsing fails exactly with unclosed braces or an expression that is refused. -/
theorem parseSegments_eq_error_iff {raw : String} :
    (∃ error, parseSegments compiler stepNames raw = .error error) ↔
      Unclosed raw.toList ∨ ∃ pieces, IsSplit raw.toList pieces ∧
        ∃ hole ∈ holesOf pieces, ∃ error,
          compileExpression compiler stepNames hole.expr = .error error := by
  rcases split_or_refused compiler stepNames raw raw.toList with ⟨pieces, split⟩ | ⟨unclosed, refused⟩
  · have closed : ¬ Unclosed raw.toList := by
      rw [← split.whole]
      exact not_unclosed_of_textsPlain split.plain
    rw [or_iff_right closed, parseSegments_of_split split, Except.mapM_eq_error_iff,
      compilePiece_eq_error_iff]
    constructor
    · exact fun refused => ⟨pieces, split, refused⟩
    · rintro ⟨others, split', refused⟩
      rw [← compilePiece_eq_error_iff, ← Except.mapM_eq_error_iff] at refused ⊢
      rwa [← parseSegments_of_split split, parseSegments_of_split split']
  · exact iff_of_true refused (.inl unclosed)

/-- A template that parses is split into pieces that compile to its segments. -/
theorem exists_split_of_parseSegments {raw : String} {segments : List Segment}
    (parsed : parseSegments compiler stepNames raw = .ok segments) :
    ∃ pieces, IsSplit raw.toList pieces ∧
      List.Forall₂ (fun piece segment => compilePiece compiler stepNames piece = .ok segment)
        pieces segments := by
  rcases split_or_refused compiler stepNames raw raw.toList with
    ⟨pieces, split⟩ | ⟨-, error, refused⟩
  · refine ⟨pieces, split, Except.mapM_eq_ok_iff.mp ?_⟩
    rw [← parseSegments_of_split split, parsed]
  · rw [parseSegments, refused] at parsed
    cases parsed

/-- A text of a cut has no braces that open in it. -/
theorem not_opens_of_textsPlain {pieces : List TemplatePiece} (plain : textsPlain pieces = true)
    {chars : List Char} (member : .text chars ∈ pieces) : ¬ ['{', '{'] <:+: chars := by
  induction pieces with
  | nil => cases member
  | cons piece rest ih =>
      cases piece with
      | text others =>
          rw [textsPlain, Bool.and_eq_true] at plain
          rcases List.mem_cons.mp member with same | later
          · cases same
            exact fun opens => pairFree_iff.mp plain.1
              (opens.trans (List.infix_append' [] chars _))
          · exact ih plain.2 later
      | hole hole =>
          rcases List.mem_cons.mp member with impossible | later
          · cases impossible
          · exact ih plain later

/-- A hole does not close itself. -/
theorem Hole.not_closes (hole : Hole) : ¬ ['}', '}'] <:+: hole.text :=
  fun closes => pairFree_iff.mp hole.closed (closes.trans (List.infix_append' [] hole.text _))

end Parse

section Eval

variable {Value Error Scope : Type} (operators : Operators Value Error Scope)
  (printer : Printer Value) (env : Env Value)

/-- What a segment writes: a literal itself, an expression its value, escaped. -/
def Segment.Writes (mode : EscapeMode) (text : String) : Segment → Prop
  | .literal own => text = own
  | .program expr node => ∃ value, runProgram operators env expr node = .ok value ∧
      (escapeValue printer expr value mode : Except (EvalError Error) String) = .ok text

/-- A segment evaluates to what it writes. -/
theorem Segment.evalString_eq_ok_iff {mode : EscapeMode} {text : String} (segment : Segment) :
    segment.evalString operators printer env mode = .ok text ↔
      segment.Writes operators printer env mode text := by
  cases segment with
  | literal own =>
      constructor
      · intro evaluated
        cases evaluated
        rfl
      · rintro rfl
        rfl
  | program expr node =>
      constructor
      · exact Except.bind_eq_ok
      · rintro ⟨value, isValue, escaped⟩
        rw [Segment.evalString, isValue]
        exact escaped

/-- Segments write one text each, in order. -/
theorem evalSegments_eq_ok_iff {mode : EscapeMode} {segments : List Segment} {result : String} :
    evalSegments operators printer env mode segments = .ok result ↔
      ∃ texts, List.Forall₂ (fun segment text => segment.Writes operators printer env mode text)
        segments texts ∧ result = texts.foldr (· ++ ·) "" := by
  induction segments generalizing result with
  | nil =>
      simp only [List.forall₂_nil_left_iff, exists_eq_left]
      constructor
      · intro evaluated
        cases evaluated
        rfl
      · rintro rfl
        rfl
  | cons segment rest ih =>
      constructor
      · intro evaluated
        obtain ⟨text, isText, evaluated⟩ := Except.bind_eq_ok evaluated
        obtain ⟨later, isLater, evaluated⟩ := Except.bind_eq_ok evaluated
        cases evaluated
        obtain ⟨texts, written, rfl⟩ := ih.mp isLater
        exact ⟨text :: texts, .cons ((segment.evalString_eq_ok_iff ..).mp isText) written, rfl⟩
      · rintro ⟨texts, written, rfl⟩
        cases written with
        | cons isText later =>
            rw [evalSegments, (Segment.evalString_eq_ok_iff ..).mpr isText,
              ih.mpr ⟨_, later, rfl⟩]
            rfl

end Eval

/-- Templates are cut without loss. Segments stand for the pieces that the text is made
of, in order; parsing fails with unclosed braces or a refused expression only; and a
template writes one text for each of its segments. -/
theorem parseSegments_lossless (compiler : ExprCompiler) (stepNames : List String)
    (raw : String) :
    (∀ segments, parseSegments compiler stepNames raw = .ok segments →
      ∃ pieces, IsSplit raw.toList pieces ∧
        List.Forall₂ (fun piece segment => compilePiece compiler stepNames piece = .ok segment)
          pieces segments ∧
        (∀ chars, .text chars ∈ pieces → ¬ ['{', '{'] <:+: chars) ∧
        ∀ hole ∈ holesOf pieces, ¬ ['}', '}'] <:+: hole.text) ∧
    ((∃ error, parseSegments compiler stepNames raw = .error error) ↔
      Unclosed raw.toList ∨ ∃ pieces, IsSplit raw.toList pieces ∧
        ∃ hole ∈ holesOf pieces, ∃ error,
          compileExpression compiler stepNames hole.expr = .error error) ∧
    ∀ {Value Error Scope : Type} (operators : Operators Value Error Scope)
      (printer : Printer Value) (env : Env Value) (mode : EscapeMode) (template : Template)
      (result : String),
      template.evalString operators printer env mode = .ok result ↔
        ∃ texts, List.Forall₂ (fun segment text => segment.Writes operators printer env mode text)
          template.segments texts ∧ result = texts.foldr (· ++ ·) "" := by
  refine ⟨?_, parseSegments_eq_error_iff, ?_⟩
  · intro segments parsed
    obtain ⟨pieces, split, compiled⟩ := exists_split_of_parseSegments parsed
    exact ⟨pieces, split, compiled, fun chars => not_opens_of_textsPlain split.plain,
      fun hole _ => hole.not_closes⟩
  · intro Value Error Scope operators printer env mode template result
    exact evalSegments_eq_ok_iff operators printer env

end Restitch.Composition
