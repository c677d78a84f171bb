import Mathlib.Algebra.GroupWithZero.Nat
import Restitch.Std.GoStrings

/-!
# Environment variables in an artifact (`internal/gwconfig/env.go`)

The expansion of an artifact works on its text, before YAML is read.
-/

namespace Restitch.Gwconfig

open Restitch.Std

/-- `Reference`: the default is there if `HasDefault` is set. -/
structure Reference where
  name : List Char
  default : Option (List Char)
deriving DecidableEq

/-- Why a text is not expanded. -/
inductive ExpandError where
  | dollarAtEnd
  | invalidDollar (offset : Nat)
  | unclosed (offset : Nat)
  | unset (name : List Char)
deriving DecidableEq

def ExpandError.message : ExpandError → String
  | .dollarAtEnd =>
      "invalid '$' at end of string: use $$ for a literal dollar or $\x7bVAR\x7d syntax"
  | .invalidDollar offset =>
      "invalid '$' at offset " ++ toString offset ++
        ": use $$ for a literal dollar or $\x7bVAR\x7d syntax"
  | .unclosed offset => "unclosed $\x7b...\x7d at offset " ++ toString offset
  | .unset name => "environment variable " ++ String.ofList name ++ " is not set"

/-- The reference between the braces. -/
def referenceOf (content : List Char) : Reference :=
  let parts := GoStrings.cut ':' content
  ⟨parts.1, parts.2⟩

universe u

variable {β : Type u}

/-- `scan` from an offset on, after some characters that were read already. `literal` is what
a character that is copied becomes. -/
def scanFrom (literal : Char → β) (replace : Reference → Except ExpandError (List β)) :
    Nat → Nat → List Char → Except ExpandError (List β)
  | _, _, [] => .ok []
  | offset, read + 1, c :: rest => scanFrom literal replace (offset + c.utf8Size) read rest
  | offset, 0, c :: rest =>
      if c ≠ '$' then (scanFrom literal replace (offset + c.utf8Size) 0 rest).map (literal c :: ·)
      else
        match rest with
        | [] => .error .dollarAtEnd
        | next :: after =>
            if next = '$' then (scanFrom literal replace (offset + 1) 1 rest).map (literal '$' :: ·)
            else if next ≠ '\x7b' then .error (.invalidDollar offset)
            else
              match GoStrings.cut '\x7d' after with
              | (_, none) => .error (.unclosed offset)
              | (content, some _) => do
                  let value ← replace (referenceOf content)
                  let later ← scanFrom literal replace (offset + 1) (content.length + 2) rest
                  return value ++ later

/-- `scan`. -/
def scan (text : List Char) (replace : Reference → Except ExpandError (List Char)) :
    Except ExpandError (List Char) :=
  scanFrom id replace 0 0 text

/-- What a reference stands for in an environment. An empty value counts as unset. -/
def lookupReference (lookup : List Char → Option (List Char)) (reference : Reference) :
    Except ExpandError (List Char) :=
  let value := (lookup reference.name).getD []
  if value ≠ [] then .ok value
  else
    match reference.default with
    | some default => .ok default
    | none => .error (.unset reference.name)

/-- `ExpandWith`. -/
def expandWith (text : List Char) (lookup : List Char → Option (List Char)) :
    Except ExpandError (List Char) :=
  scan text (lookupReference lookup)

/-- `References`: the same scan, which keeps the references instead of the text. -/
def references (text : List Char) : Except ExpandError (List Reference) :=
  (scanFrom (fun _ => none) (fun reference => .ok [some reference]) 0 0 text).map
    (List.filterMap id)

/-- `VarName`. -/
def varName : List Char → Bool
  | [] => false
  | first :: rest =>
      (first.isAlpha || first = '_') && rest.all fun c => c.isAlphanum || c = '_'

/-- A unit of what `scan` reads. -/
inductive Piece where
  /-- A character other than `$`. -/
  | plain (c : Char)
  /-- `$$` -/
  | dollar
  | reference (content : List Char)
deriving DecidableEq

def Piece.WellFormed : Piece → Prop
  | .plain c => c ≠ '$'
  | .dollar => True
  | .reference content => '\x7d' ∉ content

def Piece.source : Piece → List Char
  | .plain c => [c]
  | .dollar => ['$', '$']
  | .reference content => '$' :: '\x7b' :: (content ++ ['\x7d'])

section Value

variable (literal : Char → β) (replace : Reference → Except ExpandError (List β))

def Piece.value : Piece → Except ExpandError (List β)
  | .plain c => .ok [literal c]
  | .dollar => .ok [literal '$']
  | .reference content => replace (referenceOf content)

/-- What pieces become when their references are replaced. -/
def fill : List Piece → Except ExpandError (List β)
  | [] => .ok []
  | piece :: rest => do
      let value ← piece.value literal replace
      let later ← fill rest
      return value ++ later

end Value

section Pieces

variable (literal : Char → β) (replace : Reference → Except ExpandError (List β))

/-- The size of a text in bytes. -/
def byteSize (text : List Char) : Nat := (text.map Char.utf8Size).sum

/-- The bytes of a text are those of its parts. -/
theorem byteSize_append (first second : List Char) :
    byteSize (first ++ second) = byteSize first + byteSize second := by
  rw [byteSize, List.map_append, List.sum_append, byteSize, byteSize]

/-- Characters that were read already only move the offset. -/
theorem scanFrom_append (offset : Nat) (read rest : List Char) :
    scanFrom literal replace offset read.length (read ++ rest) =
      scanFrom literal replace (offset + byteSize read) 0 rest := by
  induction read generalizing offset with
  | nil => rfl
  | cons c later ih =>
      rw [List.length_cons, List.cons_append, scanFrom, ih, byteSize, byteSize, List.map_cons,
        List.sum_cons, Nat.add_assoc]

/-- One piece is read at a time. -/
theorem scanFrom_source {piece : Piece} (wellFormed : piece.WellFormed) (offset : Nat)
    (rest : List Char) :
    scanFrom literal replace offset 0 (piece.source ++ rest) = do
      let value ← piece.value literal replace
      let later ← scanFrom literal replace (offset + byteSize piece.source) 0 rest
      return value ++ later := by
  cases piece with
  | plain c =>
      have notDollar : c ≠ '$' := wellFormed
      conv_lhs => unfold Piece.source scanFrom
      dsimp only [List.singleton_append]
      rw [if_pos notDollar]
      change _ = do
        let later ← scanFrom literal replace (offset + c.utf8Size) 0 rest
        return literal c :: later
      cases scanFrom literal replace (offset + c.utf8Size) 0 rest <;> rfl
  | dollar =>
      have skipped := scanFrom_append literal replace (offset + 1) ['$'] rest
      have sizes : offset + 1 + byteSize ['$'] = offset + byteSize (Piece.source .dollar) :=
        Nat.add_assoc offset 1 (byteSize ['$'])
      rw [sizes] at skipped
      conv_lhs => unfold Piece.source scanFrom
      dsimp only [List.cons_append, List.nil_append]
      rw [if_neg (by decide), if_pos rfl]
      refine (congrArg (Except.map (literal '$' :: ·)) skipped).trans ?_
      cases scanFrom literal replace (offset + byteSize (Piece.source .dollar)) 0 rest <;> rfl
  | reference content =>
      have absent : '\x7d' ∉ content := wellFormed
      have skipped := scanFrom_append literal replace (offset + 1) ('\x7b' :: (content ++ ['\x7d'])) rest
      have sizes : offset + 1 + byteSize ('\x7b' :: (content ++ ['\x7d'])) =
          offset + byteSize (Piece.source (.reference content)) :=
        Nat.add_assoc offset 1 (byteSize ('\x7b' :: (content ++ ['\x7d'])))
      have length : ('\x7b' :: (content ++ ['\x7d'])).length = content.length + 2 := by simp
      rw [sizes, length] at skipped
      have cut : GoStrings.cut '\x7d' (content ++ ['\x7d'] ++ rest) = (content, some rest) := by
        rw [List.append_assoc]
        exact GoStrings.cut_append absent
      conv_lhs => unfold Piece.source scanFrom
      dsimp only [List.cons_append]
      rw [if_neg (by decide), if_neg (by decide), if_neg (by decide), cut]
      dsimp only
      rw [← List.cons_append, skipped]
      rfl

/-- Pieces at the start of a text are replaced one after the other. -/
theorem scanFrom_sources {pieces : List Piece} (wellFormed : ∀ piece ∈ pieces, piece.WellFormed)
    (offset : Nat) (rest : List Char) :
    scanFrom literal replace offset 0 (pieces.flatMap Piece.source ++ rest) = do
      let value ← fill literal replace pieces
      let later ← scanFrom literal replace (offset + byteSize (pieces.flatMap Piece.source)) 0 rest
      return value ++ later := by
  induction pieces generalizing offset with
  | nil =>
      rw [List.flatMap_nil, List.nil_append]
      change _ = do
        let later ← scanFrom literal replace offset 0 rest
        return [] ++ later
      cases scanFrom literal replace offset 0 rest <;> rfl
  | cons piece later ih =>
      have size : offset + byteSize piece.source + byteSize (later.flatMap Piece.source) =
          offset + byteSize ((piece :: later).flatMap Piece.source) := by
        rw [List.flatMap_cons, byteSize_append, Nat.add_assoc]
      have scanned := ih (fun piece member => wellFormed piece (.tail _ member))
        (offset + byteSize piece.source)
      rw [size] at scanned
      rw [List.flatMap_cons, List.append_assoc,
        scanFrom_source literal replace (wellFormed piece List.mem_cons_self), scanned, fill,
        ← List.flatMap_cons]
      cases piece.value literal replace with
      | error error => rfl
      | ok value =>
          cases fill literal replace later with
          | error error => rfl
          | ok value =>
              cases scanFrom literal replace
                (offset + byteSize ((piece :: later).flatMap Piece.source)) 0 rest with
              | error error => rfl
              | ok value => simp [Bind.bind, Except.bind, Pure.pure, Except.pure]

/-- A text that scans begins with a piece, unless it is empty. -/
theorem exists_piece_of_scanFrom {offset : Nat} {text : List Char} {value : List β}
    (scanned : scanFrom literal replace offset 0 text = .ok value) :
    text = [] ∨ ∃ piece rest, Piece.WellFormed piece ∧ text = piece.source ++ rest := by
  unfold scanFrom at scanned
  split at scanned
  · exact .inl rfl
  · contradiction
  · rename_i c rest _
    right
    split at scanned
    · rename_i notDollar
      exact ⟨.plain c, rest, notDollar, rfl⟩
    · rename_i isDollar
      rw [not_not] at isDollar
      subst isDollar
      split at scanned
      · cases scanned
      · rename_i next after
        split at scanned
        · rename_i isDollar
          subst isDollar
          exact ⟨.dollar, after, trivial, rfl⟩
        · split at scanned
          · cases scanned
          · rename_i isBrace
            rw [not_not] at isBrace
            subst isBrace
            split at scanned
            · cases scanned
            · rename_i content rest found
              obtain ⟨absent, isAfter⟩ := GoStrings.eq_of_cut found
              refine ⟨.reference content, rest, absent, ?_⟩
              rw [isAfter, Piece.source, List.cons_append, List.cons_append, List.append_assoc,
                List.singleton_append]

/-- A text that scans is made of pieces. -/
theorem exists_pieces_of_scanFrom {offset : Nat} {text : List Char} {value : List β}
    (scanned : scanFrom literal replace offset 0 text = .ok value) :
    ∃ pieces : List Piece, (∀ piece ∈ pieces, piece.WellFormed) ∧
      text = pieces.flatMap Piece.source ∧ fill literal replace pieces = .ok value := by
  induction length : text.length using Nat.strongRecOn generalizing offset text value with
  | _ size ih =>
      rcases exists_piece_of_scanFrom literal replace scanned with rfl | ⟨piece, rest, wellFormed, rfl⟩
      · cases scanned
        exact ⟨[], nofun, rfl, rfl⟩
      · rw [scanFrom_source literal replace wellFormed] at scanned
        cases isValue : piece.value literal replace with
        | error error =>
            rw [isValue] at scanned
            cases scanned
        | ok first =>
            cases isLater : scanFrom literal replace (offset + byteSize piece.source) 0 rest with
            | error error =>
                rw [isValue, isLater] at scanned
                cases scanned
            | ok later =>
                rw [isValue, isLater] at scanned
                cases scanned
                have shorter : rest.length < size := by
                  rw [← length, List.length_append]
                  cases piece <;> simp [Piece.source]
                obtain ⟨pieces, allWellFormed, isRest, filled⟩ := ih _ shorter isLater rfl
                refine ⟨piece :: pieces, List.forall_mem_cons.mpr ⟨wellFormed, allWellFormed⟩, ?_, ?_⟩
                · rw [List.flatMap_cons, ← isRest]
                · rw [fill, isValue, filled]
                  rfl

end Pieces

section Scan

variable (replace : Reference → Except ExpandError (List Char))

/-- A text that scans is expanded piece by piece. -/
theorem scan_eq_fill {pieces : List Piece} (wellFormed : ∀ piece ∈ pieces, piece.WellFormed) :
    scan (pieces.flatMap Piece.source) replace = fill id replace pieces := by
  have scanned := scanFrom_sources id replace wellFormed 0 []
  rw [List.append_nil, scanFrom] at scanned
  rw [scan, scanned]
  cases fill id replace pieces with
  | error error => rfl
  | ok value => simp [Bind.bind, Except.bind, Pure.pure, Except.pure]

/-- Pieces are filled one part after the other. -/
theorem fill_append {first second : List Piece} {firstValue secondValue : List Char}
    (isFirst : fill id replace first = .ok firstValue)
    (isSecond : fill id replace second = .ok secondValue) :
    fill id replace (first ++ second) = .ok (firstValue ++ secondValue) := by
  induction first generalizing firstValue with
  | nil =>
      cases isFirst
      exact isSecond
  | cons piece rest ih =>
      rw [fill] at isFirst
      cases isValue : piece.value id replace with
      | error error =>
          rw [isValue] at isFirst
          cases isFirst
      | ok value =>
          cases isRest : fill id replace rest with
          | error error =>
              rw [isValue, isRest] at isFirst
              cases isFirst
          | ok later =>
              rw [isValue, isRest] at isFirst
              cases isFirst
              rw [List.cons_append, fill, isValue, ih isRest, List.append_assoc]
              rfl

/-- Two texts that scan are expanded one after the other. -/
theorem scan_append {first second firstValue secondValue : List Char}
    (isFirst : scan first replace = .ok firstValue)
    (isSecond : scan second replace = .ok secondValue) :
    scan (first ++ second) replace = .ok (firstValue ++ secondValue) := by
  obtain ⟨pieces, wellFormed, rfl, filled⟩ := exists_pieces_of_scanFrom id replace isFirst
  obtain ⟨later, laterWellFormed, rfl, laterFilled⟩ := exists_pieces_of_scanFrom id replace isSecond
  rw [← List.flatMap_append, scan_eq_fill replace]
  · exact fill_append replace filled laterFilled
  · intro piece member
    rcases List.mem_append.mp member with before | after
    · exact wellFormed piece before
    · exact laterWellFormed piece after

/-- A text without `$` stays as it is. -/
theorem scan_of_not_mem {text : List Char} (absent : '$' ∉ text) : scan text replace = .ok text := by
  have wellFormed : ∀ piece ∈ text.map Piece.plain, piece.WellFormed := by
    intro piece member
    obtain ⟨c, isChar, rfl⟩ := List.mem_map.mp member
    exact fun isDollar => absent (isDollar ▸ isChar)
  have source : (text.map Piece.plain).flatMap Piece.source = text := by
    rw [List.flatMap_map]
    exact List.flatMap_singleton' text
  have filled : fill id replace (text.map Piece.plain) = .ok text := by
    clear absent wellFormed source
    induction text with
    | nil => rfl
    | cons c rest ih =>
        rw [List.map_cons, fill, ih]
        rfl
  rw [← source, scan_eq_fill replace wellFormed, filled, source]

end Scan

end Restitch.Gwconfig
