import Mathlib.Data.List.Forall2
import Restitch.Gwconfig.Env
import Restitch.Std.Results

/-!
# Expansion is one reading of a text

A text that scans is spelled by pieces in exactly one way: characters, `$$` and references.
`References` lists the references among them, and `ExpandWith` puts the value of each in its
place; what it puts there is not read again.
-/

namespace Restitch.Gwconfig

open Restitch.Std

/-- A text is these pieces, one after the other. -/
structure Spells (pieces : List Piece) (text : List Char) : Prop where
  wellFormed : ∀ piece ∈ pieces, piece.WellFormed
  source : text = pieces.flatMap Piece.source

def Piece.reference? : Piece → Option Reference
  | .plain _ | .dollar => none
  | .reference content => some (referenceOf content)

/-- A value that a reference stands for: that of its variable, unless it is empty, or the
default. -/
def Reference.StandsFor (reference : Reference) (lookup : List Char → Option (List Char))
    (value : List Char) : Prop :=
  (lookup reference.name = some value ∧ value ≠ []) ∨
    ((∀ other, lookup reference.name = some other → other = []) ∧ reference.default = some value)

/-- A reference has a value that is not empty, or a default. -/
def Reference.Resolves (reference : Reference) (lookup : List Char → Option (List Char)) : Prop :=
  (∃ value, lookup reference.name = some value ∧ value ≠ []) ∨ reference.default.isSome = true

/-- What a piece becomes. -/
inductive Piece.Becomes (lookup : List Char → Option (List Char)) : Piece → List Char → Prop where
  | plain (c : Char) : Becomes lookup (.plain c) [c]
  | dollar : Becomes lookup .dollar ['$']
  | reference {content value : List Char}
      (stands : (referenceOf content).StandsFor lookup value) :
      Becomes lookup (.reference content) value

/-- The text with each `$` doubled. -/
def doubled (text : List Char) : List Char :=
  text.flatMap fun c => if c = '$' then ['$', '$'] else [c]

/-- An error further behind in a text. -/
def ExpandError.shift (distance : Nat) : ExpandError → ExpandError
  | .invalidDollar offset => .invalidDollar (distance + offset)
  | .unclosed offset => .unclosed (distance + offset)
  | .dollarAtEnd => .dollarAtEnd
  | .unset name => .unset name

/-! ### The pieces of a text -/

section Pieces

/-- The front of a text decides its first piece. -/
theorem Piece.source_append_inj {first second : Piece} (firstFormed : first.WellFormed)
    (secondFormed : second.WellFormed) {rest rest' : List Char}
    (same : first.source ++ rest = second.source ++ rest') : first = second ∧ rest = rest' := by
  cases first with
  | plain c =>
      cases second with
      | plain d =>
          obtain ⟨rfl, rests⟩ := List.cons_eq_cons.mp same
          exact ⟨rfl, rests⟩
      | dollar | reference content => exact absurd (List.cons_eq_cons.mp same).1 firstFormed
  | dollar =>
      cases second with
      | plain d => exact absurd (List.cons_eq_cons.mp same).1.symm secondFormed
      | dollar => exact ⟨rfl, List.append_cancel_left same⟩
      | reference content =>
          obtain ⟨-, next⟩ := List.cons_eq_cons.mp same
          exact absurd (List.cons_eq_cons.mp next).1 (by decide)
  | reference content =>
      cases second with
      | plain d => exact absurd (List.cons_eq_cons.mp same).1.symm secondFormed
      | dollar =>
          obtain ⟨-, next⟩ := List.cons_eq_cons.mp same
          exact absurd (List.cons_eq_cons.mp next).1 (by decide)
      | reference other =>
          simp only [Piece.source, List.cons_append, List.append_assoc, List.cons.injEq,
            true_and, List.nil_append] at same
          have first : GoStrings.cut _ (content ++ _ :: rest) = (content, some rest) :=
            GoStrings.cut_append firstFormed
          rw [same, GoStrings.cut_append secondFormed, Prod.mk.injEq, Option.some_inj] at first
          exact ⟨congrArg Piece.reference first.1.symm, first.2.symm⟩

/-- There is only one way to spell a text. -/
theorem Spells.unique {first second : List Piece} {text : List Char}
    (isFirst : Spells first text) (isSecond : Spells second text) : first = second := by
  obtain ⟨firstFormed, source⟩ := isFirst
  obtain ⟨secondFormed, source'⟩ := isSecond
  have same := source.symm.trans source'
  clear source source'
  induction first generalizing second with
  | nil =>
      cases second with
      | nil => rfl
      | cons piece rest => cases piece <;> cases same
  | cons piece rest ih =>
      cases second with
      | nil => cases piece <;> cases same
      | cons other later =>
          obtain ⟨formed, restFormed⟩ := List.forall_mem_cons.mp firstFormed
          obtain ⟨formed', laterFormed⟩ := List.forall_mem_cons.mp secondFormed
          rw [List.flatMap_cons, List.flatMap_cons] at same
          obtain ⟨rfl, rests⟩ := Piece.source_append_inj formed formed' same
          rw [ih restFormed laterFormed rests]

/-- Pieces of two texts spell the one after the other. -/
theorem Spells.append {first second : List Piece} {text rest : List Char}
    (isFirst : Spells first text) (isSecond : Spells second rest) :
    Spells (first ++ second) (text ++ rest) where
  wellFormed := List.forall_mem_append.mpr ⟨isFirst.wellFormed, isSecond.wellFormed⟩
  source := by rw [List.flatMap_append, ← isFirst.source, ← isSecond.source]

/-- A text with its dollar signs doubled spells the text. -/
theorem spells_doubled (text : List Char) :
    Spells (text.map fun c => if c = '$' then .dollar else .plain c) (doubled text) where
  wellFormed := by
    intro piece member
    obtain ⟨c, -, rfl⟩ := List.mem_map.mp member
    split
    · exact trivial
    · rename_i notDollar
      exact notDollar
  source := by
    rw [doubled, List.flatMap_map]
    congr 1
    funext c
    split <;> rfl

end Pieces

/-! ### The references of a text -/

section References

/-- Scanning for references cannot fail at a reference. -/
theorem fill_references (pieces : List Piece) :
    ∃ listed, fill (fun _ => none) (fun reference => .ok [some reference]) pieces = .ok listed ∧
      listed.filterMap id = pieces.filterMap Piece.reference? := by
  induction pieces with
  | nil => exact ⟨[], rfl, rfl⟩
  | cons piece rest ih =>
      obtain ⟨listed, filled, isListed⟩ := ih
      rw [fill, filled]
      cases piece with
      | plain c => exact ⟨none :: listed, rfl, isListed⟩
      | dollar => exact ⟨none :: listed, rfl, isListed⟩
      | reference content =>
          refine ⟨some (referenceOf content) :: listed, rfl, ?_⟩
          exact congrArg (referenceOf content :: ·) isListed

/-- The references of a text are those among its pieces. -/
theorem references_eq_ok_iff {text : List Char} {listed : List Reference} :
    references text = .ok listed ↔
      ∃ pieces, Spells pieces text ∧ listed = pieces.filterMap Piece.reference? := by
  constructor
  · intro scanned
    obtain ⟨values, isValues, rfl⟩ := Except.map_eq_ok scanned
    obtain ⟨pieces, wellFormed, source, filled⟩ := exists_pieces_of_scanFrom _ _ isValues
    obtain ⟨listed, filled', isListed⟩ := fill_references pieces
    cases filled.symm.trans filled'
    exact ⟨pieces, ⟨wellFormed, source⟩, isListed⟩
  · rintro ⟨pieces, ⟨wellFormed, rfl⟩, rfl⟩
    obtain ⟨listed, filled, isListed⟩ := fill_references pieces
    have scanned := scanFrom_sources (fun _ => none) (fun reference => .ok [some reference])
      wellFormed 0 []
    rw [List.append_nil, filled, scanFrom] at scanned
    rw [references, scanned, ← isListed]
    change Except.ok ((listed ++ []).filterMap id) = _
    rw [List.append_nil]

/-- The references of a text are those of its pieces. -/
theorem Spells.references {pieces : List Piece} {text : List Char} (spells : Spells pieces text) :
    Gwconfig.references text = .ok (pieces.filterMap Piece.reference?) :=
  references_eq_ok_iff.mpr ⟨pieces, spells, rfl⟩

end References

/-! ### The values of the references -/

section Values

variable {lookup : List Char → Option (List Char)}

/-- A reference is looked up as what it stands for. -/
theorem lookupReference_eq_ok_iff {reference : Reference} {value : List Char} :
    lookupReference lookup reference = .ok value ↔ reference.StandsFor lookup value := by
  rw [lookupReference, Reference.StandsFor]
  cases found : lookup reference.name with
  | none =>
      rw [Option.getD_none, if_neg (not_not.mpr rfl)]
      cases reference.default <;> simp
  | some other =>
      rw [Option.getD_some]
      by_cases empty : other = []
      · rw [if_neg (not_not.mpr empty)]
        cases reference.default <;> simp [empty, eq_comm]
      · rw [if_pos empty]
        simp only [Except.ok.injEq, Option.some.injEq, forall_eq', empty, false_and, or_false]
        exact ⟨fun same => ⟨same, same ▸ empty⟩, And.left⟩

/-- A reference resolves exactly if it stands for something. -/
theorem Reference.resolves_iff {reference : Reference} :
    reference.Resolves lookup ↔ ∃ value, reference.StandsFor lookup value := by
  rw [Reference.Resolves, Option.isSome_iff_exists]
  constructor
  · rintro (⟨value, found, some_⟩ | ⟨value, isDefault⟩)
    · exact ⟨value, .inl ⟨found, some_⟩⟩
    · by_cases unset : ∀ other, lookup reference.name = some other → other = []
      · exact ⟨value, .inr ⟨unset, isDefault⟩⟩
      · push Not at unset
        obtain ⟨other, found, some_⟩ := unset
        exact ⟨other, .inl ⟨found, some_⟩⟩
  · rintro ⟨value, found | ⟨-, isDefault⟩⟩
    · exact .inl ⟨value, found⟩
    · exact .inr ⟨value, isDefault⟩

/-- A piece is filled with what it becomes. -/
theorem Piece.value_eq_ok_iff {piece : Piece} {part : List Char} :
    piece.value id (lookupReference lookup) = .ok part ↔ piece.Becomes lookup part := by
  cases piece with
  | plain c =>
      refine ⟨fun same => ?_, fun becomes => ?_⟩
      · cases same
        exact .plain c
      · cases becomes
        rfl
  | dollar =>
      refine ⟨fun same => ?_, fun becomes => ?_⟩
      · cases same
        exact .dollar
      · cases becomes
        rfl
  | reference content =>
      rw [Piece.value, lookupReference_eq_ok_iff]
      refine ⟨.reference, fun becomes => ?_⟩
      cases becomes with
      | reference stands => exact stands

/-- Pieces are filled with what each of them becomes. -/
theorem fill_eq_ok_iff {pieces : List Piece} {text : List Char} :
    fill id (lookupReference lookup) pieces = .ok text ↔
      ∃ parts, List.Forall₂ (Piece.Becomes lookup) pieces parts ∧ text = parts.flatten := by
  induction pieces generalizing text with
  | nil =>
      constructor
      · intro filled
        cases filled
        exact ⟨[], .nil, rfl⟩
      · rintro ⟨parts, becomes, rfl⟩
        cases becomes
        rfl
  | cons piece rest ih =>
      rw [fill]
      constructor
      · intro filled
        obtain ⟨part, isPart, filled⟩ := Except.bind_eq_ok filled
        obtain ⟨later, isLater, joined⟩ := Except.bind_eq_ok filled
        cases joined
        obtain ⟨parts, becomes, rfl⟩ := ih.mp isLater
        exact ⟨part :: parts, .cons (Piece.value_eq_ok_iff.mp isPart) becomes, rfl⟩
      · rintro ⟨parts, becomes, rfl⟩
        cases becomes with
        | cons here later =>
            rw [Piece.value_eq_ok_iff.mpr here, ih.mpr ⟨_, later, rfl⟩]
            rfl

/-- A text expands to what its pieces become. -/
theorem expandWith_eq_ok_iff {text expanded : List Char} :
    expandWith text lookup = .ok expanded ↔ ∃ pieces parts, Spells pieces text ∧
      List.Forall₂ (Piece.Becomes lookup) pieces parts ∧ expanded = parts.flatten := by
  constructor
  · intro scanned
    obtain ⟨pieces, wellFormed, source, filled⟩ := exists_pieces_of_scanFrom _ _ scanned
    obtain ⟨parts, becomes, rfl⟩ := fill_eq_ok_iff.mp filled
    exact ⟨pieces, parts, ⟨wellFormed, source⟩, becomes, rfl⟩
  · rintro ⟨pieces, parts, ⟨wellFormed, rfl⟩, becomes, rfl⟩
    rw [expandWith, scan_eq_fill _ wellFormed]
    exact fill_eq_ok_iff.mpr ⟨parts, becomes, rfl⟩

/-- Every piece becomes something if every reference among the pieces resolves. -/
theorem exists_becomes_iff {pieces : List Piece} :
    (∃ parts, List.Forall₂ (Piece.Becomes lookup) pieces parts) ↔
      ∀ reference ∈ pieces.filterMap Piece.reference?, reference.Resolves lookup := by
  induction pieces with
  | nil => exact iff_of_true ⟨[], .nil⟩ (List.forall_mem_nil _)
  | cons piece rest ih =>
      have split_ : (∃ parts, List.Forall₂ (Piece.Becomes lookup) (piece :: rest) parts) ↔
          (∃ part, piece.Becomes lookup part) ∧
            ∃ parts, List.Forall₂ (Piece.Becomes lookup) rest parts := by
        constructor
        · rintro ⟨parts, becomes⟩
          cases becomes with
          | cons here later => exact ⟨⟨_, here⟩, _, later⟩
        · rintro ⟨⟨part, here⟩, parts, later⟩
          exact ⟨part :: parts, .cons here later⟩
      rw [split_, ih]
      cases piece with
      | plain c =>
          rw [List.filterMap_cons_none rfl]
          exact and_iff_right ⟨[c], .plain c⟩
      | dollar =>
          rw [List.filterMap_cons_none rfl]
          exact and_iff_right ⟨['$'], .dollar⟩
      | reference content =>
          have listed : (Piece.reference content :: rest).filterMap Piece.reference? =
              referenceOf content :: rest.filterMap Piece.reference? := rfl
          rw [listed, List.forall_mem_cons, Reference.resolves_iff]
          refine and_congr_left fun _ => exists_congr fun value => ?_
          refine ⟨fun becomes => ?_, .reference⟩
          cases becomes with
          | reference stands => exact stands

/-- A text is expanded exactly if it scans and all its references resolve. -/
theorem exists_expandWith_iff {text : List Char} :
    (∃ expanded, expandWith text lookup = .ok expanded) ↔
      ∃ listed, references text = .ok listed ∧
        ∀ reference ∈ listed, reference.Resolves lookup := by
  constructor
  · rintro ⟨expanded, done⟩
    obtain ⟨pieces, parts, spells, becomes, -⟩ := expandWith_eq_ok_iff.mp done
    exact ⟨_, spells.references, exists_becomes_iff.mp ⟨parts, becomes⟩⟩
  · rintro ⟨listed, scanned, resolves⟩
    obtain ⟨pieces, spells, rfl⟩ := references_eq_ok_iff.mp scanned
    obtain ⟨parts, becomes⟩ := exists_becomes_iff.mpr resolves
    exact ⟨_, expandWith_eq_ok_iff.mpr ⟨pieces, parts, spells, becomes, rfl⟩⟩

end Values

/-! ### One text behind another -/

section Append

variable {lookup : List Char → Option (List Char)}

/-- A failed reference is reported with no position. -/
theorem lookupReference_shift (lookup : List Char → Option (List Char)) (distance : Nat)
    (reference : Reference) :
    (lookupReference lookup reference).mapError (ExpandError.shift distance) =
      lookupReference lookup reference := by
  rw [lookupReference]
  split
  · rfl
  · split <;> rfl

/-- Errors are counted from the start of the text. -/
theorem scanFrom_shift (lookup : List Char → Option (List Char)) (distance : Nat)
    (text : List Char) (offset read : Nat) :
    scanFrom id (lookupReference lookup) (distance + offset) read text =
      (scanFrom id (lookupReference lookup) offset read text).mapError
        (ExpandError.shift distance) := by
  fun_induction scanFrom id (lookupReference lookup) offset read text with
  | case1 => rfl
  | case2 offset read c rest ih =>
      rw [scanFrom, Nat.add_assoc]
      exact ih
  | case3 offset c rest plain ih =>
      rw [scanFrom.eq_def]
      dsimp only
      rw [if_pos plain, Nat.add_assoc, ih]
      cases scanFrom id (lookupReference lookup) (offset + c.utf8Size) 0 rest <;> rfl
  | case4 offset c isDollar =>
      rw [scanFrom.eq_def]
      dsimp only
      rw [if_neg isDollar]
      rfl
  | case5 offset c isDollar after ih =>
      rw [scanFrom.eq_def]
      dsimp only
      rw [if_neg isDollar, if_pos rfl, Nat.add_assoc, ih]
      cases scanFrom id (lookupReference lookup) (offset + 1) 1 ('$' :: after) <;> rfl
  | case6 offset c isDollar next after notDollar notBrace =>
      rw [scanFrom.eq_def]
      dsimp only
      rw [if_neg isDollar, if_neg notDollar, if_pos notBrace]
      rfl
  | case7 offset c isDollar next after notDollar isBrace content unclosed =>
      rw [scanFrom.eq_def]
      dsimp only
      rw [if_neg isDollar, if_neg notDollar, if_neg isBrace, unclosed]
      rfl
  | case8 offset c isDollar next after notDollar isBrace content rest found ih =>
      rw [scanFrom.eq_def]
      dsimp only
      rw [if_neg isDollar, if_neg notDollar, if_neg isBrace, found]
      dsimp only
      rw [Nat.add_assoc, ih]
      have same := lookupReference_shift lookup distance (referenceOf content)
      cases isValue : lookupReference lookup (referenceOf content) with
      | error error =>
          rw [isValue] at same
          exact same.symm
      | ok value =>
          cases scanFrom id (lookupReference lookup) (offset + 1) (content.length + 2)
            (next :: after) <;> rfl

/-- Behind a text that scans, a text is expanded as it is alone; only the place of an error is
counted from the front. -/
theorem expandWith_append {text : List Char} {listed : List Reference}
    (scanned : references text = .ok listed) (rest : List Char)
    (lookup : List Char → Option (List Char)) :
    expandWith (text ++ rest) lookup = do
      let expanded ← expandWith text lookup
      let later ← (expandWith rest lookup).mapError (ExpandError.shift (byteSize text))
      return expanded ++ later := by
  obtain ⟨pieces, ⟨wellFormed, rfl⟩, -⟩ := references_eq_ok_iff.mp scanned
  have shifted := scanFrom_shift lookup (byteSize (pieces.flatMap Piece.source)) rest 0 0
  rw [expandWith, expandWith, scan_eq_fill _ wellFormed, scan, scanFrom_sources _ _ wellFormed,
    Nat.zero_add, ← Nat.add_zero (byteSize _), shifted]
  rfl

end Append

/-- What `ExpandWith` does with a text, in its own terms. -/
structure ExpandsRight (lookup : List Char → Option (List Char)) (text : List Char) : Prop where
  /-- It succeeds exactly if `References` does and every reference listed resolves. -/
  succeeds : (∃ expanded, expandWith text lookup = .ok expanded) ↔
    ∃ listed, references text = .ok listed ∧ ∀ reference ∈ listed, reference.Resolves lookup
  /-- The references listed are those that the text is spelled with. -/
  listed : ∀ listed, references text = .ok listed ↔
    ∃ pieces, Spells pieces text ∧ listed = pieces.filterMap Piece.reference?
  /-- A text is spelled in one way. -/
  oneReading : ∀ first second, Spells first text → Spells second text → first = second
  /-- The result is what the pieces become, from left to right. -/
  result : ∀ expanded, expandWith text lookup = .ok expanded ↔ ∃ pieces parts,
    Spells pieces text ∧ List.Forall₂ (Piece.Becomes lookup) pieces parts ∧
      expanded = parts.flatten
  /-- A text with each `$` doubled expands to the text. -/
  escaped : expandWith (doubled text) lookup = .ok text
  /-- Two texts are expanded one after the other, if the first scans. -/
  append : (∃ listed, references text = .ok listed) → ∀ rest,
    expandWith (text ++ rest) lookup = do
      let expanded ← expandWith text lookup
      let later ← (expandWith rest lookup).mapError (ExpandError.shift (byteSize text))
      return expanded ++ later

/-- A text with its dollar signs doubled expands to the text. -/
theorem expandWith_doubled (text : List Char) (lookup : List Char → Option (List Char)) :
    expandWith (doubled text) lookup = .ok text := by
  refine expandWith_eq_ok_iff.mpr ⟨_, text.map ([·]), spells_doubled text, ?_, ?_⟩
  · rw [List.forall₂_map_left_iff, List.forall₂_map_right_iff, List.forall₂_same]
    intro c _
    split
    · rename_i isDollar
      rw [isDollar]
      exact .dollar
    · exact .plain c
  · rw [← List.flatMap_def]
    exact (List.flatMap_singleton' text).symm

/-- Expansion is a homomorphism with one notion of reference. -/
theorem expandWith_expandsRight (lookup : List Char → Option (List Char)) (text : List Char) :
    ExpandsRight lookup text where
  succeeds := exists_expandWith_iff
  listed _ := references_eq_ok_iff
  oneReading _ _ := Spells.unique
  result _ := expandWith_eq_ok_iff
  escaped := expandWith_doubled text lookup
  append := fun ⟨_, scanned⟩ rest => expandWith_append scanned rest lookup

end Restitch.Gwconfig
