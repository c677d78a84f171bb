import Restitch.Gwconfig.Expansion

/-!
# References in indented text

A text that is nested in another is indented. That changes neither which references there are
nor which of them have a default, as long as their names are names.
-/

namespace Restitch.Gwconfig

open Restitch.Std

/-- A text with spaces put in behind line breaks. -/
inductive Indented : List Char → List Char → Prop where
  | nil : Indented [] []
  | char (c : Char) {text shown : List Char} (rest : Indented text shown) :
      Indented (c :: text) (c :: shown)
  | line (spaces : Nat) {text shown : List Char} (rest : Indented text shown) :
      Indented ('\n' :: text) ('\n' :: (List.replicate spaces ' ' ++ shown))

/-- Texts that are nested in another, one behind the other, with markup between them. -/
inductive Nested : List (List Char) → List Char → Prop where
  | markup {markup : List Char} (plain : '$' ∉ markup) : Nested [] markup
  | text {markup text shown doc : List Char} {rest : List (List Char)} (plain : '$' ∉ markup)
      (indented : Indented text shown) (behind : Nested rest doc) :
      Nested (text :: rest) (markup ++ (shown ++ doc))

/-- What decides whether a reference needs a value. -/
def Reference.need (reference : Reference) : List Char × Bool :=
  (reference.name, reference.default.isSome)

section Indent

variable {text shown first second : List Char}

/-- A text is an indentation of itself. -/
theorem Indented.refl (text : List Char) : Indented text text := by
  induction text with
  | nil => exact .nil
  | cons c rest ih => exact .char c ih

/-- An indentation of two texts is one of each. -/
theorem Indented.append (indented : Indented (first ++ second) shown) :
    ∃ front back, shown = front ++ back ∧ Indented first front ∧ Indented second back := by
  induction first generalizing shown with
  | nil => exact ⟨[], shown, rfl, .nil, indented⟩
  | cons c first ih =>
      rw [List.cons_append] at indented
      cases indented with
      | char c rest =>
          obtain ⟨front, back, rfl, isFront, isBack⟩ := ih rest
          exact ⟨c :: front, back, rfl, .char c isFront, isBack⟩
      | line spaces rest =>
          obtain ⟨front, back, rfl, isFront, isBack⟩ := ih rest
          refine ⟨'\n' :: (List.replicate spaces ' ' ++ front), back, ?_, .line spaces isFront, isBack⟩
          rw [List.cons_append, List.append_assoc]

/-- A character other than a line break is followed by what followed it. -/
theorem Indented.cons {c : Char} (inLine : c ≠ '\n') (indented : Indented (c :: text) shown) :
    ∃ rest, shown = c :: rest ∧ Indented text rest := by
  cases indented with
  | char c rest => exact ⟨_, rfl, rest⟩
  | line spaces rest => exact absurd rfl inLine

theorem Indented.eq_nil (indented : Indented [] shown) : shown = [] := by
  cases indented
  rfl

/-- Indenting adds no character but spaces. -/
theorem Indented.mem {c : Char} (notSpace : c ≠ ' ') (indented : Indented text shown)
    (member : c ∈ shown) : c ∈ text := by
  induction indented with
  | nil => exact member
  | char d rest ih =>
      rcases List.mem_cons.mp member with rfl | later
      · exact List.mem_cons_self
      · exact List.mem_cons_of_mem _ (ih later)
  | line spaces rest ih =>
      rcases List.mem_cons.mp member with rfl | later
      · exact List.mem_cons_self
      · rcases List.mem_append.mp later with space | behind
        · exact absurd (List.eq_of_mem_replicate space) notSpace
        · exact List.mem_cons_of_mem _ (ih behind)

/-- What is in the first line before a separator stays as it is. -/
theorem Indented.cut {separator : Char} (inLine : separator ≠ '\n') (indented : Indented text shown)
    (oneLine : '\n' ∉ (GoStrings.cut separator text).1) :
    (GoStrings.cut separator shown).1 = (GoStrings.cut separator text).1 ∧
      (GoStrings.cut separator shown).2.isSome = (GoStrings.cut separator text).2.isSome := by
  induction indented with
  | nil => exact ⟨rfl, rfl⟩
  | char c rest ih =>
      rw [GoStrings.cut] at oneLine ⊢
      rw [GoStrings.cut]
      by_cases stop : c = separator
      · rw [if_pos stop, if_pos stop]
        exact ⟨rfl, rfl⟩
      · rw [if_neg stop] at oneLine ⊢
        rw [if_neg stop]
        obtain ⟨before, behind⟩ := ih fun member => oneLine (List.mem_cons_of_mem _ member)
        exact ⟨congrArg (c :: ·) before, behind⟩
  | line spaces rest =>
      rw [GoStrings.cut, if_neg (Ne.symm inLine)] at oneLine
      exact absurd List.mem_cons_self oneLine

end Indent

section References

variable {text shown : List Char}

/-- The name of a variable has no newline. -/
theorem newline_not_mem_of_varName {name : List Char} (isName : varName name = true) :
    '\n' ∉ name := by
  cases name with
  | nil => exact List.not_mem_nil
  | cons first rest =>
      rw [varName, Bool.and_eq_true, List.all_eq_true] at isName
      intro member
      rcases List.mem_cons.mp member with rfl | later
      · exact absurd isName.1 (by decide)
      · exact absurd (isName.2 _ later) (by decide)

/-- A text without a dollar sign spells itself. -/
theorem spells_plain {markup : List Char} (plain : '$' ∉ markup) :
    Spells (markup.map Piece.plain) markup where
  wellFormed := by
    intro piece member
    obtain ⟨c, isChar, rfl⟩ := List.mem_map.mp member
    exact fun isDollar => plain (isDollar ▸ isChar)
  source := by
    rw [List.flatMap_map]
    exact (List.flatMap_singleton' markup).symm

/-- A text without a dollar sign has no reference. -/
theorem filterMap_plain (markup : List Char) :
    (markup.map Piece.plain).filterMap Piece.reference? = [] := by
  rw [List.filterMap_map]
  exact List.filterMap_eq_nil_iff.mpr fun _ _ => rfl

/-- One piece, indented. -/
theorem Piece.exists_indented {piece : Piece} (wellFormed : piece.WellFormed)
    (indented : Indented piece.source shown)
    (named : ∀ reference, piece.reference? = some reference → varName reference.name = true) :
    ∃ pieces, Spells pieces shown ∧ (pieces.filterMap Piece.reference?).map Reference.need =
      piece.reference?.toList.map Reference.need := by
  cases piece with
  | plain c =>
      cases indented with
      | char c rest =>
          obtain rfl := rest.eq_nil
          have plain : '$' ∉ [c] := by simpa using Ne.symm wellFormed
          exact ⟨[c].map Piece.plain, spells_plain plain, rfl⟩
      | line spaces rest =>
          obtain rfl := rest.eq_nil
          refine ⟨('\n' :: List.replicate spaces ' ').map Piece.plain, ?_, ?_⟩
          · rw [List.append_nil]
            refine spells_plain ?_
            rw [List.mem_cons, not_or]
            exact ⟨by decide, fun member => absurd (List.eq_of_mem_replicate member) (by decide)⟩
          · rw [filterMap_plain]
            rfl
  | dollar =>
      obtain ⟨rest, rfl, dollar⟩ := Indented.cons (by decide) indented
      obtain ⟨rest, rfl, nothing⟩ := Indented.cons (by decide) dollar
      obtain rfl := nothing.eq_nil
      exact ⟨[.dollar], ⟨by simp [Piece.WellFormed], rfl⟩, rfl⟩
  | reference content =>
      obtain ⟨rest, rfl, brace⟩ := Indented.cons (by decide) indented
      obtain ⟨rest, rfl, inside⟩ := Indented.cons (by decide) brace
      obtain ⟨shownContent, back, rfl, isContent, isBack⟩ := inside.append
      obtain ⟨rest, rfl, isEnd⟩ := Indented.cons (by decide) isBack
      obtain rfl := isEnd.eq_nil
      have isName := newline_not_mem_of_varName (named (referenceOf content) rfl)
      obtain ⟨name, default⟩ := isContent.cut (by decide) isName
      refine ⟨[.reference shownContent], ⟨?_, ?_⟩, ?_⟩
      · intro piece member
        obtain rfl := List.mem_singleton.mp member
        exact fun closes => wellFormed (isContent.mem (by decide) closes)
      · rw [List.flatMap_singleton]
        rfl
      · exact congrArg (fun need => [need]) (Prod.ext name default)

/-- Indentation leaves the needs of the references alone. -/
theorem exists_spells_indented {pieces : List Piece} (spells : Spells pieces text)
    (indented : Indented text shown)
    (named : ∀ reference ∈ pieces.filterMap Piece.reference?, varName reference.name = true) :
    ∃ pieces', Spells pieces' shown ∧ (pieces'.filterMap Piece.reference?).map Reference.need =
      (pieces.filterMap Piece.reference?).map Reference.need := by
  obtain ⟨wellFormed, rfl⟩ := spells
  induction pieces generalizing shown with
  | nil =>
      obtain rfl := indented.eq_nil
      exact ⟨[], ⟨by simp, rfl⟩, rfl⟩
  | cons piece rest ih =>
      obtain ⟨formed, restFormed⟩ := List.forall_mem_cons.mp wellFormed
      rw [List.flatMap_cons] at indented
      obtain ⟨front, back, rfl, isFront, isBack⟩ := indented.append
      have split_ : (piece :: rest).filterMap Piece.reference? =
          piece.reference?.toList ++ rest.filterMap Piece.reference? := by
        rw [List.filterMap_cons]
        cases piece.reference? <;> rfl
      rw [split_, List.forall_mem_append] at named
      obtain ⟨first, isFirst, firstNeeds⟩ := Piece.exists_indented formed isFront
        fun reference isReference => named.1 reference (by simp [isReference])
      obtain ⟨later, isLater, laterNeeds⟩ := ih named.2 restFormed isBack
      refine ⟨first ++ later, isFirst.append isLater, ?_⟩
      rw [split_, List.filterMap_append, List.map_append, List.map_append, firstNeeds, laterNeeds]

/-- A text scans by itself, and its references have names. -/
def ScansAlone (text : List Char) (listed : List Reference) : Prop :=
  references text = .ok listed ∧ ∀ reference ∈ listed, varName reference.name = true

/-- The needs of the references in a text are those of the texts nested in it. -/
theorem exists_references_of_nested {texts : List (List Char)} {doc : List Char}
    (own : List Char → List Reference) (nested : Nested texts doc)
    (scans : ∀ text ∈ texts, ScansAlone text (own text)) :
    ∃ listed, references doc = .ok listed ∧
      listed.map Reference.need = (texts.flatMap own).map Reference.need := by
  suffices spelled : ∃ pieces, Spells pieces doc ∧
      (pieces.filterMap Piece.reference?).map Reference.need =
        (texts.flatMap own).map Reference.need by
    obtain ⟨pieces, spells, needs⟩ := spelled
    exact ⟨_, spells.references, needs⟩
  induction nested with
  | @markup markup plain =>
      exact ⟨_, spells_plain plain, by rw [filterMap_plain]; rfl⟩
  | @text markup text shown doc rest plain indented _ ih =>
      obtain ⟨here, restScan⟩ := List.forall_mem_cons.mp scans
      obtain ⟨later, isLater, laterNeeds⟩ := ih restScan
      obtain ⟨pieces, spells, isOwn⟩ := references_eq_ok_iff.mp here.1
      have named := here.2
      rw [isOwn] at named
      obtain ⟨nested, isNested, nestedNeeds⟩ := exists_spells_indented spells indented named
      refine ⟨_, (spells_plain plain).append (isNested.append isLater), ?_⟩
      rw [List.filterMap_append, filterMap_plain, List.nil_append, List.filterMap_append,
        List.map_append, nestedNeeds, laterNeeds, List.flatMap_cons, List.map_append, isOwn]

end References

section Expand

variable {lookup : List Char → Option (List Char)} {text : List Char} {listed : List Reference}

/-- A text that scans is not expanded exactly if a reference has neither a value nor a default. -/
theorem expandWith_error_iff (scanned : references text = .ok listed) :
    (∃ error, expandWith text lookup = .error error) ↔
      ∃ need ∈ listed.map Reference.need, need.2 = false ∧ (lookup need.1).getD [] = [] := by
  have done : (∃ expanded, expandWith text lookup = .ok expanded) ↔
      ∀ reference ∈ listed, reference.Resolves lookup := by
    rw [exists_expandWith_iff]
    constructor
    · rintro ⟨listed', scanned', resolves⟩
      cases scanned.symm.trans scanned'
      exact resolves
    · exact fun resolves => ⟨listed, scanned, resolves⟩
  have fails : (∃ error, expandWith text lookup = .error error) ↔
      ¬ ∃ expanded, expandWith text lookup = .ok expanded := by
    cases expandWith text lookup <;> simp
  have unresolved (reference : Reference) : ¬ reference.Resolves lookup ↔
      reference.need.2 = false ∧ (lookup reference.need.1).getD [] = [] := by
    rw [Reference.Resolves, Reference.need]
    dsimp only
    cases lookup reference.name <;> cases reference.default <;> simp
  rw [fails, done]
  push Not
  simp only [unresolved, List.mem_map]
  constructor
  · rintro ⟨reference, member, unset⟩
    exact ⟨_, ⟨reference, member, rfl⟩, unset⟩
  · rintro ⟨_, ⟨reference, member, rfl⟩, unset⟩
    exact ⟨reference, member, unset⟩

end Expand

end Restitch.Gwconfig
