import Restitch.Http.Pattern

/-!
# Wildcards of a pattern (`net/http`)

The named wildcards of a pattern, and the values that a request matched for them.
-/

namespace Restitch.Http

open Restitch.Std

/-- The named wildcards of a pattern, in order. A trailing slash has no name. -/
def Pattern.wildcards (pattern : Pattern) : List (List Char) :=
  (pattern.segments.flatMap PathSegment.names).filter (· ≠ [])

/-- The values that the multiplexer matched for the wildcards of a pattern. -/
structure PatternMatch (pattern : Pattern) where
  values : List String
  complete : values.length = pattern.wildcards.length

namespace PatternMatch

variable {pattern : Pattern} (matched : PatternMatch pattern)

/-- The value of a wildcard, found by its place in the pattern (`patIndex`). -/
def value? (name : String) : Option String :=
  (pattern.wildcards.idxOf? name.toList).bind (matched.values[·]?)

/-- `PathValue`. -/
def pathValue (name : String) : String := (matched.value? name).getD ""

/-- A wildcard of the pattern has the value that was matched. -/
theorem value?_of_mem {name : String} (member : name.toList ∈ pattern.wildcards) :
    matched.value? name = some (matched.pathValue name) := by
  obtain ⟨place, found⟩ := Option.isSome_iff_exists.mp (List.isSome_idxOf?.mpr member)
  have inside : place < matched.values.length := by
    rw [matched.complete]
    exact (List.idxOf?_eq_some_iff.mp found).1
  have isValue : matched.value? name = some matched.values[place] := by
    rw [value?, found, Option.bind_some, List.getElem?_eq_getElem inside]
  rw [pathValue, isValue]
  rfl

/-- Another name has no value. -/
theorem value?_of_notMem {name : String} (absent : name.toList ∉ pattern.wildcards) :
    matched.value? name = none := by
  rw [value?, List.idxOf?_eq_none_iff.mpr absent]
  rfl

end PatternMatch

/-- The classes agree with the Unicode tables on ASCII. -/
structure CharClasses.Standard (classes : CharClasses) : Prop where
  isLetter : ∀ c : Char, c.toNat < 128 → classes.isLetter c = c.isAlpha
  isDigit : ∀ c : Char, c.toNat < 128 → classes.isDigit c = c.isDigit

/-- A segment has one name at most. -/
theorem PathSegment.nodup_names (segment : PathSegment) : segment.names.Nodup := by
  cases segment with
  | literal bytes => exact .nil
  | wild name => exact List.nodup_singleton _
  | multi name => exact List.nodup_singleton _

section Names

variable {classes : CharClasses}

/-- An accepted name is valid and new. -/
theorem of_nameError_eq_none {seen : List (List Char)} {name : List Char}
    (valid : nameError classes seen name = none) :
    isValidWildcardName classes name = true ∧ name ∉ seen := by
  unfold nameError at valid
  split at valid
  · cases valid
  · split at valid
    · cases valid
    · next isValid =>
        split at valid
        · cases valid
        · next fresh => simpa using And.intro isValid fresh

/-- A valid name is not empty. -/
theorem ne_nil_of_isValidWildcardName {name : List Char}
    (valid : isValidWildcardName classes name = true) : name ≠ [] := by
  rintro rfl
  cases valid

/-- How the text of a part and its segment belong together. -/
inductive PartReads (classes : CharClasses) : List Char → PathSegment → Prop where
  | literal {part : List Char} (free : '{' ∉ part) (bytes : List UInt8) :
      PartReads classes part (.literal bytes)
  /-- `{$}` -/
  | dollar : PartReads classes ['{', '$', '}'] (.literal slash)
  | wild {name : List Char} (valid : isValidWildcardName classes name = true) :
      PartReads classes ('{' :: name ++ ['}']) (.wild name)
  /-- `{name...}` -/
  | multi {name : List Char} (valid : isValidWildcardName classes name = true) :
      PartReads classes ('{' :: (name ++ ['.', '.', '.']) ++ ['}']) (.multi name)
  /-- A trailing slash. -/
  | trailing : PartReads classes [] (.multi [])

/-- The wildcards of a pattern that was read have names. -/
theorem wild_ne_nil_of_reads {parts : List (List Char)} {segments : List PathSegment}
    (reads : List.Forall₂ (PartReads classes) parts segments) {name : List Char}
    (member : .wild name ∈ segments) : name ≠ [] := by
  induction reads with
  | nil => cases member
  | cons here _ ih =>
      rcases List.mem_cons.mp member with rfl | later
      · cases here with
        | wild valid => exact ne_nil_of_isValidWildcardName valid
      · exact ih later

/-- A segment that is read has a name that is new, or none. -/
theorem partReads_of_parsePart {seen : List (List Char)} {isLast : Bool} {part : List Char}
    {segment : PathSegment} (parsed : parsePart classes seen isLast part = .ok segment) :
    PartReads classes part segment ∧ ∀ name ∈ segment.names, name ≠ [] ∧ name ∉ seen := by
  unfold parsePart at parsed
  split at parsed
  · next free =>
      cases parsed
      exact ⟨.literal free _, fun _ none_ => by cases none_⟩
  split at parsed
  · cases parsed
  split at parsed
  · cases parsed
  next starts ends =>
  rw [not_not] at starts ends
  obtain ⟨rest, rfl⟩ := List.head?_eq_some_iff.mp starts
  -- the closing brace is not the opening one
  obtain ⟨front, atEnd⟩ := List.getLast?_eq_some_iff.mp ends
  cases front with
  | nil => cases atEnd
  | cons c inner =>
      rw [List.cons_append, List.cons.injEq] at atEnd
      obtain ⟨rfl, rfl⟩ := atEnd
      rw [List.tail_cons, List.dropLast_concat] at parsed
      unfold parseInner at parsed
      split at parsed
      · next isDollar =>
          subst isDollar
          split at parsed
          · cases parsed
            exact ⟨.dollar, fun _ none_ => by cases none_⟩
          · cases parsed
      split at parsed
      · next suffix =>
          obtain ⟨name, rfl⟩ := List.isSuffixOf_iff_suffix.mp suffix
          rw [List.length_append] at parsed
          dsimp only [List.length_cons, List.length_nil] at parsed
          rw [Nat.add_sub_cancel, List.take_left] at parsed
          split at parsed
          · cases parsed
          split at parsed
          · cases parsed
          next noError =>
          cases parsed
          obtain ⟨valid, fresh⟩ := of_nameError_eq_none noError
          refine ⟨.multi valid, fun name member => ?_⟩
          cases List.mem_singleton.mp member
          exact ⟨ne_nil_of_isValidWildcardName valid, fresh⟩
      · split at parsed
        · cases parsed
        next noError =>
        cases parsed
        obtain ⟨valid, fresh⟩ := of_nameError_eq_none noError
        refine ⟨.wild valid, fun name member => ?_⟩
        cases List.mem_singleton.mp member
        exact ⟨ne_nil_of_isValidWildcardName valid, fresh⟩

/-- The parts of a path and its segments belong together one by one, and no name
stands in it twice. -/
theorem partReads_of_parseParts {parts seen : List (List Char)} {segments : List PathSegment}
    (parsed : parseParts classes seen parts = .ok segments) :
    List.Forall₂ (PartReads classes) parts segments ∧
      (segments.flatMap PathSegment.names).Nodup ∧
      ∀ name ∈ segments.flatMap PathSegment.names, name ≠ [] → name ∉ seen := by
  induction parts generalizing seen segments with
  | nil =>
      cases parsed
      exact ⟨.nil, .nil, fun _ none_ => by cases none_⟩
  | cons part rest ih =>
      rw [parseParts] at parsed
      split at parsed
      · next trailing =>
          obtain ⟨rfl, rfl⟩ := trailing
          cases parsed
          refine ⟨.cons .trailing .nil, List.nodup_singleton _, fun name member named => ?_⟩
          exact absurd (List.mem_singleton.mp member) named
      · obtain ⟨segment, isSegment, parsed⟩ := Except.bind_eq_ok parsed
        obtain ⟨later, isLater, parsed⟩ := Except.bind_eq_ok parsed
        cases parsed
        obtain ⟨reads, fresh⟩ := partReads_of_parsePart isSegment
        obtain ⟨readsLater, distinct, freshLater⟩ := ih isLater
        rw [List.flatMap_cons]
        refine ⟨.cons reads readsLater, ?_, ?_⟩
        · refine List.nodup_append'.mpr ⟨segment.nodup_names, distinct, fun name here there => ?_⟩
          exact freshLater name there (fresh name here).1 (List.mem_append_left _ here)
        · intro name member named
          rcases List.mem_append.mp member with here | there
          · exact (fresh name here).2
          · exact fun old => freshLater name there named (List.mem_append_right _ old)

/-- A pattern is its method, blanks and the rest. -/
theorem eq_append_of_splitMethod (text : List Char) :
    ∃ blanks, text = (splitMethod text).1 ++ blanks ++ (splitMethod text).2 ∧ '{' ∉ blanks := by
  unfold splitMethod
  split
  · exact ⟨[], rfl, List.not_mem_nil⟩
  · next blank rest found =>
      refine ⟨blank :: rest.takeWhile fun c => c = ' ' || c = '\t', ?_, ?_⟩
      · dsimp only
        rw [List.append_assoc, List.cons_append, List.takeWhile_append_dropWhile, ← found,
          List.takeWhile_append_dropWhile]
      · intro brace
        rcases List.mem_cons.mp brace with rfl | later
        · have stops := List.head?_dropWhile_not (fun c => c ≠ ' ' && c ≠ '\t') text
          rw [found] at stops
          exact Bool.false_ne_true (Eq.symm stops)
        · exact absurd (List.mem_takeWhile_imp later) (by decide)

/-- The path of an accepted pattern and its segments. No brace stands before it. -/
theorem reads_of_parsePattern {text : String} {pattern : Pattern}
    (parsed : parsePattern classes text = .ok pattern) :
    ∃ before path, text.toList = before ++ '/' :: path ∧ '{' ∉ before ∧
      List.Forall₂ (PartReads classes) (path.splitOn '/') pattern.segments ∧
      (pattern.segments.flatMap PathSegment.names).Nodup := by
  obtain ⟨blanks, isText, noBrace⟩ := eq_append_of_splitMethod text.toList
  unfold parsePattern at parsed
  split at parsed
  · cases parsed
  dsimp only at parsed
  generalize (splitMethod text.toList).1 = method at isText parsed
  generalize (splitMethod text.toList).2 = rest at isText parsed
  split at parsed
  · cases parsed
  next isToken =>
  split at parsed
  · cases parsed
  next slashed =>
  split at parsed
  · cases parsed
  next noHostBrace =>
  split at parsed
  · cases parsed
  obtain ⟨⟨segments, _⟩, isSegments, rfl⟩ := Except.map_eq_ok parsed
  obtain ⟨path, isPath⟩ : ∃ path, rest.dropWhile (· ≠ '/') = '/' :: path := by
    have stops := List.head?_dropWhile_not (· ≠ '/') rest
    cases found : rest.dropWhile (· ≠ '/') with
    | nil => exact absurd found slashed
    | cons c path =>
        rw [found] at stops
        exact ⟨path, by simpa using stops⟩
  rw [isPath] at isSegments
  unfold parsePath at isSegments
  split at isSegments
  · next parsed =>
      cases isSegments
      obtain ⟨reads, distinct, -⟩ := partReads_of_parseParts parsed
      refine ⟨method ++ blanks ++ rest.takeWhile (· ≠ '/'), path, ?_, ?_, reads, distinct⟩
      · rw [isText, List.append_assoc _ (rest.takeWhile _), ← isPath,
          List.takeWhile_append_dropWhile]
      · rw [List.mem_append, List.mem_append, not_or, not_or]
        refine ⟨⟨fun brace => ?_, noBrace⟩, noHostBrace⟩
        refine isToken ⟨List.ne_nil_of_mem brace, ?_⟩
        rw [Bool.not_eq_true', List.all_eq_false]
        exact ⟨_, brace, by decide⟩
  · cases isSegments

end Names

end Restitch.Http
