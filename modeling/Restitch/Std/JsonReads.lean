import Restitch.Std.Json

/-!
# Reading JSON texts

What the parser makes of a text with holes, from what it makes of the text in each
hole, and that it reads back what the encoder writes.
-/

namespace Restitch.Std.Json

variable {Hole : Type}

/-- A text that does not go on with a number. -/
def Ends (rest : List Char) : Prop := ∀ c, rest.head? = some c → isNumberChar c = false

/-- A text that starts a value. -/
def Starts (text : List Char) : Prop :=
  ∃ c tail, text = c :: tail ∧ isSpace c = false ∧ c ≠ ']'

/-- The parser reads a text as a value, whatever follows it. -/
structure Reads (text : List Char) (value : Value) : Prop where
  starts : Starts text
  parses : ∀ fuel, text.length ≤ fuel → ∀ rest, Ends rest →
    parseValue fuel (text ++ rest) = some (value, rest)

/-! ### White space -/

theorem ends_cons {c : Char} (other : isNumberChar c = false) (rest : List Char) :
    Ends (c :: rest) := by
  intro d head
  cases head
  exact other

theorem ends_nil : Ends [] := by
  intro c head
  cases head

/-- White space is no part of a number. -/
theorem isNumberChar_of_isSpace {c : Char} (space : isSpace c = true) : isNumberChar c = false := by
  simp only [isSpace, List.mem_cons, List.not_mem_nil, or_false, decide_eq_true_eq] at space
  rcases space with rfl | rfl | rfl | rfl <;> decide

/-- Space before a text that ends a number ends it too. -/
theorem ends_space (space : Space) {rest : List Char} (ends : Ends rest) :
    Ends (space.val ++ rest) := by
  obtain ⟨text, all⟩ := space
  cases text with
  | nil => exact ends
  | cons c text =>
      rw [List.all_cons, Bool.and_eq_true] at all
      exact ends_cons (isNumberChar_of_isSpace all.1) _

/-- The space in front of a text is skipped with that of the text. -/
theorem skipSpace_append (space : Space) (text : List Char) :
    skipSpace (space.val ++ text) = skipSpace text := by
  obtain ⟨chars, all⟩ := space
  induction chars with
  | nil => rfl
  | cons c chars ih =>
      rw [List.all_cons, Bool.and_eq_true] at all
      exact (List.dropWhile_cons_of_pos all.1).trans (ih all.2)

theorem skipSpace_cons {c : Char} (other : isSpace c = false) (rest : List Char) :
    skipSpace (c :: rest) = c :: rest :=
  List.dropWhile_cons_of_neg (by rw [other]; exact Bool.false_ne_true)

/-- Nothing is skipped in front of a value. -/
theorem skipSpace_starts {text : List Char} (starts : Starts text) (rest : List Char) :
    skipSpace (text ++ rest) = text ++ rest := by
  obtain ⟨c, tail, rfl, other, -⟩ := starts
  exact skipSpace_cons other _

/-- Skipping twice is skipping once. -/
theorem skipSpace_skipSpace (text : List Char) : skipSpace (skipSpace text) = skipSpace text := by
  induction text with
  | nil => rfl
  | cons c rest ih =>
      by_cases space : isSpace c = true
      · have skipped : skipSpace (c :: rest) = skipSpace rest := List.dropWhile_cons_of_pos space
        rw [skipped]
        exact ih
      · have other := Bool.eq_false_iff.mpr space
        rw [skipSpace_cons other, skipSpace_cons other]

/-- A value is parsed the same with the space in front of it skipped. -/
theorem parseValue_skipSpace (fuel : Nat) (text : List Char) :
    parseValue fuel (skipSpace text) = parseValue fuel text := by
  cases fuel with
  | zero => rfl
  | succ fuel => rw [parseValue, parseValue, skipSpace_skipSpace]

/-- Items are parsed the same with the space in front of them skipped. -/
theorem parseItems_skipSpace (fuel : Nat) (text : List Char) :
    parseItems fuel (skipSpace text) = parseItems fuel text := by
  cases fuel with
  | zero => rfl
  | succ fuel => rw [parseItems, parseItems, parseValue_skipSpace]

/-- Members are parsed the same with the space in front of them skipped. -/
theorem parseMembers_skipSpace (fuel : Nat) (text : List Char) :
    parseMembers fuel (skipSpace text) = parseMembers fuel text := by
  cases fuel with
  | zero => rfl
  | succ fuel => rw [parseMembers, parseMembers, skipSpace_skipSpace]

/-- Space before a value is skipped. -/
theorem Reads.after_space {text : List Char} {value : Value} (reads : Reads text value)
    (space : Space) {fuel : Nat} (enough : text.length ≤ fuel) {rest : List Char}
    (ends : Ends rest) : parseValue fuel (space.val ++ (text ++ rest)) = some (value, rest) := by
  rw [← parseValue_skipSpace, skipSpace_append, parseValue_skipSpace]
  exact reads.parses fuel enough rest ends

/-! ### Scalars -/

/-- What follows the closing quote is left over. -/
theorem scanString_append {text content rest : List Char} (more : List Char)
    (found : scanString text = some (content, rest)) :
    scanString (text ++ more) = some (content, rest ++ more) := by
  induction text using scanString.induct generalizing content with
  | case1 => cases found
  | case2 rest =>
      cases found
      rfl
  | case3 c rest ih =>
      rw [scanString] at found
      obtain ⟨⟨inner, after⟩, isInner, same⟩ := Option.map_eq_some_iff.mp found
      cases same
      simp only [List.cons_append, scanString, ih isInner, Option.map_some]
  | case4 c rest notQuote notEscape ih =>
      rw [scanString.eq_4 _ _ notQuote notEscape] at found
      obtain ⟨⟨inner, after⟩, isInner, same⟩ := Option.map_eq_some_iff.mp found
      cases same
      have notEscape' : ∀ d tail, c = '\\' → rest ++ more = d :: tail → False := by
        intro d tail isEscape _
        cases rest with
        | nil => cases isInner
        | cons d' rest => exact notEscape d' rest isEscape rfl
      rw [List.cons_append, scanString.eq_4 _ _ notQuote notEscape', ih isInner]
      rfl

/-- A string literal is parsed as its value, up to its closing quote. -/
theorem StringToken.parses (token : StringToken) (rest : List Char) :
    parseString (token.content ++ '"' :: rest) = some (token.value, rest) := by
  have found := scanString_append rest token.valid.1
  rw [List.append_assoc] at found
  have scanned : scanString (token.content ++ '"' :: rest) = some (token.content, rest) := found
  simp only [parseString, scanned, token.valid.2, Option.bind_eq_bind, Option.bind_some]
  rfl

/-- A number is scanned up to a text that ends it. -/
theorem isNumberChar_of_ends {text rest : List Char} (all : text.all isNumberChar = true)
    (ends : Ends rest) :
    (text ++ rest).takeWhile isNumberChar = text ∧ (text ++ rest).dropWhile isNumberChar = rest := by
  induction text with
  | nil =>
      cases rest with
      | nil => exact ⟨rfl, rfl⟩
      | cons c rest =>
          have other := ends c rfl
          simp [other]
  | cons c text ih =>
      rw [List.all_cons, Bool.and_eq_true] at all
      obtain ⟨taken, dropped⟩ := ih all.2
      rw [List.cons_append, List.takeWhile_cons_of_pos all.1, List.dropWhile_cons_of_pos all.1,
        taken, dropped]
      exact ⟨rfl, rfl⟩

/-- The literal of a number is not empty. -/
theorem Number.text_eq_cons (number : Number) :
    ∃ c tail, number.text = c :: tail ∧ isNumberChar c = true := by
  obtain ⟨text, valid, all⟩ := number
  cases text with
  | nil => cases valid
  | cons c tail =>
      rw [List.all_cons, Bool.and_eq_true] at all
      exact ⟨c, tail, rfl, all.1⟩

/-- A character of a number starts nothing else. -/
theorem ne_of_isNumberChar {c d : Char} (number : isNumberChar c = true)
    (other : isNumberChar d = false) : c ≠ d := by
  rintro rfl
  rw [number] at other
  cases other

/-- There is fuel for a value. -/
theorem exists_fuel {text : List Char} (starts : Starts text) {fuel : Nat}
    (enough : text.length ≤ fuel) : ∃ less, fuel = less + 1 ∧ text.length ≤ less + 1 := by
  obtain ⟨c, tail, rfl, -⟩ := starts
  cases fuel with
  | zero => cases enough
  | succ fuel => exact ⟨fuel, rfl, enough⟩

/-- The literal of a number reads as it. -/
theorem reads_number (number : Number) : Reads number.text (.number number) := by
  obtain ⟨c, tail, isText, isNumber⟩ := number.text_eq_cons
  have notSpace : isSpace c = false := by
    by_contra space
    have other := isNumberChar_of_isSpace (Bool.not_eq_false _ ▸ space)
    exact ne_of_isNumberChar isNumber other rfl
  have different : ∀ {d}, isNumberChar d = false → c ≠ d := ne_of_isNumberChar isNumber
  have starts : Starts number.text := ⟨c, tail, isText, notSpace, different (by decide)⟩
  refine ⟨starts, ?_⟩
  intro fuel enough rest ends
  obtain ⟨fuel, rfl, -⟩ := exists_fuel starts enough
  obtain ⟨taken, dropped⟩ := isNumberChar_of_ends number.valid.2 ends
  -- The first character rules out every other kind of value.
  have other : ∀ {d} (more : List Char), isNumberChar d = false →
      number.text ++ rest = d :: more → False := by
    intro d more isOther same
    rw [isText] at same
    exact different isOther (List.cons.inj same).1
  rw [parseValue, skipSpace_starts starts]
  split
  · rename_i same
    exact (other _ (by decide) same).elim
  · rename_i same
    exact (other _ (by decide) same).elim
  · rename_i same
    exact (other _ (by decide) same).elim
  · rw [parseScalar.eq_4 _ (fun _ => other _ (by decide)) (fun _ => other _ (by decide))
      (fun _ => other _ (by decide))]
    simp only [taken, dropped, number.valid, and_self, dif_pos]

/-- A string literal reads as its value. -/
theorem reads_string (token : StringToken) : Reads token.text (.string token.value) := by
  have starts : Starts token.text := ⟨'"', _, rfl, by decide, by decide⟩
  refine ⟨starts, ?_⟩
  intro fuel enough rest _
  obtain ⟨fuel, rfl, -⟩ := exists_fuel starts enough
  rw [parseValue, skipSpace_starts starts]
  simp only [StringToken.text, List.cons_append, List.append_assoc, List.nil_append, token.parses,
    Option.map_some]

/-- `null` reads as null. -/
theorem reads_null : Reads (encode .null) .null := by
  have starts : Starts (encode .null) := ⟨'n', _, rfl, by decide, by decide⟩
  refine ⟨starts, ?_⟩
  intro fuel enough rest _
  obtain ⟨fuel, rfl, -⟩ := exists_fuel starts enough
  rw [parseValue, skipSpace_starts starts]
  rfl

/-- `true` and `false` read as the booleans. -/
theorem reads_bool (value : Bool) : Reads (encode (.bool value)) (.bool value) := by
  cases value with
  | true =>
      have starts : Starts (encode (.bool true)) := ⟨'t', _, rfl, by decide, by decide⟩
      refine ⟨starts, ?_⟩
      intro fuel enough rest _
      obtain ⟨fuel, rfl, -⟩ := exists_fuel starts enough
      rw [parseValue, skipSpace_starts starts]
      rfl
  | false =>
      have starts : Starts (encode (.bool false)) := ⟨'f', _, rfl, by decide, by decide⟩
      refine ⟨starts, ?_⟩
      intro fuel enough rest _
      obtain ⟨fuel, rfl, -⟩ := exists_fuel starts enough
      rw [parseValue, skipSpace_starts starts]
      rfl

/-! ### Arrays and objects -/

/-- The parser reads a text as the items of an array. -/
def ReadsItems (text : List Char) (items : List Value) : Prop :=
  (∃ space : Space, ∃ item, text = space.val ++ item ∧ Starts item) ∧
  ∀ fuel, text.length < fuel → ∀ rest,
    parseItems fuel (text ++ ']' :: rest) = some (items, rest)

/-- The parser reads a text as the members of an object. -/
def ReadsMembers (text : List Char) (members : List (List Char × Value)) : Prop :=
  (∃ space : Space, ∃ tail, text = space.val ++ '"' :: tail) ∧
  ∀ fuel, text.length < fuel → ∀ rest,
    parseMembers fuel (text ++ '}' :: rest) = some (members, rest)

/-- Brackets around space read as the empty array. -/
theorem reads_emptyArray (space : Space) : Reads ('[' :: (space.val ++ [']'])) (.array []) := by
  have starts : Starts ('[' :: (space.val ++ [']'])) := ⟨'[', _, rfl, by decide, by decide⟩
  refine ⟨starts, ?_⟩
  intro fuel enough rest _
  obtain ⟨fuel, rfl, -⟩ := exists_fuel starts enough
  rw [parseValue, skipSpace_starts starts]
  simp only [List.cons_append, List.append_assoc, List.nil_append, skipSpace_append]
  rfl

/-- Braces around space read as the empty object. -/
theorem reads_emptyObject (space : Space) : Reads ('{' :: (space.val ++ ['}'])) (.object []) := by
  have starts : Starts ('{' :: (space.val ++ ['}'])) := ⟨'{', _, rfl, by decide, by decide⟩
  refine ⟨starts, ?_⟩
  intro fuel enough rest _
  obtain ⟨fuel, rfl, -⟩ := exists_fuel starts enough
  rw [parseValue, skipSpace_starts starts]
  simp only [List.cons_append, List.append_assoc, List.nil_append, skipSpace_append]
  rfl

/-- Brackets around items read as the array of them. -/
theorem ReadsItems.reads {text : List Char} {items : List Value} (reads : ReadsItems text items) :
    Reads ('[' :: (text ++ [']'])) (.array items) := by
  have starts : Starts ('[' :: (text ++ [']'])) := ⟨'[', _, rfl, by decide, by decide⟩
  refine ⟨starts, ?_⟩
  intro fuel enough rest _
  obtain ⟨fuel, rfl, within⟩ := exists_fuel starts enough
  simp only [List.length_cons, List.length_append, List.length_nil] at within
  have parsed := reads.2 fuel (by omega) rest
  rw [← parseItems_skipSpace] at parsed
  rw [parseValue, skipSpace_starts starts]
  simp only [List.cons_append, List.append_assoc, List.nil_append]
  split
  · rename_i closed
    obtain ⟨space, item, rfl, c, tail, rfl, notSpace, notBracket⟩ := reads.1
    rw [List.append_assoc, skipSpace_append, List.cons_append, skipSpace_cons notSpace] at closed
    exact absurd (List.cons.inj closed).1 notBracket
  · rw [parsed]
    rfl

/-- Braces around members read as the object of them. -/
theorem ReadsMembers.reads {text : List Char} {members : List (List Char × Value)}
    (reads : ReadsMembers text members) : Reads ('{' :: (text ++ ['}'])) (.object members) := by
  have starts : Starts ('{' :: (text ++ ['}'])) := ⟨'{', _, rfl, by decide, by decide⟩
  refine ⟨starts, ?_⟩
  intro fuel enough rest _
  obtain ⟨fuel, rfl, within⟩ := exists_fuel starts enough
  simp only [List.length_cons, List.length_append, List.length_nil] at within
  have parsed := reads.2 fuel (by omega) rest
  rw [← parseMembers_skipSpace] at parsed
  rw [parseValue, skipSpace_starts starts]
  simp only [List.cons_append, List.append_assoc, List.nil_append]
  split
  · rename_i closed
    obtain ⟨space, tail, rfl⟩ := reads.1
    rw [List.append_assoc, skipSpace_append, List.cons_append, skipSpace_cons (by decide)] at closed
    cases closed
  · rw [parsed]
    rfl

section Lists

variable {item : List Char} {value : Value}

/-- One item, up to what separates it from the next. -/
theorem Reads.upTo (reads : Reads item value) (before after : Space) {fuel : Nat}
    (enough : item.length ≤ fuel) {separator : Char} (other : isNumberChar separator = false)
    (rest : List Char) :
    parseValue fuel (before.val ++ item ++ after.val ++ separator :: rest) =
      some (value, after.val ++ separator :: rest) := by
  rw [List.append_assoc, List.append_assoc]
  exact reads.after_space before enough (ends_space after (ends_cons other rest))

/-- A value with space around it reads as one item. -/
theorem Reads.lastItem (reads : Reads item value) (before after : Space) :
    ReadsItems (before.val ++ item ++ after.val) [value] := by
  constructor
  · obtain ⟨c, tail, rfl, notSpace, notBracket⟩ := reads.starts
    exact ⟨before, _, List.append_assoc _ _ _, c, _, rfl, notSpace, notBracket⟩
  · intro fuel enough rest
    obtain ⟨fuel, rfl⟩ := Nat.exists_eq_succ_of_ne_zero (Nat.ne_of_gt (Nat.zero_lt_of_lt enough))
    simp only [List.length_append] at enough
    have parsed := reads.upTo before after (by omega : item.length ≤ fuel)
      (by decide : isNumberChar ']' = false) rest
    simp only [parseItems, parsed, Option.bind_eq_bind, Option.bind_some, skipSpace_append]
    rfl

/-- A value, a comma and a list of items read as one item more. -/
theorem Reads.consItem (reads : Reads item value) (before after : Space) {text : List Char}
    {items : List Value} (later : ReadsItems text items) :
    ReadsItems (before.val ++ item ++ after.val ++ ',' :: text) (value :: items) := by
  constructor
  · obtain ⟨c, tail, rfl, notSpace, notBracket⟩ := reads.starts
    refine ⟨before, c :: tail ++ after.val ++ ',' :: text, ?_, c, _, rfl, notSpace, notBracket⟩
    simp only [List.append_assoc]
  · intro fuel enough rest
    obtain ⟨fuel, rfl⟩ := Nat.exists_eq_succ_of_ne_zero (Nat.ne_of_gt (Nat.zero_lt_of_lt enough))
    simp only [List.length_append, List.length_cons] at enough
    have parsed := reads.upTo before after (by omega : item.length ≤ fuel)
      (by decide : isNumberChar ',' = false) (text ++ ']' :: rest)
    have following := later.2 fuel (by omega) rest
    rw [List.append_assoc _ _ (']' :: rest), List.cons_append]
    simp only [parseItems, parsed, Option.bind_eq_bind, Option.bind_some, skipSpace_append]
    rw [skipSpace_cons (by decide)]
    simp only [following, Option.map_some]

/-- A key, up to its value. -/
theorem parseMembers_key (before : Space) (key : StringToken) (colon : Space) (fuel : Nat)
    (rest : List Char) :
    parseMembers (fuel + 1) (before.val ++ key.text ++ colon.val ++ ':' :: rest) = (do
      let (value, rest) ← parseValue fuel rest
      match skipSpace rest with
      | ',' :: rest =>
          (parseMembers fuel rest).map fun found => ((key.value, value) :: found.1, found.2)
      | '}' :: rest => return ([(key.value, value)], rest)
      | _ => none) := by
  rw [parseMembers, List.append_assoc, List.append_assoc, skipSpace_append]
  simp only [StringToken.text, List.cons_append, List.append_assoc, List.nil_append]
  rw [skipSpace_cons (by decide)]
  simp only [key.parses, Option.bind_eq_bind, Option.bind_some, skipSpace_append]
  rw [skipSpace_cons (by decide)]
  rfl

/-- A key, a colon and a value read as one member. -/
theorem Reads.lastMember (reads : Reads item value) (before : Space) (key : StringToken)
    (colon gap after : Space) :
    ReadsMembers (before.val ++ key.text ++ colon.val ++ ':' :: (gap.val ++ item ++ after.val))
      [(key.value, value)] := by
  constructor
  · refine ⟨before,
      key.content ++ '"' :: (colon.val ++ ':' :: (gap.val ++ item ++ after.val)), ?_⟩
    simp [StringToken.text]
  · intro fuel enough rest
    obtain ⟨fuel, rfl⟩ := Nat.exists_eq_succ_of_ne_zero (Nat.ne_of_gt (Nat.zero_lt_of_lt enough))
    simp only [List.length_append, List.length_cons] at enough
    have parsed := reads.upTo gap after (by omega : item.length ≤ fuel)
      (by decide : isNumberChar '}' = false) rest
    rw [List.append_assoc _ _ ('}' :: rest), List.cons_append, parseMembers_key]
    simp only [parsed, Option.bind_eq_bind, Option.bind_some, skipSpace_append]
    rfl

/-- A member, a comma and a list of members read as one member more. -/
theorem Reads.consMember (reads : Reads item value) (before : Space) (key : StringToken)
    (colon gap after : Space) {text : List Char} {members : List (List Char × Value)}
    (later : ReadsMembers text members) :
    ReadsMembers
      (before.val ++ key.text ++ colon.val ++ ':' :: (gap.val ++ item ++ after.val ++ ',' :: text))
      ((key.value, value) :: members) := by
  constructor
  · refine ⟨before, key.content ++ '"' ::
      (colon.val ++ ':' :: (gap.val ++ item ++ after.val ++ ',' :: text)), ?_⟩
    simp [StringToken.text]
  · intro fuel enough rest
    obtain ⟨fuel, rfl⟩ := Nat.exists_eq_succ_of_ne_zero (Nat.ne_of_gt (Nat.zero_lt_of_lt enough))
    simp only [List.length_append, List.length_cons] at enough
    have parsed := reads.upTo gap after (by omega : item.length ≤ fuel)
      (by decide : isNumberChar ',' = false) (text ++ '}' :: rest)
    have following := later.2 fuel (by omega) rest
    rw [List.append_assoc _ _ ('}' :: rest), List.cons_append, parseMembers_key,
      List.append_assoc _ _ ('}' :: rest), List.cons_append]
    simp only [parsed, Option.bind_eq_bind, Option.bind_some, skipSpace_append]
    rw [skipSpace_cons (by decide)]
    simp only [following, Option.map_some]

end Lists

/-! ### Texts with holes -/

section Fill

variable {fill : Hole → List Char} {values : Hole → Value}

mutual

/-- If the text in every hole reads as the value of the hole, the whole text reads as
the whole value. -/
theorem Skeleton.reads : ∀ skeleton : Skeleton Hole,
    (∀ hole ∈ skeleton.holes, Reads (fill hole) (values hole)) →
    Reads (skeleton.render fill) (skeleton.value values)
  | .hole hole, holes => holes hole (List.mem_singleton_self hole)
  | .null, _ => reads_null
  | .bool value, _ => reads_bool value
  | .number value, _ => reads_number value
  | .string token, _ => reads_string token
  | .emptyArray space, _ => reads_emptyArray space
  | .emptyObject space, _ => reads_emptyObject space
  | .array items, holes => (items.reads holes).reads
  | .object members, holes => (members.reads holes).reads

/-- The items with their holes filled read as the items with the values of the holes. -/
theorem Items.reads : ∀ items : Items Hole,
    (∀ hole ∈ items.holes, Reads (fill hole) (values hole)) →
    ReadsItems (items.render fill) (items.value values)
  | .last before item after, holes => (item.reads holes).lastItem before after
  | .cons before item after rest, holes =>
      (item.reads fun hole member => holes hole (List.mem_append_left _ member)).consItem
        before after (rest.reads fun hole member => holes hole (List.mem_append_right _ member))

/-- The members with their holes filled read as the members with the values of the holes. -/
theorem Members.reads : ∀ members : Members Hole,
    (∀ hole ∈ members.holes, Reads (fill hole) (values hole)) →
    ReadsMembers (members.render fill) (members.value values)
  | .last before key colon gap value after, holes =>
      (value.reads holes).lastMember before key colon gap after
  | .cons before key colon gap value after rest, holes =>
      (value.reads fun hole member => holes hole (List.mem_append_left _ member)).consMember
        before key colon gap after
        (rest.reads fun hole member => holes hole (List.mem_append_right _ member))

end

end Fill

/-- A text that reads as a value parses as it, with space around it. -/
theorem Reads.parse {text : List Char} {value : Value} (reads : Reads text value)
    (before after : Space) : parse (before.val ++ text ++ after.val) = some value := by
  have ends : Ends after.val := by
    have ends := ends_space after ends_nil
    rwa [List.append_nil] at ends
  have skipped : skipSpace after.val = [] := by
    have skipped := skipSpace_append after []
    rwa [List.append_nil] at skipped
  have parsed := reads.after_space before
    (show text.length ≤ (before.val ++ text ++ after.val).length by
      simp only [List.length_append]; omega) ends
  rw [← List.append_assoc] at parsed
  rw [Json.parse, parsed]
  exact if_pos skipped

/-! ### The encoder -/

/-- A character that is neither a quote nor a backslash is part of the string. -/
theorem scanString_plain {c : Char} (notQuote : c ≠ '"') (notEscape : c ≠ '\\')
    (rest : List Char) :
    scanString (c :: rest) = (scanString rest).map fun found => (c :: found.1, found.2) :=
  scanString.eq_4 c rest notQuote fun _ _ same _ => notEscape same

theorem lowerhex_plain : ∀ digit < 16, lowerhex digit ≠ '"' ∧ lowerhex digit ≠ '\\' := by
  decide

/-- The digits of a `\u` escape. -/
theorem scanString_digits {a b c d : Char} (rest : List Char)
    (plain : ∀ digit ∈ [a, b, c, d], digit ≠ '"' ∧ digit ≠ '\\') :
    scanString ('\\' :: 'u' :: a :: b :: c :: d :: rest) =
      (scanString rest).map fun found => ('\\' :: 'u' :: a :: b :: c :: d :: found.1, found.2) := by
  have first := plain a (by simp)
  have second := plain b (by simp)
  have third := plain c (by simp)
  have fourth := plain d (by simp)
  rw [scanString, scanString_plain first.1 first.2, scanString_plain second.1 second.2,
    scanString_plain third.1 third.2, scanString_plain fourth.1 fourth.2]
  simp only [Option.map_map]
  rfl

/-- How one character is encoded. -/
theorem encodeChar_cases (c : Char) :
    (∃ letter, encodeChar c = ['\\', letter] ∧ shortEscape letter = some c ∧ letter ≠ 'u' ) ∨
    (∃ a b d e, encodeChar c = ['\\', 'u', a, b, d, e] ∧ hex4 a b d e = some c.toNat ∧
      c.toNat < 0xd800 ∧ ∀ digit ∈ [a, b, d, e], digit ≠ '"' ∧ digit ≠ '\\') ∨
    (encodeChar c = [c] ∧ c ≠ '"' ∧ c ≠ '\\' ∧ 0x20 ≤ c.toNat) := by
  unfold encodeChar
  split
  · rename_i quoted
    left
    refine ⟨c, rfl, ?_⟩
    rcases quoted with rfl | rfl <;> decide
  · rename_i unquoted
    rw [not_or] at unquoted
    split
    · rename_i same
      exact .inl ⟨'b', rfl, by rw [same]; rfl, by decide⟩
    split
    · rename_i same
      exact .inl ⟨'f', rfl, by rw [same]; rfl, by decide⟩
    split
    · rename_i same
      exact .inl ⟨'n', rfl, by rw [same]; rfl, by decide⟩
    split
    · rename_i same
      exact .inl ⟨'r', rfl, by rw [same]; rfl, by decide⟩
    split
    · rename_i same
      exact .inl ⟨'t', rfl, by rw [same]; rfl, by decide⟩
    split
    · rename_i escaped
      right; left
      have small : c.toNat < 128 := by
        rcases escaped with control | rfl | rfl | rfl
        · omega
        all_goals decide
      have digits : ∀ n < 128, hex4 '0' '0' (lowerhex (n / 16)) (lowerhex (n % 16)) = some n := by
        decide +kernel
      refine ⟨_, _, _, _, rfl, digits c.toNat small, by omega, ?_⟩
      have high := lowerhex_plain (c.toNat / 16) (by omega)
      have low := lowerhex_plain (c.toNat % 16) (by omega)
      intro digit member
      simp only [List.mem_cons, List.not_mem_nil, or_false] at member
      rcases member with rfl | rfl | rfl | rfl
      · decide
      · decide
      · exact high
      · exact low
    split
    · rename_i separator
      right; left
      rcases separator with rfl | rfl
      · exact ⟨_, _, _, _, rfl, by decide, by decide, by simp [lowerhex_plain]⟩
      · exact ⟨_, _, _, _, rfl, by decide, by decide, by simp [lowerhex_plain]⟩
    · rename_i plain _
      rw [not_or, Nat.not_lt] at plain
      exact .inr (.inr ⟨rfl, unquoted.1, unquoted.2, plain.1⟩)

/-- An encoded character is scanned whole. -/
theorem scanString_encodeChar (c : Char) (rest : List Char) :
    scanString (encodeChar c ++ rest) =
      (scanString rest).map fun found => (encodeChar c ++ found.1, found.2) := by
  rcases encodeChar_cases c with ⟨letter, encoded, -, -⟩ | ⟨a, b, d, e, encoded, -, -, plain⟩ |
    ⟨encoded, notQuote, notEscape, -⟩
  · rw [encoded]
    rfl
  · rw [encoded]
    exact scanString_digits rest plain
  · rw [encoded]
    exact scanString_plain notQuote notEscape rest

/-- An encoded string is scanned up to its closing quote. -/
theorem scanString_encodeChars (text rest : List Char) :
    scanString (text.flatMap encodeChar ++ '"' :: rest) = some (text.flatMap encodeChar, rest) := by
  induction text with
  | nil => rfl
  | cons c text ih =>
      rw [List.flatMap_cons, List.append_assoc, scanString_encodeChar, ih]
      rfl

/-- A unit below the surrogates is a character of its own. -/
theorem joinPieces_some {unit : Nat} (below : unit < 0xd800) (pieces : List Piece) :
    joinPieces (some unit) pieces = unitChar unit :: joinPieces none pieces := by
  have alone : ∀ low, surrogatePair unit low = none := by
    intro low
    refine if_neg fun pair => ?_
    omega
  cases pieces with
  | nil => rfl
  | cons piece rest =>
      cases piece with
      | char c => rfl
      | unit low => simp only [joinPieces, alone]

/-- The code unit of a character below the surrogates is that character. -/
theorem unitChar_toNat {c : Char} (below : c.toNat < 0xd800) : unitChar c.toNat = c := by
  have single : ¬ (0xd800 ≤ c.toNat ∧ c.toNat < 0xe000) := by omega
  rw [unitChar, if_neg single, Char.ofNat_toNat]

/-- Unquoting undoes the encoding, one character at a time. -/
theorem unquote_encodeChar (c : Char) (rest : List Char) :
    unquote (encodeChar c ++ rest) = (unquote rest).map (c :: ·) := by
  unfold unquote
  rcases encodeChar_cases c with ⟨letter, encoded, isLetter, notUnit⟩ |
    ⟨a, b, d, e, encoded, isUnit, below, -⟩ | ⟨encoded, -, notEscape, printable⟩
  · have pieces : stringPieces ('\\' :: letter :: rest) = (stringPieces rest).map (.char c :: ·) := by
      rw [stringPieces]
      · rw [isLetter]
        cases stringPieces rest <;> rfl
      · intro _ _ _ _ _ isUnit _
        exact notUnit isUnit
    rw [encoded]
    simp only [List.cons_append, List.nil_append, pieces]
    cases stringPieces rest <;> rfl
  · have pieces : stringPieces ('\\' :: 'u' :: a :: b :: d :: e :: rest) =
        (stringPieces rest).map (.unit c.toNat :: ·) := by
      simp only [stringPieces, isUnit, Option.bind_eq_bind, Option.bind_some]
      cases stringPieces rest <;> rfl
    rw [encoded]
    simp only [List.cons_append, List.nil_append, pieces]
    cases stringPieces rest with
    | none => rfl
    | some later =>
        simp only [Option.map_some, joinPieces, joinPieces_some below, unitChar_toNat below]
  · have pieces : stringPieces (c :: rest) = (stringPieces rest).map (.char c :: ·) := by
      rw [stringPieces]
      · exact if_neg (by omega)
      · exact notEscape
    rw [encoded]
    simp only [List.cons_append, List.nil_append, pieces]
    cases stringPieces rest <;> rfl

/-- Unquoting undoes the encoding of a string. -/
theorem unquote_encodeChars (text : List Char) :
    unquote (text.flatMap encodeChar) = some text := by
  induction text with
  | nil => rfl
  | cons c text ih =>
      rw [List.flatMap_cons, unquote_encodeChar, ih]
      rfl

/-- The token that a text is encoded as. -/
def encodedToken (text : List Char) : StringToken where
  content := text.flatMap encodeChar
  value := text
  valid := ⟨scanString_encodeChars text [], unquote_encodeChars text⟩

/-- No white space. -/
def noSpace : Space := ⟨[], rfl⟩

mutual

/-- The parser reads back what the encoder writes. -/
theorem reads_encode : ∀ value : Value, Reads (encode value) value
  | .null => reads_null
  | .bool value => reads_bool value
  | .number value => reads_number value
  | .string text => reads_string (encodedToken text)
  | .array [] => reads_emptyArray noSpace
  | .array (item :: rest) => (readsItems_encodeItems (item :: rest) (List.cons_ne_nil _ _)).reads
  | .object [] => reads_emptyObject noSpace
  | .object (member :: rest) =>
      (readsMembers_encodeMembers (member :: rest) (List.cons_ne_nil _ _)).reads

/-- The encoded items of an array read as these items. -/
theorem readsItems_encodeItems : ∀ items : List Value, items ≠ [] →
    ReadsItems (encodeItems items) items
  | [], nonempty => absurd rfl nonempty
  | [item], _ => by
      have reads := (reads_encode item).lastItem noSpace noSpace
      simpa [noSpace, encodeItems] using reads
  | item :: next :: rest, _ => by
      have reads := (reads_encode item).consItem noSpace noSpace
        (readsItems_encodeItems (next :: rest) (List.cons_ne_nil _ _))
      simpa [noSpace, encodeItems] using reads

/-- The encoded members of an object read as these members. -/
theorem readsMembers_encodeMembers : ∀ members : List (List Char × Value), members ≠ [] →
    ReadsMembers (encodeMembers members) members
  | [], nonempty => absurd rfl nonempty
  | [(key, value)], _ => by
      have reads := (reads_encode value).lastMember noSpace (encodedToken key) noSpace noSpace noSpace
      simpa [noSpace, encodeMembers, encodedToken, StringToken.text, encodeString] using reads
  | (key, value) :: next :: rest, _ => by
      have reads := (reads_encode value).consMember noSpace (encodedToken key) noSpace noSpace noSpace
        (readsMembers_encodeMembers (next :: rest) (List.cons_ne_nil _ _))
      simpa [noSpace, encodeMembers, encodedToken, StringToken.text, encodeString] using reads

end

end Restitch.Std.Json
