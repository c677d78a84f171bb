import Restitch.Std.ClassPattern
import Mathlib.Data.List.Infix

/-!
# Redaction of query values in log texts (`internal/composition/step.go`)

A text is its bytes: every class of the pattern is a set of ASCII characters or
the complement of one, so it reads the same bytes whether or not the text is
valid UTF-8.
-/

namespace Restitch.Composition

open Restitch.Std

/-- `[\t\n\f\r ]`, which is `\s`. -/
def spaceByte (b : UInt8) : Bool := [9, 10, 12, 13, 32].contains b

/-- `[&\s"]` -/
def endsValue (b : UInt8) : Bool := b == '&'.toUInt8 || spaceByte b || b == '"'.toUInt8

/-- `[?&]` -/
def opensPair (b : UInt8) : Bool := b == '?'.toUInt8 || b == '&'.toUInt8

/-- `=` -/
def isEquals (b : UInt8) : Bool := b == '='.toUInt8

/-- `[^=&\s"]` -/
def keyByte (b : UInt8) : Bool := !(isEquals b || endsValue b)

/-- `[^&\s"]` -/
def valueByte (b : UInt8) : Bool := !endsValue b

/-- `([?&][^=&\s"]+)=([^&\s"]*)`; its first group is the first three classes. -/
def queryValuePattern : ClassPattern UInt8 where
  first := opensPair
  items := [.one keyByte, .many keyByte, .one isEquals, .many valueByte]

/-- `***` -/
def masked : List UInt8 := List.replicate 3 '*'.toUInt8

/-- `RedactURLQuery` -/
def redactURLQuery (s : List UInt8) : List UInt8 :=
  queryValuePattern.replaceAll
    (fun captures => (captures.take 3).flatten ++ '='.toUInt8 :: masked) s

/-- A pair starts at `a`: a key that is not empty, and an equals sign. -/
def StartsPair (a : UInt8) (rest : List UInt8) : Prop :=
  opensPair a = true ∧ rest.takeWhile keyByte ≠ [] ∧
    (rest.dropWhile keyByte).head?.any isEquals = true

instance (a : UInt8) (rest : List UInt8) : Decidable (StartsPair a rest) :=
  inferInstanceAs (Decidable (_ ∧ _ ∧ _))

/-- The byte is an equals sign. -/
theorem isEquals_iff {b : UInt8} : isEquals b = true ↔ b = '='.toUInt8 := beq_iff_eq

@[simp] theorem keyByte_equals : keyByte '='.toUInt8 = false := rfl

/-- A byte of a key is no equals sign. -/
theorem not_isEquals_of_keyByte {b : UInt8} (isKey : keyByte b = true) : isEquals b = false := by
  simp only [keyByte, Bool.not_eq_true', Bool.or_eq_false_iff] at isKey
  exact isKey.1

/-- A byte of a key may be one of a value. -/
theorem valueByte_of_keyByte {b : UInt8} (isKey : keyByte b = true) : valueByte b = true := by
  simp only [keyByte, Bool.not_eq_true', Bool.or_eq_false_iff] at isKey
  rw [valueByte, isKey.2]
  rfl

/-- The end of the pattern: the equals sign and the value. -/
theorem matchItems_value (text : List UInt8) :
    matchItems [.one isEquals, .many valueByte] text =
      if text.head?.any isEquals then
        some ([text.take 1, text.tail.takeWhile valueByte], text.tail.dropWhile valueByte)
      else none := by
  cases text with
  | nil => rfl
  | cons b rest =>
      have value : matchItems [.many valueByte] rest =
          some ([rest.takeWhile valueByte], rest.dropWhile valueByte) := by
        have reached : matchItems [] (rest.dropWhile valueByte) =
            some ([], rest.dropWhile valueByte) := rfl
        rw [matchItems, greedy_eq_of_reached reached]
        rfl
      rw [matchItems, value]
      rfl

/-- The key in front of the equals sign: all the key bytes there are. -/
theorem matchItems_key (text : List UInt8) :
    matchItems [.one keyByte, .many keyByte, .one isEquals, .many valueByte] text =
      if text.takeWhile keyByte ≠ [] ∧ (text.dropWhile keyByte).head?.any isEquals then
        some ([(text.takeWhile keyByte).take 1, (text.takeWhile keyByte).tail,
          (text.dropWhile keyByte).take 1, (text.dropWhile keyByte).tail.takeWhile valueByte],
          (text.dropWhile keyByte).tail.dropWhile valueByte)
      else none := by
  have excluded : ∀ b rest, keyByte b = true →
      matchItems [.one isEquals, .many valueByte] (b :: rest) = none := by
    intro b rest isKey
    rw [matchItems_value, List.head?_cons, Option.any_some, not_isEquals_of_keyByte isKey]
    rfl
  cases text with
  | nil => rfl
  | cons b rest =>
      rw [matchItems, matchItems, greedy_eq_of_excluded excluded, matchItems_value]
      by_cases isKey : keyByte b = true
      · rw [if_pos isKey, List.takeWhile_cons_of_pos isKey, List.dropWhile_cons_of_pos isKey]
        by_cases equals : (rest.dropWhile keyByte).head?.any isEquals = true
        · rw [if_pos equals, if_pos ⟨List.cons_ne_nil _ _, equals⟩]
          rfl
        · rw [if_neg equals, if_neg fun both => equals both.2]
          rfl
      · rw [if_neg isKey, if_neg fun both => both.1 (List.takeWhile_cons_of_neg isKey)]

/-- The match at the front of a text. -/
theorem matchFront_cons (a : UInt8) (rest : List UInt8) :
    queryValuePattern.matchFront (a :: rest) =
      if StartsPair a rest then
        some ([[a], (rest.takeWhile keyByte).take 1, (rest.takeWhile keyByte).tail,
          (rest.dropWhile keyByte).take 1,
          (rest.dropWhile keyByte).tail.takeWhile valueByte],
          (rest.dropWhile keyByte).tail.dropWhile valueByte)
      else none := by
  have front : queryValuePattern.matchFront (a :: rest) =
      if opensPair a then
        (matchItems [.one keyByte, .many keyByte, .one isEquals, .many valueByte] rest).map
          fun result => ([a] :: result.1, result.2)
      else none := rfl
  rw [front, matchItems_key]
  by_cases opens : opensPair a = true
  · rw [if_pos opens]
    by_cases key : rest.takeWhile keyByte ≠ [] ∧ (rest.dropWhile keyByte).head?.any isEquals
    · rw [if_pos key, if_pos ⟨opens, key⟩]
      rfl
    · rw [if_neg key, if_neg fun starts => key starts.2]
      rfl
  · rw [if_neg opens, if_neg fun starts => opens starts.1]

@[simp] theorem redactURLQuery_nil : redactURLQuery [] = [] := rfl

/-- Where no pair starts, a byte is kept. -/
theorem redactURLQuery_cons_of_not {a : UInt8} {rest : List UInt8} (none : ¬ StartsPair a rest) :
    redactURLQuery (a :: rest) = a :: redactURLQuery rest :=
  ClassPattern.replaceAll_cons_of_none _ _ (by rw [matchFront_cons, if_neg none])

/-- `&`, white space, a double quote or the end. -/
def EndsValue (text : List UInt8) : Prop :=
  ∀ b ∈ text.head?, endsValue b = true

/-- What stands in front of the equals sign of a pair. -/
structure QueryKey where
  opener : UInt8
  key : List UInt8
  isOpener : opensPair opener = true
  keyNonempty : key ≠ []
  isKey : ∀ b ∈ key, keyByte b = true

/-- A text that may stand for a value. -/
abbrev QueryValue := { value : List UInt8 // ∀ b ∈ value, valueByte b = true }

/-- A pair of a key and a value. -/
structure QueryPair extends QueryKey where
  value : QueryValue

/-- `?key=value` or `&key=value` -/
def QueryPair.text (pair : QueryPair) : List UInt8 :=
  pair.opener :: pair.key ++ '='.toUInt8 :: pair.value.1

/-- A pair in front of a text is its key, an equals sign and its value. -/
theorem QueryPair.text_append (pair : QueryPair) (after : List UInt8) :
    pair.text ++ after =
      (pair.opener :: pair.key) ++ '='.toUInt8 :: (pair.value.1 ++ after) := by
  rw [QueryPair.text, List.append_assoc, List.cons_append]
  rfl

/-- The pair with its value masked. -/
def QueryPair.mask (pair : QueryPair) : QueryPair :=
  { pair with value := ⟨masked, by decide +kernel⟩ }

/-- A class in front of something that does not start with it. -/
theorem takeWhile_append_of_head {p : UInt8 → Bool} {run rest : List UInt8}
    (inClass : ∀ b ∈ run, p b = true) (ended : ∀ b ∈ rest.head?, p b = false) :
    (run ++ rest).takeWhile p = run ∧ (run ++ rest).dropWhile p = rest := by
  rw [List.takeWhile_append_of_pos inClass, List.dropWhile_append_of_pos inClass]
  cases rest with
  | nil => exact ⟨List.append_nil run, rfl⟩
  | cons b rest =>
      have other : ¬ p b = true := Bool.eq_false_iff.mp (ended b rfl)
      rw [List.takeWhile_cons_of_neg other, List.dropWhile_cons_of_neg other]
      exact ⟨List.append_nil run, rfl⟩

/-- A pair is redacted by masking its value. -/
theorem redactURLQuery_pair (pair : QueryPair) {after : List UInt8} (ends : EndsValue after) :
    redactURLQuery (pair.text ++ after) = pair.mask.text ++ redactURLQuery after := by
  have keyEnds : ∀ b ∈ ('='.toUInt8 :: (pair.value.1 ++ after)).head?, keyByte b = false := by
    intro b isHead
    cases isHead
    rfl
  have valueEnds : ∀ b ∈ after.head?, valueByte b = false := by
    intro b isHead
    rw [valueByte, ends b isHead]
    rfl
  obtain ⟨key, afterKey⟩ := takeWhile_append_of_head pair.isKey keyEnds
  obtain ⟨value, afterValue⟩ := takeWhile_append_of_head pair.value.2 valueEnds
  have starts : StartsPair pair.opener (pair.key ++ '='.toUInt8 :: (pair.value.1 ++ after)) := by
    refine ⟨pair.isOpener, ?_, ?_⟩
    · rw [key]
      exact pair.keyNonempty
    · rw [afterKey]
      rfl
  rw [QueryPair.text_append, List.cons_append]
  have front := matchFront_cons pair.opener (pair.key ++ '='.toUInt8 :: (pair.value.1 ++ after))
  rw [if_pos starts, key, afterKey, List.tail_cons, value, afterValue] at front
  have whole : pair.key.take 1 ++ pair.key.tail = pair.key := by
    cases pair.key <;> rfl
  rw [redactURLQuery, ClassPattern.replaceAll_cons_of_some _ _ front]
  have kept : ([[pair.opener], pair.key.take 1, pair.key.tail] : List (List UInt8)).flatten =
      pair.opener :: pair.key := by
    simpa using whole
  rw [List.take_succ_cons, List.take_succ_cons, List.take_succ_cons, List.take_zero, kept]
  rfl

/-- A value ends where its bytes end. -/
theorem endsValue_dropWhile (text : List UInt8) : EndsValue (text.dropWhile valueByte) := by
  intro b isHead
  have notValue := List.head?_dropWhile_not valueByte text
  rw [Option.mem_def.mp isHead] at notValue
  simpa [valueByte] using notValue

/-- Where a pair starts, the text is a pair in front of the end of its value. -/
theorem exists_pair_of_startsPair {a : UInt8} {rest : List UInt8} (starts : StartsPair a rest) :
    ∃ (pair : QueryPair) (after : List UInt8), a :: rest = pair.text ++ after ∧ EndsValue after := by
  obtain ⟨opens, nonempty, equals⟩ := starts
  have parts := List.takeWhile_append_dropWhile (p := keyByte) (l := rest)
  cases left : rest.dropWhile keyByte with
  | nil =>
      rw [left] at equals
      cases equals
  | cons sign text =>
      rw [left] at equals parts
      have isSign : sign = '='.toUInt8 := isEquals_iff.mp equals
      subst isSign
      refine ⟨⟨⟨a, rest.takeWhile keyByte, opens, nonempty,
        fun b member => List.mem_takeWhile_imp member⟩, text.takeWhile valueByte,
        fun b member => List.mem_takeWhile_imp member⟩, text.dropWhile valueByte, ?_, ?_⟩
      · simp only [QueryPair.text, List.cons_append, List.append_assoc,
          List.takeWhile_append_dropWhile]
        rw [parts]
      · exact endsValue_dropWhile text

/-- Induction over a text as it is scanned: a byte at which no pair starts, or a
pair in front of the end of its value. -/
theorem text_induction {motive : List UInt8 → Prop} (nil : motive [])
    (byte : ∀ a rest, ¬ StartsPair a rest → motive rest → motive (a :: rest))
    (pair : ∀ (pair : QueryPair) after, EndsValue after → motive after →
      motive (pair.text ++ after)) (text : List UInt8) : motive text := by
  generalize bound : text.length = n
  induction n using Nat.strongRecOn generalizing text with
  | ind n ih =>
      cases text with
      | nil => exact nil
      | cons a rest =>
          by_cases starts : StartsPair a rest
          · obtain ⟨found, after, shape, ends⟩ := exists_pair_of_startsPair starts
            rw [shape] at bound ⊢
            refine pair found after ends (ih after.length ?_ after rfl)
            rw [← bound, QueryPair.text, List.length_append, List.cons_append, List.length_cons]
            omega
          · exact byte a rest starts (ih rest.length (by rw [← bound]; exact Nat.lt_succ_self _)
              rest rfl)

/-- A part of a text: a byte, or a pair. -/
inductive LogPart where
  | byte (b : UInt8)
  | param (pair : QueryPair)

def LogPart.text : LogPart → List UInt8
  | .byte b => [b]
  | .param pair => pair.text

def LogPart.mask : LogPart → LogPart
  | .byte b => .byte b
  | .param pair => .param pair.mask

/-- Redaction masks the values of pairs and keeps everything else. -/
theorem exists_parts (text : List UInt8) :
    ∃ parts : List LogPart, text = parts.flatMap LogPart.text ∧
      redactURLQuery text = (parts.map LogPart.mask).flatMap LogPart.text ∧
      ∀ before pair after, parts = before ++ .param pair :: after →
        EndsValue (after.flatMap LogPart.text) := by
  induction text using text_induction with
  | nil => exact ⟨[], rfl, rfl, by simp⟩
  | byte a rest none ih =>
      obtain ⟨parts, whole, redacted, ended⟩ := ih
      refine ⟨.byte a :: parts, ?_, ?_, ?_⟩
      · rw [List.flatMap_cons, ← whole]
        rfl
      · rw [redactURLQuery_cons_of_not none, redacted, List.map_cons, List.flatMap_cons]
        rfl
      · intro before pair after shape
        cases before with
        | nil => cases shape
        | cons first before => exact ended before pair after (List.cons.inj shape).2
  | pair found after ends ih =>
      obtain ⟨parts, rfl, redacted, ended⟩ := ih
      refine ⟨.param found :: parts, ?_, ?_, ?_⟩
      · rw [List.flatMap_cons]
        rfl
      · rw [redactURLQuery_pair found ends, redacted, List.map_cons, List.flatMap_cons]
        rfl
      · intro before pair after shape
        cases before with
        | nil =>
            cases shape
            exact ends
        | cons first before => exact ended before pair after (List.cons.inj shape).2

/-- The first byte is kept. -/
theorem head?_redactURLQuery (text : List UInt8) :
    (redactURLQuery text).head? = text.head? := by
  induction text using text_induction with
  | nil => rfl
  | byte a rest none => rw [redactURLQuery_cons_of_not none, List.head?_cons, List.head?_cons]
  | pair found after ends =>
      rw [redactURLQuery_pair found ends]
      rfl

/-- A run of key bytes that an equals sign ends, whatever follows the sign. -/
theorem key_append_equals (run rest : List UInt8) :
    (run ++ '='.toUInt8 :: rest).takeWhile keyByte = run.takeWhile keyByte ∧
      (run ++ '='.toUInt8 :: rest).dropWhile keyByte =
        run.dropWhile keyByte ++ '='.toUInt8 :: rest := by
  induction run with
  | nil => exact ⟨rfl, rfl⟩
  | cons b run ih =>
      by_cases isKey : keyByte b = true
      · rw [List.cons_append, List.takeWhile_cons_of_pos isKey, List.dropWhile_cons_of_pos isKey,
          List.takeWhile_cons_of_pos isKey, List.dropWhile_cons_of_pos isKey, ih.1, ih.2]
        exact ⟨rfl, rfl⟩
      · rw [List.cons_append, List.takeWhile_cons_of_neg isKey, List.dropWhile_cons_of_neg isKey,
          List.takeWhile_cons_of_neg isKey, List.dropWhile_cons_of_neg isKey]
        exact ⟨rfl, rfl⟩

/-- Whether a pair starts in front of an equals sign does not depend on what
follows the sign. -/
theorem startsPair_append_equals (a : UInt8) (run rest : List UInt8) :
    StartsPair a (run ++ '='.toUInt8 :: rest) ↔ StartsPair a (run ++ ['='.toUInt8]) := by
  obtain ⟨key, afterKey⟩ := key_append_equals run rest
  obtain ⟨key', afterKey'⟩ := key_append_equals run []
  rw [StartsPair, StartsPair, key, afterKey, key', afterKey']
  cases run.dropWhile keyByte <;> rfl

/-- Redaction moves neither a key nor its end. -/
theorem key_redactURLQuery (text : List UInt8) :
    (redactURLQuery text).takeWhile keyByte = text.takeWhile keyByte ∧
      ((redactURLQuery text).dropWhile keyByte).head? = (text.dropWhile keyByte).head? := by
  induction text using text_induction with
  | nil => exact ⟨rfl, rfl⟩
  | byte a rest none ih =>
      rw [redactURLQuery_cons_of_not none]
      by_cases isKey : keyByte a = true
      · rw [List.takeWhile_cons_of_pos isKey, List.dropWhile_cons_of_pos isKey,
          List.takeWhile_cons_of_pos isKey, List.dropWhile_cons_of_pos isKey, ih.1, ih.2]
        exact ⟨rfl, rfl⟩
      · rw [List.takeWhile_cons_of_neg isKey, List.dropWhile_cons_of_neg isKey,
          List.takeWhile_cons_of_neg isKey, List.dropWhile_cons_of_neg isKey]
        exact ⟨rfl, rfl⟩
  | pair found after ends =>
      rw [redactURLQuery_pair found ends, QueryPair.text_append, QueryPair.text_append]
      obtain ⟨key, afterKey⟩ := key_append_equals (found.opener :: found.key)
        (found.value.1 ++ after)
      obtain ⟨key', afterKey'⟩ := key_append_equals (found.opener :: found.key)
        (masked ++ redactURLQuery after)
      rw [key, afterKey]
      refine ⟨key', (congrArg List.head? afterKey').trans ?_⟩
      cases (found.opener :: found.key).dropWhile keyByte <;> rfl

/-- Redacting twice is redacting once. -/
theorem redactURLQuery_redactURLQuery (text : List UInt8) :
    redactURLQuery (redactURLQuery text) = redactURLQuery text := by
  induction text using text_induction with
  | nil => rfl
  | byte a rest none ih =>
      have still : ¬ StartsPair a (redactURLQuery rest) := by
        obtain ⟨key, afterKey⟩ := key_redactURLQuery rest
        rwa [StartsPair, key, afterKey]
      rw [redactURLQuery_cons_of_not none, redactURLQuery_cons_of_not still, ih]
  | pair found after ends ih =>
      have stillEnds : EndsValue (redactURLQuery after) := by
        rwa [EndsValue, head?_redactURLQuery]
      rw [redactURLQuery_pair found ends, redactURLQuery_pair found.mask stillEnds, ih]
      rfl

/-- A suffix of a text in front of an equals sign that starts with the end of a
value starts at the opener of the last key or in front of it. -/
theorem exists_before_of_suffix {query : QueryKey} {before rest : List UInt8}
    (suffix : rest <:+ before ++ query.opener :: query.key) (ends : EndsValue rest)
    (nonempty : rest ≠ []) :
    ∃ earlier, rest = earlier ++ query.opener :: query.key ∧ earlier.length ≤ before.length := by
  rcases List.suffix_or_suffix_of_suffix suffix (List.suffix_append before _) with
    inside | ⟨earlier, rfl⟩
  · rcases List.suffix_cons_iff.mp inside with rfl | inKey
    · exact ⟨[], rfl, Nat.zero_le _⟩
    · cases rest with
      | nil => exact absurd rfl nonempty
      | cons b rest =>
          have isValue := valueByte_of_keyByte
            (query.isKey b (inKey.subset List.mem_cons_self))
          rw [valueByte, ends b rfl] at isValue
          cases isValue
  · refine ⟨earlier, rfl, ?_⟩
    have shorter := suffix.length_le
    rw [List.length_append, List.length_append] at shorter
    omega

/-- The key of a pair that starts in front of an equals sign ends there, or at an
equals sign before. -/
theorem exists_key_of_startsPair {a : UInt8} {run : List UInt8}
    (starts : StartsPair a (run ++ ['='.toUInt8])) :
    ∃ front : QueryKey, front.opener = a ∧
      (run = front.key ∨ ∃ middle, run = front.key ++ '='.toUInt8 :: middle) := by
  obtain ⟨opens, nonempty, equals⟩ := starts
  obtain ⟨key, afterKey⟩ := key_append_equals run []
  rw [key] at nonempty
  rw [afterKey] at equals
  have parts := List.takeWhile_append_dropWhile (p := keyByte) (l := run)
  refine ⟨⟨a, run.takeWhile keyByte, opens, nonempty, fun b member =>
    List.mem_takeWhile_imp member⟩, rfl, ?_⟩
  cases left : run.dropWhile keyByte with
  | nil =>
      rw [left, List.append_nil] at parts
      exact .inl parts.symm
  | cons sign middle =>
      rw [left, List.cons_append, List.head?_cons, Option.any_some, isEquals_iff] at equals
      rw [left, equals] at parts
      exact .inr ⟨middle, parts.symm⟩

/-- A text may stand for a value, or a value in it ends. -/
theorem value_or_ends (text : List UInt8) :
    (∀ b ∈ text, valueByte b = true) ∨
      ∃ (value : QueryValue) (rest : List UInt8), text = value.1 ++ rest ∧ rest ≠ [] ∧
        EndsValue rest := by
  have parts := List.takeWhile_append_dropWhile (p := valueByte) (l := text)
  by_cases left : text.dropWhile valueByte = []
  · exact .inl (List.dropWhile_eq_nil_iff.mp left)
  · exact .inr ⟨⟨text.takeWhile valueByte, fun b member => List.mem_takeWhile_imp member⟩, _,
      parts.symm, left, endsValue_dropWhile text⟩

/-- A value behind an equals sign behind a value. -/
def joinValues (first second : QueryValue) : QueryValue :=
  ⟨first.1 ++ '='.toUInt8 :: second.1, by
    intro b member
    rcases List.mem_append.mp member with early | late
    · exact first.2 b early
    · rcases List.mem_cons.mp late with rfl | later
      · rfl
      · exact second.2 b later⟩

/-- `?key=***` or `&key=***` -/
def QueryKey.shown (query : QueryKey) : List UInt8 :=
  query.opener :: query.key ++ '='.toUInt8 :: masked

/-- The value behind a key is replaced. -/
theorem redactURLQuery_key (query : QueryKey) (value : QueryValue) {after : List UInt8}
    (ends : EndsValue after) :
    redactURLQuery ((query.opener :: query.key) ++ '='.toUInt8 :: (value.1 ++ after)) =
      query.shown ++ redactURLQuery after := by
  have pair := redactURLQuery_pair ⟨query, value⟩ ends
  rwa [QueryPair.text_append] at pair

/-- What redaction makes of the text up to the end of a value depends on the text
up to the equals sign alone: the match that masks the value starts at this key or
in front of it. -/
theorem exists_masked (query : QueryKey) (before : List UInt8) :
    ∃ shown, ∀ (value : QueryValue) (after : List UInt8), EndsValue after →
      redactURLQuery ((before ++ query.opener :: query.key) ++ '='.toUInt8 ::
        (value.1 ++ after)) = shown ++ redactURLQuery after := by
  generalize bound : before.length = n
  induction n using Nat.strongRecOn generalizing before with
  | ind n ih =>
      cases before with
      | nil => exact ⟨query.shown, fun value _ ends => redactURLQuery_key query value ends⟩
      | cons a before =>
          rw [List.cons_append]
          by_cases starts : StartsPair a ((before ++ query.opener :: query.key) ++ ['='.toUInt8])
          · obtain ⟨front, rfl, isKey | ⟨middle, run⟩⟩ := exists_key_of_startsPair starts
            · -- The key that starts here runs up to the equals sign.
              rw [isKey]
              exact ⟨front.shown, fun value _ ends => redactURLQuery_key front value ends⟩
            · rcases value_or_ends middle with inValue | ⟨early, rest, rfl, nonempty, restEnds⟩
              · -- The value of the pair that starts here runs over this one.
                refine ⟨front.shown, ?_⟩
                intro value after ends
                have merged := redactURLQuery_key front (joinValues ⟨middle, inValue⟩ value) ends
                rw [run]
                simpa [joinValues] using merged
              · -- The pair that starts here ends in front of this one.
                have suffix : rest <:+ before ++ query.opener :: query.key := by
                  rw [run]
                  exact ⟨front.key ++ '='.toUInt8 :: early.1, by simp⟩
                obtain ⟨earlier, rfl, shorter⟩ := exists_before_of_suffix suffix restEnds nonempty
                obtain ⟨shown, redacted⟩ := ih earlier.length
                  (by rw [← bound]; exact Nat.lt_succ_of_le shorter) earlier rfl
                refine ⟨front.shown ++ shown, ?_⟩
                intro value after ends
                have later : EndsValue ((earlier ++ query.opener :: query.key) ++
                    '='.toUInt8 :: (value.1 ++ after)) := by
                  rwa [EndsValue, List.head?_append_of_ne_nil _ nonempty]
                have first := redactURLQuery_key front early later
                rw [redacted value after ends] at first
                rw [run, List.append_assoc, ← first]
                simp
          · obtain ⟨shown, redacted⟩ := ih before.length
              (by rw [← bound]; exact Nat.lt_succ_self _) before rfl
            refine ⟨a :: shown, ?_⟩
            intro value after ends
            rw [List.cons_append, redactURLQuery_cons_of_not
              (by rwa [startsPair_append_equals]), redacted value after ends]
            rfl

/-- A hole in a text, and what stands between it and the hole before. -/
structure MarkedHole extends QueryKey where
  before : List UInt8

/-- The text between a hole and the next one, as far as it is known to be there. -/
def following (tail : List UInt8) : List MarkedHole → List UInt8
  | [] => tail
  | hole :: _ => hole.before ++ [hole.opener]

/-- Every hole is directly followed by the end of a value. -/
def Separated (tail : List UInt8) : List MarkedHole → Prop
  | [] => True
  | _ :: holes => EndsValue (following tail holes) ∧ Separated tail holes

/-- A text with any number of marked holes. -/
structure MarkedText where
  holes : List MarkedHole
  tail : List UInt8
  separated : Separated tail holes

/-- The text from hole number `i` on. -/
def fillFrom (filling : Nat → QueryValue) (tail : List UInt8) (i : Nat) :
    List MarkedHole → List UInt8
  | [] => tail
  | hole :: holes =>
      (hole.before ++ hole.opener :: hole.key) ++ '='.toUInt8 ::
        ((filling i).1 ++ fillFrom filling tail (i + 1) holes)

/-- The text with a value in every hole. -/
def MarkedText.fill (text : MarkedText) (filling : Nat → QueryValue) : List UInt8 :=
  fillFrom filling text.tail 0 text.holes

/-- What follows a hole ends the value in it. -/
theorem endsValue_fillFrom {filling : Nat → QueryValue} {tail : List UInt8} {i : Nat}
    {holes : List MarkedHole} (ends : EndsValue (following tail holes)) :
    EndsValue (fillFrom filling tail i holes) := by
  cases holes with
  | nil => exact ends
  | cons hole holes =>
      have same : (fillFrom filling tail i (hole :: holes)).head? =
          (following tail (hole :: holes)).head? := by
        rw [fillFrom, following]
        cases hole.before <;> rfl
      rwa [EndsValue, same]

/-- Two fillings of the holes give one redacted text. -/
theorem redactURLQuery_fillFrom (filling filling' : Nat → QueryValue) (tail : List UInt8) (i : Nat)
    {holes : List MarkedHole} (separated : Separated tail holes) :
    redactURLQuery (fillFrom filling tail i holes) =
      redactURLQuery (fillFrom filling' tail i holes) := by
  induction holes generalizing i with
  | nil => rfl
  | cons hole holes ih =>
      obtain ⟨shown, redacted⟩ := exists_masked hole.toQueryKey hole.before
      rw [fillFrom, fillFrom, redacted _ _ (endsValue_fillFrom separated.1),
        redacted _ _ (endsValue_fillFrom separated.1), ih (i + 1) separated.2]

/-- Redaction of a log text shows nothing of the values in it: two ways of filling
the holes of a text give the same result, nothing but the values of pairs changes,
and a second redaction changes nothing. -/
theorem redactURLQuery_oblivious :
    (∀ (text : MarkedText) (filling filling' : Nat → QueryValue),
      redactURLQuery (text.fill filling) = redactURLQuery (text.fill filling')) ∧
    (∀ text : List UInt8, ∃ parts : List LogPart, text = parts.flatMap LogPart.text ∧
      redactURLQuery text = (parts.map LogPart.mask).flatMap LogPart.text ∧
      ∀ before pair after, parts = before ++ .param pair :: after →
        EndsValue (after.flatMap LogPart.text)) ∧
    ∀ text : List UInt8, redactURLQuery (redactURLQuery text) = redactURLQuery text :=
  ⟨fun text filling filling' => redactURLQuery_fillFrom filling filling' text.tail 0 text.separated,
    exists_parts, redactURLQuery_redactURLQuery⟩

end Restitch.Composition
