import Mathlib.Data.List.TakeWhile

/-!
# Patterns of character classes

Regular expressions that are a row of classes, each read once or repeated
greedily. A match is the leftmost one, and the one that a backtracking search
tries first. Every class captures what it reads.
-/

namespace Restitch.Std

universe u v

variable {α : Type u} {β : Type v}

/-- One class of a pattern. -/
inductive PatternItem (α : Type u) where
  /-- One character. -/
  | one (accepts : α → Bool)
  /-- As many characters as the rest of the pattern allows. -/
  | many (accepts : α → Bool)

/-- Read the longest run of a class from which `next` can go on. -/
def greedy (accepts : α → Bool) (next : List α → Option β) : List α → Option (List α × β)
  | [] => (next []).map fun result => ([], result)
  | a :: rest =>
      match if accepts a then greedy accepts next rest else none with
      | some (run, result) => some (a :: run, result)
      | none => (next (a :: rest)).map fun result => ([], result)

/-- The preferred match at the front of a text: the captures and what is left. -/
def matchItems : List (PatternItem α) → List α → Option (List (List α) × List α)
  | [], text => some ([], text)
  | .one _ :: _, [] => none
  | .one accepts :: items, a :: rest =>
      if accepts a then (matchItems items rest).map fun result => ([a] :: result.1, result.2)
      else none
  | .many accepts :: items, text =>
      (greedy accepts (matchItems items) text).map fun result =>
        (result.1 :: result.2.1, result.2.2)

/-- A pattern that reads at least one character. -/
structure ClassPattern (α : Type u) where
  first : α → Bool
  items : List (PatternItem α)

/-- A part of a scanned text: a character outside every match, or a match. -/
inductive ScanPart (α : Type u) where
  | char (a : α)
  | found (captures : List (List α))

namespace ClassPattern

variable (pattern : ClassPattern α)

/-- The match at the front of a text. -/
def matchFront (text : List α) : Option (List (List α) × List α) :=
  matchItems (.one pattern.first :: pattern.items) text

/-- The parts of a text whose first `skip` characters belong to a match. -/
def scanFrom : Nat → List α → List (ScanPart α)
  | _, [] => []
  | skip + 1, _ :: rest => scanFrom skip rest
  | 0, a :: rest =>
      match pattern.matchFront (a :: rest) with
      | some (captures, after) => .found captures :: scanFrom (rest.length - after.length) rest
      | none => .char a :: scanFrom 0 rest

/-- The leftmost matches of a text that do not overlap, and what is between them. -/
def scan (text : List α) : List (ScanPart α) := pattern.scanFrom 0 text

/-- The captures of every match. -/
def findAll (text : List α) : List (List (List α)) :=
  (pattern.scan text).filterMap fun
    | .char _ => none
    | .found captures => some captures

/-- Replace every match. -/
def replaceAll (replacement : List (List α) → List α) (text : List α) : List α :=
  (pattern.scan text).flatMap fun
    | .char a => [a]
    | .found captures => replacement captures

end ClassPattern

/-- A run that is read is a prefix of its class, from whose end `next` goes on. -/
theorem of_greedy_eq_some {accepts : α → Bool} {next : List α → Option β} {text run : List α}
    {result : β} (read : greedy accepts next text = some (run, result)) :
    ∃ rest, text = run ++ rest ∧ next rest = some result := by
  induction text generalizing run with
  | nil =>
      obtain ⟨_, reached, same⟩ := Option.map_eq_some_iff.mp read
      cases same
      exact ⟨[], rfl, reached⟩
  | cons a text ih =>
      rw [greedy] at read
      split at read
      · next longer later more =>
          cases read
          by_cases accepted : accepts a = true
          · rw [if_pos accepted] at more
            obtain ⟨rest, rfl, reached⟩ := ih more
            exact ⟨rest, rfl, reached⟩
          · rw [if_neg accepted] at more
            cases more
      · obtain ⟨_, reached, same⟩ := Option.map_eq_some_iff.mp read
        cases same
        exact ⟨a :: text, rfl, reached⟩

/-- Where `next` never starts at a character of the class, the run ends where the
class does. -/
theorem greedy_eq_of_excluded {accepts : α → Bool} {next : List α → Option β}
    (excluded : ∀ a rest, accepts a = true → next (a :: rest) = none) (text : List α) :
    greedy accepts next text =
      (next (text.dropWhile accepts)).map fun result => (text.takeWhile accepts, result) := by
  induction text with
  | nil => rfl
  | cons a text ih =>
      by_cases accepted : accepts a = true
      · rw [greedy, if_pos accepted, ih, List.dropWhile_cons_of_pos accepted,
          List.takeWhile_cons_of_pos accepted]
        cases next (text.dropWhile accepts) with
        | none =>
            dsimp only [Option.map_none]
            rw [excluded a text accepted]
            rfl
        | some result => rfl
      · rw [greedy, if_neg accepted, List.dropWhile_cons_of_neg accepted,
          List.takeWhile_cons_of_neg accepted]

/-- Where `next` can go on from the end of the class, the run is the whole class. -/
theorem greedy_eq_of_reached {accepts : α → Bool} {next : List α → Option β} {text : List α}
    {result : β} (reached : next (text.dropWhile accepts) = some result) :
    greedy accepts next text = some (text.takeWhile accepts, result) := by
  induction text with
  | nil =>
      rw [List.dropWhile_nil] at reached
      rw [greedy, reached]
      rfl
  | cons a text ih =>
      by_cases accepted : accepts a = true
      · rw [List.dropWhile_cons_of_pos accepted] at reached
        rw [greedy, if_pos accepted, ih reached, List.takeWhile_cons_of_pos accepted]
      · rw [List.dropWhile_cons_of_neg accepted] at reached
        rw [greedy, if_neg accepted, List.takeWhile_cons_of_neg accepted, reached]
        rfl

/-- A match and what is left of the text are the text. -/
theorem eq_append_of_matchItems {items : List (PatternItem α)} {text rest : List α}
    {captures : List (List α)} (matched : matchItems items text = some (captures, rest)) :
    text = captures.flatten ++ rest := by
  induction items generalizing text captures with
  | nil =>
      cases matched
      rfl
  | cons item items ih =>
      cases item with
      | one accepts =>
          cases text with
          | nil => cases matched
          | cons a text =>
              rw [matchItems] at matched
              split at matched
              · obtain ⟨⟨others, left⟩, later, same⟩ := Option.map_eq_some_iff.mp matched
                cases same
                rw [ih later]
                rfl
              · cases matched
      | many accepts =>
          obtain ⟨⟨run, others, left⟩, read, same⟩ := Option.map_eq_some_iff.mp matched
          cases same
          obtain ⟨after, rfl, later⟩ := of_greedy_eq_some read
          rw [ih later, List.flatten_cons, List.append_assoc]

namespace ClassPattern

variable (pattern : ClassPattern α)

/-- A scan with characters to skip is the scan of the text without them. -/
theorem scanFrom_eq_drop (skip : Nat) (text : List α) :
    pattern.scanFrom skip text = pattern.scan (text.drop skip) := by
  induction text generalizing skip with
  | nil =>
      rw [List.drop_nil, scan]
      cases skip <;> rfl
  | cons a text ih =>
      cases skip with
      | zero => rfl
      | succ skip => exact ih skip

@[simp] theorem scan_nil : pattern.scan [] = [] := rfl

/-- A character at which no match begins stands for itself. -/
theorem scan_cons_of_none {a : α} {rest : List α}
    (absent : pattern.matchFront (a :: rest) = none) :
    pattern.scan (a :: rest) = .char a :: pattern.scan rest := by
  rw [scan, scanFrom, absent, scan]

/-- A match reads the first character, so what is left is shorter. -/
theorem exists_consumed_of_matchFront {a : α} {rest after : List α} {captures : List (List α)}
    (matched : pattern.matchFront (a :: rest) = some (captures, after)) :
    ∃ consumed, rest = consumed ++ after := by
  rw [matchFront, matchItems] at matched
  split at matched
  · obtain ⟨⟨others, left⟩, later, same⟩ := Option.map_eq_some_iff.mp matched
    cases same
    exact ⟨_, eq_append_of_matchItems later⟩
  · cases matched

/-- After a match the scan goes on behind it. -/
theorem scan_cons_of_some {a : α} {rest after : List α} {captures : List (List α)}
    (matched : pattern.matchFront (a :: rest) = some (captures, after)) :
    pattern.scan (a :: rest) = .found captures :: pattern.scan after := by
  obtain ⟨consumed, rfl⟩ := pattern.exists_consumed_of_matchFront matched
  rw [scan, scanFrom, matched]
  dsimp only
  rw [scanFrom_eq_drop, List.length_append, Nat.add_sub_cancel, List.drop_left]

@[simp] theorem replaceAll_nil (replacement : List (List α) → List α) :
    pattern.replaceAll replacement [] = [] := rfl

/-- A character at which no match begins is kept. -/
theorem replaceAll_cons_of_none (replacement : List (List α) → List α) {a : α} {rest : List α}
    (absent : pattern.matchFront (a :: rest) = none) :
    pattern.replaceAll replacement (a :: rest) = a :: pattern.replaceAll replacement rest := by
  rw [replaceAll, pattern.scan_cons_of_none absent]
  rfl

/-- A match is replaced, and the replacing goes on behind it. -/
theorem replaceAll_cons_of_some (replacement : List (List α) → List α) {a : α}
    {rest after : List α} {captures : List (List α)}
    (matched : pattern.matchFront (a :: rest) = some (captures, after)) :
    pattern.replaceAll replacement (a :: rest) =
      replacement captures ++ pattern.replaceAll replacement after := by
  rw [replaceAll, pattern.scan_cons_of_some matched]
  rfl

end ClassPattern

end Restitch.Std
