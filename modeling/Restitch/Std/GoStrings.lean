import Mathlib.Data.List.DropRight

/-!
# String functions of the Go standard library

A Go string of valid UTF-8 is the list of its code points.
-/

namespace Restitch.Std.GoStrings

/-- `unicode.IsSpace`. -/
def isSpace (c : Char) : Bool :=
  c ∈ ['\t', '\n', '\x0b', '\x0c', '\r', ' ', '\u0085', '\u00a0', '\u1680', '\u2028', '\u2029',
    '\u202f', '\u205f', '\u3000'] || ('\u2000' ≤ c && c ≤ '\u200a')

/-- `strings.TrimSpace`. -/
def trimSpace (s : List Char) : List Char :=
  (s.dropWhile isSpace).rdropWhile isSpace

/-- `unicode.ToLower` for the code points whose lower case is ASCII. Every other
code point stands for its lower case, which no ASCII text contains. -/
def toLowerRune (c : Char) : Char :=
  if c = '\u0130' then 'i' else if c = '\u212a' then 'k' else c.toLower

/-- `strings.ToLower`, for comparison with an ASCII text. -/
def toLower (s : List Char) : List Char :=
  s.map toLowerRune

/-- `strings.Cut` at the first separator; the second part is there if it was found. -/
def cut (separator : Char) : List Char → List Char × Option (List Char)
  | [] => ([], none)
  | c :: rest =>
      if c = separator then ([], some rest)
      else ((c :: (cut separator rest).1), (cut separator rest).2)

/-- A text cut at its last separator, if it has one. -/
def cutLast (separator : Char) (text : List Char) : Option (List Char × List Char) :=
  match cut separator text.reverse with
  | (after, some before) => some (before.reverse, after.reverse)
  | (_, none) => none

/-- A text is cut at the first separator. -/
theorem cut_append {separator : Char} {before after : List Char} (absent : separator ∉ before) :
    cut separator (before ++ separator :: after) = (before, some after) := by
  induction before with
  | nil => rw [List.nil_append, cut, if_pos rfl]
  | cons c rest ih =>
      have different : c ≠ separator := fun same => absent (same ▸ List.mem_cons_self)
      have later := ih fun member => absent (List.mem_cons_of_mem c member)
      rw [List.cons_append, cut, if_neg different, later]

/-- A cut that finds the separator puts the text back together. -/
theorem eq_of_cut {separator : Char} {text before after : List Char}
    (found : cut separator text = (before, some after)) :
    separator ∉ before ∧ text = before ++ separator :: after := by
  induction text generalizing before with
  | nil => simp [cut] at found
  | cons c rest ih =>
      rw [cut] at found
      split at found
      · rename_i same
        cases found
        exact ⟨List.not_mem_nil, by rw [same, List.nil_append]⟩
      · rename_i different
        obtain ⟨isBefore, isAfter⟩ := Prod.mk.injEq .. ▸ found
        obtain ⟨absent, isRest⟩ := ih (Prod.ext rfl isAfter)
        subst isBefore
        refine ⟨?_, by rw [List.cons_append, ← isRest]⟩
        rw [List.mem_cons, not_or]
        exact ⟨fun same => different same.symm, absent⟩

/-- A text without the separator is not cut. -/
theorem cut_of_not_mem {separator : Char} {text : List Char} (absent : separator ∉ text) :
    cut separator text = (text, none) := by
  induction text with
  | nil => rfl
  | cons c rest ih =>
      have different : c ≠ separator := fun same => absent (same ▸ List.mem_cons_self)
      have later := ih fun member => absent (List.mem_cons_of_mem c member)
      rw [cut, if_neg different, later]

/-- Without a separator nothing is cut off. -/
theorem eq_of_cut_none {separator : Char} {text before : List Char}
    (absent : cut separator text = (before, none)) : separator ∉ before ∧ before = text := by
  by_cases member : separator ∈ text
  · obtain ⟨first, last, rfl, unseen⟩ := List.eq_append_cons_of_mem member
    rw [cut_append unseen] at absent
    cases absent
  · rw [cut_of_not_mem member] at absent
    cases absent
    exact ⟨member, rfl⟩

/-- A text is cut at the last separator. -/
theorem cutLast_append {separator : Char} {before after : List Char} (absent : separator ∉ after) :
    cutLast separator (before ++ separator :: after) = some (before, after) := by
  have turned : (before ++ separator :: after).reverse =
      after.reverse ++ separator :: before.reverse := by simp
  rw [cutLast, turned, cut_append (by simpa using absent)]
  simp

/-- A text without the separator has no last one. -/
theorem cutLast_of_not_mem {separator : Char} {text : List Char} (absent : separator ∉ text) :
    cutLast separator text = none := by
  rw [cutLast, cut_of_not_mem (by simpa using absent)]

/-- A text that was cut at its last separator. -/
theorem eq_of_cutLast {separator : Char} {text before after : List Char}
    (found : cutLast separator text = some (before, after)) :
    separator ∉ after ∧ text = before ++ separator :: after := by
  rw [cutLast] at found
  split at found
  · rename_i last first isCut
    obtain ⟨rfl, rfl⟩ := Prod.mk.inj (Option.some_inj.mp found)
    obtain ⟨absent, isText⟩ := eq_of_cut isCut
    refine ⟨by simpa using absent, ?_⟩
    rw [← List.reverse_reverse text, isText]
    simp
  · cases found

end Restitch.Std.GoStrings
