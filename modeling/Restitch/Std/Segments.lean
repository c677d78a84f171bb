import Mathlib.Data.List.Forall2

/-!
# Segments

Lists cut at a separator, under a map that keeps separators apart, and the removal of
dot segments from a path (RFC 3986, 5.2.4), on the list of its segments. Which segments
are dots is a parameter.
-/

namespace Restitch.Std

section Cut

variable {α β : Type} [DecidableEq α] [DecidableEq β]

/-- A part without the separator belongs to the first segment. -/
theorem splitOn_append_of_not_mem {separator : α} {first : List α} (absent : separator ∉ first)
    (second : List α) :
    (first ++ second).splitOn separator = (second.splitOn separator).modifyHead (first ++ ·) := by
  induction first with
  | nil => exact (congrFun List.modifyHead_id _).symm
  | cons a rest ih =>
      have different : (a == separator) = false :=
        beq_eq_false_iff_ne.mpr fun same => absent (same ▸ List.mem_cons_self)
      have later := ih fun member => absent (List.mem_cons_of_mem a member)
      rw [List.cons_append, List.splitOn_cons_eq_if_modifyHead, different, later,
        List.modifyHead_modifyHead]
      rfl

/-- Segments with a separator before each of them are cut into an empty one and themselves. -/
theorem splitOn_flatMap_cons {separator : α} {segments : List (List α)}
    (free : ∀ segment ∈ segments, separator ∉ segment) :
    (segments.flatMap (separator :: ·)).splitOn separator = [] :: segments := by
  induction segments with
  | nil => rfl
  | cons segment rest ih =>
      have later := ih fun other member => free other (List.mem_cons_of_mem segment member)
      rw [List.flatMap_cons, List.cons_append, List.splitOn_cons_eq_if_modifyHead,
        if_pos (by simp), splitOn_append_of_not_mem (free segment List.mem_cons_self), later,
        List.modifyHead_cons, List.append_nil]

/-- No part has a separator in it. -/
theorem not_mem_of_mem_splitOn {separator : α} {list segment : List α}
    (member : segment ∈ list.splitOn separator) : separator ∉ segment := by
  induction list generalizing segment with
  | nil =>
      cases List.mem_singleton.mp member
      exact List.not_mem_nil
  | cons a rest ih =>
      rw [List.splitOn_cons_eq_if_modifyHead] at member
      split at member
      · rcases List.mem_cons.mp member with rfl | later
        · exact List.not_mem_nil
        · exact ih later
      · rename_i different
        cases parts : rest.splitOn separator with
        | nil => exact absurd parts (List.splitOn_ne_nil separator rest)
        | cons first others =>
            rw [parts, List.modifyHead_cons] at member
            rcases List.mem_cons.mp member with rfl | later
            · rw [List.mem_cons, not_or]
              exact ⟨fun same => different (beq_iff_eq.mpr same.symm),
                ih (parts ▸ List.mem_cons_self)⟩
            · exact ih (parts ▸ List.mem_cons_of_mem _ later)

/-- A map that sends the separator, and nothing else, to the separator maps the parts. -/
theorem splitOn_flatMap {f : α → List β} {separator : α} {image : β}
    (isImage : f separator = [image]) (others : ∀ a ≠ separator, image ∉ f a) (list : List α) :
    (list.flatMap f).splitOn image = (list.splitOn separator).map (List.flatMap f) := by
  induction list with
  | nil => rfl
  | cons a rest ih =>
      rw [List.flatMap_cons, List.splitOn_cons_eq_if_modifyHead]
      by_cases same : a = separator
      · rw [same, isImage, List.singleton_append, List.splitOn_cons_eq_if_modifyHead, ih]
        simp
      · rw [splitOn_append_of_not_mem (others a same), ih, beq_eq_false_iff_ne.mpr same]
        cases rest.splitOn separator <;> simp

end Cut

/-- All elements are mapped, in order. -/
theorem mapM_eq_some_iff {α β : Type} {f : α → Option β} {list : List α} {images : List β} :
    list.mapM f = some images ↔ List.Forall₂ (fun a image => f a = some image) list images := by
  induction list generalizing images with
  | nil =>
      rw [List.mapM_nil, List.forall₂_nil_left_iff]
      exact Option.some_inj.trans eq_comm
  | cons a rest ih =>
      rw [List.mapM_cons, Option.bind_eq_bind, Option.bind_eq_some_iff]
      constructor
      · rintro ⟨image, isImage, mapped⟩
        obtain ⟨later, isLater, done⟩ := Option.bind_eq_some_iff.mp mapped
        cases done
        exact .cons isImage (ih.mp isLater)
      · rintro (_ | ⟨isImage, later⟩)
        refine ⟨_, isImage, ?_⟩
        rw [ih.mpr later]
        rfl

/-- A list is mapped if every entry of it is. -/
theorem exists_mapM_of_isSome {α β : Type} {f : α → Option β} {list : List α}
    (all : ∀ a ∈ list, (f a).isSome) : ∃ images, list.mapM f = some images := by
  induction list with
  | nil => exact ⟨[], rfl⟩
  | cons a rest ih =>
      obtain ⟨image, isImage⟩ := Option.isSome_iff_exists.mp (all a List.mem_cons_self)
      obtain ⟨later, isLater⟩ := ih fun other member => all other (List.mem_cons_of_mem a member)
      exact ⟨image :: later, mapM_eq_some_iff.mpr (.cons isImage (mapM_eq_some_iff.mp isLater))⟩

/-- An entry of the first list has a partner in the second one. -/
theorem exists_of_mem_forall₂ {α β : Type} {related : α → β → Prop} {first : List α}
    {second : List β} (pairs : List.Forall₂ related first second) {a : α} (member : a ∈ first) :
    ∃ b, related a b := by
  induction pairs with
  | nil => cases member
  | cons relates later ih =>
      rcases List.mem_cons.mp member with rfl | inRest
      · exact ⟨_, relates⟩
      · exact ih inRest

/-- The last entries of two related lists are related. -/
theorem getLast?_of_forall₂ {α β : Type} {related : α → β → Prop} {first : List α}
    {second : List β} (pairs : List.Forall₂ related first second) {a : α}
    (isLast : first.getLast? = some a) : ∃ b, second.getLast? = some b ∧ related a b := by
  induction pairs with
  | nil => cases isLast
  | @cons c d first second relates later ih =>
      cases later with
      | nil =>
          cases isLast
          exact ⟨d, rfl, relates⟩
      | cons relates' later' =>
          rw [List.getLast?_cons_cons] at isLast ⊢
          exact ih isLast

/-- What a segment asks for. -/
inductive Dots where
  /-- A name. -/
  | none
  /-- `.` -/
  | here
  /-- `..` -/
  | up
deriving DecidableEq

section

variable {α : Type} (dots : α → Dots)

/-- One more segment, on the stack of those before it. -/
def pushSegment (stack : List α) (segment : α) : List α :=
  match dots segment with
  | .none => segment :: stack
  | .here => stack
  | .up => stack.tail

/-- The segments that remain, the last one on top. -/
def pushSegments (stack segments : List α) : List α := segments.foldl (pushSegment dots) stack

/-- The last segment is a dot, so that the path ends in a slash. -/
def endsInDots (segments : List α) : Bool :=
  (segments.getLast?.map dots).getD .none ≠ .none

/-- `remove_dot_segments`. A dot at the end leaves an empty segment. -/
def removeDotSegments (empty : α) (segments : List α) : List α :=
  (pushSegments dots [] segments).reverse ++ if endsInDots dots segments then [empty] else []

@[simp] theorem pushSegments_nil (stack : List α) : pushSegments dots stack [] = stack := rfl

@[simp] theorem pushSegments_cons (stack : List α) (segment : α) (rest : List α) :
    pushSegments dots stack (segment :: rest) =
      pushSegments dots (pushSegment dots stack segment) rest := rfl

/-- Segments are pushed one part after the other. -/
theorem pushSegments_append (stack first second : List α) :
    pushSegments dots stack (first ++ second) =
      pushSegments dots (pushSegments dots stack first) second :=
  List.foldl_append

variable {dots}

/-- Names are kept in order. -/
theorem pushSegments_names {segments : List α} (names : ∀ segment ∈ segments, dots segment = .none)
    (stack : List α) : pushSegments dots stack segments = segments.reverse ++ stack := by
  induction segments generalizing stack with
  | nil => rfl
  | cons segment rest ih =>
      have name : pushSegment dots stack segment = segment :: stack := by
        rw [pushSegment, names segment List.mem_cons_self]
      have later := ih fun other member => names other (List.mem_cons_of_mem _ member)
      rw [pushSegments_cons, name, later]
      simp

/-- What remains is no dot. -/
theorem name_of_mem_pushSegments {stack segments : List α} {segment : α}
    (clean : ∀ segment ∈ stack, dots segment = .none)
    (member : segment ∈ pushSegments dots stack segments) : dots segment = .none := by
  induction segments generalizing stack with
  | nil => exact clean segment member
  | cons first rest ih =>
      refine ih ?_ member
      intro other occurs
      unfold pushSegment at occurs
      split at occurs
      · rename_i name
        rcases List.mem_cons.mp occurs with rfl | before
        · exact name
        · exact clean other before
      · exact clean other occurs
      · exact clean other (List.mem_of_mem_tail occurs)

/-- What is on the stack was there or was pushed. -/
theorem mem_pushSegments {stack segments : List α} {segment : α}
    (member : segment ∈ pushSegments dots stack segments) :
    segment ∈ stack ∨ segment ∈ segments := by
  induction segments generalizing stack with
  | nil => exact .inl member
  | cons first rest ih =>
      rcases ih member with occurs | later
      · unfold pushSegment at occurs
        split at occurs
        · rcases List.mem_cons.mp occurs with rfl | before
          · exact .inr List.mem_cons_self
          · exact .inl before
        · exact .inl occurs
        · exact .inl (List.mem_of_mem_tail occurs)
      · exact .inr (List.mem_cons_of_mem _ later)

/-- Every dot costs a segment. -/
theorem length_pushSegments (stack segments : List α) :
    (pushSegments dots stack segments).length + segments.countP (dots · ≠ .none) ≤
      stack.length + segments.length := by
  induction segments generalizing stack with
  | nil => simp
  | cons segment rest ih =>
      have later := ih (pushSegment dots stack segment)
      rw [pushSegments_cons, List.countP_cons, List.length_cons]
      have step : (pushSegment dots stack segment).length +
          (if dots segment ≠ .none then 1 else 0) ≤ stack.length + 1 := by
        unfold pushSegment
        split <;> simp_all
      simp only [decide_eq_true_eq]
      omega

/-- Whether a path ends in dots depends on its last part only. -/
theorem endsInDots_append {segments : List α} (nonempty : segments ≠ []) (before : List α) :
    endsInDots dots (before ++ segments) = endsInDots dots segments := by
  rw [endsInDots, endsInDots, List.getLast?_append_of_ne_nil _ nonempty]

/-- A path of names does not end in dots. -/
theorem endsInDots_names {segments : List α} (names : ∀ segment ∈ segments, dots segment = .none) :
    endsInDots dots segments = false := by
  cases isLast : segments.getLast? with
  | none => simp [endsInDots, isLast]
  | some last => simp [endsInDots, isLast, names last (List.mem_of_getLast? isLast)]

/-- Names behind a path without dots at its end are kept as they are. -/
theorem removeDotSegments_names {segments : List α} (nonempty : segments ≠ [])
    (names : ∀ segment ∈ segments, dots segment = .none) (empty : α) (before : List α) :
    removeDotSegments dots empty (before ++ segments) =
      (pushSegments dots [] before).reverse ++ segments := by
  rw [removeDotSegments, endsInDots_append nonempty, endsInDots_names names, pushSegments_append,
    pushSegments_names names]
  simp

/-- A path that ends in dots has a dot segment. -/
theorem one_le_countP_of_endsInDots {segments : List α} (ends : endsInDots dots segments = true) :
    1 ≤ segments.countP (dots · ≠ .none) := by
  cases isLast : segments.getLast? with
  | none => simp [endsInDots, isLast] at ends
  | some last =>
      refine List.countP_pos_iff.mpr ⟨last, List.mem_of_getLast? isLast, ?_⟩
      simpa [endsInDots, isLast] using ends

/-- No path gets longer. -/
theorem length_removeDotSegments {segments : List α} (nonempty : segments ≠ []) (empty : α)
    (before : List α) :
    (removeDotSegments dots empty (before ++ segments)).length ≤
      (pushSegments dots [] before).length + segments.length := by
  have bound := @length_pushSegments α dots (pushSegments dots [] before) segments
  rw [removeDotSegments, endsInDots_append nonempty, pushSegments_append, List.length_append,
    List.length_reverse]
  split
  · rename_i ends
    have dot := one_le_countP_of_endsInDots ends
    rw [List.length_singleton]
    omega
  · rw [List.length_nil]
    omega

/-- A path that keeps its length has no dots, or ends in one and then in nothing. -/
theorem names_of_length_removeDotSegments {empty : α} {before segments : List α}
    (nonempty : segments ≠ [])
    (kept : (pushSegments dots [] before).length + segments.length ≤
      (removeDotSegments dots empty (before ++ segments)).length) :
    (∀ segment ∈ segments, dots segment = .none) ∨
      (removeDotSegments dots empty (before ++ segments)).getLast? = some empty ∧
        ∃ last, segments.getLast? = some last ∧ dots last ≠ .none := by
  have bound := @length_pushSegments α dots (pushSegments dots [] before) segments
  rw [removeDotSegments, endsInDots_append nonempty, pushSegments_append] at kept ⊢
  cases ends : endsInDots dots segments with
  | false =>
      refine .inl fun segment member => ?_
      simp only [ends, List.length_append, List.length_reverse, Bool.false_eq_true, if_false,
        List.length_nil] at kept
      have none : segments.countP (dots · ≠ .none) = 0 := by omega
      simpa using List.countP_eq_zero.mp none segment member
  | true =>
      refine .inr ⟨by simp, ?_⟩
      obtain ⟨last, isLast⟩ := Option.isSome_iff_exists.mp
        (List.getLast?_isSome.mpr nonempty)
      exact ⟨last, isLast, by simpa [endsInDots, isLast] using ends⟩

/-- The removal looks at nothing but the dots. -/
theorem pushSegments_map {β : Type} {dots' : β → Dots} (f : α → β)
    (same : ∀ segment, dots' (f segment) = dots segment) (stack segments : List α) :
    pushSegments dots' (stack.map f) (segments.map f) =
      (pushSegments dots stack segments).map f := by
  induction segments generalizing stack with
  | nil => rfl
  | cons segment rest ih =>
      have step : pushSegment dots' (stack.map f) (f segment) =
          (pushSegment dots stack segment).map f := by
        unfold pushSegment
        rw [same]
        split <;> simp
      rw [List.map_cons, pushSegments_cons, step, ih, pushSegments_cons]

/-- A map that keeps the dot segments keeps their removal. -/
theorem removeDotSegments_map {β : Type} {dots' : β → Dots} (f : α → β)
    (same : ∀ segment, dots' (f segment) = dots segment) (empty : α) (segments : List α) :
    removeDotSegments dots' (f empty) (segments.map f) =
      (removeDotSegments dots empty segments).map f := by
  have ends : endsInDots dots' (segments.map f) = endsInDots dots segments := by
    simp only [endsInDots, List.getLast?_map, Option.map_map, Function.comp_def, same]
  rw [removeDotSegments, removeDotSegments, ends]
  have pushed := pushSegments_map f same [] segments
  rw [List.map_nil] at pushed
  rw [pushed, List.map_append, List.map_reverse]
  split <;> rfl

end

end Restitch.Std
