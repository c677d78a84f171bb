import Restitch.Http.Pattern

/-!
# What it means that two patterns conflict

The requests a pattern matches, and that `conflictsWith` decides the documented
rule: two patterns conflict if some request matches both and neither takes
precedence. The more specific pattern takes precedence, and a pattern with a host
does over one without.
-/

namespace Restitch.Http

open Restitch.Std Restitch.Std.Relationship

/-- A request as the multiplexer matches it: the path by its unescaped segments,
with `/` for a trailing slash. -/
@[ext]
structure RoutedRequest where
  host : List Char
  method : List Char
  path : List (List UInt8)

/-- A pattern without a method matches every method, and `GET` also matches `HEAD`. -/
def matchesMethod (pattern method : List Char) : Prop :=
  pattern = [] ∨ method = pattern ∨ (pattern = "GET".toList ∧ method = "HEAD".toList)

def matchesHost (pattern host : List Char) : Prop :=
  pattern = [] ∨ host = pattern

/-- A wildcard does not match a trailing slash; the last wildcard matches at least
one segment. -/
def matchesPath : List PathSegment → List (List UInt8) → Prop
  | [], path => path = []
  | .multi _ :: _, path => path ≠ []
  | .wild _ :: rest, segment :: path => segment ≠ slash ∧ matchesPath rest path
  | .literal bytes :: rest, segment :: path => segment = bytes ∧ matchesPath rest path
  | _ :: _, [] => False

structure Pattern.Matches (pattern : Pattern) (request : RoutedRequest) : Prop where
  host : matchesHost pattern.host request.host
  method : matchesMethod pattern.method request.method
  path : matchesPath pattern.segments request.path

/-- The requests of a pattern. -/
def Pattern.requests (pattern : Pattern) : Set RoutedRequest :=
  {request | pattern.Matches request}

/-- The first pattern is more specific, or alone has a host. -/
def Pattern.TakesPrecedence (first second : Pattern) : Prop :=
  first.requests ⊂ second.requests ∨ (first.host ≠ [] ∧ second.host = [])

/-- Some request matches both patterns and neither takes precedence. -/
def Pattern.Conflicts (first second : Pattern) : Prop :=
  (∃ request, first.Matches request ∧ second.Matches request) ∧
    ¬ first.TakesPrecedence second ∧ ¬ second.TakesPrecedence first

/-- Conflicts go both ways. -/
theorem Pattern.Conflicts.symm {first second : Pattern} (conflicts : first.Conflicts second) :
    second.Conflicts first := by
  obtain ⟨⟨request, matches₁, matches₂⟩, notFirst, notSecond⟩ := conflicts
  exact ⟨⟨request, matches₂, matches₁⟩, notSecond, notFirst⟩

section Methods

/-- Every pattern matches some method. -/
theorem nonempty_methods (pattern : List Char) : {method | matchesMethod pattern method}.Nonempty :=
  ⟨pattern, .inr (.inl rfl)⟩

/-- A pattern with a method does not match every method. -/
theorem exists_not_matchesMethod {pattern : List Char} (named : pattern ≠ []) :
    ∃ method, ¬ matchesMethod pattern method := by
  refine ⟨'x' :: "HEAD".toList ++ pattern, ?_⟩
  rintro (empty | same | ⟨rfl, head⟩)
  · exact named empty
  · have lengths := congrArg List.length same
    rw [List.length_append, List.length_cons] at lengths
    omega
  · cases head

/-- The comparison of the methods says how the sets of them are related. -/
theorem compareMethods_holds (first second : List Char) :
    (compareMethods first second).Holds {method | matchesMethod first method}
      {method | matchesMethod second method} := by
  have general : ∀ {pattern}, pattern ≠ [] →
      Relationship.moreGeneral.Holds {method | matchesMethod [] method}
        {method | matchesMethod pattern method} := by
    intro pattern named
    refine ⟨fun _ _ => .inl rfl, fun subset => ?_⟩
    obtain ⟨method, unmatched⟩ := exists_not_matchesMethod named
    exact unmatched (subset (.inl rfl))
  have getHead : Relationship.moreGeneral.Holds {method | matchesMethod "GET".toList method}
      {method | matchesMethod "HEAD".toList method} := by
    refine ⟨?_, fun subset => ?_⟩
    · rintro method (empty | same | ⟨get, -⟩)
      · cases empty
      · exact .inr (.inr ⟨rfl, same⟩)
      · cases get
    · rcases subset (a := "GET".toList) (.inr (.inl rfl)) with empty | same | ⟨get, -⟩
      · cases empty
      · cases same
      · cases get
  unfold compareMethods
  split
  · rename_i equal
    subst equal
    exact ⟨subset_rfl, subset_rfl⟩
  rename_i different
  split
  · rename_i empty
    subst empty
    exact general (Ne.symm different)
  rename_i named
  split
  · rename_i empty
    subst empty
    exact (general different).inverse
  rename_i named'
  split
  · rename_i both
    obtain ⟨rfl, rfl⟩ := both
    exact getHead
  rename_i notGetHead
  split
  · rename_i both
    obtain ⟨rfl, rfl⟩ := both
    exact getHead.inverse
  rename_i notHeadGet
  refine Set.disjoint_left.mpr ?_
  rintro method (empty | same | ⟨get, head⟩) (empty' | same' | ⟨get', head'⟩)
  · exact named empty
  · exact named empty
  · exact named empty
  · exact named' empty'
  · exact different (same.symm.trans same')
  · exact notHeadGet ⟨get', same.symm.trans head'⟩
  · exact named' empty'
  · exact notGetHead ⟨get, same'.symm.trans head⟩
  · exact different (get.trans get'.symm)

end Methods

section Segments

/-- What a segment other than the last wildcard matches. -/
def PathSegment.texts : PathSegment → Set (List UInt8)
  | .literal bytes => {bytes}
  | .wild _ => {text | text ≠ slash}
  | .multi _ => Set.univ

/-- No segment but the last wildcard matches every text. -/
theorem exists_not_mem_texts {segment : PathSegment} (single : segment.isMulti = false) :
    ∃ text, text ∉ segment.texts := by
  cases segment with
  | literal bytes =>
      refine ⟨0 :: bytes, fun same => ?_⟩
      have lengths := congrArg List.length same
      simp at lengths
  | wild name => exact ⟨slash, fun different => different rfl⟩
  | multi name => cases single

/-- Every segment matches some text. -/
theorem nonempty_texts (segment : PathSegment) : segment.texts.Nonempty := by
  cases segment with
  | literal bytes => exact ⟨bytes, rfl⟩
  | wild name => exact ⟨[], fun same => by cases same⟩
  | multi name => exact ⟨[], trivial⟩

/-- A wildcard matches a literal and more, unless it is the trailing slash. -/
theorem wild_holds_literal (name : List Char) (bytes : List UInt8) :
    (compareSegments (.wild name) (.literal bytes)).Holds (PathSegment.texts (.wild name))
      (PathSegment.texts (.literal bytes)) := by
  rw [compareSegments]
  split
  · rename_i isSlash
    refine Set.disjoint_right.mpr ?_
    rintro _ rfl different
    exact different isSlash
  · rename_i notSlash
    refine ⟨?_, fun subset => ?_⟩
    · rintro _ rfl
      exact notSlash
    · have short : [] = bytes := subset (a := []) fun same => by cases same
      have long : [0] = bytes := subset (a := [0]) fun same => by cases same
      exact absurd (short.trans long.symm) (by decide)

/-- The comparison of two segments says how the sets of their texts are related. -/
theorem compareSegments_holds {first second : PathSegment} (single : first.isMulti = false)
    (single' : second.isMulti = false) :
    (compareSegments first second).Holds first.texts second.texts := by
  cases first with
  | multi name => cases single
  | literal bytes =>
      cases second with
      | multi name => cases single'
      | literal other =>
          rw [compareSegments]
          split
          · rename_i equal
            subst equal
            exact ⟨subset_rfl, subset_rfl⟩
          · rename_i different
            exact Set.disjoint_singleton.mpr different
      | wild name =>
          have turned : compareSegments (.literal bytes) (.wild name) =
              (compareSegments (.wild name) (.literal bytes)).inverse := by
            simp only [compareSegments]
            split
            · rfl
            · rfl
          rw [turned]
          exact (wild_holds_literal name bytes).inverse
  | wild name =>
      cases second with
      | multi name' => cases single'
      | literal bytes => exact wild_holds_literal name bytes
      | wild name' => exact ⟨subset_rfl, subset_rfl⟩

end Segments

section Paths

/-- The paths of a pattern. -/
def pathsOf (segments : List PathSegment) : Set (List (List UInt8)) :=
  {path | matchesPath segments path}

/-- The paths of a pattern with a single segment in front. -/
theorem pathsOf_cons {segment : PathSegment} (single : segment.isMulti = false)
    (rest : List PathSegment) :
    pathsOf (segment :: rest) =
      (fun parts => parts.1 :: parts.2) '' (segment.texts ×ˢ pathsOf rest) := by
  ext path
  cases segment with
  | multi name => cases single
  | literal bytes =>
      cases path with
      | nil => simp [pathsOf, matchesPath]
      | cons text path =>
          constructor
          · rintro ⟨isText, later⟩
            exact ⟨(text, path), ⟨isText, later⟩, rfl⟩
          · rintro ⟨⟨text, path⟩, ⟨isText, later⟩, isPath⟩
            cases isPath
            exact ⟨isText, later⟩
  | wild name =>
      cases path with
      | nil => simp [pathsOf, matchesPath]
      | cons text path => simp [pathsOf, matchesPath, PathSegment.texts]

/-- A segment for all the rest matches every rest there is. -/
theorem pathsOf_multi {segment : PathSegment} (multi : segment.isMulti = true)
    (rest : List PathSegment) : pathsOf (segment :: rest) = {path | path ≠ []} := by
  cases segment with
  | multi name => rfl
  | literal bytes => cases multi
  | wild name => cases multi

/-- No pattern with a segment matches the empty path. -/
theorem ne_nil_of_mem_pathsOf {segment : PathSegment} {rest : List PathSegment}
    {path : List (List UInt8)} (member : path ∈ pathsOf (segment :: rest)) : path ≠ [] := by
  rintro rfl
  cases segment with
  | multi name => exact member rfl
  | literal bytes => exact member
  | wild name => exact member

/-- Every path pattern matches some path. -/
theorem nonempty_pathsOf (segments : List PathSegment) : (pathsOf segments).Nonempty := by
  induction segments with
  | nil => exact ⟨[], rfl⟩
  | cons segment rest ih =>
      cases isMulti : segment.isMulti with
      | true =>
          rw [pathsOf_multi isMulti]
          exact ⟨[[]], by simp⟩
      | false =>
          rw [pathsOf_cons isMulti]
          exact ((nonempty_texts segment).prod ih).image _

/-- What is disjoint in the other part is disjoint. -/
theorem combine_disjoint (relationship : Relationship) :
    relationship.combine .disjoint = .disjoint := by
  cases relationship <;> rfl

/-- What is disjoint is disjoint in one of the parts. -/
theorem combine_eq_disjoint {first second : Relationship}
    (disjoint : first.combine second = .disjoint) : first = .disjoint ∨ second = .disjoint := by
  cases first <;> cases second <;> revert disjoint <;> decide

/-- The first pass of the loop. -/
theorem compareLoop_start (multi multi' : Bool) (segment segment' : PathSegment)
    (rest rest' : List PathSegment) :
    compareLoop multi multi' .equivalent (segment :: rest) (segment' :: rest') =
      if compareSegments segment segment' = .disjoint then .disjoint
      else compareLoop multi multi' (compareSegments segment segment') rest rest' := rfl

/-- The loop combines what it starts with and what it finds. -/
theorem compareLoop_eq_combine (multi multi' : Bool) (relationship : Relationship)
    (first second : List PathSegment) :
    compareLoop multi multi' relationship first second =
      relationship.combine (compareLoop multi multi' .equivalent first second) := by
  induction first generalizing relationship second with
  | nil =>
      cases second with
      | nil => simp [compareLoop]
      | cons _ _ =>
          simp only [compareLoop, equivalent_combine]
          split
          · rfl
          · rw [combine_disjoint]
  | cons segment rest ih =>
      cases second with
      | nil =>
          simp only [compareLoop, equivalent_combine]
          split
          · rfl
          · rw [combine_disjoint]
      | cons segment' rest' =>
          rw [compareLoop_start, compareLoop, ih (relationship.combine _),
            ih (compareSegments segment segment')]
          by_cases apart : compareSegments segment segment' = .disjoint
          · simp [apart, combine_disjoint]
          · rw [if_neg apart]
            split
            · rename_i none_
              rw [(combine_eq_disjoint none_).resolve_right apart, disjoint_combine]
            · rw [combine_assoc]

/-- The loop combines the first segments with the rest. -/
theorem compareLoop_cons (multi multi' : Bool) (segment segment' : PathSegment)
    (rest rest' : List PathSegment) :
    compareLoop multi multi' .equivalent (segment :: rest) (segment' :: rest') =
      (compareSegments segment segment').combine
        (compareLoop multi multi' .equivalent rest rest') := by
  rw [compareLoop_start]
  split
  · rename_i apart
    rw [apart, disjoint_combine]
  · exact compareLoop_eq_combine ..

theorem endsInMulti_cons {segment : PathSegment} (single : segment.isMulti = false)
    (rest : List PathSegment) : endsInMulti (segment :: rest) = endsInMulti rest := by
  cases rest with
  | nil => simp [endsInMulti, single]
  | cons next rest => simp [endsInMulti, List.getLast?_cons_cons]

/-- The last wildcard alone matches more than any other pattern. -/
theorem multi_holds {segment segment' : PathSegment} (multi : segment.isMulti = true)
    (single : segment'.isMulti = false) (rest' : List PathSegment) :
    Relationship.moreGeneral.Holds (pathsOf [segment]) (pathsOf (segment' :: rest')) := by
  rw [pathsOf_multi multi]
  refine ⟨fun path member => ne_nil_of_mem_pathsOf member, fun subset => ?_⟩
  obtain ⟨text, unmatched⟩ := exists_not_mem_texts single
  have member := subset (a := [text]) (List.cons_ne_nil _ _)
  rw [pathsOf_cons single] at member
  obtain ⟨⟨first, later⟩, ⟨inTexts, -⟩, equal⟩ := member
  cases equal
  exact unmatched inTexts

/-- The comparison with a last wildcard, whatever follows the other segment. -/
theorem compareSegments_multi {segment segment' : PathSegment} (multi : segment.isMulti = true)
    (single : segment'.isMulti = false) :
    compareSegments segment segment' = .moreGeneral ∧
      compareSegments segment' segment = .moreSpecific := by
  cases segment with
  | multi name =>
      cases segment' with
      | multi name' => cases single
      | literal bytes => exact ⟨rfl, rfl⟩
      | wild name' => exact ⟨rfl, rfl⟩
  | literal bytes => cases multi
  | wild name => cases multi

/-- Two segments for all the rest are equivalent. -/
theorem compareSegments_multi_multi {segment segment' : PathSegment}
    (multi : segment.isMulti = true) (multi' : segment'.isMulti = true) :
    compareSegments segment segment' = .equivalent := by
  cases segment with
  | multi name =>
      cases segment' with
      | multi name' => rfl
      | literal bytes => cases multi'
      | wild name' => cases multi'
  | literal bytes => cases multi
  | wild name => cases multi

/-- The loop finds how the paths of two patterns lie to each other. -/
theorem compareLoop_holds {first second : List PathSegment} (last : MultiLast first)
    (last' : MultiLast second) :
    (compareLoop (endsInMulti first) (endsInMulti second) .equivalent first second).Holds
      (pathsOf first) (pathsOf second) := by
  induction first generalizing second with
  | nil =>
      cases second with
      | nil => exact ⟨subset_rfl, subset_rfl⟩
      | cons segment' rest' =>
          refine Set.disjoint_left.mpr ?_
          rintro _ rfl member
          exact ne_nil_of_mem_pathsOf member rfl
  | cons segment rest ih =>
      cases second with
      | nil =>
          refine Set.disjoint_right.mpr ?_
          rintro _ rfl member
          exact ne_nil_of_mem_pathsOf member rfl
      | cons segment' rest' =>
          rw [compareLoop_cons]
          cases isMulti : segment.isMulti with
          | true =>
              have empty := last.1 isMulti
              subst empty
              cases isMulti' : segment'.isMulti with
              | true =>
                  have empty := last'.1 isMulti'
                  subst empty
                  rw [pathsOf_multi isMulti, pathsOf_multi isMulti',
                    compareSegments_multi_multi isMulti isMulti']
                  exact ⟨subset_rfl, subset_rfl⟩
              | false =>
                  have ends : endsInMulti [segment] = true := by simp [endsInMulti, isMulti]
                  rw [(compareSegments_multi isMulti isMulti').1, ends]
                  cases rest' with
                  | nil => exact multi_holds isMulti isMulti' []
                  | cons next later => exact multi_holds isMulti isMulti' _
          | false =>
              cases isMulti' : segment'.isMulti with
              | true =>
                  have empty := last'.1 isMulti'
                  subst empty
                  have ends : endsInMulti [segment'] = true := by simp [endsInMulti, isMulti']
                  rw [(compareSegments_multi isMulti' isMulti).2, ends]
                  cases rest with
                  | nil => exact (multi_holds isMulti' isMulti []).inverse
                  | cons next later => exact (multi_holds isMulti' isMulti _).inverse
              | false =>
                  rw [endsInMulti_cons isMulti, endsInMulti_cons isMulti', pathsOf_cons isMulti,
                    pathsOf_cons isMulti']
                  refine Holds.image ?_ ((compareSegments_holds isMulti isMulti').prod
                    (ih last.2 last'.2) (nonempty_texts _) (nonempty_texts _)
                    (nonempty_pathsOf _) (nonempty_pathsOf _))
                  rintro ⟨text, path⟩ ⟨text', path'⟩ equal
                  cases equal
                  rfl

/-- Without a last wildcard all paths are as long as the pattern. -/
theorem length_of_mem_pathsOf {segments : List PathSegment} (last : MultiLast segments)
    (fixed : endsInMulti segments = false) {path : List (List UInt8)}
    (member : path ∈ pathsOf segments) : path.length = segments.length := by
  induction segments generalizing path with
  | nil =>
      cases member
      rfl
  | cons segment rest ih =>
      cases isMulti : segment.isMulti with
      | true =>
          have empty := last.1 isMulti
          subst empty
          simp [endsInMulti, isMulti] at fixed
      | false =>
          rw [pathsOf_cons isMulti] at member
          obtain ⟨⟨text, later⟩, ⟨-, inRest⟩, rfl⟩ := member
          rw [endsInMulti_cons isMulti] at fixed
          rw [List.length_cons, List.length_cons, ih last.2 fixed inRest]

/-- The comparison of two path patterns says how the sets of their paths are related. -/
theorem comparePaths_holds {first second : List PathSegment} (last : MultiLast first)
    (last' : MultiLast second) :
    (comparePaths first second).Holds (pathsOf first) (pathsOf second) := by
  unfold comparePaths
  split
  · rename_i condition
    obtain ⟨lengths, fixed, fixed'⟩ := condition
    rw [Bool.not_eq_true'] at fixed fixed'
    refine Set.disjoint_left.mpr fun path member member' => lengths ?_
    rw [← length_of_mem_pathsOf last fixed member, length_of_mem_pathsOf last' fixed' member']
  · exact compareLoop_holds last last'

end Paths

section Patterns

/-- The requests of a pattern by host, method and path. -/
theorem requests_eq (pattern : Pattern) :
    pattern.requests = (fun parts => RoutedRequest.mk parts.1 parts.2.1 parts.2.2) ''
      ({host | matchesHost pattern.host host} ×ˢ
        ({method | matchesMethod pattern.method method} ×ˢ pathsOf pattern.segments)) := by
  ext request
  constructor
  · intro matched
    exact ⟨(request.host, request.method, request.path),
      ⟨matched.host, matched.method, matched.path⟩, rfl⟩
  · rintro ⟨⟨host, method, path⟩, ⟨inHosts, inMethods, inPaths⟩, rfl⟩
    exact ⟨inHosts, inMethods, inPaths⟩

/-- Every pattern matches some request. -/
theorem nonempty_requests (pattern : Pattern) : pattern.requests.Nonempty := by
  rw [requests_eq]
  exact (Set.Nonempty.prod ⟨pattern.host, .inr rfl⟩
    ((nonempty_methods _).prod (nonempty_pathsOf _))).image _

/-- With the same host, the comparison of methods and paths is that of the requests. -/
theorem comparePathsAndMethods_holds {first second : Pattern} (hosts : first.host = second.host) :
    (comparePathsAndMethods first second).Holds first.requests second.requests := by
  have combined : comparePathsAndMethods first second =
      (compareMethods first.method second.method).combine
        (comparePaths first.segments second.segments) := by
    simp only [comparePathsAndMethods]
    split
    · rename_i apart
      rw [apart, disjoint_combine]
    · rfl
  have same : Relationship.equivalent.Holds {host | matchesHost first.host host}
      {host | matchesHost second.host host} := by
    rw [hosts]
    exact ⟨subset_rfl, subset_rfl⟩
  have nonempty : ∀ host : List Char, {other | matchesHost host other}.Nonempty :=
    fun host => ⟨host, .inr rfl⟩
  rw [requests_eq, requests_eq, combined, ← equivalent_combine (combine _ _)]
  refine Holds.image ?_ (same.prod ((compareMethods_holds _ _).prod
    (comparePaths_holds first.multiLast second.multiLast) (nonempty_methods _)
    (nonempty_methods _) (nonempty_pathsOf _) (nonempty_pathsOf _)) (nonempty _) (nonempty _)
    ((nonempty_methods _).prod (nonempty_pathsOf _))
    ((nonempty_methods _).prod (nonempty_pathsOf _)))
  rintro ⟨host, method, path⟩ ⟨host', method', path'⟩ equal
  cases equal
  rfl

/-- `conflictsWith` decides whether two patterns conflict. -/
theorem conflictsWith_iff (first second : Pattern) :
    first.conflictsWith second = true ↔ first.Conflicts second := by
  have meets : (∃ request, first.Matches request ∧ second.Matches request) ↔
      ¬ Disjoint first.requests second.requests :=
    Set.not_disjoint_iff.symm
  unfold Pattern.conflictsWith Pattern.Conflicts Pattern.TakesPrecedence
  rw [meets]
  split
  · rename_i different
    refine ⟨fun no => absurd no Bool.false_ne_true, ?_⟩
    rintro ⟨some_, notFirst, notSecond⟩
    rw [not_or] at notFirst notSecond
    exfalso
    by_cases empty : first.host = []
    · exact notSecond.2 ⟨fun empty' => different (empty.trans empty'.symm), empty⟩
    · by_cases empty' : second.host = []
      · exact notFirst.2 ⟨empty, empty'⟩
      · refine some_ (Set.disjoint_left.mpr fun request matched matched' => different ?_)
        have host := matched.host.resolve_left empty
        have host' := matched'.host.resolve_left empty'
        exact host.symm.trans host'
  · rename_i same
    rw [not_not] at same
    have facts := (holds_iff_facts (nonempty_requests first) (nonempty_requests second)).mp
      (comparePathsAndMethods_holds same)
    simp only [ssubset_iff_subset_not_subset, facts.subset, facts.superset, facts.apart, same]
    cases comparePathsAndMethods first second <;> simp

end Patterns

end Restitch.Http
