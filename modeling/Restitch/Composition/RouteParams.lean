import Restitch.Composition.Handler
import Restitch.Http.UrlJoin
import Restitch.Http.Wildcards
import Restitch.Std.ClassPattern

/-!
# The parameters of a route (`handler.go`)

A route reads the names of its parameters from its path by `paramPattern`. The
multiplexer reads the wildcards of the path by its own grammar.
-/

namespace Restitch.Composition

open Restitch.Http Restitch.Std

/-- `[a-zA-Z0-9_]` -/
def paramChar (c : Char) : Bool := c.isAlphanum || c = '_'

/-- `[a-zA-Z_]` -/
def paramStart (c : Char) : Bool := c.isAlpha || c = '_'

/-- `paramPattern`: `\{([a-zA-Z_][a-zA-Z0-9_]*)\}`. -/
def paramPattern : ClassPattern Char where
  first := (· == '{')
  items := [.one paramStart, .many paramChar, .one (· == '}')]

/-- The text that the group of a match captured. -/
def groupOf : List (List Char) → List Char
  | [_, start, run, _] => start ++ run
  | _ => []

section ParamNames

/-- The name that a run of name characters is, by what follows it. -/
def closedName : List Char → List Char → Option String
  | first :: run, '}' :: _ => if first.isDigit then none else some (.ofList (first :: run))
  | _, _ => none

/-- A parameter is found exactly if its characters are followed by a closing brace. -/
theorem paramAt_eq (text : List Char) :
    paramAt text = closedName (text.takeWhile paramChar) (text.dropWhile paramChar) := by
  unfold paramAt closedName
  change (match text.takeWhile paramChar, text.dropWhile paramChar with
    | first :: _, '}' :: _ =>
        if first.isDigit then none else some (String.ofList (text.takeWhile paramChar))
    | _, _ => none) = _
  generalize text.takeWhile paramChar = run
  generalize text.dropWhile paramChar = rest
  split <;> simp

@[simp] theorem closedName_nil (run : List Char) : closedName run [] = none := by
  cases run <;> rfl

/-- A name before another character is not closed. -/
theorem closedName_cons_of_ne {c : Char} (other : c ≠ '}') (run rest : List Char) :
    closedName run (c :: rest) = none := by
  unfold closedName
  split
  · next same => exact absurd (List.cons.inj same).1 other
  · rfl

/-- `paramAt` sees no further than a character that ends every match. -/
theorem paramAt_append {stop : Char} (stops : paramChar stop = false) (other : stop ≠ '}')
    (text after : List Char) : paramAt (text ++ stop :: after) = paramAt text := by
  rw [paramAt_eq, paramAt_eq, takeWhile_append_stop stops, dropWhile_append_stop stops]
  generalize text.takeWhile paramChar = run
  cases text.dropWhile paramChar with
  | nil => rw [List.nil_append, closedName_cons_of_ne other, closedName_nil]
  | cons c rest =>
      by_cases closes : c = '}'
      · subst closes
        cases run <;> rfl
      · rw [List.cons_append, closedName_cons_of_ne closes, closedName_cons_of_ne closes]

/-- A name needs its closing brace. -/
theorem paramAt_of_notMem {text : List Char} (unclosed : '}' ∉ text) : paramAt text = none := by
  rw [paramAt_eq]
  cases rest : text.dropWhile paramChar with
  | nil => exact closedName_nil _
  | cons c later =>
      refine closedName_cons_of_ne ?_ _ _
      rintro rfl
      exact unclosed ((List.dropWhile_suffix _).subset (rest ▸ List.mem_cons_self))

/-- The names before a character that ends every match, and from it on. -/
theorem paramNames_append {stop : Char} (stops : paramChar stop = false) (other : stop ≠ '}')
    (before after : List Char) :
    paramNames (before ++ stop :: after) = paramNames before ++ paramNames (stop :: after) := by
  induction before with
  | nil => rfl
  | cons c rest ih =>
      rw [List.cons_append, paramNames, paramNames, paramAt_append stops other, ih,
        List.append_assoc]

/-- A text without a brace has no parameter. -/
theorem paramNames_append_of_notMem {before : List Char} (free : '{' ∉ before)
    (after : List Char) : paramNames (before ++ after) = paramNames after := by
  induction before with
  | nil => rfl
  | cons c rest ih =>
      rw [List.mem_cons, not_or] at free
      rw [List.cons_append, paramNames, if_neg fun same => free.1 same.symm, ih free.2]
      rfl

/-- A text without an opening brace has no names. -/
theorem paramNames_of_notMem {text : List Char} (free : '{' ∉ text) : paramNames text = [] := by
  rw [← List.append_nil text, paramNames_append_of_notMem free]
  rfl

/-- The names of a path are those of its parts. -/
theorem paramNames_eq_flatMap_splitOn (path : List Char) :
    paramNames path = (path.splitOn '/').flatMap paramNames := by
  have whole : ['/'].intercalate (path.splitOn '/') = path := List.intercalate_splitOn '/'
  conv_lhs => rw [← whole]
  clear whole
  induction path.splitOn '/' with
  | nil => rfl
  | cons part rest ih =>
      cases rest with
      | nil => rw [List.intercalate_singleton, List.flatMap_singleton]
      | cons next rest =>
          rw [List.intercalate_cons_cons, List.flatMap_cons, ← ih, List.append_assoc,
            List.singleton_append, paramNames_append (by decide) (by decide)]
          rfl

/-- Digits come before letters. -/
theorem isDigit_eq_false_of_isAlpha {c : Char} (alpha : c.isAlpha = true) : c.isDigit = false := by
  refine Bool.eq_false_of_not_eq_true fun digit => ?_
  have low : c.val.toNat ≤ 57 :=
    UInt32.le_iff_toNat_le.mp (of_decide_eq_true ((Bool.and_eq_true _ _).mp digit).2)
  rcases (Bool.or_eq_true _ _).mp alpha with upper | lower
  · have high : 65 ≤ c.val.toNat := UInt32.le_iff_toNat_le.mp (of_decide_eq_true upper).1
    omega
  · have high : 97 ≤ c.val.toNat :=
      UInt32.le_iff_toNat_le.mp (of_decide_eq_true ((Bool.and_eq_true _ _).mp lower).1)
    omega

/-- A start of a name is a character of names that is no digit. -/
theorem paramStart_eq (c : Char) : paramStart c = (paramChar c && !c.isDigit) := by
  rw [paramStart, paramChar, Char.isAlphanum]
  cases digit : c.isDigit with
  | true =>
      have noAlpha : c.isAlpha = false := Bool.eq_false_of_not_eq_true fun alpha =>
        Bool.false_ne_true ((isDigit_eq_false_of_isAlpha alpha).symm.trans digit)
      rw [noAlpha, Bool.not_true, Bool.and_false, Bool.false_or, decide_eq_false_iff_not]
      rintro rfl
      cases digit
  | false => rw [Bool.or_false, Bool.not_false, Bool.and_true]

/-- The match of `paramPattern` at an opening brace. -/
theorem matchFront_paramPattern (rest : List Char) :
    paramPattern.matchFront ('{' :: rest) =
      match rest.takeWhile paramChar, rest.dropWhile paramChar with
      | first :: run, '}' :: after =>
          if first.isDigit then none else some ([['{'], [first], run, ['}']], after)
      | _, _ => none := by
  have closing (a : Char) (later : List Char) (accepted : paramChar a = true) :
      matchItems [.one (· == '}')] (a :: later) = none := by
    have other : ¬ (a == '}') = true := by
      rw [beq_iff_eq]
      rintro rfl
      cases accepted
    rw [matchItems, if_neg other]
  rw [ClassPattern.matchFront, matchItems, if_pos (by decide)]
  dsimp only [paramPattern]
  cases rest with
  | nil => rfl
  | cons first rest =>
      rw [matchItems, paramStart_eq, List.takeWhile_cons, List.dropWhile_cons]
      by_cases accepted : paramChar first = true
      · rw [accepted, Bool.true_and, if_pos rfl, if_pos rfl, matchItems,
          greedy_eq_of_excluded closing]
        generalize rest.takeWhile paramChar = run
        cases rest.dropWhile paramChar with
        | nil => simp [matchItems]
        | cons c after =>
            by_cases closes : c = '}'
            · subst closes
              cases digit : first.isDigit <;> simp [matchItems, digit]
            · simp [matchItems, closes]
      · rw [Bool.eq_false_of_not_eq_true accepted]
        rfl

/-- `paramAt` is the group of a match. -/
theorem paramAt_eq_matchFront (rest : List Char) :
    paramAt rest = (paramPattern.matchFront ('{' :: rest)).map fun result =>
      String.ofList (groupOf result.1) := by
  rw [matchFront_paramPattern, paramAt_eq]
  generalize rest.takeWhile paramChar = run
  generalize rest.dropWhile paramChar = later
  unfold closedName
  split
  · split <;> rfl
  · rfl

/-- No match starts inside another one. -/
theorem paramNames_of_matchFront {rest after : List Char} {captures : List (List Char)}
    (matched : paramPattern.matchFront ('{' :: rest) = some (captures, after)) :
    paramNames rest = paramNames after := by
  rw [matchFront_paramPattern] at matched
  split at matched
  · next isRest =>
      split at matched
      · cases matched
      · cases matched
        have free : '{' ∉ rest.takeWhile paramChar := fun brace =>
          Bool.false_ne_true (List.mem_takeWhile_imp brace)
        conv_lhs => rw [← List.takeWhile_append_dropWhile (p := paramChar) (l := rest), isRest]
        rw [paramNames_append_of_notMem free]
        rfl
  · cases matched

/-- `paramNames` are the groups of the leftmost matches that do not overlap. -/
theorem paramNames_eq_findAll (text : List Char) :
    paramNames text = (paramPattern.findAll text).map fun captures =>
      String.ofList (groupOf captures) := by
  generalize bound : text.length = n
  induction n using Nat.strongRecOn generalizing text with
  | ind n ih =>
      cases text with
      | nil => rfl
      | cons c rest =>
          rw [List.length_cons] at bound
          cases matched : paramPattern.matchFront (c :: rest) with
          | none =>
              rw [ClassPattern.findAll, paramPattern.scan_cons_of_none matched]
              change _ = (paramPattern.findAll rest).map _
              rw [← ih rest.length (by omega) rest rfl, paramNames]
              split
              · next opens =>
                  rw [opens] at matched
                  rw [paramAt_eq_matchFront, matched]
                  rfl
              · rfl
          | some result =>
              obtain ⟨captures, after⟩ := result
              obtain ⟨consumed, isRest⟩ := paramPattern.exists_consumed_of_matchFront matched
              have shorter : after.length < n := by
                rw [← bound, isRest, List.length_append]
                omega
              have opens : c = '{' := by
                rw [ClassPattern.matchFront, matchItems] at matched
                split at matched
                · next same => exact beq_iff_eq.mp same
                · cases matched
              rw [ClassPattern.findAll, paramPattern.scan_cons_of_some matched]
              change _ = String.ofList (groupOf captures) :: (paramPattern.findAll after).map _
              rw [opens] at matched ⊢
              rw [← ih after.length shorter after rfl, paramNames, if_pos rfl,
                paramAt_eq_matchFront, matched, paramNames_of_matchFront matched]
              rfl

variable {classes : CharClasses}

/-- Whether `paramPattern` reads a wildcard name as it is. -/
def asciiName (name : List Char) : Bool := name.all paramChar

/-- The name that `paramPattern` finds in the text of a segment. -/
def foundNames : PathSegment → List String
  | .wild name => if asciiName name then [.ofList name] else []
  | _ => []

/-- The characters of `paramPattern` are ASCII. -/
theorem lt_of_paramChar {c : Char} (accepted : paramChar c = true) : c.toNat < 128 := by
  rcases (Bool.or_eq_true _ _).mp accepted with alphanum | underscore
  · exact lt_of_isAlphanum alphanum
  · rw [of_decide_eq_true underscore]
    decide

section Valid

variable (standard : classes.Standard) {name : List Char}
  (valid : isValidWildcardName classes name = true)

include standard valid

/-- The ASCII characters of a wildcard name are those of `paramPattern`. -/
theorem paramChar_of_mem {c : Char} (ascii : c.toNat < 128) (member : c ∈ name) :
    paramChar c = true := by
  have accepted : (classes.isLetter c || c = '_' || classes.isDigit c) = true := by
    cases name with
    | nil => cases member
    | cons first rest =>
        obtain ⟨start, others⟩ := (Bool.and_eq_true _ _).mp valid
        rcases List.mem_cons.mp member with rfl | later
        · rw [start, Bool.true_or]
        · exact List.all_eq_true.mp others c later
  rw [standard.isLetter c ascii, standard.isDigit c ascii] at accepted
  rw [paramChar, Char.isAlphanum]
  revert accepted
  cases c.isAlpha <;> cases c.isDigit <;> simp

/-- An ASCII wildcard name does not start with a digit. -/
theorem isDigit_head_eq_false (ascii : asciiName name = true) {first : Char}
    (starts : name.head? = some first) : first.isDigit = false := by
  obtain ⟨rest, rfl⟩ := List.head?_eq_some_iff.mp starts
  have isAscii := lt_of_paramChar (List.all_eq_true.mp ascii first List.mem_cons_self)
  have start := ((Bool.and_eq_true _ _).mp valid).1
  rw [standard.isLetter first isAscii] at start
  rcases (Bool.or_eq_true _ _).mp start with alpha | underscore
  · exact isDigit_eq_false_of_isAlpha alpha
  · rw [of_decide_eq_true underscore]
    rfl

/-- An ASCII name is found. -/
theorem paramAt_of_asciiName (ascii : asciiName name = true) :
    paramAt (name ++ ['}']) = some (.ofList name) := by
  have run : (name ++ ['}']).takeWhile paramChar = name := by
    rw [takeWhile_append_stop (by decide)]
    exact List.takeWhile_eq_self_iff.mpr (List.all_eq_true.mp ascii)
  have rest : (name ++ ['}']).dropWhile paramChar = ['}'] := by
    rw [dropWhile_append_stop (by decide), List.dropWhile_eq_nil_iff.mpr (List.all_eq_true.mp ascii)]
    rfl
  rw [paramAt_eq, run, rest]
  cases name with
  | nil => cases valid
  | cons first rest =>
      rw [closedName, isDigit_head_eq_false standard valid ascii rfl]
      rfl

/-- No brace stands in a wildcard name. -/
theorem brace_notMem : '{' ∉ name ∧ '}' ∉ name :=
  ⟨fun brace => Bool.false_ne_true (paramChar_of_mem standard valid (by decide) brace),
    fun brace => Bool.false_ne_true (paramChar_of_mem standard valid (by decide) brace)⟩

/-- A name with another letter is not found. -/
theorem paramAt_of_not_asciiName (foreign : asciiName name = false) (after : List Char) :
    paramAt (name ++ after) = none := by
  obtain ⟨c, member, no⟩ := List.all_eq_false.mp foreign
  obtain ⟨before, later, rfl⟩ := List.append_of_mem member
  obtain ⟨-, unclosed⟩ := brace_notMem standard valid
  rw [List.mem_append, List.mem_cons, not_or, not_or] at unclosed
  rw [List.append_assoc, List.cons_append,
    paramAt_append (Bool.eq_false_of_not_eq_true no) (Ne.symm unclosed.2.1) before,
    paramAt_of_notMem unclosed.1]

/-- A wildcard has the name that is found in it. -/
theorem paramNames_wild : paramNames ('{' :: name ++ ['}']) = foundNames (.wild name) := by
  rw [List.cons_append, paramNames, if_pos rfl,
    paramNames_append_of_notMem (brace_notMem standard valid).1, foundNames]
  split
  · next ascii =>
      rw [paramAt_of_asciiName standard valid ascii]
      rfl
  · next foreign =>
      rw [paramAt_of_not_asciiName standard valid (Bool.eq_false_of_not_eq_true foreign)]
      rfl

/-- The dots before the closing brace hide the name. -/
theorem paramNames_multi :
    paramNames ('{' :: (name ++ ['.', '.', '.']) ++ ['}']) = foundNames (.multi name) := by
  obtain ⟨unopened, unclosed⟩ := brace_notMem standard valid
  rw [List.cons_append, List.append_assoc, paramNames, if_pos rfl,
    paramNames_append_of_notMem unopened, List.cons_append,
    paramAt_append (by decide) (by decide), paramAt_of_notMem unclosed]
  rfl

end Valid

/-- The names in the text of a part are those of its segment. -/
theorem paramNames_of_partReads (standard : classes.Standard) {part : List Char}
    {segment : PathSegment} (reads : PartReads classes part segment) :
    paramNames part = foundNames segment := by
  cases reads with
  | literal free => exact paramNames_of_notMem free
  | dollar => rfl
  | trailing => rfl
  | wild valid => exact paramNames_wild standard valid
  | multi valid => exact paramNames_multi standard valid

/-- The names in the text of a route are those of the segments of its pattern. -/
theorem paramNames_of_parsePattern (standard : classes.Standard) {text : String}
    {pattern : Pattern} (parsed : parsePattern classes text = .ok pattern) :
    paramNames text.toList = pattern.segments.flatMap foundNames := by
  obtain ⟨before, path, isText, free, reads, -⟩ := reads_of_parsePattern parsed
  rw [isText, paramNames_append_of_notMem free]
  change paramNames path = _
  rw [paramNames_eq_flatMap_splitOn]
  generalize path.splitOn '/' = parts at reads
  generalize pattern.segments = segments at reads
  induction reads with
  | nil => rfl
  | cons here _ ih =>
      rw [List.flatMap_cons, List.flatMap_cons, paramNames_of_partReads standard here, ih]

end ParamNames

section Route

/-- The parameters are the wildcards of a pattern with the values that were matched. -/
def ParamsMatch {pattern : Pattern} (matched : PatternMatch pattern)
    (params : GoMap String String) : Prop :=
  ∀ name, params.lookup name = matched.value? name

/-- A segment whose wildcard `paramPattern` can read: no `{name...}`, and an ASCII name. -/
def ReadableSegment : PathSegment → Prop
  | .literal _ => True
  | .wild name => asciiName name = true
  | .multi name => name = []

/-- The params of a request hold what the multiplexer has for every name that is found. -/
theorem lookup_pathParams (arrival : Arrival) (path : String) (request : HttpRequest)
    (name : String) :
    (pathParams arrival path request).lookup name =
      if name ∈ paramNames path.toList then some (arrival.pathValue request name) else none := by
  have insertions (names : List String) (params : GoMap String String) :
      (names.foldl (fun params found => params.insert found (arrival.pathValue request found))
        params).lookup name =
      if name ∈ names then some (arrival.pathValue request name) else params.lookup name := by
    induction names generalizing params with
    | nil => rfl
    | cons found rest ih =>
        rw [List.foldl_cons, ih]
        by_cases same : name = found
        · subst same
          rw [if_pos List.mem_cons_self, AList.lookup_insert, ite_self]
        · rw [AList.lookup_insert_ne same]
          simp only [List.mem_cons, same, false_or]
  exact insertions _ ∅

variable {classes : CharClasses}

/-- The params match exactly when the names that are found are the wildcards. -/
theorem paramsMatch_iff {pattern : Pattern} (matched : PatternMatch pattern) {arrival : Arrival}
    {request : HttpRequest} (routed : arrival.pathValue request = matched.pathValue)
    (path : String) :
    ParamsMatch matched (pathParams arrival path request) ↔
      ∀ name, name ∈ paramNames path.toList ↔ name.toList ∈ pattern.wildcards := by
  refine forall_congr' fun name => ?_
  rw [lookup_pathParams, routed]
  by_cases member : name.toList ∈ pattern.wildcards
  · rw [matched.value?_of_mem member]
    simp [member]
  · rw [matched.value?_of_notMem member]
    simp [member]

/-- The text of a route that the multiplexer accepts. -/
theorem parsePattern_of_handle {router : Router} {method path : String} {pattern : Pattern}
    (registered : router.handle classes method path = some (router ++ [pattern])) :
    ∃ text, parsePattern classes text = .ok pattern ∧
      paramNames text.toList = paramNames method.toList ++ paramNames path.toList := by
  have accepted {text : String} (handled : handleFunc classes router text =
      some (router ++ [pattern])) : parsePattern classes text = .ok pattern := by
    unfold handleFunc at handled
    split at handled
    · cases handled
    · next parsed =>
        split at handled
        · cases handled
        · rw [parsed, List.singleton_inj.mp (List.append_cancel_left (Option.some.inj handled))]
  unfold Router.handle at registered
  split at registered
  · refine ⟨_, accepted registered, ?_⟩
    rw [String.toList_append, String.toList_append, List.append_assoc]
    exact paramNames_append (by decide) (by decide) _ _
  · next noMethod =>
      rw [not_not] at noMethod
      subst noMethod
      exact ⟨_, accepted registered, rfl⟩

/-- A name that is found belongs to a wildcard whose segment is readable. -/
theorem mem_flatMap_foundNames {segments : List PathSegment} {name : String} :
    name ∈ segments.flatMap foundNames ↔
      .wild name.toList ∈ segments ∧ asciiName name.toList = true := by
  rw [List.mem_flatMap]
  constructor
  · rintro ⟨segment, member, found⟩
    cases segment with
    | literal bytes => cases found
    | multi name => cases found
    | wild own =>
        rw [foundNames] at found
        split at found
        · next ascii =>
            cases List.mem_singleton.mp found
            rw [String.toList_ofList]
            exact ⟨member, ascii⟩
        · cases found
  · rintro ⟨member, ascii⟩
    refine ⟨_, member, ?_⟩
    rw [foundNames, if_pos ascii, String.ofList_toList]
    exact List.mem_singleton_self _

/-- The wildcards of a pattern are the names of its segments. -/
theorem mem_wildcards_iff {pattern : Pattern} {name : List Char} :
    name ∈ pattern.wildcards ↔
      (.wild name ∈ pattern.segments ∨ .multi name ∈ pattern.segments) ∧ name ≠ [] := by
  rw [Pattern.wildcards, List.mem_filter, List.mem_flatMap, decide_eq_true_eq]
  refine and_congr_left fun _ => ⟨?_, ?_⟩
  · rintro ⟨segment, member, named⟩
    cases segment with
    | literal bytes => cases named
    | wild own =>
        cases List.mem_singleton.mp named
        exact .inl member
    | multi own =>
        cases List.mem_singleton.mp named
        exact .inr member
  · rintro (wild | multi)
    · exact ⟨_, wild, List.mem_singleton_self _⟩
    · exact ⟨_, multi, List.mem_singleton_self _⟩

/-- The names that are found are all different. -/
theorem nodup_flatMap_foundNames {segments : List PathSegment}
    (distinct : (segments.flatMap PathSegment.names).Nodup) :
    (segments.flatMap foundNames).Nodup := by
  have found (segment : PathSegment) :
      (foundNames segment).Sublist (segment.names.map String.ofList) := by
    cases segment with
    | literal bytes => exact .slnil
    | multi name => exact List.nil_sublist _
    | wild name =>
        rw [foundNames]
        split
        · exact List.Sublist.refl _
        · exact List.nil_sublist _
  have inMap : (segments.flatMap foundNames).Sublist
      ((segments.flatMap PathSegment.names).map String.ofList) := by
    induction segments with
    | nil => exact .slnil
    | cons segment rest ih =>
        rw [List.flatMap_cons, List.flatMap_cons, List.map_append]
        rw [List.flatMap_cons] at distinct
        exact (found segment).append (ih distinct.of_append_right)
  exact inMap.nodup (distinct.map fun _ _ same => String.ofList_inj.mp same)

/-- For every route that the multiplexer accepts and every request that it routes there, the
params are the wildcards of the pattern with their values exactly when `paramPattern` can
read every wildcard, and all of them stand in the path. -/
theorem params_match_iff (standard : classes.Standard) {router : Router}
    {comp : CompositionConfig} {pattern : Pattern}
    (registered : router.handle classes comp.method comp.path = some (router ++ [pattern]))
    (matched : PatternMatch pattern) (arrival : Arrival) (request : HttpRequest)
    (routed : arrival.pathValue request = matched.pathValue) :
    ParamsMatch matched (pathParams arrival comp.path request) ↔
      (∀ segment ∈ pattern.segments, ReadableSegment segment) ∧
        paramNames comp.method.toList = [] := by
  obtain ⟨text, parsed, names⟩ := parsePattern_of_handle registered
  rw [paramNames_of_parsePattern standard parsed] at names
  obtain ⟨_, _, -, -, reads, distinct⟩ := reads_of_parsePattern parsed
  rw [paramsMatch_iff matched routed]
  constructor
  · intro same
    -- a wildcard of the path is found, and so is a segment that can be read
    have readable {name : List Char} (wildcard : name ∈ pattern.wildcards) :
        .wild name ∈ pattern.segments ∧ asciiName name = true := by
      have inPath := (same (.ofList name)).mpr (by rwa [String.toList_ofList])
      have inText := List.mem_append_right (paramNames comp.method.toList) inPath
      rw [← names, mem_flatMap_foundNames, String.toList_ofList] at inText
      exact inText
    refine ⟨fun segment member => ?_, ?_⟩
    · cases segment with
      | literal bytes => trivial
      | wild name =>
          have named := wild_ne_nil_of_reads reads member
          exact (readable (mem_wildcards_iff.mpr ⟨.inl member, named⟩)).2
      | multi name =>
          change name = []
          refine Decidable.byContradiction fun named => ?_
          obtain ⟨twin, -⟩ := readable (mem_wildcards_iff.mpr ⟨.inr member, named⟩)
          have : Std.Symm (Function.onFun List.Disjoint PathSegment.names) :=
            ⟨fun _ _ disjoint => disjoint.symm⟩
          have apart := (List.nodup_flatMap.mp distinct).2.forall member twin
            PathSegment.noConfusion
          exact apart (List.mem_singleton_self name) (List.mem_singleton_self name)
    · rw [List.eq_nil_iff_forall_not_mem]
      intro name inMethod
      have inText := List.mem_append_left (paramNames comp.path.toList) inMethod
      rw [← names, mem_flatMap_foundNames] at inText
      have wildcard := mem_wildcards_iff.mpr
        ⟨.inl inText.1, wild_ne_nil_of_reads reads inText.1⟩
      have unique := nodup_flatMap_foundNames distinct
      rw [names] at unique
      exact (List.nodup_append'.mp unique).2.2 inMethod ((same name).mpr wildcard)
  · rintro ⟨readable, noMethod⟩ name
    rw [noMethod, List.nil_append] at names
    rw [← names, mem_flatMap_foundNames, mem_wildcards_iff]
    constructor
    · rintro ⟨wild, -⟩
      exact ⟨.inl wild, wild_ne_nil_of_reads reads wild⟩
    · rintro ⟨wild | multi, named⟩
      · exact ⟨wild, readable _ wild⟩
      · exact absurd (readable _ multi) named

instance (segment : PathSegment) : Decidable (ReadableSegment segment) :=
  match segment with
  | .literal _ => .isTrue trivial
  | .wild name => inferInstanceAs (Decidable (asciiName name = true))
  | .multi name => inferInstanceAs (Decidable (name = []))

instance : DecidableEq Pattern := fun first second =>
  decidable_of_iff (first.method = second.method ∧ first.host = second.host ∧
      first.segments = second.segments) <| by
    cases first
    cases second
    simp

/-- The classes of ASCII agree with themselves. -/
theorem asciiClasses_standard : asciiClasses.Standard := ⟨fun _ _ => rfl, fun _ _ => rfl⟩

/-- An arrival whose route matched some values. -/
def arrivalOf {pattern : Pattern} (matched : PatternMatch pattern) : Arrival where
  now := 0
  newRequestID := "r1"
  allow := fun _ _ => true
  route := fun _ => none
  pathValue := fun _ => matched.pathValue

def plainRequest (path : String) : HttpRequest :=
  ⟨"GET", path, ∅, ∅, "10.0.0.1", .absent⟩

def userPattern : Pattern where
  method := "GET".toList
  host := []
  segments := [.literal (utf8 "users".toList), .wild "id".toList]
  multiLast := ⟨nofun, nofun, trivial⟩

/-- The id of the user that a request asked for. -/
def userMatch : PatternMatch userPattern := ⟨["7"], by decide⟩

/-- The id of a user is in the params. -/
theorem params_match_of_user :
    ParamsMatch userMatch (pathParams (arrivalOf userMatch) "/users/\x7bid\x7d"
      (plainRequest "/users/7")) :=
  (params_match_iff asciiClasses_standard
    (show Router.handle asciiClasses [] (staticComposition "/users/\x7bid\x7d" "GET").method
      (staticComposition "/users/\x7bid\x7d" "GET").path = some ([] ++ [userPattern]) by
        decide +kernel)
    userMatch (arrivalOf userMatch) (plainRequest "/users/7") rfl).mpr (by decide +kernel)

def filesPattern : Pattern where
  method := "GET".toList
  host := []
  segments := [.literal (utf8 "files".toList), .multi "rest".toList]
  multiLast := ⟨nofun, fun _ => rfl, trivial⟩

def filesMatch : PatternMatch filesPattern := ⟨["a/b"], by decide⟩

/-- The multiplexer accepts a wildcard for the rest of the path and has its value. The
params do not. -/
theorem params_miss_rest :
    Router.handle asciiClasses [] "GET" "/files/\x7brest...\x7d" = some [filesPattern] ∧
      filesMatch.pathValue "rest" = "a/b" ∧
      ¬ ParamsMatch filesMatch (pathParams (arrivalOf filesMatch) "/files/\x7brest...\x7d"
        (plainRequest "/files/a/b")) := by
  refine ⟨by decide +kernel, by decide +kernel, fun same => ?_⟩
  have missing : (pathParams (arrivalOf filesMatch) "/files/\x7brest...\x7d"
      (plainRequest "/files/a/b")).lookup "rest" = none := by decide +kernel
  have present : filesMatch.value? "rest" = some "a/b" := by decide +kernel
  cases missing.symm.trans ((same "rest").trans present)

end Route

end Restitch.Composition
