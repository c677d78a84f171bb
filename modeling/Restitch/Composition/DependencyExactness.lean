import Mathlib.Data.Fintype.EquivFin
import Restitch.Composition.DependencySoundness

/-!
# Expressions that read steps they do not name

The converse of `Template.sameIn_of_sameEntries`: for every expression that uses
`steps` in another way there are operators and two results maps, with the same
entries for all of its dependencies, between which it can tell. The operators
here keep a mark: a step `kept` has an entry in both maps and a step `other` in
one, and whatever is computed from a map with the first entry and without the
second is marked.
-/

namespace Restitch.Composition

open Restitch.Expr Restitch.Std

/-- The values of the operators below. -/
inductive Probe where
  | nil
  | text (value : String)
  | object (fields : String → Option Probe)
  | leaf
  | mark

section

variable (kept other : String)

/-- The value shows that `other` has no entry. -/
def Probe.isMarked : Probe → Bool
  | .mark => true
  | .object fields => (fields kept).isSome && (fields other).isNone
  | _ => false

/-- Whether a result is marked. -/
def markedResult : Except Unit Probe → Bool
  | .ok value => value.isMarked kept other
  | .error _ => false

/-- A value computed from others: it keeps the mark and nothing else. -/
def joinMarks (results : List (Except Unit Probe)) : Except Unit Probe :=
  .ok (if results.any (markedResult kept other) then .mark else .leaf)

def probeMember (base property : Except Unit Probe) : Except Unit Probe :=
  match base, property with
  | .ok (.object fields), .ok (.text key) =>
      match fields key with
      | some value => .ok value
      | none => joinMarks kept other [base, property]
  | _, _ => joinMarks kept other [base, property]

/-- Operators that keep the mark. -/
def probeOperators : Operators Probe Unit Unit where
  nil := .nil
  text := .text
  number := fun _ => .leaf
  list := fun _ => .leaf
  object := .object
  start := ()
  bound := fun _ _ => none
  undefined := fun _ => .ok .leaf
  member := fun _ => probeMember kept other
  declare := fun _ value expr scope => joinMarks kept other [value scope, expr scope]
  apply := fun _ children scope => joinMarks kept other (children.map fun child => child scope)
  member_object := by
    intro _ fields key value found
    simp [probeMember, found]

/-- A mark prints as one character, and nothing else prints. -/
def probePrinter : Printer Probe where
  sprint := fun value => if value.isMarked kept other then "!" else ""
  marshal := fun _ => .ok ""

/-- A request all of whose texts are `other`. -/
def probeData : RequestData Probe := ⟨other, other, ∅, ∅, ∅, .nil, none⟩

/-- Skipped steps. -/
def probeResults (names : List String) : GoMap String (Option (StepResult Probe)) :=
  names.foldr (fun name results => results.insert name none) ∅

/-- The environment of that request with these steps skipped. -/
def probeEnv (names : List String) : Env Probe :=
  buildRequestEnv (probeOperators kept other).toValues (probeData other) (probeResults names)

/-- The value of `steps` in that environment. -/
def probeSteps (names : List String) (name : String) : Option Probe :=
  if name ∈ names then some .nil else none

/-- A value without a mark whose only text is `other`. -/
inductive Harmless : Probe → Prop where
  | nil : Harmless .nil
  | leaf : Harmless .leaf
  | text : Harmless (.text other)
  | object {fields : String → Option Probe} (absent : fields kept = none)
      (entries : ∀ key value, fields key = some value → Harmless value) :
      Harmless (.object fields)

variable {kept other}

/-- A harmless value carries no mark. -/
theorem Harmless.isMarked_eq_false {value : Probe} (harmless : Harmless kept other value) :
    value.isMarked kept other = false := by
  cases harmless with
  | nil | leaf | text => rfl
  | object absent _ => simp [Probe.isMarked, absent]

/-- The probe has a result without value for each step. -/
theorem lookup_probeResults (names : List String) (name : String) :
    (probeResults names).lookup name = if name ∈ names then some none else none := by
  induction names with
  | nil => rfl
  | cons first rest ih =>
      by_cases equal : name = first
      · subst equal
        simp [probeResults]
      · rw [probeResults, List.foldr_cons, AList.lookup_insert_ne equal, ← probeResults, ih]
        simp [equal]

/-- Everything a request environment holds besides `steps` is harmless. -/
theorem harmless_reqData (absent : kept ∉ reqFields) :
    Harmless kept other (reqData (probeOperators kept other).toValues (probeData other)) := by
  have empty : Harmless kept other (.object fun _ => none) :=
    .object rfl fun _ _ found => by cases found
  refine .object ?_ ?_
  · rw [List.lookup_eq_none_iff]
    intro entry member
    have field : entry.1 ∈ reqFields := List.mem_map_of_mem (f := Prod.fst) member
    rw [bne_iff_ne]
    rintro rfl
    exact absent field
  · intro key value found
    obtain ⟨before, after, split, -⟩ := List.lookup_eq_some_iff.mp found
    have member : (key, value) ∈ before ++ (key, value) :: after := by simp
    rw [← split] at member
    simp only [List.mem_cons, Prod.mk.injEq, List.not_mem_nil, or_false] at member
    rcases member with ⟨-, rfl⟩ | ⟨-, rfl⟩ | ⟨-, rfl⟩ | ⟨-, rfl⟩ | ⟨-, rfl⟩ | ⟨-, rfl⟩ |
      ⟨-, rfl⟩ | ⟨-, rfl⟩
    · exact .text
    · exact .text
    · exact empty
    · exact empty
    · exact empty
    · exact empty
    · exact .nil
    · exact .nil

/-- The probe sees the steps. -/
theorem probeEnv_steps {names : List String} (nonempty : names ≠ []) :
    probeEnv kept other names "steps" = some (.object (probeSteps names)) := by
  obtain ⟨first, rest, rfl⟩ := List.exists_cons_of_ne_nil nonempty
  have entries : (probeResults (first :: rest)).entries ≠ [] := by
    intro empty
    have found : (probeResults (first :: rest)).lookup first = some none := by
      rw [lookup_probeResults, if_pos List.mem_cons_self]
    rw [← GoMap.mem_entries_iff, empty] at found
    cases found
  have value : stepsValue (probeOperators kept other).toValues (probeResults (first :: rest)) =
      .object (probeSteps (first :: rest)) := by
    refine congrArg Probe.object (funext fun name => ?_)
    rw [lookup_probeResults, probeSteps]
    split
    · rfl
    · rfl
  simp [probeEnv, buildRequestEnv, entries, value]

variable (kept other) in
/-- What an identifier stands for in a probe environment. -/
theorem lookupName_probeEnv {names : List String} (nonempty : names ≠ [])
    (absent : kept ∉ reqFields) {name : String} (notEnv : name ≠ envName) :
    ∃ value, lookupName (probeOperators kept other) (probeEnv kept other names) name () =
        .ok value ∧
      ((name = "steps" ∧ value = .object (probeSteps names)) ∨
        (name ≠ "steps" ∧ Harmless kept other value)) := by
  by_cases steps : name = "steps"
  · subst steps
    refine ⟨.object (probeSteps names), ?_, .inl ⟨rfl, rfl⟩⟩
    simp only [lookupName, probeOperators, if_neg notEnv, probeEnv_steps nonempty]
  · by_cases req : name = "req" ∨ name = "request"
    · refine ⟨_, ?_, .inr ⟨steps, harmless_reqData absent⟩⟩
      simp [lookupName, probeOperators, notEnv, probeEnv, buildRequestEnv, req]
    · refine ⟨.leaf, ?_, .inr ⟨steps, .leaf⟩⟩
      simp [lookupName, probeOperators, notEnv, probeEnv, buildRequestEnv, req, steps]

variable (kept other) in
/-- What an expression can evaluate to in a probe environment. -/
inductive Shape (names : List String) : Node → Probe → Prop where
  | string (value : String) : Shape names (.string value) (.text value)
  | steps : Shape names (.identifier "steps") (.object (probeSteps names))
  | harmless {node : Node} {value : Probe} (harmless : Harmless kept other value) :
      Shape names node value
  | mark {node : Node} : Shape names node .mark

/-- A member is an entry of a map, or is computed from both sides. -/
theorem probeMember_cases (base property : Except Unit Probe) :
    (∃ fields key value, base = .ok (.object fields) ∧ property = .ok (.text key) ∧
      fields key = some value ∧ probeMember kept other base property = .ok value) ∨
    (probeMember kept other base property = joinMarks kept other [base, property] ∧
      ∀ fields key, base = .ok (.object fields) → property = .ok (.text key) →
        fields key = none) := by
  unfold probeMember
  split
  · rename_i fields key
    cases found : fields key with
    | some value => exact .inl ⟨fields, key, value, rfl, rfl, found, rfl⟩
    | none =>
        refine .inr ⟨rfl, ?_⟩
        rintro _ _ ⟨⟩ ⟨⟩
        exact found
  · rename_i neither
    exact .inr ⟨rfl, fun fields key isObject isText => (neither fields key isObject isText).elim⟩

/-- Joining the marks of values keeps their shape. -/
theorem shape_joinMarks (names : List String) (node : Node) (results : List (Except Unit Probe)) :
    ∃ value, joinMarks kept other results = .ok value ∧ Shape kept other names node value := by
  unfold joinMarks
  split
  · exact ⟨.mark, rfl, .mark⟩
  · exact ⟨.leaf, rfl, .harmless .leaf⟩

/-- The entries of a map of some shape are harmless. -/
theorem Shape.entry {names : List String} {node : Node} {fields : String → Option Probe}
    (shape : Shape kept other names node (.object fields)) {key : String} {value : Probe}
    (found : fields key = some value) : Harmless kept other value := by
  cases shape with
  | steps =>
      unfold probeSteps at found
      split at found
      · cases found
        exact .nil
      · cases found
  | harmless harmless =>
      cases harmless with
      | object _ entries => exact entries key value found

variable (kept other) in
/-- Every expression without the environment as a whole has a value of some shape. -/
theorem shape_eval {names : List String} (nonempty : names ≠ []) (absent : kept ∉ reqFields)
    {node : Node} (notEnv : .identifier envName ∉ node.walk) :
    ∃ value, eval (probeOperators kept other) (probeEnv kept other names) node () = .ok value ∧
      Shape kept other names node value := by
  induction node with
  | identifier name =>
      have different : name ≠ envName := by
        rintro rfl
        exact notEnv (Node.mem_walk_self _)
      obtain ⟨value, found, ⟨rfl, rfl⟩ | ⟨-, harmless⟩⟩ :=
        lookupName_probeEnv kept other nonempty absent different
      · exact ⟨_, found, .steps⟩
      · exact ⟨value, found, .harmless harmless⟩
  | string value => exact ⟨_, rfl, .string value⟩
  | member node property optional ihNode ihProperty =>
      simp only [Node.walk, List.mem_append, not_or] at notEnv
      obtain ⟨base, isBase, baseShape⟩ := ihNode notEnv.1.1
      obtain ⟨index, isIndex, -⟩ := ihProperty notEnv.1.2
      change ∃ value, probeMember kept other _ _ = .ok value ∧ _
      rw [isBase, isIndex]
      rcases probeMember_cases (.ok base) (.ok index) with
        ⟨fields, key, value, isObject, -, found, result⟩ | ⟨result, -⟩
      · cases isObject
        exact ⟨value, result, .harmless (baseShape.entry found)⟩
      · rw [result]
        exact shape_joinMarks ..
  | variableDeclarator name value expr _ _ => exact shape_joinMarks ..
  | other kind children _ => exact shape_joinMarks ..

/-- A computed value is marked exactly when one it is computed from is. -/
theorem markedResult_joinMarks (results : List (Except Unit Probe)) :
    markedResult kept other (joinMarks kept other results) =
      results.any (markedResult kept other) := by
  unfold joinMarks
  split
  · rename_i marked
    rw [marked]
    rfl
  · rename_i unmarked
    rw [Bool.not_eq_true] at unmarked
    rw [unmarked]
    rfl

/-- With an entry for `other`, nothing is marked. -/
theorem markedResult_eval_eq_false {names : List String} (present : other ∈ names)
    (absent : kept ∉ reqFields) {node : Node} (notEnv : .identifier envName ∉ node.walk) :
    markedResult kept other
      (eval (probeOperators kept other) (probeEnv kept other names) node ()) = false := by
  have nonempty : names ≠ [] := List.ne_nil_of_mem present
  induction node with
  | identifier name =>
      have different : name ≠ envName := by
        rintro rfl
        exact notEnv (Node.mem_walk_self _)
      obtain ⟨value, found, ⟨rfl, rfl⟩ | ⟨-, harmless⟩⟩ :=
        lookupName_probeEnv kept other nonempty absent different
      · rw [eval, found]
        simp [markedResult, Probe.isMarked, probeSteps, present]
      · rw [eval, found]
        exact harmless.isMarked_eq_false
  | string value => rfl
  | member node property optional ihNode ihProperty =>
      simp only [Node.walk, List.mem_append, not_or] at notEnv
      have base := ihNode notEnv.1.1
      have index := ihProperty notEnv.1.2
      obtain ⟨value, isValue, shape⟩ := shape_eval kept other nonempty absent notEnv.1.1
      change markedResult kept other (probeMember kept other _ _) = false
      rcases probeMember_cases (eval (probeOperators kept other) (probeEnv kept other names) node ())
        (eval (probeOperators kept other) (probeEnv kept other names) property ()) with
        ⟨fields, key, entry, isObject, -, found, result⟩ | ⟨result, -⟩
      · rw [isValue] at isObject
        cases isObject
        rw [result]
        exact (shape.entry found).isMarked_eq_false
      · rw [result, markedResult_joinMarks]
        simp [base, index]
  | variableDeclarator name value expr ihValue ihExpr =>
      simp only [Node.walk, List.mem_append, not_or] at notEnv
      refine (markedResult_joinMarks _).trans ?_
      simp [ihValue notEnv.1.1, ihExpr notEnv.1.2]
  | other kind children ih =>
      simp only [Node.walk, List.mem_append, Node.mem_walkAll, not_or, not_exists, not_and] at notEnv
      refine (markedResult_joinMarks _).trans ?_
      rw [evalAll_eq_map, List.map_map, List.any_eq_false]
      intro result member
      obtain ⟨child, listed, rfl⟩ := List.mem_map.mp member
      rw [Bool.not_eq_true]
      exact ih child listed (notEnv.1 child listed)

/-- A marked map is the value of `steps` itself. -/
theorem Shape.eq_steps {names : List String} {node : Node} {fields : String → Option Probe}
    (shape : Shape kept other names node (.object fields))
    (marked : (Probe.object fields).isMarked kept other = true) :
    node = .identifier "steps" ∧ fields = probeSteps names := by
  cases shape with
  | steps => exact ⟨rfl, rfl⟩
  | harmless harmless =>
      rw [harmless.isMarked_eq_false] at marked
      cases marked

/-- Without an entry for `other`, every other use of `steps` is marked. -/
theorem markedResult_eval_eq_true {names : List String} (keptIn : kept ∈ names)
    (otherOut : other ∉ names) (absent : kept ∉ reqFields) {node : Node}
    (notEnv : .identifier envName ∉ node.walk) (reads : readsStepsByName node = false) :
    markedResult kept other
      (eval (probeOperators kept other) (probeEnv kept other names) node ()) = true := by
  have nonempty : names ≠ [] := List.ne_nil_of_mem keptIn
  induction node with
  | identifier name =>
      have different : name ≠ envName := by
        rintro rfl
        exact notEnv (Node.mem_walk_self _)
      have steps : name = "steps" := by
        by_contra notSteps
        simp [readsStepsByName, notSteps, different] at reads
      obtain ⟨value, found, ⟨-, rfl⟩ | ⟨notSteps, -⟩⟩ :=
        lookupName_probeEnv kept other nonempty absent different
      · rw [eval, found]
        simp [markedResult, Probe.isMarked, probeSteps, keptIn, otherOut]
      · exact absurd steps notSteps
  | string value => cases reads
  | member node property optional ihNode ihProperty =>
      simp only [Node.walk, List.mem_append, not_or] at notEnv
      rw [readsStepsByName, Bool.or_eq_false_iff] at reads
      obtain ⟨base, isBase, baseShape⟩ := shape_eval kept other nonempty absent notEnv.1.1
      obtain ⟨index, isIndex, indexShape⟩ :=
        shape_eval kept other nonempty absent notEnv.1.2
      have marked : base.isMarked kept other = true ∨ index.isMarked kept other = true := by
        rcases Bool.and_eq_false_iff.mp reads.2 with bad | bad
        · have := ihNode notEnv.1.1 bad
          rw [isBase] at this
          exact .inl this
        · have := ihProperty notEnv.1.2 bad
          rw [isIndex] at this
          exact .inr this
      change markedResult kept other (probeMember kept other _ _) = true
      rw [isBase, isIndex]
      rcases probeMember_cases (.ok base) (.ok index) with
        ⟨fields, key, entry, isObject, isText, found, -⟩ | ⟨result, -⟩
      · -- An entry was found: the map is that of the steps, and the key no literal.
        cases isObject
        cases isText
        have steps : (Probe.object fields).isMarked kept other = true := by
          simpa [Probe.isMarked] using marked
        obtain ⟨rfl, rfl⟩ := baseShape.eq_steps steps
        cases indexShape with
        | string value => exact absurd reads.1 (by simp [isStepByName])
        | harmless harmless =>
            cases harmless with
            | text => simp [probeSteps, otherOut] at found
      · rw [result, markedResult_joinMarks]
        simpa [markedResult] using marked
  | variableDeclarator name value expr ihValue ihExpr =>
      simp only [Node.walk, List.mem_append, not_or] at notEnv
      refine (markedResult_joinMarks _).trans ?_
      rcases Bool.and_eq_false_iff.mp reads with bad | bad
      · simp [ihValue notEnv.1.1 bad]
      · simp [ihExpr notEnv.1.2 bad]
  | other kind children ih =>
      simp only [Node.walk, List.mem_append, Node.mem_walkAll, not_or, not_exists, not_and] at notEnv
      have some_ : ∃ child ∈ children, readsStepsByName child = false := by
        by_contra none_
        push Not at none_
        have all := allReadStepsByName_iff.mpr fun child member =>
          Bool.not_eq_false _ ▸ none_ child member
        rw [readsStepsByName, all] at reads
        cases reads
      obtain ⟨child, listed, bad⟩ := some_
      refine (markedResult_joinMarks _).trans (List.any_eq_true.mpr ⟨_, ?_, ih child listed
        (notEnv.1 child listed) bad⟩)
      rw [evalAll_eq_map, List.map_map]
      exact List.mem_map.mpr ⟨child, listed, rfl⟩

variable (kept other) in
/-- The text of an expression: a mark or nothing. -/
theorem evalString_program (expr : String) {names : List String} (nonempty : names ≠ [])
    (absent : kept ∉ reqFields) {node : Node} (notEnv : .identifier envName ∉ node.walk) :
    (Segment.program expr node).evalString (probeOperators kept other) (probePrinter kept other)
        (probeEnv kept other names) .none =
      .ok (if markedResult kept other (eval (probeOperators kept other)
        (probeEnv kept other names) node ()) then "!" else "") := by
  obtain ⟨value, isValue, -⟩ := shape_eval kept other nonempty absent notEnv
  rw [isValue]
  change (runProgram _ _ expr node >>= fun value => escapeValue _ expr value .none) = _
  have run : runProgram (probeOperators kept other) (probeEnv kept other names) expr node =
      .ok value := by
    have started : eval (probeOperators kept other) (probeEnv kept other names) node
        (probeOperators kept other).start = .ok value := isValue
    rw [runProgram, started]
  rw [run]
  rfl

/-- Without the entry for `other` a template prints more: one mark for each
expression that uses `steps` in another way. -/
theorem evalSegments_length {names : List String} (keptIn : kept ∈ names) (otherOut : other ∉ names)
    (absent : kept ∉ reqFields) {segments : List Segment}
    (notEnv : ∀ expr node, .program expr node ∈ segments → .identifier envName ∉ node.walk) :
    ∃ text text',
      evalSegments (probeOperators kept other) (probePrinter kept other)
        (probeEnv kept other names) .none segments = .ok text ∧
      evalSegments (probeOperators kept other) (probePrinter kept other)
        (probeEnv kept other (other :: names)) .none segments = .ok text' ∧
      text'.length ≤ text.length ∧
      (segments.all Segment.readsStepsByName = false → text'.length < text.length) := by
  induction segments with
  | nil => exact ⟨"", "", rfl, rfl, le_refl _, fun all => by cases all⟩
  | cons segment rest ih =>
      obtain ⟨later, later', isLater, isLater', le, lt⟩ :=
        ih fun expr node member => notEnv expr node (List.mem_cons_of_mem _ member)
      have joined : ∀ {names text later},
          segment.evalString (probeOperators kept other) (probePrinter kept other)
            (probeEnv kept other names) .none = .ok text →
          evalSegments (probeOperators kept other) (probePrinter kept other)
            (probeEnv kept other names) .none rest = .ok later →
          evalSegments (probeOperators kept other) (probePrinter kept other)
            (probeEnv kept other names) .none (segment :: rest) = .ok (text ++ later) := by
        intro names text later first remaining
        rw [evalSegments, first, remaining]
        rfl
      cases segment with
      | literal text =>
          refine ⟨text ++ later, text ++ later', joined rfl isLater, joined rfl isLater', ?_, ?_⟩
          · simp only [String.length_append]
            omega
          · intro reads
            simp only [String.length_append]
            have := lt (by simpa [Segment.readsStepsByName] using reads)
            omega
      | program expr node =>
          have noEnv := notEnv expr node List.mem_cons_self
          have plain := evalString_program kept other expr (List.cons_ne_nil other names)
            absent noEnv
          rw [markedResult_eval_eq_false List.mem_cons_self absent noEnv] at plain
          have marked := evalString_program kept other expr (List.ne_nil_of_mem keptIn)
            absent noEnv
          refine ⟨_, _, joined marked isLater, joined plain isLater', ?_, ?_⟩
          · simp only [String.length_append]
            exact Nat.add_le_add (Nat.zero_le _) le
          · intro reads
            simp only [String.length_append]
            rcases Bool.and_eq_false_iff.mp reads with bad | bad
            · rw [markedResult_eval_eq_true keptIn otherOut absent noEnv bad]
              exact Nat.add_lt_add_of_lt_of_le Nat.zero_lt_one le
            · exact Nat.add_lt_add_of_le_of_lt (Nat.zero_le _) (lt bad)

end

/-- The value of a template and its texts depend on the results of its extracted
dependencies only, whatever the operators of the language compute. -/
def Template.DeterminedByDeps (template : Template) : Prop :=
  ∀ {Value Error Scope : Type} (operators : Operators Value Error Scope) (printer : Printer Value)
    (data : RequestData Value) (results results' : GoMap String (Option (StepResult Value))),
    SameEntries template.deps results results' →
    template.SameIn operators printer (buildRequestEnv operators.toValues data results)
      (buildRequestEnv operators.toValues data results')

/-- A template that depends on its dependencies only reads steps by name. -/
theorem Template.readsStepsByName_of_determined {template : Template}
    (notEnv : ∀ expr node, .program expr node ∈ template.segments →
      .identifier envName ∉ node.walk)
    (determined : template.DeterminedByDeps) : template.readsStepsByName = true := by
  obtain ⟨kept, keptFresh⟩ :=
    Infinite.exists_notMem_finset (template.deps ++ reqFields).toFinset
  obtain ⟨other, otherFresh⟩ :=
    Infinite.exists_notMem_finset (kept :: template.deps).toFinset
  simp only [List.mem_toFinset, List.mem_append, not_or] at keptFresh otherFresh
  obtain ⟨text, text', isText, isText', -, lt⟩ := evalSegments_length
    (List.mem_cons_self (a := kept) (l := template.deps)) otherFresh keptFresh.2 notEnv
  have same : SameEntries template.deps (probeResults (kept :: template.deps))
      (probeResults (other :: kept :: template.deps)) := by
    intro dep member
    refine ⟨none, ?_, ?_⟩
    · rw [lookup_probeResults, if_pos (List.mem_cons_of_mem _ member)]
    · rw [lookup_probeResults, if_pos (List.mem_cons_of_mem _ (List.mem_cons_of_mem _ member))]
  have equal := (determined (probeOperators kept other) (probePrinter kept other)
    (probeData other) _ _ same).string .none
  rw [Template.evalString, Template.evalString] at equal
  change evalSegments _ _ (probeEnv kept other (kept :: template.deps)) _ _ =
    evalSegments _ _ (probeEnv kept other (other :: kept :: template.deps)) _ _ at equal
  rw [isText, isText'] at equal
  cases equal
  by_contra reads
  rw [Bool.not_eq_true] at reads
  exact absurd (lt reads) (lt_irrefl _)

end Restitch.Composition
