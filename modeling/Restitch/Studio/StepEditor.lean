import Mathlib.Data.List.Forall2
import Restitch.Std.GraphSearch
import Restitch.Studio.StepWaves

/-!
# Edges in the step graph (`step-graph.tsx`, `dag.ts`)

The graph reads the steps of a draft, which may hold anything, and writes `depends_on` when the
user connects two of them. It refuses what would close a cycle with the edges that the graph
shows.
-/

namespace Restitch.Studio.Editor

open Relation Restitch.Std

variable {Other : Type}

/-- A value of a field. The editor does not look into the other ones. -/
inductive FieldValue (Other : Type) where
  | string (text : String)
  | array (items : List (FieldValue Other))
  | other (value : Other)

/-- `Step`. The order of its fields is left out. -/
abbrev Step (Other : Type) := GoMap String (FieldValue Other)

def FieldValue.string? : FieldValue Other → Option String
  | .string text => some text
  | .array _ | .other _ => none

/-- The name of a step, if it is a string. -/
def nameOf (step : Step Other) : Option String := (step.lookup "name").bind FieldValue.string?

/-- The entries of an array. -/
def FieldValue.items : FieldValue Other → List (FieldValue Other)
  | .array items => items
  | .string _ | .other _ => []

/-- The `depends_on` of a step as strings. -/
def dependsOnOf (step : Step Other) : List String :=
  ((step.lookup "depends_on").elim [] FieldValue.items).filterMap FieldValue.string?

/-- `named`. -/
def named (steps : List (Step Other)) : List DagStep :=
  steps.filterMap fun step =>
    (nameOf step).bind fun name => if name = "" then none else some ⟨name, dependsOnOf step⟩

/-- What `withDependsOn` does to the step itself. -/
def replaceDependsOn (step : Step Other) (next : List String) : Step Other :=
  if next = [] then step.erase "depends_on"
  else step.insert "depends_on" (.array (next.map .string))

/-- `withDependsOn`. -/
def withDependsOn (steps : List (Step Other)) (step : String) (next : List String) :
    List (Step Other) :=
  steps.map fun s => if nameOf s = some step then replaceDependsOn s next else s

/-- The members that every object inherits. None of them has a method `filter`. -/
def objectPrototype : List String :=
  ["constructor", "__defineGetter__", "__defineSetter__", "hasOwnProperty", "__lookupGetter__",
    "__lookupSetter__", "isPrototypeOf", "propertyIsEnumerable", "toString", "valueOf",
    "__proto__", "toLocaleString"]

/-- `inferred[step.name]` is an inherited member. -/
def readsInherited (inferred : GoMap String (List String)) (step : DagStep) : Bool :=
  (inferred.lookup step.name).isNone && objectPrototype.contains step.name

/-- `runtime`, unless reading `inferred` throws. -/
def runtime (steps : List (Step Other)) (inferred : GoMap String (List String)) :
    Option (List DagStep) :=
  if (named steps).any (readsInherited inferred) then none
  else some (runtimeSteps (named steps) inferred)

/-- `dependsOnTransitively`. -/
def dependsOnTransitively (steps : List DagStep) (step target : String) : Option Bool :=
  let deps := dependsOnMap steps
  searchLoop (fun name => deps.getD name []) target
    (1 + (deps.entries.map fun entry => entry.2.length).sum) [step] []

/-- What `connect` does: the last `setError`, and `onChange`. -/
structure Connected (Other : Type) where
  error : Option String
  change : Option (List (Step Other))

/-- `connect`, with `none` for a graph that is not drawn. -/
def connect (steps : List (Step Other)) (inferred : GoMap String (List String))
    (step dep : String) : Option (Connected Other) :=
  (runtime steps inferred).map fun runtime =>
    let list := named steps
    match list.find? (·.name = step) with
    | none => ⟨none, none⟩
    | some target =>
        if ¬ list.any (·.name = dep) then ⟨none, none⟩
        else if step = dep then ⟨some (step ++ " cannot depend on itself."), none⟩
        else if dep ∈ target.dependsOn then ⟨some "", none⟩
        else if dependsOnTransitively runtime dep step = some true then
          ⟨some (step ++ " cannot depend on " ++ dep ++ ": " ++ dep ++ " already depends on " ++
            step ++ "."), none⟩
        else ⟨some "", some (withDependsOn steps step (target.dependsOn ++ [dep]))⟩

/-- Connecting two steps emits new steps. -/
def Emits (steps : List (Step Other)) (inferred : GoMap String (List String)) (step dep : String)
    (next : List (Step Other)) : Prop :=
  (connect steps inferred step dep).bind Connected.change = some next

/-- Every step has a name of its own. -/
def DistinctlyNamed (steps : List (Step Other)) : Prop :=
  (∀ step ∈ steps, ∃ name, nameOf step = some name ∧ name ≠ "") ∧ (steps.map nameOf).Nodup

/-- A step waits for one that exists. -/
def WaitsFor (list : List DagStep) (first second : String) : Prop :=
  ∃ step ∈ list, step.name = first ∧ second ∈ step.dependsOn ∧ second ∈ list.map DagStep.name

/-- What the graph shows as edges. -/
def RuntimeEdge (steps : List (Step Other)) (inferred : GoMap String (List String)) :
    String → String → Prop :=
  WaitsFor (runtimeSteps (named steps) inferred)

section Search

variable {list : List DagStep}

/-- The neighbours of a step are the steps that it waits for. -/
theorem leads_iff_waitsFor (distinct : (list.map DagStep.name).Nodup) (first second : String) :
    Leads (fun name => (dependsOnMap list).getD name []) first second ↔
      WaitsFor list first second := by
  rw [Leads]
  constructor
  · intro edge
    by_cases exists_ : first ∈ list.map DagStep.name
    · obtain ⟨step, member, rfl⟩ := List.mem_map.mp exists_
      rw [getD_dependsOnMap distinct member, List.mem_filter, decide_eq_true_iff] at edge
      exact ⟨step, member, rfl, edge.1, edge.2⟩
    · rw [getD_dependsOnMap_of_notMem exists_] at edge
      cases edge
  · rintro ⟨step, member, rfl, waits, target⟩
    rw [getD_dependsOnMap distinct member, List.mem_filter, decide_eq_true_iff]
    exact ⟨waits, target⟩

/-- The search ends on every graph and finds what is reachable. -/
theorem dependsOnTransitively_iff (distinct : (list.map DagStep.name).Nodup)
    (step target : String) :
    ∃ found, dependsOnTransitively list step target = some found ∧
      (found = true ↔ ReflTransGen (WaitsFor list) step target) := by
  have sameEdges : Leads (fun name => (dependsOnMap list).getD name []) = WaitsFor list := by
    funext first second
    exact propext (leads_iff_waitsFor distinct first second)
  have covered : ∀ name, name ∉ (dependsOnMap list).keys →
      (dependsOnMap list).getD name [] = [] := by
    intro name absent
    rw [GoMap.getD, AList.lookup_eq_none.mpr absent]
    rfl
  have enough : 1 + unseenEdges (fun name => (dependsOnMap list).getD name [])
      (dependsOnMap list).keys [] ≤
      1 + ((dependsOnMap list).entries.map fun entry => entry.2.length).sum := by
    refine Nat.add_le_add_left (Nat.le_of_eq ?_) 1
    rw [unseenEdges, AList.keys, List.keys, List.map_map]
    congr 1
    refine List.map_congr_left fun entry member => ?_
    have found : (dependsOnMap list).lookup entry.1 = some entry.2 :=
      GoMap.mem_entries_iff.mp member
    rw [Function.comp, unseenDegree, if_neg List.not_mem_nil, GoMap.getD, found,
      Option.getD_some]
  rw [← sameEdges]
  exact searchLoop_iff covered step enough

end Search

section Steps

variable {steps next : List (Step Other)} {inferred : GoMap String (List String)}
  {step dep first second : String}

/-- The inferred dependencies leave the names. -/
theorem names_runtimeSteps (list : List DagStep) (inferred : GoMap String (List String)) :
    (runtimeSteps list inferred).map DagStep.name = list.map DagStep.name := by
  rw [runtimeSteps, List.map_map]
  rfl

/-- The edges of the graph are the dependencies and the references that exist. -/
theorem waitsFor_runtimeSteps (list : List DagStep) :
    WaitsFor (runtimeSteps list inferred) first second ↔
      second ∈ list.map DagStep.name ∧ ∃ step ∈ list, step.name = first ∧
        (second ∈ step.dependsOn ∨ (second ∈ inferred.getD first [] ∧ second ≠ first)) := by
  rw [WaitsFor, names_runtimeSteps]
  constructor
  · rintro ⟨shown, member, isFirst, waits, target⟩
    obtain ⟨step, isStep, rfl⟩ := List.mem_map.mp member
    refine ⟨target, step, isStep, isFirst, ?_⟩
    rcases List.mem_append.mp waits with explicit | reference
    · exact .inl explicit
    · rw [inferredFor, List.mem_filter, decide_eq_true_iff] at reference
      exact .inr ⟨isFirst ▸ reference.1, isFirst ▸ reference.2.1⟩
  · rintro ⟨target, step, isStep, rfl, waits⟩
    refine ⟨_, List.mem_map_of_mem isStep, rfl, ?_, target⟩
    rw [List.mem_append]
    by_cases explicit : second ∈ step.dependsOn
    · exact .inl explicit
    · obtain ⟨reference, other⟩ := waits.resolve_left explicit
      refine .inr ?_
      rw [inferredFor, List.mem_filter, decide_eq_true_iff]
      exact ⟨reference, other, target, explicit⟩

/-- Another list of dependencies leaves the name. -/
theorem nameOf_replaceDependsOn (s : Step Other) (next : List String) :
    nameOf (replaceDependsOn s next) = nameOf s := by
  have other : "name" ≠ "depends_on" := by decide
  rw [replaceDependsOn, nameOf, nameOf]
  split
  · rw [AList.lookup_erase_ne other]
  · rw [AList.lookup_insert_ne other]

/-- A list of dependencies that is not empty is read back. -/
theorem dependsOnOf_replaceDependsOn (s : Step Other) {next : List String} (some_ : next ≠ []) :
    dependsOnOf (replaceDependsOn s next) = next := by
  rw [replaceDependsOn, if_neg some_, dependsOnOf, AList.lookup_insert, Option.elim_some,
    FieldValue.items, List.filterMap_map]
  exact List.filterMap_some

/-- Replacing `depends_on` replaces the dependencies of the drawn step. -/
theorem named_withDependsOn (steps : List (Step Other)) (step : String) {next : List String}
    (some_ : next ≠ []) :
    named (withDependsOn steps step next) =
      (named steps).map fun s => if s.name = step then ⟨s.name, next⟩ else s := by
  rw [named, withDependsOn, named, List.filterMap_map, List.map_filterMap]
  refine List.filterMap_congr fun s _ => ?_
  dsimp only [Function.comp]
  cases isName : nameOf s with
  | none =>
      rw [if_neg (by simp), isName]
      rfl
  | some name =>
      by_cases same : name = step
      · subst same
        rw [if_pos rfl, nameOf_replaceDependsOn, isName, dependsOnOf_replaceDependsOn s some_]
        by_cases empty : name = "" <;> simp [empty]
      · rw [if_neg fun isStep => same (Option.some_inj.mp isStep), isName]
        by_cases empty : name = "" <;> simp [empty, same]

/-- Every step has the name that is shown. -/
theorem DistinctlyNamed.names_eq (distinct : DistinctlyNamed steps) :
    ((named steps).map DagStep.name).map some = steps.map nameOf := by
  obtain ⟨all, -⟩ := distinct
  induction steps with
  | nil => rfl
  | cons s rest ih =>
      obtain ⟨name, isName, nonempty⟩ := all s List.mem_cons_self
      have later := ih fun other member => all other (List.mem_cons_of_mem s member)
      rw [named, List.filterMap_cons_some (by rw [isName, Option.bind_some, if_neg nonempty]),
        List.map_cons, List.map_cons, List.map_cons, isName, ← later]
      rfl

/-- The names that are shown are distinct. -/
theorem DistinctlyNamed.nodup (distinct : DistinctlyNamed steps) :
    ((named steps).map DagStep.name).Nodup := by
  have unique := distinct.2
  rw [← distinct.names_eq] at unique
  exact unique.of_map some

/-- Drawn steps with one name are one step. -/
theorem DistinctlyNamed.eq_of_name (distinct : DistinctlyNamed steps) {one other : DagStep}
    (member : one ∈ named steps) (otherMember : other ∈ named steps)
    (same : one.name = other.name) : one = other :=
  List.inj_on_of_nodup_map distinct.nodup member otherMember same

/-- A drawn step is found under its name. -/
theorem DistinctlyNamed.find?_eq_some_iff (distinct : DistinctlyNamed steps)
    {target : DagStep} :
    (named steps).find? (·.name = step) = some target ↔
      target ∈ named steps ∧ target.name = step := by
  constructor
  · intro found
    have isStep := List.find?_some found
    exact ⟨List.mem_of_find?_eq_some found, by simpa using isStep⟩
  · rintro ⟨member, isStep⟩
    obtain ⟨other, found⟩ : ∃ other, (named steps).find? (·.name = step) = some other := by
      rw [← Option.isSome_iff_exists, List.find?_isSome]
      exact ⟨target, member, decide_eq_true isStep⟩
    have isOther := List.find?_some found
    have same : other.name = target.name := by simpa [isStep] using isOther
    rw [found, distinct.eq_of_name (List.mem_of_find?_eq_some found) member same]

/-- What `connect` checks before it emits. -/
theorem emits_iff_checks (drawn : runtime steps inferred = some
    (runtimeSteps (named steps) inferred)) :
    Emits steps inferred step dep next ↔ ∃ target,
      (named steps).find? (·.name = step) = some target ∧
        dep ∈ (named steps).map DagStep.name ∧ step ≠ dep ∧ dep ∉ target.dependsOn ∧
        dependsOnTransitively (runtimeSteps (named steps) inferred) dep step ≠ some true ∧
        withDependsOn steps step (target.dependsOn ++ [dep]) = next := by
  have listed : ((named steps).any fun s => decide (s.name = dep)) = true ↔
      dep ∈ (named steps).map DagStep.name := by
    simp
  rw [Emits, connect, drawn, Option.map_some, Option.bind_some]
  dsimp only
  cases (named steps).find? fun s => decide (s.name = step) with
  | none => simp
  | some target =>
      dsimp only
      by_cases absent : dep ∈ (named steps).map DagStep.name
      · rw [if_neg (not_not.mpr (listed.mpr absent))]
        by_cases same : step = dep
        · simp [same]
        · by_cases explicit : dep ∈ target.dependsOn
          · simp [same, explicit]
          · by_cases closes : dependsOnTransitively (runtimeSteps (named steps) inferred) dep step =
                some true
            · simp [same, explicit, closes]
            · simp [same, explicit, closes, absent]
      · rw [if_pos (mt listed.mp absent)]
        simp [absent]

/-- Without inherited members the graph is drawn. -/
theorem runtime_eq_some (own : ∀ s ∈ named steps, readsInherited inferred s = false) :
    runtime steps inferred = some (runtimeSteps (named steps) inferred) := by
  rw [runtime, if_neg]
  rw [List.any_eq_true]
  rintro ⟨s, member, inherited⟩
  rw [own s member] at inherited
  cases inherited

/-- One step after another one was connected to it: the strings of its `depends_on` and one
more. -/
def AppendsDependency (step dep : String) (before after : Step Other) : Prop :=
  (nameOf before ≠ some step → after = before) ∧
    (nameOf before = some step →
      after.lookup "depends_on" =
          some (.array ((dependsOnOf before ++ [dep]).map .string)) ∧
        ∀ field, field ≠ "depends_on" → after.lookup field = before.lookup field)

/-- Only the step itself changes. -/
theorem appendsDependency_withDependsOn (distinct : DistinctlyNamed steps) {target : DagStep}
    (member : target ∈ named steps) (isStep : target.name = step) :
    List.Forall₂ (AppendsDependency step dep) steps
      (withDependsOn steps step (target.dependsOn ++ [dep])) := by
  rw [withDependsOn, List.forall₂_map_right_iff, List.forall₂_same]
  intro s isMember
  refine ⟨fun other => if_neg other, fun isNamed => ?_⟩
  have nonempty : target.dependsOn ++ [dep] ≠ [] := by simp
  have drawn : (⟨step, dependsOnOf s⟩ : DagStep) ∈ named steps := by
    obtain ⟨name, isName, notEmpty⟩ := distinct.1 s isMember
    cases isName.symm.trans isNamed
    rw [named, List.mem_filterMap]
    exact ⟨s, isMember, by rw [isName, Option.bind_some, if_neg notEmpty]⟩
  have same : target.dependsOn = dependsOnOf s :=
    congrArg DagStep.dependsOn (distinct.eq_of_name member drawn isStep)
  rw [if_pos isNamed, same, replaceDependsOn, if_neg (same ▸ nonempty)]
  exact ⟨AList.lookup_insert _, fun field other => AList.lookup_insert_ne other⟩

/-- The edges of the new graph are the old ones and the one that was drawn. -/
theorem runtimeEdge_withDependsOn (distinct : DistinctlyNamed steps) {target : DagStep}
    (member : target ∈ named steps) (isStep : target.name = step)
    (exists_ : dep ∈ (named steps).map DagStep.name) (first second : String) :
    RuntimeEdge (withDependsOn steps step (target.dependsOn ++ [dep])) inferred first second ↔
      WithEdge (RuntimeEdge steps inferred) step dep first second := by
  have nonempty : target.dependsOn ++ [dep] ≠ [] := by simp
  have names : (named (withDependsOn steps step (target.dependsOn ++ [dep]))).map DagStep.name =
      (named steps).map DagStep.name := by
    rw [named_withDependsOn steps step nonempty, List.map_map]
    refine List.map_congr_left fun s _ => ?_
    dsimp only [Function.comp]
    split <;> rfl
  rw [WithEdge, RuntimeEdge, RuntimeEdge, waitsFor_runtimeSteps, waitsFor_runtimeSteps, names,
    named_withDependsOn steps step nonempty]
  constructor
  · rintro ⟨known, changed, isChanged, isFirst, waits⟩
    obtain ⟨s, isDrawn, rfl⟩ := List.mem_map.mp isChanged
    by_cases same : s.name = step
    · rw [if_pos same] at isFirst waits
      obtain rfl := distinct.eq_of_name isDrawn member (same.trans isStep.symm)
      rw [List.mem_append, List.mem_singleton] at waits
      rcases waits with (explicit | added) | reference
      · exact .inl ⟨known, s, isDrawn, isFirst, .inl explicit⟩
      · exact .inr ⟨isFirst.symm.trans same, added⟩
      · exact .inl ⟨known, s, isDrawn, isFirst, .inr reference⟩
    · rw [if_neg same] at isFirst waits
      exact .inl ⟨known, s, isDrawn, isFirst, waits⟩
  · rintro (⟨known, s, isDrawn, isFirst, waits⟩ | ⟨rfl, rfl⟩)
    · refine ⟨known, _, List.mem_map_of_mem isDrawn, ?_, ?_⟩
      · split <;> exact isFirst
      · by_cases same : s.name = step
        · obtain rfl := distinct.eq_of_name isDrawn member (same.trans isStep.symm)
          rw [if_pos same]
          exact waits.imp_left (List.mem_append_left _)
        · rw [if_neg same]
          exact waits
    · refine ⟨exists_, _, List.mem_map_of_mem member, ?_, ?_⟩
      · rw [if_pos isStep]
        exact isStep
      · rw [if_pos isStep]
        exact .inl (List.mem_append_right _ List.mem_cons_self)

end Steps

/-- Connecting steps of a draft adds exactly the edges that close no cycle. -/
structure ConnectsSafely (steps : List (Step Other)) (inferred : GoMap String (List String)) :
    Prop where
  emits : ∀ step dep, (∃ next, Emits steps inferred step dep next) ↔
    ∃ target ∈ named steps, target.name = step ∧ dep ∈ (named steps).map DagStep.name ∧
      step ≠ dep ∧ dep ∉ target.dependsOn ∧
      Acyclic (WithEdge (RuntimeEdge steps inferred) step dep)
  emitted : ∀ step dep next, Emits steps inferred step dep next →
    List.Forall₂ (AppendsDependency step dep) steps next
  edges : ∀ step dep next, Emits steps inferred step dep next → ∀ first second,
    RuntimeEdge next inferred first second ↔
      WithEdge (RuntimeEdge steps inferred) step dep first second

/-- For steps with names of their own and an acyclic graph, `connect` emits exactly if the new
edge closes no cycle, and emits only that edge. The search behind it decides reachability on
every graph. -/
theorem connect_connectsSafely {steps : List (Step Other)} {inferred : GoMap String (List String)}
    (distinct : DistinctlyNamed steps)
    (own : ∀ s ∈ named steps, readsInherited inferred s = false)
    (acyclic : Acyclic (RuntimeEdge steps inferred)) :
    ConnectsSafely steps inferred ∧
      ∀ (list : List DagStep), (list.map DagStep.name).Nodup → ∀ a b,
        ∃ found, dependsOnTransitively list a b = some found ∧
          (found = true ↔ ReflTransGen (WaitsFor list) a b) := by
  have drawn := runtime_eq_some own
  have runtimeNodup : ((runtimeSteps (named steps) inferred).map DagStep.name).Nodup := by
    rw [names_runtimeSteps]
    exact distinct.nodup
  refine ⟨⟨?_, ?_, ?_⟩, fun list unique a b => dependsOnTransitively_iff unique a b⟩
  · intro step dep
    obtain ⟨closes, isResult, closes_iff⟩ := dependsOnTransitively_iff runtimeNodup dep step
    have stays : Acyclic (WithEdge (RuntimeEdge steps inferred) step dep) ↔
        dependsOnTransitively (runtimeSteps (named steps) inferred) dep step ≠ some true := by
      rw [acyclic_withEdge_iff acyclic, isResult, ne_eq, Option.some_inj, closes_iff]
      rfl
    rw [stays]
    constructor
    · rintro ⟨next, emits⟩
      obtain ⟨target, found, listed, other, fresh, open_, -⟩ := (emits_iff_checks drawn).mp emits
      obtain ⟨member, isStep⟩ := distinct.find?_eq_some_iff.mp found
      exact ⟨target, member, isStep, listed, other, fresh, open_⟩
    · rintro ⟨target, member, isStep, listed, other, fresh, open_⟩
      exact ⟨_, (emits_iff_checks drawn).mpr ⟨target,
        distinct.find?_eq_some_iff.mpr ⟨member, isStep⟩, listed, other, fresh, open_, rfl⟩⟩
  · intro step dep next emits
    obtain ⟨target, found, -, -, -, -, rfl⟩ := (emits_iff_checks drawn).mp emits
    obtain ⟨member, isStep⟩ := distinct.find?_eq_some_iff.mp found
    exact appendsDependency_withDependsOn distinct member isStep
  · intro step dep next emits first second
    obtain ⟨target, found, listed, -, -, -, rfl⟩ := (emits_iff_checks drawn).mp emits
    obtain ⟨member, isStep⟩ := distinct.find?_eq_some_iff.mp found
    exact runtimeEdge_withDependsOn distinct member isStep listed first second

section Drafts

/-- One step after another one was connected to it, if `depends_on` keeps all of its entries. -/
def AppendsOnly (step dep : String) (before after : Step Other) : Prop :=
  nameOf before = some step →
    after.lookup "depends_on" = some (.array
      ((before.lookup "depends_on").elim [] FieldValue.items ++ [.string dep]))

def plainStep (name : String) : Step Int := AList.singleton "name" (.string name)

/-- A step that waits for `a` and for a number. -/
def mixedStep : Step Int :=
  (plainStep "b").insert "depends_on" (.array [.string "a", .other 5])

/-- A draft with that step. -/
def mixedSteps : List (Step Int) := [plainStep "a", mixedStep, plainStep "c"]

theorem mixedSteps_distinct : DistinctlyNamed mixedSteps := by
  refine ⟨?_, by decide⟩
  intro step member
  rcases List.mem_cons.mp member with rfl | member
  · exact ⟨"a", rfl, by decide⟩
  · rcases List.mem_cons.mp member with rfl | member
    · exact ⟨"b", rfl, by decide⟩
    · cases List.mem_singleton.mp member
      exact ⟨"c", rfl, by decide⟩

theorem mixedSteps_edge {first second : String} (edge : RuntimeEdge mixedSteps ∅ first second) :
    first = "b" ∧ second = "a" := by
  obtain ⟨known, step, member, isFirst, waits⟩ := (waitsFor_runtimeSteps _).mp edge
  have drawn : named mixedSteps = [⟨"a", []⟩, ⟨"b", ["a"]⟩, ⟨"c", []⟩] := rfl
  have noReference : (∅ : GoMap String (List String)).getD first [] = [] := rfl
  rw [noReference] at waits
  have explicit := waits.resolve_right fun reference => List.not_mem_nil reference.1
  rw [drawn, List.mem_cons, List.mem_cons, List.mem_singleton] at member
  rcases member with rfl | rfl | rfl
  · cases explicit
  · exact ⟨isFirst.symm, List.mem_singleton.mp explicit⟩
  · cases explicit

theorem mixedSteps_acyclic : Acyclic (RuntimeEdge mixedSteps ∅) := by
  intro name cycle
  obtain ⟨middle, edge, -⟩ := TransGen.head'_iff.mp cycle
  obtain ⟨last, -, edge'⟩ := TransGen.tail'_iff.mp cycle
  exact absurd ((mixedSteps_edge edge).1.symm.trans (mixedSteps_edge edge').2) (by decide)

/-- The number is dropped when the step is connected to another one. -/
theorem connect_drops_number :
    DistinctlyNamed mixedSteps ∧ Acyclic (RuntimeEdge mixedSteps ∅) ∧
      ∃ next, Emits mixedSteps ∅ "b" "c" next ∧
        ¬ List.Forall₂ (AppendsOnly "b" "c") mixedSteps next := by
  refine ⟨mixedSteps_distinct, mixedSteps_acyclic, _, rfl, ?_⟩
  intro appends
  obtain ⟨-, others⟩ := List.forall₂_cons.mp appends
  obtain ⟨second, -⟩ := List.forall₂_cons.mp others
  have lists : some (FieldValue.array [.string "a", .string "c"]) =
      some (.array [.string "a", .other (5 : Int), .string "c"]) := second rfl
  simp at lists

/-- The three steps without inferred references. -/
theorem connect_connectsSafely_mixedSteps : ConnectsSafely mixedSteps ∅ :=
  (connect_connectsSafely mixedSteps_distinct (by decide) mixedSteps_acyclic).1

end Drafts

end Restitch.Studio.Editor
