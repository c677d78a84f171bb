import Restitch.Std.Segments
import Restitch.Studio.StepEditor

/-!
# The waves of a draft (`step-graph.tsx`, `internal/studio/draft.go`)

The graph reads the steps of a draft as they are and leaves out what is no string. The server
and the gateway read them through YAML, where a number in a field of texts is a text. Without
such values both read the same names and dependencies, and show and run the same waves.
-/

namespace Restitch.Studio

open Restitch.Composition Restitch.Std

variable {Other : Type}

/-! ### A draft through YAML -/

/-- What `strictDecode` makes of the values that are neither strings nor arrays, and of the
fields of a step other than its name and its dependencies. -/
structure YamlDecoder (Other : Type) where
  /-- In a field of texts: a text, nothing for a null, or an error. -/
  scalar : Other → Option (Option String)
  fields : Editor.Step Other → Option Step

namespace YamlDecoder

variable (decoder : YamlDecoder Other)

/-- A value where a `string` is expected. -/
def text : Editor.FieldValue Other → Option (Option String)
  | .string text => some (some text)
  | .array _ => none
  | .other value => decoder.scalar value

/-- A field of type `string`. -/
def textField : Option (Editor.FieldValue Other) → Option String
  | none => some ""
  | some value => (decoder.text value).map (·.getD "")

/-- A field of type `[]string`. Nulls are no entries. -/
def listField : Option (Editor.FieldValue Other) → Option (List String)
  | none => some []
  | some (.array items) => (items.mapM decoder.text).map (·.filterMap id)
  | some (.string _) => none
  | some (.other value) => if decoder.scalar value = some none then some [] else none

/-- The step that a draft of one is decoded to. -/
def step (draft : Editor.Step Other) : Option Step := do
  let name ← decoder.textField (draft.lookup "name")
  let dependsOn ← decoder.listField (draft.lookup "depends_on")
  let step ← decoder.fields draft
  return { step with name := name, dependsOn := dependsOn }

def steps (drafts : List (Editor.Step Other)) : Option (List Step) := drafts.mapM decoder.step

/-- A value that is no string and is read as a text. -/
def ReadAsText (value : Editor.FieldValue Other) : Prop :=
  ∃ other text, value = .other other ∧ decoder.scalar other = some (some text)

/-- Only strings are read as the name and the dependencies of a step. -/
structure OnlyStrings (draft : Editor.Step Other) : Prop where
  name : ∀ value, draft.lookup "name" = some value → ¬ decoder.ReadAsText value
  dependsOn : ∀ items, draft.lookup "depends_on" = some (.array items) →
    ∀ value ∈ items, ¬ decoder.ReadAsText value

end YamlDecoder

/-- The waves that the graph shows for a draft and a report of the server. -/
def shownWaves (drafts : List (Editor.Step Other)) (report : GoMap String StepDeps) :
    Option (List (List String)) :=
  (Editor.runtime drafts (report.mapValues StepDeps.inferred)).bind computeWaves

/-! ### What both sides read -/

section Decoded

variable {decoder : YamlDecoder Other}

/-- A text that YAML reads out of a string is that string. -/
theorem YamlDecoder.text_eq {value : Editor.FieldValue Other} {text : Option String}
    (decoded : decoder.text value = some text) (isString : ¬ decoder.ReadAsText value) :
    value.string? = text := by
  cases value with
  | string text => exact Option.some_inj.mp decoded
  | array items => cases decoded
  | other value =>
      cases text with
      | none => rfl
      | some text => exact absurd ⟨value, text, rfl, decoded⟩ isString

/-- A name that YAML reads is the one that the graph reads. -/
theorem YamlDecoder.nameOf_eq {draft : Editor.Step Other} {name : String}
    (decoded : decoder.textField (draft.lookup "name") = some name) (nonempty : name ≠ "")
    (only : decoder.OnlyStrings draft) : Editor.nameOf draft = some name := by
  rw [Editor.nameOf]
  cases found : draft.lookup "name" with
  | none =>
      rw [found] at decoded
      exact absurd (Option.some_inj.mp decoded).symm nonempty
  | some value =>
      rw [found] at decoded
      obtain ⟨text, isText, rfl⟩ := Option.map_eq_some_iff.mp decoded
      rw [Option.bind_some, decoder.text_eq isText (only.name value found)]
      cases text with
      | none => exact absurd rfl nonempty
      | some text => rfl

/-- Dependencies that YAML reads are those that the graph reads. -/
theorem YamlDecoder.dependsOnOf_eq {draft : Editor.Step Other} {dependsOn : List String}
    (decoded : decoder.listField (draft.lookup "depends_on") = some dependsOn)
    (only : decoder.OnlyStrings draft) : Editor.dependsOnOf draft = dependsOn := by
  rw [Editor.dependsOnOf]
  cases found : draft.lookup "depends_on" with
  | none =>
      rw [found] at decoded
      exact Option.some_inj.mp decoded
  | some value =>
      rw [found] at decoded
      cases value with
      | string text => cases decoded
      | other value => exact Option.some_inj.mp (Option.ite_none_right_eq_some.mp decoded).2
      | array items =>
          obtain ⟨texts, areTexts, rfl⟩ := Option.map_eq_some_iff.mp decoded
          have strings := only.dependsOn items found
          have read := mapM_eq_some_iff.mp areTexts
          rw [Option.elim_some, Editor.FieldValue.items]
          clear found decoded areTexts
          induction read with
          | nil => rfl
          | @cons value text items texts isText _ ih =>
              rw [List.filterMap_cons, List.filterMap_cons, id,
                decoder.text_eq isText (strings value List.mem_cons_self),
                ih fun other member => strings other (List.mem_cons_of_mem value member)]

/-- The graph draws the steps that the gateway reads. -/
theorem named_eq_dagSteps {drafts : List (Editor.Step Other)} {steps : List Step}
    (decoded : decoder.steps drafts = some steps)
    (only : ∀ draft ∈ drafts, decoder.OnlyStrings draft)
    (nonempty : ∀ step ∈ steps, step.name ≠ "") : Editor.named drafts = dagSteps steps := by
  have read := mapM_eq_some_iff.mp decoded
  clear decoded
  induction read with
  | nil => rfl
  | @cons draft step drafts steps isStep _ ih =>
      obtain ⟨name, isName, rest⟩ := Option.bind_eq_some_iff.mp isStep
      obtain ⟨dependsOn, isList, rest⟩ := Option.bind_eq_some_iff.mp rest
      obtain ⟨fields, _, same⟩ := Option.bind_eq_some_iff.mp rest
      cases same
      have notEmpty : name ≠ "" := nonempty _ List.mem_cons_self
      have onlyDraft := only draft List.mem_cons_self
      have later := ih (fun other member => only other (List.mem_cons_of_mem draft member))
        (fun other member => nonempty other (List.mem_cons_of_mem _ member))
      rw [Editor.named] at later ⊢
      rw [List.filterMap_cons, decoder.nameOf_eq isName notEmpty onlyDraft, Option.bind_some,
        if_neg notEmpty, decoder.dependsOnOf_eq isList onlyDraft, later]
      rfl

end Decoded

/-! ### Studio and gateway agree -/

/-- For a draft whose names and dependencies are strings, whose steps have distinct names, and
that the gateway compiles and plans, the graph shows the waves of the plan, whatever order the
planner of the server visits its maps in; and for any list of steps, `computeWaves` ends and
puts every name in exactly one wave. -/
theorem shownWaves_correct (decoder : YamlDecoder Other) (compiler : ExprCompiler) :
    (∀ (drafts : List (Editor.Step Other)) (steps : List Step) (compiled : GoMap String CompiledStep)
        (plan : ExecutionPlan) (order : RangeOrder (Composition.stepDependencies compiled))
        (serverOrder : (deps : StepDependencies) → RangeOrder deps),
      decoder.steps drafts = some steps → (∀ draft ∈ drafts, decoder.OnlyStrings draft) →
      (steps.map Step.name).Nodup → (∀ step ∈ steps, step.name ≠ "") →
      compileSteps compiler (steps.map Step.name) steps = .ok compiled →
      buildDAG (Composition.stepDependencies compiled) order = some (.ok plan) →
      ∃ report waves, stepDependencies compiler steps serverOrder = some (report, none) ∧
        shownWaves drafts report = some waves ∧ List.Forall₂ SameSteps waves plan.waves) ∧
    ∀ steps : List DagStep, ∃ waves, computeWaves steps = some waves ∧
      waves.flatten.Nodup ∧ (∀ name ∈ waves.flatten, name ∈ steps.map DagStep.name) ∧
      ∀ step ∈ steps, ∃! index : Nat, ∃ wave, waves[index]? = some wave ∧ step.name ∈ wave := by
  refine ⟨?_, ?_⟩
  · intro drafts steps compiled plan order serverOrder decoded only distinct nonempty done planned
    have drawn := named_eq_dagSteps decoded only nonempty
    obtain ⟨report, waves, isReport, reported, isWaves, same⟩ :=
      waves_of_planned order serverOrder distinct done planned
    refine ⟨report, waves, isReport, ?_, same⟩
    -- Every step is in the report, so no inherited member is read.
    have own : ∀ s ∈ Editor.named drafts,
        Editor.readsInherited (report.mapValues StepDeps.inferred) s = false := by
      intro s member
      rw [drawn, dagSteps] at member
      obtain ⟨step, isStep, rfl⟩ := List.mem_map.mp member
      obtain ⟨deps, found⟩ := Option.isSome_iff_exists.mp (reported step isStep)
      rw [Editor.readsInherited, GoMap.lookup_mapValues, found]
      rfl
    rw [shownWaves, Editor.runtime_eq_some own, drawn]
    exact isWaves
  · intro steps
    obtain ⟨waves, isWaves, partition⟩ := exists_computeWaves steps
    have once := partition.once
    have all := partition.all
    rw [List.append_nil] at once all
    refine ⟨waves, isWaves, once, fun name => (all name).mp, ?_⟩
    intro step member
    exact existsUnique_wave once ((all step.name).mpr (List.mem_map_of_mem member))

/-- YAML with integers as the other values. -/
def sampleDecoder : YamlDecoder Int where
  scalar value := some (some (toString value))
  fields draft := do
    let path ← (draft.lookup "path").bind Editor.FieldValue.string?
    return ⟨"", "api", path, "GET", ∅, "", [], false, [], none, false⟩

/-- A step with a path and these dependencies. -/
def stepDraft (name path : String) (dependsOn : List (Editor.FieldValue Int)) : Editor.Step Int :=
  AList.insert "name" (.string name) (AList.insert "path" (.string path)
    (AList.insert "depends_on" (.array dependsOn) ∅))

/-- Such a step has its name and its dependencies. -/
theorem onlyStrings_stepDraft {name path : String} {dependsOn : List (Editor.FieldValue Int)}
    (strings : ∀ value ∈ dependsOn, ¬ sampleDecoder.ReadAsText value) :
    sampleDecoder.OnlyStrings (stepDraft name path dependsOn) where
  name value found := by
    rw [stepDraft, AList.lookup_insert] at found
    cases found
    rintro ⟨_, _, same, _⟩
    cases same
  dependsOn items found := by
    have listed : (stepDraft name path dependsOn).lookup "depends_on" =
        some (.array dependsOn) := by
      rw [stepDraft, AList.lookup_insert_ne (by decide), AList.lookup_insert_ne (by decide),
        AList.lookup_insert]
    rw [listed] at found
    cases found
    exact strings

/-- A draft of the composition whose second step reads the first. -/
def overviewDraft : List (Editor.Step Int) :=
  [stepDraft "profile" Composition.profileStep.path [],
    stepDraft "orders" Composition.ordersStep.path []]

/-- The graph of this draft. -/
theorem shownWaves_correct_of_overview :
    ∃ report waves,
      stepDependencies sampleCompiler overviewConfig.steps RangeOrder.listed = some (report, none) ∧
        shownWaves overviewDraft report = some waves ∧
        List.Forall₂ SameSteps waves [["profile"], ["orders"]] := by
  obtain ⟨compiled, planned⟩ := compileComposition_cases compileComposition_overview
  have only : ∀ draft ∈ overviewDraft, sampleDecoder.OnlyStrings draft := by
    intro draft member
    rcases List.mem_pair.mp member with rfl | rfl <;> exact onlyStrings_stepDraft nofun
  exact (shownWaves_correct sampleDecoder sampleCompiler).1 overviewDraft overviewConfig.steps
    overview.steps overview.plan (.listed _) RangeOrder.listed (by rfl) only (by decide) (by decide)
    compiled planned

/-- A draft whose second step names the first by a number. -/
def numberedDraft : List (Editor.Step Int) :=
  [stepDraft "1" "/first" [], stepDraft "b" "/second" [.other 1]]

/-- The steps that the gateway reads in it. -/
def numberedSteps : List Step :=
  [⟨"1", "api", "/first", "GET", ∅, "", [], false, [], none, false⟩,
    ⟨"b", "api", "/second", "GET", ∅, "", ["1"], false, [], none, false⟩]

/-- A step without templates, compiled. -/
def plainCompiled (step : Step) : CompiledStep :=
  ⟨step, ⟨"GET", ⟨step.path, [.literal step.path], [], false⟩, none, none, ∅⟩, step.dependsOn⟩

/-- They compile to these. -/
def numberedCompiled : GoMap String CompiledStep :=
  numberedSteps.foldl (fun compiled step => compiled.insert step.name (plainCompiled step)) ∅

/-- What the server reports of them. -/
def numberedReport : GoMap String StepDeps :=
  AList.insert "b" ⟨["1"], []⟩ (AList.insert "1" ⟨[], []⟩ ∅)

theorem compileStep_numbered : ∀ step ∈ numberedSteps,
    compileStep sampleCompiler ["1", "b"] step = .ok (plainCompiled step) := by
  intro step member
  rcases List.mem_pair.mp member with rfl | rfl <;> rfl

/-- The server reports them without an error. -/
theorem stepDependencies_numbered :
    stepDependencies sampleCompiler numberedSteps RangeOrder.listed =
      some (numberedReport, none) := by
  have first := compileStep_numbered _ List.mem_cons_self
  have second := compileStep_numbered _ (List.mem_cons_of_mem _ List.mem_cons_self)
  have state : numberedSteps.foldl (addStepDeps sampleCompiler (numberedSteps.map Step.name)) {} =
      ⟨numberedReport, numberedCompiled, none⟩ := by
    simp only [numberedSteps, List.map_cons, List.map_nil, List.foldl_cons, List.foldl_nil,
      addStepDeps, first, second]
    rfl
  have planned : ∃ plan, buildDAG (Composition.stepDependencies numberedCompiled) (.listed _) =
      some (.ok plan) := ⟨_, by rfl⟩
  obtain ⟨plan, isPlan⟩ := planned
  rw [stepDependencies, state]
  dsimp only
  rw [isPlan]
  rfl

/-- The gateway runs the second step after the first, the graph shows them in one wave. -/
theorem shownWaves_of_number :
    sampleDecoder.steps numberedDraft = some numberedSteps ∧
      (numberedSteps.map Step.name).Nodup ∧ (∀ step ∈ numberedSteps, step.name ≠ "") ∧
      compileSteps sampleCompiler (numberedSteps.map Step.name) numberedSteps =
        .ok numberedCompiled ∧
      (∃ plan, buildDAG (Composition.stepDependencies numberedCompiled) (.listed _) =
        some (.ok plan) ∧ plan.waves = [["1"], ["b"]]) ∧
      stepDependencies sampleCompiler numberedSteps RangeOrder.listed =
        some (numberedReport, none) ∧
      shownWaves numberedDraft numberedReport = some [["1", "b"]] ∧
      ¬ List.Forall₂ SameSteps [["1", "b"]] [["1"], ["b"]] := by
  have first := compileStep_numbered _ List.mem_cons_self
  have second := compileStep_numbered _ (List.mem_cons_of_mem _ List.mem_cons_self)
  refine ⟨by rfl, by decide, by decide, ?_, ⟨_, by rfl, by rfl⟩, stepDependencies_numbered, by rfl,
    fun same => ?_⟩
  · simp only [compileSteps, numberedSteps, List.map_cons, List.map_nil, List.foldlM_cons, first,
      second]
    rfl
  · cases same.length_eq

end Restitch.Studio
