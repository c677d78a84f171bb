import Restitch.Composition.NilSafeResponse
import Restitch.Std.Results

/-!
# The shape of a response body

A compiled body evaluates to the configured one with a value in the place of each text
that is a template. Only a map with keys other than texts is not looked into.
-/

namespace Restitch.Composition

open Restitch.Std

variable {Double Error : Type}

section Replace

variable (ofText : String → Double) (leaf : String → GoValue Double)

mutual

/-- A YAML value with a value in the place of every text that is a template. -/
def Yaml.replaced : Yaml → GoValue Double
  | .null => .null
  | .bool value => .bool value
  | .int value => .int value
  | .float text => .float (ofText text)
  | .string text => if isExpression text then leaf text else .string text
  | .list items => .list (replacedItems items)
  | .map fields => .map (replacedFields fields)
  | .anyMap fields => .anyMap (replacedEntries fields)

def Yaml.replacedItems : List Yaml → List (GoValue Double)
  | [] => []
  | item :: rest => item.replaced :: replacedItems rest

def Yaml.replacedFields : List (String × Yaml) → List (String × GoValue Double)
  | [] => []
  | (key, value) :: rest => (key, value.replaced) :: replacedFields rest

def Yaml.replacedEntries : List (Yaml × Yaml) → List (Yaml × GoValue Double)
  | [] => []
  | (key, value) :: rest => (key, value.replaced) :: replacedEntries rest

end

end Replace

mutual

/-- No text in a value is a template. -/
def Yaml.plain : Yaml → Bool
  | .null | .bool _ | .int _ | .float _ => true
  | .string text => !isExpression text
  | .list items => plainItems items
  | .map fields => plainFields fields
  | .anyMap fields => plainEntries fields

def Yaml.plainItems : List Yaml → Bool
  | [] => true
  | item :: rest => item.plain && plainItems rest

def Yaml.plainFields : List (String × Yaml) → Bool
  | [] => true
  | (_, value) :: rest => value.plain && plainFields rest

def Yaml.plainEntries : List (Yaml × Yaml) → Bool
  | [] => true
  | (_, value) :: rest => value.plain && plainEntries rest

end

mutual

/-- No text under a map with other keys is a template. -/
def Yaml.reachable : Yaml → Bool
  | .null | .bool _ | .int _ | .float _ | .string _ => true
  | .list items => reachableItems items
  | .map fields => reachableFields fields
  | .anyMap fields => plainEntries fields

def Yaml.reachableItems : List Yaml → Bool
  | [] => true
  | item :: rest => item.reachable && reachableItems rest

def Yaml.reachableFields : List (String × Yaml) → Bool
  | [] => true
  | (_, value) :: rest => value.reachable && reachableFields rest

end

namespace Values

variable {ofText : String → Double} {leaf : String → GoValue Double}

mutual

/-- A value without templates is unchanged. -/
theorem replaced_of_plain : ∀ value : Yaml, value.plain = true →
    value.replaced ofText leaf = .ofYaml ofText value
  | .null, _ | .bool _, _ | .int _, _ | .float _, _ => by
      rw [Yaml.replaced, GoValue.ofYaml]
  | .string text, plain => by
      rw [Yaml.plain, Bool.not_eq_true'] at plain
      rw [Yaml.replaced, GoValue.ofYaml, plain]
      rfl
  | .list items, plain => by
      rw [Yaml.plain] at plain
      rw [Yaml.replaced, GoValue.ofYaml, replacedItems_of_plain items plain]
  | .map fields, plain => by
      rw [Yaml.plain] at plain
      rw [Yaml.replaced, GoValue.ofYaml, replacedFields_of_plain fields plain]
  | .anyMap fields, plain => by
      rw [Yaml.plain] at plain
      rw [Yaml.replaced, GoValue.ofYaml, replacedEntries_of_plain fields plain]

/-- Plain items are kept. -/
theorem replacedItems_of_plain : ∀ items : List Yaml, Yaml.plainItems items = true →
    Yaml.replacedItems ofText leaf items = GoValue.ofYamlItems ofText items
  | [], _ => by rw [Yaml.replacedItems, GoValue.ofYamlItems]
  | item :: rest, plain => by
      rw [Yaml.plainItems, Bool.and_eq_true] at plain
      rw [Yaml.replacedItems, GoValue.ofYamlItems, replaced_of_plain item plain.1,
        replacedItems_of_plain rest plain.2]

/-- Plain fields are kept. -/
theorem replacedFields_of_plain : ∀ fields : List (String × Yaml),
    Yaml.plainFields fields = true →
    Yaml.replacedFields ofText leaf fields = GoValue.ofYamlFields ofText fields
  | [], _ => by rw [Yaml.replacedFields, GoValue.ofYamlFields]
  | (key, value) :: rest, plain => by
      rw [Yaml.plainFields, Bool.and_eq_true] at plain
      rw [Yaml.replacedFields, GoValue.ofYamlFields, replaced_of_plain value plain.1,
        replacedFields_of_plain rest plain.2]

/-- Plain entries are kept. -/
theorem replacedEntries_of_plain : ∀ fields : List (Yaml × Yaml),
    Yaml.plainEntries fields = true →
    Yaml.replacedEntries ofText leaf fields = GoValue.ofYamlEntries ofText fields
  | [], _ => by rw [Yaml.replacedEntries, GoValue.ofYamlEntries]
  | (key, value) :: rest, plain => by
      rw [Yaml.plainEntries, Bool.and_eq_true] at plain
      rw [Yaml.replacedEntries, GoValue.ofYamlEntries, replaced_of_plain value plain.1,
        replacedEntries_of_plain rest plain.2]

end

mutual

/-- A value that is unchanged under another value for every template has none. -/
theorem plain_of_replaced (other : ∀ text, leaf text ≠ .string text) : ∀ value : Yaml,
    value.replaced ofText leaf = .ofYaml ofText value → value.plain = true
  | .null, _ | .bool _, _ | .int _, _ | .float _, _ => by rw [Yaml.plain]
  | .string text, same => by
      rw [Yaml.replaced, GoValue.ofYaml] at same
      rw [Yaml.plain, Bool.not_eq_true']
      cases template : isExpression text with
      | false => rfl
      | true =>
          rw [template] at same
          exact absurd same (other text)
  | .list items, same => by
      rw [Yaml.replaced, GoValue.ofYaml, GoValue.list.injEq] at same
      rw [Yaml.plain, plainItems_of_replaced other items same]
  | .map fields, same => by
      rw [Yaml.replaced, GoValue.ofYaml, GoValue.map.injEq] at same
      rw [Yaml.plain, plainFields_of_replaced other fields same]
  | .anyMap fields, same => by
      rw [Yaml.replaced, GoValue.ofYaml, GoValue.anyMap.injEq] at same
      rw [Yaml.plain, plainEntries_of_replaced other fields same]

/-- Items that are kept are plain. -/
theorem plainItems_of_replaced (other : ∀ text, leaf text ≠ .string text) :
    ∀ items : List Yaml, Yaml.replacedItems ofText leaf items = GoValue.ofYamlItems ofText items →
      Yaml.plainItems items = true
  | [], _ => by rw [Yaml.plainItems]
  | item :: rest, same => by
      rw [Yaml.replacedItems, GoValue.ofYamlItems, List.cons.injEq] at same
      rw [Yaml.plainItems, plain_of_replaced other item same.1,
        plainItems_of_replaced other rest same.2]
      rfl

/-- Fields that are kept are plain. -/
theorem plainFields_of_replaced (other : ∀ text, leaf text ≠ .string text) :
    ∀ fields : List (String × Yaml),
      Yaml.replacedFields ofText leaf fields = GoValue.ofYamlFields ofText fields →
        Yaml.plainFields fields = true
  | [], _ => by rw [Yaml.plainFields]
  | (key, value) :: rest, same => by
      rw [Yaml.replacedFields, GoValue.ofYamlFields, List.cons.injEq, Prod.mk.injEq] at same
      rw [Yaml.plainFields, plain_of_replaced other value same.1.2,
        plainFields_of_replaced other rest same.2]
      rfl

/-- Entries that are kept are plain. -/
theorem plainEntries_of_replaced (other : ∀ text, leaf text ≠ .string text) :
    ∀ fields : List (Yaml × Yaml),
      Yaml.replacedEntries ofText leaf fields = GoValue.ofYamlEntries ofText fields →
        Yaml.plainEntries fields = true
  | [], _ => by rw [Yaml.plainEntries]
  | (key, value) :: rest, same => by
      rw [Yaml.replacedEntries, GoValue.ofYamlEntries, List.cons.injEq, Prod.mk.injEq] at same
      rw [Yaml.plainEntries, plain_of_replaced other value same.1.2,
        plainEntries_of_replaced other rest same.2]
      rfl

end

section Compiled

variable (compiler : ExprCompiler) (stepNames : List String)

/-- The value of the template that a text is compiled to. -/
def textValue (evaluator : ResponseEvaluator Double Error) (text : String) : GoValue Double :=
  match compileTemplate compiler stepNames text with
  | .ok template => leafValue evaluator template
  | .error _ => .null

/-- What `_errors` changes: nothing if no step failed or the body is no map, and no other
entry of the map. -/
def OnlyErrors (isPartial : Prop) (evaluated body : GoValue Double) : Prop :=
  body = evaluated ∨ (isPartial ∧ ∃ fields written, evaluated = .map fields ∧
    body = .map written ∧ ∀ key, key ≠ "_errors" → written.lookup key = fields.lookup key)

/-- The body of a response is the configured one with the values of its templates, and
`BuildResponse` adds the errors only. -/
structure KeepsShape (Double Error : Type) (value : Yaml) (node : BodyNode) : Prop where
  shape : ∀ (evaluator : ResponseEvaluator Double Error) failedSteps at_ result,
    evaluateBodyNode evaluator failedSteps at_ node = .ok result →
      result = value.replaced evaluator.ofText (textValue compiler stepNames evaluator)
  unchanged : value.plain = true →
    ∀ (evaluator : ResponseEvaluator Double Error) failedSteps at_,
      evaluateBodyNode evaluator failedSteps at_ node = .ok (.ofYaml evaluator.ofText value)
  errors : ∀ (evaluator : ResponseEvaluator Double Error) failedSteps status contentType allErrors
    built, buildResponse evaluator failedSteps ⟨status, node, contentType⟩
        (buildErrorsArray allErrors) = .ok built →
      ∃ evaluated, evaluateBodyNode evaluator failedSteps [] node = .ok evaluated ∧
        OnlyErrors (allErrors ≠ []) evaluated built.body

variable {compiler stepNames} {evaluator : ResponseEvaluator Double Error}

/-- A compiled template is that of its text. -/
theorem compileTemplate_of_compileAt {place : TemplateError → CompileError} {raw : String}
    {template : Template} (compiled : compileAt compiler stepNames place raw = .ok template) :
    compileTemplate compiler stepNames raw = .ok template := by
  rw [compileAt] at compiled
  cases compiles : compileTemplate compiler stepNames raw with
  | error error =>
      rw [compiles] at compiled
      cases compiled
  | ok found =>
      rw [compiles] at compiled
      cases compiled
      rfl

mutual

/-- A body without templates out of reach evaluates to its values. -/
theorem bodyValue_of_reachable (at_ : List String) : ∀ (value : Yaml) (node : BodyNode),
    compileBodyNode compiler stepNames at_ value = .ok node → value.reachable = true →
    bodyValue evaluator node =
      value.replaced evaluator.ofText (textValue compiler stepNames evaluator)
  | .null, node, compiled, _ | .bool _, node, compiled, _ | .int _, node, compiled, _
  | .float _, node, compiled, _ => by
      rw [compileBodyNode] at compiled
      cases compiled
      rw [bodyValue, Yaml.replaced, GoValue.ofYaml]
      all_goals nofun
  | .string text, node, compiled, _ => by
      rw [compileBodyNode] at compiled
      rw [Yaml.replaced]
      split at compiled
      · rename_i isTemplate
        obtain ⟨template, compiles, rfl⟩ := Except.map_eq_ok compiled
        rw [if_pos isTemplate, textValue, compileTemplate_of_compileAt compiles, bodyValue]
      · rename_i isText
        cases compiled
        rw [if_neg isText, bodyValue, GoValue.ofYaml]
  | .list items, node, compiled, reachable => by
      rw [compileBodyNode] at compiled
      obtain ⟨nodes, compiles, rfl⟩ := Except.map_eq_ok compiled
      rw [Yaml.reachable] at reachable
      rw [bodyValue, Yaml.replaced, itemValues_of_reachable at_ 0 items nodes compiles reachable]
  | .map fields, node, compiled, reachable => by
      rw [compileBodyNode] at compiled
      obtain ⟨nodes, compiles, rfl⟩ := Except.map_eq_ok compiled
      rw [Yaml.reachable] at reachable
      rw [bodyValue, Yaml.replaced, fieldValues_of_reachable at_ fields nodes compiles reachable]
  | .anyMap fields, node, compiled, reachable => by
      rw [compileBodyNode] at compiled
      · cases compiled
        rw [bodyValue, replaced_of_plain (.anyMap fields)]
        exact reachable
      all_goals nofun

/-- Items whose templates are reachable have the values of these. -/
theorem itemValues_of_reachable (at_ : List String) (index : Nat) :
    ∀ (items : List Yaml) (nodes : List BodyNode),
    compileItems compiler stepNames at_ index items = .ok nodes →
    Yaml.reachableItems items = true →
    itemValues evaluator nodes =
      Yaml.replacedItems evaluator.ofText (textValue compiler stepNames evaluator) items
  | [], nodes, compiled, _ => by
      rw [compileItems] at compiled
      cases compiled
      rw [itemValues, Yaml.replacedItems]
  | item :: rest, nodes, compiled, reachable => by
      rw [compileItems] at compiled
      obtain ⟨node, compiles, compiled⟩ := Except.bind_eq_ok compiled
      obtain ⟨later, compilesRest, compiled⟩ := Except.bind_eq_ok compiled
      cases compiled
      rw [Yaml.reachableItems, Bool.and_eq_true] at reachable
      rw [itemValues, Yaml.replacedItems, bodyValue_of_reachable _ item node compiles reachable.1,
        itemValues_of_reachable at_ (index + 1) rest later compilesRest reachable.2]

/-- Fields whose templates are reachable have the values of these. -/
theorem fieldValues_of_reachable (at_ : List String) :
    ∀ (fields : List (String × Yaml)) (nodes : List (String × BodyNode)),
    compileFields compiler stepNames at_ fields = .ok nodes →
    Yaml.reachableFields fields = true →
    fieldValues evaluator nodes =
      Yaml.replacedFields evaluator.ofText (textValue compiler stepNames evaluator) fields
  | [], nodes, compiled, _ => by
      rw [compileFields] at compiled
      cases compiled
      rw [fieldValues, Yaml.replacedFields]
  | (key, value) :: rest, nodes, compiled, reachable => by
      rw [compileFields] at compiled
      obtain ⟨node, compiles, compiled⟩ := Except.bind_eq_ok compiled
      obtain ⟨later, compilesRest, compiled⟩ := Except.bind_eq_ok compiled
      cases compiled
      rw [Yaml.reachableFields, Bool.and_eq_true] at reachable
      rw [fieldValues, Yaml.replacedFields,
        bodyValue_of_reachable _ value node compiles reachable.1,
        fieldValues_of_reachable at_ rest later compilesRest reachable.2]

end

mutual

/-- A body whose value has no text of a template left has no template out of reach. -/
theorem reachable_of_bodyValue (at_ : List String)
    (other : ∀ text, textValue compiler stepNames evaluator text ≠ .string text) :
    ∀ (value : Yaml) (node : BodyNode),
    compileBodyNode compiler stepNames at_ value = .ok node →
    bodyValue evaluator node =
      value.replaced evaluator.ofText (textValue compiler stepNames evaluator) →
    value.reachable = true
  | .null, _, _, _ | .bool _, _, _, _ | .int _, _, _, _ | .float _, _, _, _
  | .string _, _, _, _ => by rw [Yaml.reachable]
  | .list items, node, compiled, same => by
      rw [compileBodyNode] at compiled
      obtain ⟨nodes, compiles, rfl⟩ := Except.map_eq_ok compiled
      rw [bodyValue, Yaml.replaced, GoValue.list.injEq] at same
      rw [Yaml.reachable]
      exact reachableItems_of_itemValues at_ 0 other items nodes compiles same
  | .map fields, node, compiled, same => by
      rw [compileBodyNode] at compiled
      obtain ⟨nodes, compiles, rfl⟩ := Except.map_eq_ok compiled
      rw [bodyValue, Yaml.replaced, GoValue.map.injEq] at same
      rw [Yaml.reachable]
      exact reachableFields_of_fieldValues at_ other fields nodes compiles same
  | .anyMap fields, node, compiled, same => by
      rw [compileBodyNode] at compiled
      · cases compiled
        rw [bodyValue] at same
        exact plain_of_replaced other (.anyMap fields) same.symm
      all_goals nofun

/-- Items with the values of all their templates have reachable ones only. -/
theorem reachableItems_of_itemValues (at_ : List String) (index : Nat)
    (other : ∀ text, textValue compiler stepNames evaluator text ≠ .string text) :
    ∀ (items : List Yaml) (nodes : List BodyNode),
    compileItems compiler stepNames at_ index items = .ok nodes →
    itemValues evaluator nodes =
      Yaml.replacedItems evaluator.ofText (textValue compiler stepNames evaluator) items →
    Yaml.reachableItems items = true
  | [], _, _, _ => by rw [Yaml.reachableItems]
  | item :: rest, nodes, compiled, same => by
      rw [compileItems] at compiled
      obtain ⟨node, compiles, compiled⟩ := Except.bind_eq_ok compiled
      obtain ⟨later, compilesRest, compiled⟩ := Except.bind_eq_ok compiled
      cases compiled
      rw [itemValues, Yaml.replacedItems, List.cons.injEq] at same
      rw [Yaml.reachableItems, reachable_of_bodyValue _ other item node compiles same.1,
        reachableItems_of_itemValues at_ (index + 1) other rest later compilesRest same.2]
      rfl

/-- Fields with the values of all their templates have reachable ones only. -/
theorem reachableFields_of_fieldValues (at_ : List String)
    (other : ∀ text, textValue compiler stepNames evaluator text ≠ .string text) :
    ∀ (fields : List (String × Yaml)) (nodes : List (String × BodyNode)),
    compileFields compiler stepNames at_ fields = .ok nodes →
    fieldValues evaluator nodes =
      Yaml.replacedFields evaluator.ofText (textValue compiler stepNames evaluator) fields →
    Yaml.reachableFields fields = true
  | [], _, _, _ => by rw [Yaml.reachableFields]
  | (key, value) :: rest, nodes, compiled, same => by
      rw [compileFields] at compiled
      obtain ⟨node, compiles, compiled⟩ := Except.bind_eq_ok compiled
      obtain ⟨later, compilesRest, compiled⟩ := Except.bind_eq_ok compiled
      cases compiled
      rw [fieldValues, Yaml.replacedFields, List.cons.injEq, Prod.mk.injEq] at same
      rw [Yaml.reachableFields, reachable_of_bodyValue _ other value node compiles same.1.2,
        reachableFields_of_fieldValues at_ other rest later compilesRest same.2]
      rfl

end

mutual

/-- A value without templates is compiled to no templates. -/
theorem templates_of_plain (at_ : List String) : ∀ (value : Yaml) (node : BodyNode),
    compileBodyNode compiler stepNames at_ value = .ok node → value.plain = true →
    node.templates = []
  | .null, node, compiled, _ | .bool _, node, compiled, _ | .int _, node, compiled, _
  | .float _, node, compiled, _ | .anyMap _, node, compiled, _ => by
      rw [compileBodyNode] at compiled
      cases compiled
      rw [BodyNode.templates]
      all_goals nofun
  | .string text, node, compiled, plain => by
      rw [Yaml.plain, Bool.not_eq_true'] at plain
      rw [compileBodyNode, plain] at compiled
      cases compiled
      rw [BodyNode.templates]
  | .list items, node, compiled, plain => by
      rw [compileBodyNode] at compiled
      obtain ⟨nodes, compiles, rfl⟩ := Except.map_eq_ok compiled
      rw [Yaml.plain] at plain
      rw [BodyNode.templates, itemTemplates_of_plain at_ 0 items nodes compiles plain]
  | .map fields, node, compiled, plain => by
      rw [compileBodyNode] at compiled
      obtain ⟨nodes, compiles, rfl⟩ := Except.map_eq_ok compiled
      rw [Yaml.plain] at plain
      rw [BodyNode.templates, fieldTemplates_of_plain at_ fields nodes compiles plain]

/-- Plain items have no template. -/
theorem itemTemplates_of_plain (at_ : List String) (index : Nat) :
    ∀ (items : List Yaml) (nodes : List BodyNode),
    compileItems compiler stepNames at_ index items = .ok nodes → Yaml.plainItems items = true →
    BodyNode.itemTemplates nodes = []
  | [], nodes, compiled, _ => by
      rw [compileItems] at compiled
      cases compiled
      rw [BodyNode.itemTemplates]
  | item :: rest, nodes, compiled, plain => by
      rw [compileItems] at compiled
      obtain ⟨node, compiles, compiled⟩ := Except.bind_eq_ok compiled
      obtain ⟨later, compilesRest, compiled⟩ := Except.bind_eq_ok compiled
      cases compiled
      rw [Yaml.plainItems, Bool.and_eq_true] at plain
      rw [BodyNode.itemTemplates, templates_of_plain _ item node compiles plain.1,
        itemTemplates_of_plain at_ (index + 1) rest later compilesRest plain.2]
      rfl

/-- Plain fields have no template. -/
theorem fieldTemplates_of_plain (at_ : List String) :
    ∀ (fields : List (String × Yaml)) (nodes : List (String × BodyNode)),
    compileFields compiler stepNames at_ fields = .ok nodes → Yaml.plainFields fields = true →
    BodyNode.fieldTemplates nodes = []
  | [], nodes, compiled, _ => by
      rw [compileFields] at compiled
      cases compiled
      rw [BodyNode.fieldTemplates]
  | (key, value) :: rest, nodes, compiled, plain => by
      rw [compileFields] at compiled
      obtain ⟨node, compiles, compiled⟩ := Except.bind_eq_ok compiled
      obtain ⟨later, compilesRest, compiled⟩ := Except.bind_eq_ok compiled
      cases compiled
      rw [Yaml.plainFields, Bool.and_eq_true] at plain
      rw [BodyNode.fieldTemplates, templates_of_plain _ value node compiles plain.1,
        fieldTemplates_of_plain at_ rest later compilesRest plain.2]
      rfl

end

/-- Writing one entry of a map leaves the others. -/
theorem lookup_setField (fields : List (String × GoValue Double)) (value : GoValue Double)
    {key written : String} (other : key ≠ written) :
    (setField fields written value).lookup key = fields.lookup key := by
  induction fields with
  | nil =>
      rw [setField, List.lookup_cons, beq_false_of_ne other]
  | cons entry rest ih =>
      obtain ⟨name, old⟩ := entry
      rw [setField]
      split
      · rename_i same
        rw [List.lookup_cons, List.lookup_cons, same, beq_false_of_ne other]
      · rw [List.lookup_cons, List.lookup_cons, ih]

/-- Writing the errors changes the errors only. -/
theorem writeErrors_only (allErrors : List StepError) (body : GoValue Double) :
    OnlyErrors (allErrors ≠ []) body (writeErrors (buildErrorsArray allErrors) body) := by
  unfold writeErrors
  split
  · exact .inl rfl
  · rename_i some_
    have isPartial : allErrors ≠ [] := by
      rintro rfl
      exact some_ rfl
    cases body with
    | map fields =>
        exact .inr ⟨isPartial, fields, _, rfl, rfl, fun key other => lookup_setField fields _ other⟩
    | null | bool | int | float | string | list | anyMap | stepErrors | other => exact .inl rfl

/-- Every template evaluates to nil. -/
def nilEvaluator [Inhabited Double] : ResponseEvaluator Double Error where
  evalValue _ := .ok .null
  truncate _ := 0
  ofText _ := default

/-- An expression that is nil is not its own text. -/
theorem textValue_nilEvaluator [Inhabited Double] (text : String) :
    textValue compiler stepNames (nilEvaluator : ResponseEvaluator Double Error) text ≠
      .string text := by
  rw [textValue]
  cases compileTemplate compiler stepNames text with
  | ok template =>
      intro same
      cases same
  | error error =>
      intro same
      cases same

/-- A body that evaluates has the values of its leaves. -/
theorem eq_bodyValue {failedSteps at_ : List String} {node : BodyNode} {result : GoValue Double}
    (evaluated : evaluateBodyNode evaluator failedSteps at_ node = .ok result) :
    result = bodyValue evaluator node := by
  have values := evaluateBodyNode_of_excused at_ node
    (excused_of_evaluateBodyNode at_ node result evaluated)
  rw [evaluated] at values
  exact Except.ok.inj values

/-- A response is the evaluated body, with the errors. -/
theorem body_of_buildResponse {failedSteps : List String} {status : StatusSource}
    {node : BodyNode} {contentType : String} {allErrors : List StepError}
    {built : Response Double}
    (builds : buildResponse evaluator failedSteps ⟨status, node, contentType⟩
      (buildErrorsArray allErrors) = .ok built) :
    ∃ evaluated, evaluateBodyNode evaluator failedSteps [] node = .ok evaluated ∧
      OnlyErrors (allErrors ≠ []) evaluated built.body := by
  rw [buildResponse] at builds
  split at builds
  · cases builds
  · split at builds
    · cases builds
    · rename_i body evaluated
      cases builds
      exact ⟨body, evaluated, writeErrors_only allErrors body⟩

/-- A body evaluates to the configured one with the values of its templates, at whatever
place they are, exactly if none stands under a map with other keys than texts. -/
theorem keepsShape_iff [Inhabited Double] (Error : Type) (compiler : ExprCompiler)
    (stepNames : List String) (value : Yaml) (node : BodyNode)
    (compiled : compileBodyNode compiler stepNames [] value = .ok node) :
    KeepsShape compiler stepNames Double Error value node ↔ value.reachable = true := by
  constructor
  · intro keeps
    have excused : ∀ template ∈ node.templates,
        Excused (nilEvaluator : ResponseEvaluator Double Error) [] template := by
      rintro template _ ⟨error, errs⟩
      cases errs
    have values := keeps.shape nilEvaluator [] [] _ (evaluateBodyNode_of_excused [] node excused)
    refine reachable_of_bodyValue [] ?_ value node compiled values
    exact textValue_nilEvaluator
  · intro reachable
    refine ⟨?_, ?_, fun _ _ _ _ _ _ => body_of_buildResponse⟩
    · intro evaluator failedSteps at_ result evaluated
      rw [eq_bodyValue evaluated, bodyValue_of_reachable [] value node compiled reachable]
    · intro plain evaluator failedSteps at_
      have excused : ∀ template ∈ node.templates, Excused evaluator failedSteps template := by
        rw [templates_of_plain [] value node compiled plain]
        intro template member
        cases member
      rw [evaluateBodyNode_of_excused at_ node excused,
        bodyValue_of_reachable [] value node compiled reachable, replaced_of_plain value plain]

end Compiled

/-- The parser on one expression. -/
def bodyCompiler : ExprCompiler where
  parse text :=
    if text = "steps.user.body" then .ok
      (.member (.member (.identifier "steps") (.string "user") false) (.string "body") false)
    else .error "unexpected token"
  check _ _ := none
  optimize := id
  isBuiltin _ := false

/-- A template under a text key, and the same template under a number. -/
def textKeyBody : Yaml := .map [("user", .string "\x7b\x7b steps.user.body \x7d\x7d")]

def numberKeyBody : Yaml := .anyMap [(.int 1, .string "\x7b\x7b steps.user.body \x7d\x7d")]

/-- The sample keeps its shape exactly if its templates are reachable. -/
theorem keepsShape_textKey :
    ∃ node, compileBodyNode bodyCompiler ["user"] [] textKeyBody = .ok node ∧
      (KeepsShape bodyCompiler ["user"] Int String textKeyBody node ↔
        textKeyBody.reachable = true) :=
  ⟨_, rfl, keepsShape_iff String bodyCompiler ["user"] textKeyBody _ rfl⟩

/-- The template under the number is sent as it is written. -/
theorem not_keepsShape_numberKey :
    compileBodyNode bodyCompiler ["user"] [] numberKeyBody = .ok (.literal numberKeyBody) ∧
      ¬ KeepsShape bodyCompiler ["user"] Int String numberKeyBody (.literal numberKeyBody) := by
  refine ⟨by rw [numberKeyBody, compileBodyNode] <;> nofun, fun keeps => ?_⟩
  have same := keeps.shape nilEvaluator [] [] _ (by rw [evaluateBodyNode])
  have plain := plain_of_replaced textValue_nilEvaluator numberKeyBody same.symm
  exact absurd plain (by decide +kernel)

end Values

end Restitch.Composition
