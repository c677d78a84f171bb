import Restitch.Composition.ResponseValues

/-!
# Failed steps in a response template

A template of the body that fails because of a failed step gives `null` or the empty
text. The status of a response has no such rule, and it has to be a number.
-/

namespace Restitch.Composition

variable {Double Error : Type}

mutual

/-- The templates in a body, at any depth. -/
def BodyNode.templates : BodyNode → List Template
  | .tmpl template => [template]
  | .literal _ => []
  | .map fields => fieldTemplates fields
  | .list items => itemTemplates items

def BodyNode.fieldTemplates : List (String × BodyNode) → List Template
  | [] => []
  | (_, node) :: rest => node.templates ++ fieldTemplates rest

def BodyNode.itemTemplates : List BodyNode → List Template
  | [] => []
  | node :: rest => node.templates ++ itemTemplates rest

end

/-- The template of a status, if it has one. -/
def StatusSource.templates : StatusSource → List Template
  | .unset | .static _ => []
  | .tmpl template => [template]

/-- The templates of a response. -/
def CompiledResponse.templates (response : CompiledResponse) : List Template :=
  response.status.templates ++ response.body.templates

namespace Values

section Rule

variable (evaluator : ResponseEvaluator Double Error) (failedSteps : List String)

/-- The evaluation of a template errors. -/
def Errs (template : Template) : Prop := ∃ error, evaluator.evalValue template = .error error

/-- A template that errors has a failed step among its dependencies. -/
def Excused (template : Template) : Prop :=
  Errs evaluator template → hasFailedDep failedSteps template.deps = true

/-- The value of a leaf: that of its template, or what stands for one that errors. -/
def leafValue (template : Template) : GoValue Double :=
  match evaluator.evalValue template with
  | .ok value => value
  | .error _ => nilSafe template

mutual

/-- The body with the value of every leaf. -/
def bodyValue : BodyNode → GoValue Double
  | .tmpl template => leafValue evaluator template
  | .literal value => .ofYaml evaluator.ofText value
  | .map fields => .map (fieldValues fields)
  | .list items => .list (itemValues items)

def fieldValues : List (String × BodyNode) → List (String × GoValue Double)
  | [] => []
  | (key, node) :: rest => (key, bodyValue node) :: fieldValues rest

def itemValues : List BodyNode → List (GoValue Double)
  | [] => []
  | node :: rest => bodyValue node :: itemValues rest

end

/-- The rule for failed steps: a response whose templates are all excused is built from
the values of its leaves, and one with a template that is not is an error. -/
structure NilSafe (response : CompiledResponse) (stepErrors : List StepErrorDetail) : Prop where
  builds : (∀ template ∈ response.templates, Excused evaluator failedSteps template) →
    ∃ status, buildResponse evaluator failedSteps response stepErrors =
      .ok ⟨status, response.contentType, writeErrors stepErrors (bodyValue evaluator response.body)⟩
  fails : (∃ template ∈ response.templates, ¬ Excused evaluator failedSteps template) →
    ∃ error, buildResponse evaluator failedSteps response stepErrors = .error error

/-- A number that a status can be taken from. -/
def isNumber : GoValue Double → Bool
  | .int _ | .float _ => true
  | _ => false

/-- The status is no template, or one that gives a number. -/
def StatusNumeric : StatusSource → Prop
  | .unset | .static _ => True
  | .tmpl template => ∃ value, evaluator.evalValue template = .ok value ∧
      isNumber value = true

end Rule

section Evaluate

variable {evaluator : ResponseEvaluator Double Error} {failedSteps : List String}

mutual

/-- A body whose templates are all excused has the values of its leaves. -/
theorem evaluateBodyNode_of_excused (at_ : List String) : ∀ node : BodyNode,
    (∀ template ∈ node.templates, Excused evaluator failedSteps template) →
    evaluateBodyNode evaluator failedSteps at_ node = .ok (bodyValue evaluator node)
  | .tmpl template, excused => by
      rw [evaluateBodyNode, bodyValue, leafValue]
      cases evaluated : evaluator.evalValue template with
      | ok value => rfl
      | error error =>
          exact if_pos (excused template (by simp [BodyNode.templates]) ⟨error, evaluated⟩)
  | .literal value, _ => by rw [evaluateBodyNode, bodyValue]
  | .map fields, excused => by
      rw [evaluateBodyNode, evaluateFields_of_excused at_ fields excused, bodyValue]
  | .list items, excused => by
      rw [evaluateBodyNode, evaluateItems_of_excused at_ 0 items excused, bodyValue]

/-- Fields whose templates are excused evaluate to their values. -/
theorem evaluateFields_of_excused (at_ : List String) : ∀ fields : List (String × BodyNode),
    (∀ template ∈ BodyNode.fieldTemplates fields, Excused evaluator failedSteps template) →
    evaluateFields evaluator failedSteps at_ fields = .ok (fieldValues evaluator fields)
  | [], _ => by rw [evaluateFields, fieldValues]
  | (key, node) :: rest, excused => by
      rw [BodyNode.fieldTemplates, List.forall_mem_append] at excused
      rw [evaluateFields, evaluateBodyNode_of_excused _ node excused.1, fieldValues]
      dsimp only
      rw [evaluateFields_of_excused at_ rest excused.2]

/-- Items whose templates are excused evaluate to their values. -/
theorem evaluateItems_of_excused (at_ : List String) (index : Nat) : ∀ items : List BodyNode,
    (∀ template ∈ BodyNode.itemTemplates items, Excused evaluator failedSteps template) →
    evaluateItems evaluator failedSteps at_ index items = .ok (itemValues evaluator items)
  | [], _ => by rw [evaluateItems, itemValues]
  | node :: rest, excused => by
      rw [BodyNode.itemTemplates, List.forall_mem_append] at excused
      rw [evaluateItems, evaluateBodyNode_of_excused _ node excused.1, itemValues]
      dsimp only
      rw [evaluateItems_of_excused at_ (index + 1) rest excused.2]

end

mutual

/-- A body that evaluates has excused templates only. -/
theorem excused_of_evaluateBodyNode (at_ : List String) :
    ∀ (node : BodyNode) (value : GoValue Double),
    evaluateBodyNode evaluator failedSteps at_ node = .ok value →
    ∀ template ∈ node.templates, Excused evaluator failedSteps template
  | .tmpl template, value, evaluated => by
      intro other member
      rw [BodyNode.templates, List.mem_singleton] at member
      subst member
      rintro ⟨error, errs⟩
      rw [evaluateBodyNode, errs] at evaluated
      dsimp only at evaluated
      split at evaluated
      · assumption
      · cases evaluated
  | .literal _, _, _ => by
      rw [BodyNode.templates]
      nofun
  | .map fields, value, evaluated => by
      rw [evaluateBodyNode] at evaluated
      split at evaluated
      · exact excused_of_evaluateFields at_ fields _ ‹_›
      · cases evaluated
  | .list items, value, evaluated => by
      rw [evaluateBodyNode] at evaluated
      split at evaluated
      · exact excused_of_evaluateItems at_ 0 items _ ‹_›
      · cases evaluated

/-- Fields that evaluate have excused templates only. -/
theorem excused_of_evaluateFields (at_ : List String) :
    ∀ (fields : List (String × BodyNode)) (values : List (String × GoValue Double)),
    evaluateFields evaluator failedSteps at_ fields = .ok values →
    ∀ template ∈ BodyNode.fieldTemplates fields, Excused evaluator failedSteps template
  | [], _, _ => by
      rw [BodyNode.fieldTemplates]
      nofun
  | (key, node) :: rest, values, evaluated => by
      rw [evaluateFields] at evaluated
      split at evaluated
      · cases evaluated
      · rename_i value first
        split at evaluated
        · cases evaluated
        · rename_i later restEvaluated
          rw [BodyNode.fieldTemplates, List.forall_mem_append]
          exact ⟨excused_of_evaluateBodyNode _ node value first,
            excused_of_evaluateFields at_ rest later restEvaluated⟩

/-- Items that evaluate have excused templates only. -/
theorem excused_of_evaluateItems (at_ : List String) (index : Nat) :
    ∀ (items : List BodyNode) (values : List (GoValue Double)),
    evaluateItems evaluator failedSteps at_ index items = .ok values →
    ∀ template ∈ BodyNode.itemTemplates items, Excused evaluator failedSteps template
  | [], _, _ => by
      rw [BodyNode.itemTemplates]
      nofun
  | node :: rest, values, evaluated => by
      rw [evaluateItems] at evaluated
      split at evaluated
      · cases evaluated
      · rename_i value first
        split at evaluated
        · cases evaluated
        · rename_i later restEvaluated
          rw [BodyNode.itemTemplates, List.forall_mem_append]
          exact ⟨excused_of_evaluateBodyNode _ node value first,
            excused_of_evaluateItems at_ (index + 1) rest later restEvaluated⟩

end

/-- A status evaluates exactly if it is no template or its template gives a number. -/
theorem evalStatus_ok_iff {source : StatusSource} :
    (∃ status, evalStatus evaluator source = .ok status) ↔ StatusNumeric evaluator source := by
  cases source with
  | unset => exact iff_of_true ⟨200, by rw [evalStatus]⟩ trivial
  | static status => exact iff_of_true ⟨status, by rw [evalStatus]⟩ trivial
  | tmpl template =>
      rw [StatusNumeric, evalStatus]
      cases evaluated : evaluator.evalValue template with
      | error error => simp
      | ok value => cases value <;> simp [isNumber]

/-- A status that evaluates has an excused template only. -/
theorem excused_of_evalStatus {source : StatusSource} {status : Int}
    (evaluated : evalStatus evaluator source = .ok status) :
    ∀ template ∈ source.templates, Excused evaluator failedSteps template := by
  cases source with
  | unset => nofun
  | static status => nofun
  | tmpl template =>
      intro other member
      rw [StatusSource.templates, List.mem_singleton] at member
      subst member
      rintro ⟨error, errs⟩
      rw [evalStatus, errs] at evaluated
      cases evaluated

/-- A response that is built has excused templates only. -/
theorem excused_of_buildResponse {response : CompiledResponse}
    {stepErrors : List StepErrorDetail} {built : Response Double}
    (builds : buildResponse evaluator failedSteps response stepErrors = .ok built) :
    ∀ template ∈ response.templates, Excused evaluator failedSteps template := by
  rw [buildResponse] at builds
  split at builds
  · cases builds
  · rename_i status hasStatus
    split at builds
    · cases builds
    · rename_i body hasBody
      rw [CompiledResponse.templates, List.forall_mem_append]
      exact ⟨excused_of_evalStatus hasStatus, excused_of_evaluateBodyNode [] _ body hasBody⟩

/-- The rule for failed steps holds exactly if the status is a number whenever all
templates that error are excused. -/
theorem nilSafe_iff (evaluator : ResponseEvaluator Double Error) (failedSteps : List String)
    (response : CompiledResponse) (stepErrors : List StepErrorDetail) :
    NilSafe evaluator failedSteps response stepErrors ↔
      ((∀ template ∈ response.templates, Excused evaluator failedSteps template) →
        StatusNumeric evaluator response.status) := by
  constructor
  · intro safe excused
    obtain ⟨status, builds⟩ := safe.builds excused
    rw [← evalStatus_ok_iff]
    rw [buildResponse] at builds
    split at builds
    · cases builds
    · exact ⟨_, ‹_›⟩
  · intro numeric
    refine ⟨fun excused => ?_, ?_⟩
    · obtain ⟨status, hasStatus⟩ := evalStatus_ok_iff.mpr (numeric excused)
      rw [CompiledResponse.templates, List.forall_mem_append] at excused
      refine ⟨status, ?_⟩
      rw [buildResponse, hasStatus]
      dsimp only
      rw [evaluateBodyNode_of_excused [] response.body excused.2]
    · rintro ⟨template, member, unexcused⟩
      cases builds : buildResponse evaluator failedSteps response stepErrors with
      | error error => exact ⟨error, rfl⟩
      | ok built => exact absurd (excused_of_buildResponse builds template member) unexcused

end Evaluate

/-- The status of an optional step: `steps.opt.status` in braces. -/
def optionalStatus : Template where
  raw := "\x7b\x7b steps.opt.status \x7d\x7d"
  segments := [.program "steps.opt.status"
    (.member (.member (.identifier "steps") (.string "opt") false) (.string "status") false)]
  deps := ["opt"]
  isSingle := true

/-- The step has failed, and its status cannot be fetched. -/
def failedOptional : ResponseEvaluator Int String where
  evalValue template :=
    if template.deps = [] then .ok .null
    else .error (.run "steps.opt.status" "cannot fetch status from <nil>")
  truncate := id
  ofText _ := 0

/-- A response with the status of an optional step is an error when the step fails. -/
theorem not_nilSafe_optionalStatus :
    ¬ NilSafe failedOptional ["opt"] ⟨.tmpl optionalStatus, .literal .null, "application/json"⟩
      [] := by
  intro safe
  obtain ⟨status, builds⟩ := safe.builds fun template member _ => by
    rw [List.mem_singleton.mp member]
    decide
  cases builds

end Values

end Restitch.Composition
