import Restitch.Composition.Gateway
import Restitch.Std.Results

/-!
# What templates read and build

Evaluation writes no cell that exists. If the environment stays in a region of the
store whose cells lead nowhere else, and new cells are in the region, then so does
every value that a template evaluates to.
-/

namespace Restitch.Composition

open Restitch.Expr Restitch.Std Restitch.Std.ObjectHeap

variable {region : Nat → Prop} {tags : RequestId → Prop} {env : List (String × Val)}
  {store grown : Store} {value : Val} {Error : Type} {runtime : ExprRuntime Error}

/-- An environment in a region of the store. -/
structure Room (region : Nat → Prop) (tags : RequestId → Prop) (env : List (String × Val))
    (store : Store) : Prop where
  confined : Confined region tags store
  beyond : ∀ address, store.length ≤ address → region address
  env_within : ∀ root ∈ env, Within region tags store root.2

/-- The store has grown, and the environment is still in the region. -/
structure Grows (region : Nat → Prop) (tags : RequestId → Prop) (env : List (String × Val))
    (store grown : Store) : Prop where
  growth : store <+: grown
  room : Room region tags env grown

/-- A store that has grown keeps a value within its region. -/
theorem Within.of_isPrefix {v : Val} (growth : store <+: grown)
    (within : Within region tags store v) : Within region tags grown v := by
  obtain ⟨cells, rfl⟩ := growth
  exact within.append

/-- A store grows by nothing. -/
theorem Grows.refl (room : Room region tags env store) : Grows region tags env store store :=
  ⟨List.prefix_rfl, room⟩

/-- Growing twice is growing. -/
theorem Grows.trans {later : Store} (first : Grows region tags env store grown)
    (second : Grows region tags env grown later) : Grows region tags env store later :=
  ⟨first.growth.trans second.growth, second.room⟩

/-- New cells that stay in the region. -/
theorem Room.append (room : Room region tags env store) {cells : Store}
    (within : ∀ cell ∈ cells, ∀ v ∈ cell.data, Within region tags (store ++ cells) v) :
    Grows region tags env store (store ++ cells) := by
  refine ⟨List.prefix_append _ _, room.confined.append within, ?_, ?_⟩
  · intro address bound
    rw [List.length_append] at bound
    exact room.beyond address (Nat.le_trans (Nat.le_add_right _ _) bound)
  · intro root member
    exact (room.env_within root member).append

/-- One new cell. -/
theorem Room.alloc (room : Room region tags env store) (cell : Cell Leaf RequestId)
    (within : ∀ v ∈ cell.data, Within region tags store v) :
    Grows region tags env store (store ++ [cell]) ∧
      Within region tags (store ++ [cell]) (.ref store.length) := by
  refine ⟨room.append ?_, ?_, room.beyond _ (Nat.le_refl _)⟩
  · intro other member v inCell
    cases List.mem_singleton.mp member
    exact (within v inCell).append
  · rw [List.length_append, List.length_singleton]
    exact Nat.lt_succ_self _

/-- The cells that were added. -/
theorem Grows.cells_within {cells : Store} (grows : Grows region tags env store (store ++ cells))
    (beyond : ∀ address, store.length ≤ address → region address) :
    ∀ cell ∈ cells, ∀ v ∈ cell.data, Within region tags (store ++ cells) v := by
  intro cell member
  obtain ⟨index, found⟩ := List.mem_iff_getElem?.mp member
  refine grows.room.confined (store.length + index) cell (beyond _ (Nat.le_add_right _ _)) ?_
  rw [List.getElem?_append_right (Nat.le_add_right _ _), Nat.add_sub_cancel_left]
  exact found

/-- A program grows the store and returns a value of its region. -/
theorem runOn_grows {expr : String} {node : Node} (room : Room region tags env store)
    (ran : runOn runtime env expr node store = .ok (value, grown)) :
    Grows region tags env store grown ∧ Within region tags grown value := by
  unfold runOn at ran
  split at ran
  · rename_i result built evaluated
    cases ran
    have within : ∀ v ∈ value :: built.flatMap Cell.data,
        Within region tags (store ++ built) v := by
      intro v member
      rcases runtime.confined node env store value built evaluated v member with
        ⟨root, listed, reach⟩ | ⟨leaf, rfl⟩ | fresh
      · exact (room.confined.reach (room.env_within root listed) reach).append
      · trivial
      · exact fresh.within room.beyond
    refine ⟨room.append ?_, within value List.mem_cons_self⟩
    intro cell member v inCell
    exact within v (List.mem_cons_of_mem _ (List.mem_flatMap.mpr ⟨cell, member, inCell⟩))
  · cases ran

/-- Text grows the store. -/
theorem evalTextOn_grows {segments : List Segment} {text : String}
    (room : Room region tags env store)
    (ran : evalTextOn runtime env segments store = .ok (text, grown)) :
    Grows region tags env store grown := by
  induction segments generalizing store text with
  | nil =>
      cases ran
      exact .refl room
  | cons segment rest ih =>
      cases segment with
      | literal literal =>
          rw [evalTextOn] at ran
          obtain ⟨later, evaluated, same⟩ := Except.map_eq_ok ran
          cases same
          exact ih room evaluated
      | program expr node =>
          rw [evalTextOn] at ran
          split at ran
          · cases ran
          · rename_i first middle evaluated
            obtain ⟨later, evaluatedRest, same⟩ := Except.map_eq_ok ran
            cases same
            have grows := (runOn_grows room evaluated).1
            exact grows.trans (ih grows.room evaluatedRest)

/-- A template grows the store and returns a value of its region. -/
theorem evalValueOn_grows {template : Template} (room : Room region tags env store)
    (ran : evalValueOn runtime env template store = .ok (value, grown)) :
    Grows region tags env store grown ∧ Within region tags grown value := by
  unfold evalValueOn at ran
  split at ran
  · exact runOn_grows room ran
  · obtain ⟨result, evaluated, same⟩ := Except.map_eq_ok ran
    cases same
    exact ⟨evalTextOn_grows room evaluated, trivial⟩

/-- Only the first program of a single template is the value itself. -/
theorem evalValueOn_text {template : Template} (interpolated : template.isSingle = false)
    (ran : evalValueOn runtime env template store = .ok (value, grown)) :
    ∃ leaf, value = .scalar leaf := by
  unfold evalValueOn at ran
  rw [interpolated] at ran
  obtain ⟨result, -, same⟩ := Except.map_eq_ok ran
  cases same
  exact ⟨_, rfl⟩

/-- Programs grow the store and return values of its region. -/
theorem programValues_grows {segments : List Segment} {values : List Val}
    (room : Room region tags env store)
    (ran : programValues runtime env segments store = .ok (values, grown)) :
    Grows region tags env store grown ∧ ∀ value ∈ values, Within region tags grown value := by
  induction segments generalizing store values with
  | nil =>
      cases ran
      exact ⟨.refl room, nofun⟩
  | cons segment rest ih =>
      cases segment with
      | literal text => exact ih room ran
      | program expr node =>
          rw [programValues] at ran
          split at ran
          · cases ran
          · rename_i first middle evaluated
            obtain ⟨later, evaluatedRest, same⟩ := Except.map_eq_ok ran
            cases same
            obtain ⟨grows, within⟩ := runOn_grows room evaluated
            obtain ⟨growsOn, laterWithin⟩ := ih grows.room evaluatedRest
            refine ⟨grows.trans growsOn, ?_⟩
            intro value member
            rcases List.mem_cons.mp member with rfl | member
            · exact Within.of_isPrefix growsOn.growth within
            · exact laterWithin value member

section Body

variable {failed : List String}

mutual

/-- A node of the body grows the store and returns a value of its region. -/
theorem evaluateBodyNode_grows (at_ : List String) (node : BodyNode) {store grown : Store}
    {value : Val} (room : Room region tags env store)
    (ran : evaluateBodyNode runtime env failed at_ node store = .ok (value, grown)) :
    Grows region tags env store grown ∧ Within region tags grown value := by
  match node with
  | .tmpl template =>
      rw [evaluateBodyNode] at ran
      split at ran
      · rename_i evaluated
        cases ran
        exact evalValueOn_grows room evaluated
      · split at ran
        · cases ran
          exact ⟨.refl room, trivial⟩
        · cases ran
  | .literal yaml =>
      rw [evaluateBodyNode] at ran
      cases ran
      exact ⟨.refl room, trivial⟩
  | .map fields =>
      rw [evaluateBodyNode] at ran
      split at ran
      · rename_i values middle evaluated
        cases ran
        obtain ⟨grows, within⟩ := evaluateFields_grows at_ fields room evaluated
        obtain ⟨growsOn, new⟩ := grows.room.alloc (.object values) within
        exact ⟨grows.trans growsOn, new⟩
      · cases ran
  | .list items =>
      rw [evaluateBodyNode] at ran
      split at ran
      · rename_i values middle evaluated
        cases ran
        obtain ⟨grows, within⟩ := evaluateItems_grows at_ 0 items room evaluated
        obtain ⟨growsOn, new⟩ := grows.room.alloc (.array values) within
        exact ⟨grows.trans growsOn, new⟩
      · cases ran

/-- Fields grow the store and have values of its region. -/
theorem evaluateFields_grows (at_ : List String) (fields : List (String × BodyNode))
    {store grown : Store} {values : List (String × Val)} (room : Room region tags env store)
    (ran : evaluateFields runtime env failed at_ fields store = .ok (values, grown)) :
    Grows region tags env store grown ∧
      ∀ v ∈ values.map Prod.snd, Within region tags grown v := by
  match fields with
  | [] =>
      rw [evaluateFields] at ran
      cases ran
      exact ⟨.refl room, nofun⟩
  | (key, node) :: rest =>
      rw [evaluateFields] at ran
      split at ran
      · cases ran
      · rename_i value middle evaluated
        split at ran
        · cases ran
        · rename_i later grownLater evaluatedRest
          cases ran
          obtain ⟨grows, within⟩ := evaluateBodyNode_grows (at_ ++ [key]) node room evaluated
          obtain ⟨growsOn, laterWithin⟩ := evaluateFields_grows at_ rest grows.room evaluatedRest
          refine ⟨grows.trans growsOn, ?_⟩
          intro v member
          rcases List.mem_cons.mp member with rfl | member
          · exact Within.of_isPrefix growsOn.growth within
          · exact laterWithin v member

/-- Items grow the store and have values of its region. -/
theorem evaluateItems_grows (at_ : List String) (index : Nat) (items : List BodyNode)
    {store grown : Store} {values : List Val} (room : Room region tags env store)
    (ran : evaluateItems runtime env failed at_ index items store = .ok (values, grown)) :
    Grows region tags env store grown ∧ ∀ v ∈ values, Within region tags grown v := by
  match items with
  | [] =>
      rw [evaluateItems] at ran
      cases ran
      exact ⟨.refl room, nofun⟩
  | node :: rest =>
      rw [evaluateItems] at ran
      split at ran
      · cases ran
      · rename_i value middle evaluated
        split at ran
        · cases ran
        · rename_i later grownLater evaluatedRest
          cases ran
          obtain ⟨grows, within⟩ :=
            evaluateBodyNode_grows (at_ ++ [toString index]) node room evaluated
          obtain ⟨growsOn, laterWithin⟩ :=
            evaluateItems_grows at_ (index + 1) rest grows.room evaluatedRest
          refine ⟨grows.trans growsOn, ?_⟩
          intro v member
          rcases List.mem_cons.mp member with rfl | member
          · exact Within.of_isPrefix growsOn.growth within
          · exact laterWithin v member

end

/-- The body of a response is the value of one expression. -/
def BodyNode.isSingle : BodyNode → Bool
  | .tmpl template => template.isSingle
  | .literal _ | .map _ | .list _ => false

/-- Every other body is a new object, or no object. -/
theorem evaluateBodyNode_new {at_ : List String} {node : BodyNode} {address : Nat}
    (composed : node.isSingle = false) (room : Room region tags env store)
    (ran : evaluateBodyNode runtime env failed at_ node store = .ok (.ref address, grown)) :
    store.length ≤ address := by
  cases node with
  | tmpl template =>
      rw [evaluateBodyNode] at ran
      split at ran
      · rename_i evaluated
        cases ran
        obtain ⟨leaf, no⟩ := evalValueOn_text composed evaluated
        cases no
      · split at ran <;> cases ran
  | literal yaml =>
      rw [evaluateBodyNode] at ran
      cases ran
  | map fields =>
      rw [evaluateBodyNode] at ran
      split at ran
      · rename_i evaluated
        cases ran
        exact (evaluateFields_grows at_ fields room evaluated).1.growth.length_le
      · cases ran
  | list items =>
      rw [evaluateBodyNode] at ran
      split at ran
      · rename_i evaluated
        cases ran
        exact (evaluateItems_grows at_ 0 items room evaluated).1.growth.length_le
      · cases ran

end Body

section Environment

/-- There is room for another environment within the region. -/
theorem Room.withEnv (room : Room region tags env store) {other : List (String × Val)}
    (within : ∀ root ∈ other, Within region tags store root.2) : Room region tags other store :=
  ⟨room.confined, room.beyond, within⟩

/-- The results of the steps are allocated within the region. -/
theorem allocSteps_grows {results : StepResults} {fields : List (String × Val)}
    (room : Room region tags [] store)
    (bodies : ∀ entry ∈ results, ∀ result ∈ entry.2, Within region tags store result.body)
    (allocated : allocSteps results store = (fields, grown)) :
    Grows region tags [] store grown ∧ ∀ v ∈ fields.map Prod.snd, Within region tags grown v := by
  induction results generalizing store fields with
  | nil =>
      cases allocated
      exact ⟨.refl room, nofun⟩
  | cons entry rest ih =>
      obtain ⟨name, result⟩ := entry
      cases result with
      | none =>
          cases allocated
          obtain ⟨grows, within⟩ := ih room
            (fun entry member => bodies entry (List.mem_cons_of_mem _ member)) rfl
          refine ⟨grows, ?_⟩
          intro v member
          rcases List.mem_cons.mp member with rfl | member
          · trivial
          · exact within v member
      | some result =>
          cases allocated
          have body : Within region tags store result.body :=
            bodies _ List.mem_cons_self result rfl
          have cellWithin : ∀ v ∈ (stepCell result).data, Within region tags store v := by
            intro v member
            simp only [stepCell, Cell.data, List.map_cons, List.map_nil, List.mem_cons,
              List.not_mem_nil, or_false] at member
            rcases member with rfl | rfl | rfl
            · trivial
            · trivial
            · exact body
          obtain ⟨grows, new⟩ := room.alloc (stepCell result) cellWithin
          obtain ⟨growsOn, within⟩ := ih grows.room (fun entry member result isResult =>
            (bodies entry (List.mem_cons_of_mem _ member) result isResult).append) rfl
          refine ⟨grows.trans growsOn, ?_⟩
          intro v member
          rcases List.mem_cons.mp member with rfl | member
          · exact Within.of_isPrefix growsOn.growth new
          · exact within v member

/-- The environment of the request is allocated within the region. -/
theorem allocRequestEnv_grows {request : InboundRequest} {results : StepResults}
    (room : Room region tags [] store) (body : Within region tags store request.body)
    (auth : Within region tags store request.auth)
    (bodies : ∀ entry ∈ results, ∀ result ∈ entry.2, Within region tags store result.body)
    (allocated : allocRequestEnv request results store = (env, grown)) :
    store <+: grown ∧ Room region tags env grown := by
  have cellWithin : ∀ v ∈ (reqCell request).data, Within region tags store v := by
    intro v member
    obtain ⟨field, listed, rfl⟩ := List.mem_map.mp member
    rcases List.mem_append.mp listed with leaf | own
    · obtain ⟨leaf, -, rfl⟩ := List.mem_map.mp leaf
      trivial
    · simp only [List.mem_cons, List.not_mem_nil, or_false] at own
      rcases own with rfl | rfl
      · exact body
      · exact auth
  obtain ⟨grows, new⟩ := room.alloc (reqCell request) cellWithin
  unfold allocRequestEnv at allocated
  cases steps : allocSteps results (store ++ [reqCell request]) with
  | mk fields middle =>
      obtain ⟨growsOn, within⟩ := allocSteps_grows grows.room
        (fun entry member result isResult => (bodies entry member result isResult).append) steps
      have req : Within region tags middle (.ref store.length) :=
        Within.of_isPrefix growsOn.growth new
      simp only [steps] at allocated
      split at allocated
      · cases allocated
        refine ⟨(grows.trans growsOn).growth, growsOn.room.withEnv ?_⟩
        intro root member
        simp only [List.mem_cons, List.not_mem_nil, or_false] at member
        rcases member with rfl | rfl <;> exact req
      · cases allocated
        obtain ⟨growsLast, stepsRef⟩ := growsOn.room.alloc (.object fields) within
        refine ⟨((grows.trans growsOn).trans growsLast).growth, growsLast.room.withEnv ?_⟩
        intro root member
        simp only [List.cons_append, List.nil_append, List.mem_cons, List.not_mem_nil,
          or_false] at member
        rcases member with rfl | rfl | rfl
        · exact req.append
        · exact req.append
        · exact stepsRef

end Environment

/-- The status grows the store. -/
theorem evalStatus_grows {source : StatusSource} {status : Int}
    (room : Room region tags env store)
    (ran : evalStatus runtime env source store = .ok (status, grown)) :
    Grows region tags env store grown := by
  cases source with
  | unset =>
      cases ran
      exact .refl room
  | static status =>
      cases ran
      exact .refl room
  | tmpl template =>
      rw [evalStatus] at ran
      split at ran
      · cases ran
      · rename_i evaluated
        cases ran
        exact (evalValueOn_grows room evaluated).1
      · rename_i evaluated
        cases ran
        exact (evalValueOn_grows room evaluated).1
      · cases ran

/-- The response stays in the region of the request, and its body is a new object
unless it is the value of one expression. -/
theorem evaluateResponse_grows {template : CompiledResponse} {request : InboundRequest}
    {results : StepResults} {failed : List String} {response : CompositionResponse}
    (room : Room region tags [] store) (body : Within region tags store request.body)
    (auth : Within region tags store request.auth)
    (bodies : ∀ entry ∈ results, ∀ result ∈ entry.2, Within region tags store result.body)
    (ran : evaluateResponse runtime template request results failed store =
      .ok (response, grown)) :
    Grows region tags [] store grown ∧ Within region tags grown response.body ∧
      (template.body.isSingle = false →
        ∀ address, response.body = .ref address → store.length ≤ address) := by
  unfold evaluateResponse at ran
  cases allocated : allocRequestEnv request results store with
  | mk env first =>
      obtain ⟨growth, roomEnv⟩ := allocRequestEnv_grows room body auth bodies allocated
      simp only [allocated] at ran
      split at ran
      · cases ran
      · rename_i status second statusRan
        have statusGrows := evalStatus_grows roomEnv statusRan
        split at ran
        · cases ran
        · rename_i value third bodyRan
          cases ran
          obtain ⟨bodyGrows, within⟩ := evaluateBodyNode_grows [] template.body statusGrows.room bodyRan
          have all := statusGrows.trans bodyGrows
          refine ⟨⟨growth.trans all.growth, all.room.withEnv nofun⟩, within, ?_⟩
          intro composed address isRef
          subst isRef
          have new := evaluateBodyNode_new composed statusGrows.room bodyRan
          exact Nat.le_trans (growth.trans statusGrows.growth).length_le new

end Restitch.Composition
