import Restitch.Composition.Lint
import Restitch.Composition.StepRequest
import Restitch.Std.Fields

/-!
# The shape of the environment (`env.go`, `references.go`)

Which dotted names lead to a value in an environment that the executor builds, and which of
them `checkChain` accepts.
-/

namespace Restitch.Composition

open Restitch.Expr Restitch.Http Restitch.Std

/-- A value as far as names lead into it. -/
inductive Tree where
  | leaf
  | node (members : String → Option Tree)

namespace Tree

/-- The value that the names lead to. -/
def follow : Tree → List String → Option Tree
  | tree, [] => some tree
  | .leaf, _ :: _ => none
  | .node members, name :: rest => (members name).bind fun tree => tree.follow rest

/-- A value into which these names lead. -/
def along : List String → Tree
  | [] => .leaf
  | name :: rest => .node fun key => if key = name then some (along rest) else none

/-- Names are followed along the tree made of them. -/
theorem follow_along (names : List String) : ((along names).follow names).isSome = true := by
  induction names with
  | nil => rfl
  | cons name rest ih =>
      rw [along, follow, if_pos rfl, Option.bind_some]
      exact ih

end Tree

/-- Texts, numbers and lists have no members. -/
def treeValues : Values Tree where
  nil := .leaf
  text := fun _ => .leaf
  number := fun _ => .leaf
  list := fun _ => .leaf
  object := .node

/-- The names lead to a value in some environment that `buildRequestEnv` makes with results
of these steps. -/
def Produced (stepNames names : List String) : Prop :=
  ∃ (data : RequestData Tree) (results : GoMap String (Option (StepResult Tree))),
    (∀ step ∈ results.keys, step ∈ stepNames) ∧
      ((Tree.node (buildRequestEnv treeValues data results)).follow names).isSome = true

/-- What the names behind a member may be. -/
inductive MemberShape where
  /-- A text or a number. -/
  | scalar
  /-- A map whose entries are texts or lists. -/
  | entries
  | any
deriving DecidableEq

/-- The names lead on from a member of this shape. -/
def MemberShape.Leads : MemberShape → List String → Prop
  | .scalar, rest => rest = []
  | .entries, rest => rest.length ≤ 1
  | .any, _ => True

/-- The members of `req`. -/
def reqShape (field : String) : Option MemberShape :=
  [("method", MemberShape.scalar), ("path", .scalar), ("params", .entries), ("query", .entries),
    ("query_all", .entries), ("headers", .entries), ("body", .any), ("auth", .any)].lookup field

/-- The members of a step. -/
def stepShape (field : String) : Option MemberShape :=
  [("status", MemberShape.scalar), ("headers", .entries), ("body", .any)].lookup field

/-- A tree into which names lead only as its shape allows. -/
def MemberShape.Bounds (shape : MemberShape) (tree : Tree) : Prop :=
  ∀ rest, (tree.follow rest).isSome = true → shape.Leads rest

section Bounds

/-- A scalar has no members. -/
theorem bounds_leaf : MemberShape.scalar.Bounds .leaf := by
  intro rest found
  cases rest with
  | nil => rfl
  | cons name rest => cases found

/-- A map of values without members leads one name further. -/
theorem bounds_entries {members : String → Option Tree}
    (leaves : ∀ name tree, members name = some tree → tree = .leaf) :
    MemberShape.entries.Bounds (.node members) := by
  intro rest found
  match rest with
  | [] => exact Nat.zero_le 1
  | [_] => exact Nat.le_refl 1
  | name :: next :: rest =>
      rw [Tree.follow] at found
      cases isMember : members name with
      | none =>
          rw [isMember] at found
          cases found
      | some tree =>
          rw [isMember, leaves name tree isMember] at found
          cases found

/-- Any shape bounds any tree. -/
theorem bounds_any (tree : Tree) : MemberShape.any.Bounds tree := fun _ _ => trivial

/-- The entries of a map have no members of their own. -/
theorem bounds_map {β : Type} (entries : String → Option β) :
    MemberShape.entries.Bounds (.node fun key => (entries key).map fun _ => .leaf) := by
  apply bounds_entries
  intro name tree found
  obtain ⟨_, _, rfl⟩ := Option.map_eq_some_iff.mp found
  rfl

end Bounds

theorem Tree.follow_cons (tree : Tree) (name : String) (rest : List String) :
    tree.follow (name :: rest) = (tree.follow [name]).bind fun tree => tree.follow rest := by
  cases tree with
  | leaf => rfl
  | node members =>
      rw [Tree.follow, Tree.follow]
      cases members name <;> rfl

/-- The member of a record is its entry. -/
theorem follow_record (entries : List (String × Tree)) (name : String) :
    (record treeValues entries).follow [name] = entries.lookup name := by
  change (entries.lookup name).bind some = _
  cases entries.lookup name <;> rfl

/-- A tree into which all names lead that its shape allows. -/
def MemberShape.Reaches (rest : List String) (shape : MemberShape) (tree : Tree) : Prop :=
  shape.Leads rest → (tree.follow rest).isSome = true

section Reaches

variable {rest : List String}

/-- A scalar is a leaf that no name leads into. -/
theorem reaches_leaf : MemberShape.scalar.Reaches rest .leaf := by
  rintro rfl
  rfl

/-- The names that lead into a map reach the entry it has. -/
theorem reaches_entries {members : String → Option Tree}
    (first : (members (rest.headD "")).isSome = true) :
    MemberShape.entries.Reaches rest (.node members) := by
  intro short
  match rest, short with
  | [], _ => rfl
  | [name], _ =>
      obtain ⟨tree, found⟩ := Option.isSome_iff_exists.mp first
      rw [Tree.follow, show members name = some tree from found]
      rfl

/-- A singleton has its value. -/
theorem lookup_singleton {β : Type} (key : String) (value : β) :
    (AList.singleton key value : GoMap String β).lookup key = some value := by
  change List.dlookup key [(⟨key, value⟩ : GoEntry String β)] = some value
  exact List.dlookup_cons_eq _ _ _

/-- The first value of the only entry. -/
theorem reaches_firstValues :
    MemberShape.entries.Reaches rest
      (firstValues treeValues (AList.singleton (rest.headD "") [""])) := by
  apply reaches_entries
  rw [lookup_singleton]
  rfl

end Reaches

/-- What is related to something is something. -/
theorem exists_of_rel_some {α β : Type} {R : α → β → Prop} {first : Option α} {b : β}
    (related : Option.Rel R first (some b)) : ∃ a, first = some a ∧ R a b := by
  cases related with
  | some related => exact ⟨_, rfl, related⟩

/-- Something is related to something only. -/
theorem exists_of_some_rel {α β : Type} {R : α → β → Prop} {a : α} {second : Option β}
    (related : Option.Rel R (some a) second) : ∃ b, second = some b ∧ R a b := by
  cases related with
  | some related => exact ⟨_, rfl, related⟩

section Req

/-- The members of `req` have their shapes. -/
theorem rel_reqShape (data : RequestData Tree) (field : String) :
    Option.Rel MemberShape.Bounds (reqShape field) ((reqData treeValues data).follow [field]) := by
  rw [reqData, follow_record, reqShape]
  apply lookup_of_forall₂
  exact .cons ⟨rfl, bounds_leaf⟩ (.cons ⟨rfl, bounds_leaf⟩ (.cons ⟨rfl, bounds_map _⟩
    (.cons ⟨rfl, bounds_map _⟩ (.cons ⟨rfl, bounds_map _⟩ (.cons ⟨rfl, bounds_map _⟩
    (.cons ⟨rfl, bounds_any _⟩ (.cons ⟨rfl, bounds_any _⟩ .nil)))))))

/-- A request in which the names of a path are there. -/
def requestAlong (rest : List String) : RequestData Tree where
  method := ""
  path := ""
  params := AList.singleton (rest.headD "") ""
  query := AList.singleton (rest.headD "") [""]
  headers := AList.singleton (rest.headD "") [""]
  body := .along rest
  claims := some (AList.singleton (rest.headD "") (.along rest.tail))

/-- The request made of some names has the fields that requests have. -/
theorem rel_requestAlong (rest : List String) (field : String) :
    Option.Rel (MemberShape.Reaches rest) (reqShape field)
      ((reqData treeValues (requestAlong rest)).follow [field]) := by
  rw [reqData, follow_record, reqShape]
  apply lookup_of_forall₂
  refine .cons ⟨rfl, reaches_leaf⟩ (.cons ⟨rfl, reaches_leaf⟩ (.cons ⟨rfl, reaches_entries ?_⟩
    (.cons ⟨rfl, reaches_firstValues⟩ (.cons ⟨rfl, reaches_entries ?_⟩
    (.cons ⟨rfl, reaches_firstValues⟩ (.cons ⟨rfl, fun _ => Tree.follow_along rest⟩
    (.cons ⟨rfl, ?_⟩ .nil)))))))
  · rw [requestAlong, lookup_singleton]
    rfl
  · rw [requestAlong, lookup_singleton]
    rfl
  · intro _
    cases rest with
    | nil => rfl
    | cons name rest =>
        change (((AList.singleton name (Tree.along rest) : GoMap String Tree).lookup name).bind
          fun tree => tree.follow rest).isSome = true
        rw [lookup_singleton]
        exact Tree.follow_along rest

/-- The names behind `req` and `request` that are produced. -/
theorem produced_req_iff {stepNames : List String} {root field : String} {rest : List String}
    (isReq : root = "req" ∨ root = "request") :
    Produced stepNames (root :: field :: rest) ↔
      ∃ shape, reqShape field = some shape ∧ shape.Leads rest := by
  have at_ (data : RequestData Tree) (results : GoMap String (Option (StepResult Tree))) :
      (Tree.node (buildRequestEnv treeValues data results)).follow (root :: field :: rest) =
        ((reqData treeValues data).follow [field]).bind fun tree => tree.follow rest := by
    rw [Tree.follow, buildRequestEnv, if_pos isReq, Option.bind_some, Tree.follow_cons]
  constructor
  · rintro ⟨data, results, -, found⟩
    rw [at_] at found
    obtain ⟨reached, found⟩ := Option.isSome_iff_exists.mp found
    obtain ⟨tree, isTree, found⟩ := Option.bind_eq_some_iff.mp found
    have related := rel_reqShape data field
    rw [isTree] at related
    obtain ⟨shape, isShape, bounds⟩ := exists_of_rel_some related
    exact ⟨shape, isShape, bounds rest (Option.isSome_iff_exists.mpr ⟨reached, found⟩)⟩
  · rintro ⟨shape, isShape, leads⟩
    refine ⟨requestAlong rest, ∅, (fun _ none_ => by cases none_), ?_⟩
    rw [at_]
    have related := rel_requestAlong rest field
    rw [isShape] at related
    obtain ⟨tree, isTree, reaches⟩ := exists_of_some_rel related
    rw [isTree]
    exact reaches leads

end Req

section Steps

/-- The members of a step have their shapes. -/
theorem rel_stepShape (result : StepResult Tree) (field : String) :
    Option.Rel MemberShape.Bounds (stepShape field)
      ((stepValue treeValues (some result)).follow [field]) := by
  rw [stepValue, follow_record, stepShape]
  apply lookup_of_forall₂
  exact .cons ⟨rfl, bounds_leaf⟩ (.cons ⟨rfl, bounds_map _⟩ (.cons ⟨rfl, bounds_any _⟩ .nil))

/-- A result in which the names of a path are there. -/
def resultAlong (rest : List String) : StepResult Tree where
  status := 200
  headers := AList.singleton (rest.headD "") [""]
  body := .along rest
  rawBody := []
  errorRuleMatched := false

/-- The result made of some names has the fields that results have. -/
theorem rel_resultAlong (rest : List String) (field : String) :
    Option.Rel (MemberShape.Reaches rest) (stepShape field)
      ((stepValue treeValues (some (resultAlong rest))).follow [field]) := by
  rw [stepValue, follow_record, stepShape]
  apply lookup_of_forall₂
  exact .cons ⟨rfl, reaches_leaf⟩ (.cons ⟨rfl, reaches_firstValues⟩
    (.cons ⟨rfl, fun _ => Tree.follow_along rest⟩ .nil))

/-- What stands under `steps`. -/
theorem follow_steps (data : RequestData Tree)
    {results : GoMap String (Option (StepResult Tree))} (some_ : results.entries ≠ [])
    (step : String) (rest : List String) :
    (Tree.node (buildRequestEnv treeValues data results)).follow ("steps" :: step :: rest) =
      (results.lookup step).bind fun result => (stepValue treeValues result).follow rest := by
  rw [Tree.follow, buildRequestEnv, if_neg (by decide), if_pos ⟨rfl, some_⟩, Option.bind_some]
  change ((results.lookup step).map (stepValue treeValues)).bind _ = _
  rw [Option.bind_map]
  rfl

/-- The names behind `steps` that are produced. -/
theorem produced_steps_iff {stepNames : List String} {step : String} {rest : List String} :
    Produced stepNames ("steps" :: step :: rest) ↔ step ∈ stepNames ∧
      ∀ field later, rest = field :: later →
        ∃ shape, stepShape field = some shape ∧ shape.Leads later := by
  constructor
  · rintro ⟨data, results, known, found⟩
    by_cases some_ : results.entries = []
    · rw [Tree.follow, buildRequestEnv, if_neg (by decide), if_neg (fun both => both.2 some_)]
        at found
      cases found
    rw [follow_steps data some_] at found
    obtain ⟨reached, found⟩ := Option.isSome_iff_exists.mp found
    obtain ⟨result, isResult, found⟩ := Option.bind_eq_some_iff.mp found
    refine ⟨known step (GoMap.mem_keys_iff.mpr ⟨result, isResult⟩), ?_⟩
    rintro field later rfl
    cases result with
    | none => cases found
    | some result =>
        rw [Tree.follow_cons] at found
        obtain ⟨tree, isTree, found⟩ := Option.bind_eq_some_iff.mp found
        have related := rel_stepShape result field
        rw [isTree] at related
        obtain ⟨shape, isShape, bounds⟩ := exists_of_rel_some related
        exact ⟨shape, isShape, bounds later (Option.isSome_iff_exists.mpr ⟨reached, found⟩)⟩
  · rintro ⟨known, leads⟩
    refine ⟨requestAlong [], AList.singleton step (some (resultAlong rest.tail)), ?_, ?_⟩
    · intro other member
      rw [List.mem_singleton.mp member]
      exact known
    · rw [follow_steps _ (List.cons_ne_nil _ _), lookup_singleton, Option.bind_some]
      cases rest with
      | nil => rfl
      | cons field later =>
          obtain ⟨shape, isShape, leads⟩ := leads field later rfl
          have related := rel_resultAlong later field
          rw [isShape] at related
          obtain ⟨tree, isTree, reaches⟩ := exists_of_some_rel related
          rw [List.tail_cons, Tree.follow_cons, isTree]
          exact reaches leads

end Steps

section CheckChain

variable {stepNames : List String}

/-- The names that `checkChain` lets lead on from a member. -/
def MemberShape.Allows (shape : MemberShape) (rest : List String) : Prop :=
  shape = .scalar → rest = []

/-- A shape leads as far as it allows, unless it is that of a map of texts. -/
theorem MemberShape.leads_iff {shape : MemberShape} {rest : List String} :
    shape.Leads rest ↔ shape.Allows rest ∧ ¬ (shape = .entries ∧ 1 < rest.length) := by
  cases shape <;> simp [Leads, Allows]

/-- The field is one of `req`, and its shape allows the names behind it. -/
def ReqAllows (field : String) (rest : List String) : Prop :=
  ∃ shape, reqShape field = some shape ∧ shape.Allows rest

/-- No field of a step is named, or one whose shape allows the names behind it. -/
def StepAllows (rest : List String) : Prop :=
  ∀ field later, rest = field :: later → ∃ shape, stepShape field = some shape ∧ shape.Allows later

/-- The kinds of `scalarFields` are the scalar shapes. -/
theorem bind_scalar_eq_none_iff {kind : Option String} {shape : MemberShape} {rest : List String}
    {fault : String → String → ReferenceError} (isScalar : shape = .scalar ↔ kind ≠ none) :
    (kind.bind fun kind => rest.head?.map (fault kind)) = none ↔ shape.Allows rest := by
  rw [MemberShape.Allows, isScalar]
  cases kind with
  | none => simp
  | some kind => simp

/-- A field of `req` has a shape exactly if it is listed. -/
theorem reqShape_cases (field : String) :
    field ∉ reqFields ∧ reqShape field = none ∨
      field ∈ reqFields ∧
        ∃ shape, reqShape field = some shape ∧ (shape = .scalar ↔ reqScalar field ≠ none) := by
  by_cases known : field ∈ reqFields
  · refine .inr ⟨known, ?_⟩
    simp only [reqFields, List.mem_cons, List.not_mem_nil, or_false] at known
    rcases known with rfl | rfl | rfl | rfl | rfl | rfl | rfl | rfl
    all_goals exact ⟨_, rfl, by decide⟩
  · refine .inl ⟨known, ?_⟩
    rw [reqShape, List.lookup_eq_none_iff]
    intro entry member
    exact bne_iff_ne.mpr fun isField => known (isField ▸ List.mem_map_of_mem (f := Prod.fst) member)

/-- A field of a step has a shape exactly if it is listed. -/
theorem stepShape_cases (field : String) :
    field ∉ stepFields ∧ stepShape field = none ∨
      field ∈ stepFields ∧
        ∃ shape, stepShape field = some shape ∧ (shape = .scalar ↔ stepScalar field ≠ none) := by
  by_cases known : field ∈ stepFields
  · refine .inr ⟨known, ?_⟩
    simp only [stepFields, List.mem_cons, List.not_mem_nil, or_false] at known
    rcases known with rfl | rfl | rfl
    all_goals exact ⟨_, rfl, by decide⟩
  · refine .inl ⟨known, ?_⟩
    rw [stepShape, List.lookup_eq_none_iff]
    intro entry member
    exact bne_iff_ne.mpr fun isField => known (isField ▸ List.mem_map_of_mem (f := Prod.fst) member)

/-- A chain under `req` is accepted exactly if its field allows it. -/
theorem checkChain_req_iff {root field : String} {rest : List String}
    (isReq : root = "req" ∨ root = "request") :
    checkChain stepNames false (root :: field :: rest) = none ↔ ReqAllows field rest := by
  unfold checkChain
  dsimp only
  rw [if_pos isReq, ReqAllows]
  rcases reqShape_cases field with ⟨unknown, noShape⟩ | ⟨known, shape, isShape, isScalar⟩
  · rw [if_pos unknown, noShape]
    simp
  · rw [if_neg (not_not_intro known), bind_scalar_eq_none_iff isScalar, isShape]
    simp

/-- A chain under a step is accepted exactly if its field allows it. -/
theorem checkChain_steps_iff {step : String} {rest : List String} :
    checkChain stepNames false ("steps" :: step :: rest) = none ↔ StepAllows rest := by
  unfold checkChain
  dsimp only
  rw [if_neg (by decide), if_pos rfl, if_neg (by simp), StepAllows]
  cases rest with
  | nil => simp
  | cons field later =>
      dsimp only
      rcases stepShape_cases field with ⟨unknown, noShape⟩ | ⟨known, shape, isShape, isScalar⟩
      · rw [if_pos unknown]
        simp [noShape]
      · rw [if_neg (not_not_intro known), bind_scalar_eq_none_iff isScalar]
        simp [isShape]

/-- Names that lead nowhere and that `checkChain` lets pass: behind no step of the template, or
behind an entry of a map of texts. -/
inductive Unseen (stepNames : List String) : List String → Prop where
  | step {step : String} {rest : List String} (unknown : step ∉ stepNames)
      (allowed : StepAllows rest) : Unseen stepNames ("steps" :: step :: rest)
  | entry {root field : String} {rest : List String} (isReq : root = "req" ∨ root = "request")
      (isMap : reqShape field = some .entries) (deep : 1 < rest.length) :
      Unseen stepNames (root :: field :: rest)
  | header {step field : String} {rest : List String} (isMap : stepShape field = some .entries)
      (deep : 1 < rest.length) : Unseen stepNames ("steps" :: step :: field :: rest)

/-- A chain under `req` is produced exactly if it is allowed and seen. -/
theorem produced_req_iff_not_unseen {root field : String} {rest : List String}
    (isReq : root = "req" ∨ root = "request") :
    Produced stepNames (root :: field :: rest) ↔
      ReqAllows field rest ∧ ¬ Unseen stepNames (root :: field :: rest) := by
  rw [produced_req_iff isReq]
  constructor
  · rintro ⟨shape, isShape, leads⟩
    obtain ⟨allows, shallow⟩ := MemberShape.leads_iff.mp leads
    refine ⟨⟨shape, isShape, allows⟩, fun unseen => ?_⟩
    cases unseen with
    | step | header => simp at isReq
    | entry _ isMap deep => exact shallow ⟨Option.some.inj (isShape.symm.trans isMap), deep⟩
  · rintro ⟨⟨shape, isShape, allows⟩, seen⟩
    refine ⟨shape, isShape, MemberShape.leads_iff.mpr ⟨allows, ?_⟩⟩
    rintro ⟨rfl, deep⟩
    exact seen (.entry isReq isShape deep)

/-- A chain under a step is produced exactly if it is allowed and seen. -/
theorem produced_steps_iff_not_unseen {step : String} {rest : List String} :
    Produced stepNames ("steps" :: step :: rest) ↔
      StepAllows rest ∧ ¬ Unseen stepNames ("steps" :: step :: rest) := by
  rw [produced_steps_iff]
  constructor
  · rintro ⟨known, leads⟩
    refine ⟨fun field later isRest => ?_, fun unseen => ?_⟩
    · obtain ⟨shape, isShape, leads⟩ := leads field later isRest
      exact ⟨shape, isShape, (MemberShape.leads_iff.mp leads).1⟩
    · cases unseen with
      | step unknown => exact unknown known
      | entry isReq => simp at isReq
      | header isMap deep =>
          obtain ⟨shape, isShape, leads⟩ := leads _ _ rfl
          exact (MemberShape.leads_iff.mp leads).2
            ⟨Option.some.inj (isShape.symm.trans isMap), deep⟩
  · rintro ⟨allowed, seen⟩
    refine ⟨not_not.mp fun unknown => seen (.step unknown allowed), fun field later isRest => ?_⟩
    obtain ⟨shape, isShape, allows⟩ := allowed field later isRest
    refine ⟨shape, isShape, MemberShape.leads_iff.mpr ⟨allows, ?_⟩⟩
    rintro ⟨rfl, deep⟩
    subst isRest
    exact seen (.header isShape deep)

/-- At a root of the environment, `checkChain` accepts the names that are produced and those that
it lets pass. -/
theorem produced_iff {root field : String} {rest : List String} (isRoot : root ∈ lintNames) :
    Produced stepNames (root :: field :: rest) ↔
      checkChain stepNames false (root :: field :: rest) = none ∧
        ¬ Unseen stepNames (root :: field :: rest) := by
  simp only [lintNames, List.mem_cons, List.not_mem_nil, or_false] at isRoot
  rcases isRoot with isReq | isRequest | rfl
  · rw [checkChain_req_iff (.inl isReq), produced_req_iff_not_unseen (.inl isReq)]
  · rw [checkChain_req_iff (.inr isRequest), produced_req_iff_not_unseen (.inr isRequest)]
  · rw [checkChain_steps_iff, produced_steps_iff_not_unseen]

/-- `checkChain` accepts the names that it lets pass. -/
theorem checkChain_of_unseen {names : List String} (unseen : Unseen stepNames names) :
    checkChain stepNames false names = none := by
  cases unseen with
  | step _ allowed => exact checkChain_steps_iff.mpr allowed
  | entry isReq isMap _ => exact (checkChain_req_iff isReq).mpr ⟨_, isMap, nofun⟩
  | header isMap _ =>
      refine checkChain_steps_iff.mpr fun field later isRest => ?_
      obtain ⟨rfl, rfl⟩ := List.cons.inj isRest
      exact ⟨_, isMap, nofun⟩

/-- `checkChain` accepts what is not at a root of the environment. -/
theorem checkChain_eq_none_of_not_root {root field : String} {rest : List String}
    (other : root ∉ lintNames) : checkChain stepNames false (root :: field :: rest) = none := by
  simp only [lintNames, List.mem_cons, List.not_mem_nil, or_false, not_or] at other
  unfold checkChain
  dsimp only
  rw [if_neg (not_or_intro other.1 other.2.1), if_neg other.2.2]

end CheckChain

end Restitch.Composition
