import Mathlib.Data.List.Perm.Lattice
import Restitch.Std.JsonNumbers

/-!
# What a JSON text denotes

Numbers are taken exactly, the order of the members of an object does not matter, and of
the members with one key the last counts, as `encoding/json` reads them.
-/

namespace Restitch.Std.Json

/-- The value that a JSON text denotes. An object is a function of its keys. -/
inductive Meaning where
  | null
  | bool (value : Bool)
  | number (value : Rat)
  | string (text : List Char)
  | array (items : List Meaning)
  | object (fields : List Char → Option Meaning)

/-- An object with one field set. -/
def Meaning.withField (meaning : Meaning) (key : List Char) (field : Meaning) : Meaning :=
  match meaning with
  | .object fields => .object (Function.update fields key (some field))
  | other => other

section Denotation

variable (number : Number → Rat)

mutual

/-- What a value denotes if its numbers are taken so. -/
def Value.meaningWith : Value → Meaning
  | .null => .null
  | .bool value => .bool value
  | .number value => .number (number value)
  | .string text => .string text
  | .array items => .array (itemsMeaning items)
  | .object members => .object fun key => fieldMeaning members key

def itemsMeaning : List Value → List Meaning
  | [] => []
  | item :: rest => item.meaningWith :: itemsMeaning rest

/-- The last member with a key. -/
def fieldMeaning : List (List Char × Value) → List Char → Option Meaning
  | [], _ => none
  | (other, value) :: rest, key =>
      (fieldMeaning rest key).or (if other = key then some value.meaningWith else none)

end

end Denotation

/-- What a value denotes. -/
def Value.meaning (value : Value) : Meaning := value.meaningWith Number.value

mutual

/-- The numbers of a value. -/
def Value.numbers : Value → List Number
  | .null | .bool _ | .string _ => []
  | .number number => [number]
  | .array items => itemsNumbers items
  | .object members => membersNumbers members

def itemsNumbers : List Value → List Number
  | [] => []
  | item :: rest => item.numbers ++ itemsNumbers rest

def membersNumbers : List (List Char × Value) → List Number
  | [] => []
  | (_, value) :: rest => value.numbers ++ membersNumbers rest

end

mutual

/-- The numbers that what a value denotes has: not those of a member whose key comes
again. -/
def Value.counted : Value → List Number
  | .null | .bool _ | .string _ => []
  | .number number => [number]
  | .array items => itemsCounted items
  | .object members => membersCounted members

def itemsCounted : List Value → List Number
  | [] => []
  | item :: rest => item.counted ++ itemsCounted rest

def membersCounted : List (List Char × Value) → List Number
  | [] => []
  | (key, value) :: rest =>
      (if (rest.map Prod.fst).contains key then [] else value.counted) ++ membersCounted rest

end

mutual

/-- How many arrays and objects are open at once. -/
def Value.depth : Value → Nat
  | .null | .bool _ | .string _ | .number _ => 0
  | .array items => itemsDepth items + 1
  | .object members => membersDepth members + 1

def itemsDepth : List Value → Nat
  | [] => 0
  | item :: rest => max item.depth (itemsDepth rest)

def membersDepth : List (List Char × Value) → Nat
  | [] => 0
  | (_, value) :: rest => max value.depth (membersDepth rest)

end

/-! ### Which numbers matter -/

section Counted

variable {f g : Number → Rat}

/-- A key means nothing exactly if no member has it. -/
theorem fieldMeaning_eq_none_iff {members : List (List Char × Value)} {key : List Char} :
    fieldMeaning f members key = none ↔ key ∉ members.map Prod.fst := by
  induction members with
  | nil => exact iff_of_true rfl List.not_mem_nil
  | cons member rest ih =>
      obtain ⟨other, value⟩ := member
      rw [List.map_cons, List.mem_cons, not_or, ← ih, fieldMeaning, Option.or_eq_none_iff, and_comm]
      simp [eq_comm]

/-- The key of a member has a meaning. -/
theorem exists_fieldMeaning {members : List (List Char × Value)} {key : List Char}
    (member : key ∈ members.map Prod.fst) : ∃ meaning, fieldMeaning f members key = some meaning :=
  Option.ne_none_iff_exists'.mp fun absent => fieldMeaning_eq_none_iff.mp absent member

/-- A member counts unless its key comes again. -/
theorem fieldMeaning_cons_eq_iff {key : List Char} {value : Value}
    {rest : List (List Char × Value)} :
    fieldMeaning f ((key, value) :: rest) = fieldMeaning g ((key, value) :: rest) ↔
      (key ∉ rest.map Prod.fst → value.meaningWith f = value.meaningWith g) ∧
        fieldMeaning f rest = fieldMeaning g rest := by
  constructor
  · intro same
    refine ⟨?_, funext ?_⟩
    · intro last
      have here := congrFun same key
      rw [fieldMeaning, fieldMeaning, fieldMeaning_eq_none_iff.mpr last,
        fieldMeaning_eq_none_iff.mpr last, if_pos rfl, if_pos rfl] at here
      exact Option.some.inj here
    · intro other
      have here := congrFun same other
      rw [fieldMeaning, fieldMeaning] at here
      by_cases member : other ∈ rest.map Prod.fst
      · obtain ⟨first, isFirst⟩ := exists_fieldMeaning (f := f) member
        obtain ⟨second, isSecond⟩ := exists_fieldMeaning (f := g) member
        rw [isFirst, isSecond] at here ⊢
        exact here
      · rw [fieldMeaning_eq_none_iff.mpr member, fieldMeaning_eq_none_iff.mpr member]
  · rintro ⟨here, later⟩
    funext other
    rw [fieldMeaning, fieldMeaning, later]
    by_cases member : key ∈ rest.map Prod.fst
    · by_cases same : key = other
      · obtain ⟨meaning, isMeaning⟩ := exists_fieldMeaning (f := g) (same ▸ member)
        rw [isMeaning, Option.some_or, Option.some_or]
      · rw [if_neg same, if_neg same]
    · rw [here member]

mutual

/-- Two readings of the numbers give one meaning exactly if they agree on the numbers that
count. -/
theorem meaningWith_eq_iff : ∀ value : Value,
    value.meaningWith f = value.meaningWith g ↔ ∀ number ∈ value.counted, f number = g number
  | .null => by simp [Value.meaningWith, Value.counted]
  | .bool value => by simp [Value.meaningWith, Value.counted]
  | .string text => by simp [Value.meaningWith, Value.counted]
  | .number number => by simp [Value.meaningWith, Value.counted]
  | .array items => by
      rw [Value.meaningWith, Value.meaningWith, Value.counted, Meaning.array.injEq]
      exact itemsMeaning_eq_iff items
  | .object members => by
      rw [Value.meaningWith, Value.meaningWith, Value.counted, Meaning.object.injEq]
      exact fieldMeaning_eq_iff members

/-- Two readings of the numbers give items one meaning exactly if they agree on those that count. -/
theorem itemsMeaning_eq_iff : ∀ items : List Value,
    itemsMeaning f items = itemsMeaning g items ↔ ∀ number ∈ itemsCounted items, f number = g number
  | [] => by simp [itemsMeaning, itemsCounted]
  | item :: rest => by
      rw [itemsMeaning, itemsMeaning, itemsCounted, List.forall_mem_append, List.cons.injEq,
        meaningWith_eq_iff item, itemsMeaning_eq_iff rest]

/-- Two readings of the numbers give members one meaning exactly if they agree on those that count.
-/
theorem fieldMeaning_eq_iff : ∀ members : List (List Char × Value),
    fieldMeaning f members = fieldMeaning g members ↔
      ∀ number ∈ membersCounted members, f number = g number
  | [] => by simp [fieldMeaning, membersCounted]
  | (key, value) :: rest => by
      rw [fieldMeaning_cons_eq_iff, membersCounted, List.forall_mem_append,
        fieldMeaning_eq_iff rest, meaningWith_eq_iff value]
      by_cases member : key ∈ rest.map Prod.fst
      · simp [member]
      · simp [member]

end

mutual

/-- Every number that counts is a number of the value. -/
theorem mem_numbers_of_mem_counted {number : Number} : ∀ value : Value,
    number ∈ value.counted → number ∈ value.numbers
  | .null, member | .bool _, member | .string _, member => by cases member
  | .number _, member => member
  | .array items, member => mem_itemsNumbers_of_mem_counted items member
  | .object members, member => mem_membersNumbers_of_mem_counted members member

/-- The numbers that count are among those of the items. -/
theorem mem_itemsNumbers_of_mem_counted {number : Number} : ∀ items : List Value,
    number ∈ itemsCounted items → number ∈ itemsNumbers items
  | [], member => by cases member
  | item :: rest, member => by
      rw [itemsCounted, List.mem_append] at member
      rw [itemsNumbers, List.mem_append]
      exact member.imp (mem_numbers_of_mem_counted item) (mem_itemsNumbers_of_mem_counted rest)

/-- The numbers that count are among those of the members. -/
theorem mem_membersNumbers_of_mem_counted {number : Number} :
    ∀ members : List (List Char × Value),
      number ∈ membersCounted members → number ∈ membersNumbers members
  | [], member => by cases member
  | (key, value) :: rest, member => by
      rw [membersCounted, List.mem_append] at member
      rw [membersNumbers, List.mem_append]
      refine member.imp (fun here => ?_) (mem_membersNumbers_of_mem_counted rest)
      split at here
      · cases here
      · exact mem_numbers_of_mem_counted value here

end

/-- The numbers of members are those of their values. -/
theorem mem_membersNumbers {number : Number} {members : List (List Char × Value)} :
    number ∈ membersNumbers members ↔ ∃ member ∈ members, number ∈ member.2.numbers := by
  induction members with
  | nil => simp [membersNumbers]
  | cons member rest ih =>
      obtain ⟨key, value⟩ := member
      simp [membersNumbers, ih]

/-! ### One field set -/

/-- Members without one key mean what they meant, but for this key. -/
theorem fieldMeaning_filter (members : List (List Char × Value)) (key : List Char) :
    fieldMeaning f (members.filter fun member => member.1 ≠ key) =
      Function.update (fieldMeaning f members) key none := by
  funext other
  rw [Function.update_apply]
  induction members with
  | nil => simp [fieldMeaning]
  | cons member rest ih =>
      obtain ⟨first, value⟩ := member
      rw [List.filter_cons]
      by_cases same : first = key
      · subst same
        simp only [ne_eq, not_true_eq_false, decide_false, Bool.false_eq_true, if_false, ih,
          fieldMeaning]
        by_cases here : other = first
        · rw [if_pos here, if_pos here]
        · rw [if_neg here, if_neg here, if_neg (Ne.symm here), Option.or_none]
      · simp only [ne_eq, same, not_false_eq_true, decide_true, if_true, fieldMeaning, ih]
        by_cases here : other = key
        · rw [if_pos here, if_pos here, if_neg (here ▸ same)]
          rfl
        · rw [if_neg here, if_neg here]

/-- With one field set, the numbers of the other members count. -/
theorem update_fieldMeaning_eq_iff {members : List (List Char × Value)} {key : List Char}
    (field : Meaning) :
    Function.update (fieldMeaning f members) key (some field) =
        Function.update (fieldMeaning g members) key (some field) ↔
      ∀ number ∈ membersCounted (members.filter fun member => member.1 ≠ key),
        f number = g number := by
  rw [← fieldMeaning_eq_iff, fieldMeaning_filter, fieldMeaning_filter]
  constructor
  · intro same
    have erased := congrArg (fun fields => Function.update fields key none) same
    simpa only [Function.update_idem] using erased
  · intro same
    have written := congrArg (fun fields => Function.update fields key (some field)) same
    simpa only [Function.update_idem] using written

/-! ### Objects with unique keys -/

/-- Where keys are unique, every member counts. -/
theorem fieldMeaning_of_mem {members : List (List Char × Value)} {key : List Char} {value : Value}
    (unique : (members.map Prod.fst).Nodup) (member : (key, value) ∈ members) :
    fieldMeaning f members key = some (value.meaningWith f) := by
  induction members with
  | nil => cases member
  | cons first rest ih =>
      obtain ⟨other, old⟩ := first
      rw [List.map_cons, List.nodup_cons] at unique
      rw [fieldMeaning]
      rcases List.mem_cons.mp member with here | later
      · obtain ⟨rfl, rfl⟩ := Prod.mk.inj here
        rw [fieldMeaning_eq_none_iff.mpr unique.1, Option.none_or, if_pos rfl]
      · rw [ih unique.2 later, Option.some_or]

/-- The order of members with unique keys does not matter. -/
theorem fieldMeaning_perm {members members' : List (List Char × Value)}
    (unique : (members.map Prod.fst).Nodup) (perm : members.Perm members') :
    fieldMeaning f members' = fieldMeaning f members := by
  funext key
  have keys := perm.map Prod.fst
  by_cases absent : key ∈ members.map Prod.fst
  · obtain ⟨⟨_, value⟩, member, rfl⟩ := List.mem_map.mp absent
    rw [fieldMeaning_of_mem unique member,
      fieldMeaning_of_mem (keys.nodup unique) (perm.subset member)]
  · rw [fieldMeaning_eq_none_iff.mpr absent,
      fieldMeaning_eq_none_iff.mpr fun present => absent (keys.mem_iff.mpr present)]

end Counted

end Restitch.Std.Json
