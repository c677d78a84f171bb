import Restitch.Studio.SchemaForm

/-!
# Edits in the form of a resource (`schema-form.tsx`, `config.go`)

An edit changes the property of its control and nothing else. The property then holds what
the user entered, unless `setKey` takes it for empty or a list is cut at a comma.
-/

namespace Restitch.Studio.Form

open Restitch.Std

variable {Number : Type}

/-- What a property holds once the body is decoded into the artifact. -/
inductive Decoded (Number : Type) where
  /-- `interface{}` or a map of them, nil where the property is missing. -/
  | any (value : Value Number)
  /-- A struct, or a pointer to one. -/
  | group (value : Option (Value Number))
  | entries (entries : Obj Number)
  | items (items : List (Value Number))
  | flag (value : Bool)
  | number (value : Option (Value Number))
  | text (value : Value Number)

/-- The value of a property, or the zero value of its type. -/
def decoded (field : Field) (value : Option (Value Number)) : Decoded Number :=
  match field with
  | .free _ => .any (value.getD .null)
  | .group _ => .group value
  | .map => .entries (entriesOf value)
  | .objects _ | .list _ => .items (itemsOf value)
  | .flag => .flag (match value with | some (.bool checked) => checked | _ => false)
  | .number => .number value
  | .text | .entry => .text (value.getD (.string ""))

/-- What stays of a property when something below it changes. -/
inductive Outline (Number : Type) where
  | leaf (value : Decoded Number)
  | group (present : Bool)
  | entries (names : List String)
  | items (count : Nat)

def outline (field : Field) (value : Option (Value Number)) : Outline Number :=
  match field with
  | .group _ => .group (isPresent value)
  | .map => .entries ((entriesOf value).map Prod.fst)
  | .objects _ => .items (itemsOf value).length
  | field => .leaf (decoded field value)

/-- The property of the body that a path goes through. -/
def FieldPath.key : FieldPath → String
  | .here key | .entry key _ | .inside key _ | .item key _ _ => key

/-- A control at the first path changes what stands at the second one. -/
def FieldPath.Covers : FieldPath → FieldPath → Prop
  | .here key, other => other.key = key
  | .entry key name, .entry key' name' => key' = key ∧ name' = name
  | .inside key path, .inside key' path' => key' = key ∧ path.Covers path'
  | .item key index path, .item key' index' path' =>
      key' = key ∧ index' = index ∧ path.Covers path'
  | _, _ => False

/-- The field at a path and its value. -/
def shown (defs : Defs) (path : FieldPath) (properties : Properties) (obj : Obj Number) :
    Option (Field × Option (Value Number)) :=
  (control defs path properties obj).map fun control => (control.field, control.value)

/-- What the user enters by an edit: a value of the type of the field, written as the control
shows it, or a change of a section, a map or a list. -/
inductive Entered (reader : Reader Number) :
    Field → Option (Value Number) → Edit → Option (Value Number) → Prop where
  | free {json : Bool} {old : Option (Value Number)} {text : String} {value : Value Number}
      (written : trim text ≠ "") (parsed : reader.parse json text = some value) :
      Entered reader (.free json) old (.text text) (some value)
  | opened {properties : Properties} {old : Option (Value Number)} (absent : isPresent old = false) :
      Entered reader (.group properties) old .toggle (some (.object []))
  | closed {properties : Properties} {old : Option (Value Number)} (present : isPresent old = true) :
      Entered reader (.group properties) old .toggle none
  | newEntry {old : Option (Value Number)} {draft : String} (named : trim draft ≠ "")
      (fresh : trim draft ∉ (entriesOf old).map Prod.fst)
      (own : trim draft ∉ Editor.objectPrototype) :
      Entered reader .map old (.addEntry draft)
        (some (.object (setField (trim draft) (.string "") (entriesOf old))))
  | noEntry {old : Option (Value Number)} (name : String) :
      Entered reader .map old (.removeEntry name)
        (some (.object (removeField name (entriesOf old))))
  | entry {old : Option (Value Number)} (text : String) :
      Entered reader .entry old (.text text) (some (.string text))
  | newItem {properties : Option Properties} {old : Option (Value Number)} :
      Entered reader (.objects properties) old .addItem
        (some (.array (itemsOf old ++ [.object []])))
  | noItem {properties : Option Properties} {old : Option (Value Number)} (index : Nat) :
      Entered reader (.objects properties) old (.removeItem index)
        (some (.array ((itemsOf old).eraseIdx index)))
  | texts {old : Option (Value Number)} (items : List String) :
      Entered reader (.list false) old
        (.text (.ofList (writeItems ',' ' ' (items.map String.toList))))
        (some (.array (items.map .string)))
  | numbers {old : Option (Value Number)} (items : List Number) :
      Entered reader (.list true) old
        (.text (.ofList (writeItems ',' ' ' (items.map reader.write))))
        (some (.array (items.map .number)))
  | flag {old : Option (Value Number)} (checked : Bool) :
      Entered reader .flag old (.check checked) (some (.bool checked))
  | number {old : Option (Value Number)} (value : Number) :
      Entered reader .number old (.text (.ofList (reader.write value))) (some (.number value))
  | noNumber {old : Option (Value Number)} : Entered reader .number old (.text "") none
  | text {old : Option (Value Number)} (text : String) :
      Entered reader .text old (.text text) (some (.string text))

/-- `String` and `Number` on finite numbers. -/
structure Reader.Lawful (reader : Reader Number) : Prop where
  read_write : ∀ value, reader.read (reader.write value) = some value
  plain_write : ∀ value, PlainItem isBlank ',' (reader.write value)

/-- The values that a field keeps: a free field drops empty ones, and a list of texts keeps
plain items. -/
def Keeps (field : Field) (value : Option (Value Number)) : Prop :=
  match field, value with
  | .free _, some value => value.isEmpty = false
  | .list false, value =>
      ∀ item ∈ itemsOf value, ∀ text, item = .string text → PlainItem isBlank ',' text.toList
  | _, _ => True

section Emit

/-- What `setKey` stores. -/
def stored : Option (Value Number) → Option (Value Number)
  | none => none
  | some value => if value.isEmpty then none else some value

/-- A list with an item is not empty. -/
theorem stored_set {list : List (Value Number)} {index : Nat} (inList : index < list.length)
    (item : Value Number) :
    stored (some (.array (list.set index item))) = some (.array (list.set index item)) := by
  have nonempty : list.set index item ≠ [] := by
    rw [← List.length_pos_iff, List.length_set]
    exact Nat.lt_of_le_of_lt (Nat.zero_le index) inList
  rw [stored, Value.isEmpty, if_neg (by simpa using nonempty)]

/-- A key that was set has the value that is stored for it, and the others have theirs. -/
theorem lookup_setKey (obj : Obj Number) (key other : String) (value : Option (Value Number)) :
    (setKey obj key value).lookup other = if other = key then stored value else obj.lookup other := by
  cases value with
  | none => exact lookup_removeField key other obj
  | some value =>
      rw [setKey, stored]
      split
      · exact lookup_removeField key other obj
      · exact lookup_setField key other value obj

variable {defs : Defs}

/-- The field of a property. -/
def fieldAt (defs : Defs) (properties : Properties) (key : String) : Option Field :=
  (properties.lookup key).bind (fieldOf defs)

/-- The control of a key shows the value of the key. -/
theorem shown_here (properties : Properties) (obj : Obj Number) (key : String) :
    shown defs (.here key) properties obj =
      (fieldAt defs properties key).map fun field => (field, obj.lookup key) := by
  rw [shown, control, fieldAt]
  cases properties.lookup key with
  | none => rfl
  | some schema => cases found : fieldOf defs schema <;> simp [found]

/-- The control of an entry of a map shows the value of the entry. -/
theorem shown_entry (properties : Properties) (obj : Obj Number) (key name : String) :
    shown defs (.entry key name) properties obj =
      match fieldAt defs properties key, obj.lookup key with
      | some .map, some (.object entries) =>
          (entries.lookup name).map fun value => (.entry, some value)
      | _, _ => none := by
  rw [shown, control, fieldAt]
  cases properties.lookup key with
  | none => rfl
  | some schema =>
      change Option.map _ (match fieldOf defs schema, obj.lookup key with
        | some .map, some (.object entries) => _
        | _, _ => _) = _
      rw [Option.bind_some]
      split
      · next entries _ _ => cases entries.lookup name <;> rfl
      · rfl

/-- The control inside a group shows what it shows of the group. -/
theorem shown_inside (properties : Properties) (obj : Obj Number) (key : String)
    (path : FieldPath) :
    shown defs (.inside key path) properties obj =
      match fieldAt defs properties key, obj.lookup key with
      | some (.group inner), some (.object fields) => shown defs path inner fields
      | _, _ => none := by
  rw [shown, control, fieldAt]
  cases properties.lookup key with
  | none => rfl
  | some schema =>
      change Option.map _ (match fieldOf defs schema, obj.lookup key with
        | some (.group inner), some (.object fields) => _
        | _, _ => _) = _
      rw [Option.bind_some]
      split
      · next inner fields _ _ =>
          rw [shown]
          cases control defs path inner fields <;> rfl
      · rfl

/-- The control inside an item shows what it shows of the item. -/
theorem shown_item (properties : Properties) (obj : Obj Number) (key : String) (index : Nat)
    (path : FieldPath) :
    shown defs (.item key index path) properties obj =
      match fieldAt defs properties key, obj.lookup key with
      | some (.objects (some inner)), some (.array list) =>
          (list[index]?.bind Value.itemFields).bind (shown defs path inner)
      | _, _ => none := by
  rw [shown, control, fieldAt]
  cases properties.lookup key with
  | none => rfl
  | some schema =>
      change Option.map _ (match fieldOf defs schema, obj.lookup key with
        | some (.objects (some inner)), some (.array list) => _
        | _, _ => _) = _
      rw [Option.bind_some]
      split
      · next inner list _ _ =>
          cases list[index]? with
          | none => rfl
          | some item =>
              rw [Option.bind_some]
              change Option.map _ (item.itemFields.bind _) = _
              cases item.itemFields with
              | none => rfl
              | some fields =>
                  rw [Option.bind_some, Option.bind_some, shown]
                  cases control defs path inner fields <;> rfl
      · rfl

/-- What is shown at a path depends on its property only. -/
theorem shown_congr {path : FieldPath} {properties : Properties} {obj obj' : Obj Number}
    (same : obj.lookup path.key = obj'.lookup path.key) :
    shown defs path properties obj = shown defs path properties obj' := by
  cases path with
  | here key => rw [shown_here, shown_here, show obj.lookup key = obj'.lookup key from same]
  | entry key name => rw [shown_entry, shown_entry, show obj.lookup key = obj'.lookup key from same]
  | inside key path => rw [shown_inside, shown_inside, show obj.lookup key = obj'.lookup key from same]
  | item key index path => rw [shown_item, shown_item, show obj.lookup key = obj'.lookup key from same]

section Inversion

variable {properties : Properties} {obj : Obj Number} {key : String} {control' : Control Number}

/-- The control of a key sets the key. -/
theorem of_control_here (rendered : control defs (.here key) properties obj = some control') :
    ∃ field, fieldAt defs properties key = some field ∧
      control' = ⟨field, obj.lookup key, setKey obj key⟩ := by
  obtain ⟨schema, isSchema, rendered⟩ := Option.bind_eq_some_iff.mp rendered
  obtain ⟨field, isField, rendered⟩ := Option.bind_eq_some_iff.mp rendered
  cases rendered
  exact ⟨field, by rw [fieldAt, isSchema, Option.bind_some, isField], rfl⟩

/-- The control of an entry sets the entry of its map. -/
theorem of_control_entry {name : String}
    (rendered : control defs (.entry key name) properties obj = some control') :
    ∃ entries value, fieldAt defs properties key = some .map ∧
      obj.lookup key = some (.object entries) ∧ entries.lookup name = some value ∧
      control' = ⟨.entry, some value, fun next => next.elim obj fun next =>
        setKey obj key (some (.object (setField name next entries)))⟩ := by
  obtain ⟨schema, isSchema, rendered⟩ := Option.bind_eq_some_iff.mp rendered
  split at rendered
  · next entries isField isObject =>
      obtain ⟨value, isValue, rendered⟩ := Option.bind_eq_some_iff.mp rendered
      cases rendered
      exact ⟨entries, value, by rw [fieldAt, isSchema, Option.bind_some, isField], isObject,
        isValue, rfl⟩
  · cases rendered

/-- The control inside a group sets the group. -/
theorem of_control_inside {path : FieldPath}
    (rendered : control defs (.inside key path) properties obj = some control') :
    ∃ inner fields below, fieldAt defs properties key = some (.group inner) ∧
      obj.lookup key = some (.object fields) ∧ control defs path inner fields = some below ∧
      control' = ⟨below.field, below.value, fun next =>
        setKey obj key (some (.object (below.emit next)))⟩ := by
  obtain ⟨schema, isSchema, rendered⟩ := Option.bind_eq_some_iff.mp rendered
  split at rendered
  · next inner fields isField isObject =>
      obtain ⟨below, isBelow, rendered⟩ := Option.bind_eq_some_iff.mp rendered
      cases rendered
      exact ⟨inner, fields, below, by rw [fieldAt, isSchema, Option.bind_some, isField], isObject,
        isBelow, rfl⟩
  · cases rendered

/-- The control inside an item sets the item of its list. -/
theorem of_control_item {index : Nat} {path : FieldPath}
    (rendered : control defs (.item key index path) properties obj = some control') :
    ∃ inner list item fields below, fieldAt defs properties key = some (.objects (some inner)) ∧
      obj.lookup key = some (.array list) ∧ list[index]? = some item ∧
      item.itemFields = some fields ∧ control defs path inner fields = some below ∧
      control' = ⟨below.field, below.value, fun next =>
        setKey obj key (some (.array (list.set index (.object (below.emit next)))))⟩ := by
  obtain ⟨schema, isSchema, rendered⟩ := Option.bind_eq_some_iff.mp rendered
  split at rendered
  · next inner list isField isArray =>
      obtain ⟨item, isItem, rendered⟩ := Option.bind_eq_some_iff.mp rendered
      obtain ⟨fields, isFields, rendered⟩ := Option.bind_eq_some_iff.mp rendered
      obtain ⟨below, isBelow, rendered⟩ := Option.bind_eq_some_iff.mp rendered
      cases rendered
      exact ⟨inner, list, item, fields, below,
        by rw [fieldAt, isSchema, Option.bind_some, isField], isArray, isItem, isFields, isBelow,
        rfl⟩
  · cases rendered

end Inversion

/-- A body after an edit at a path: apart from it everything is as before, and what stands
above it has the same outline. -/
def SameAt (defs : Defs) (path other : FieldPath) (properties : Properties)
    (before after : Obj Number) : Prop :=
  shown defs other properties after = shown defs other properties before ∨
    other.Covers path ∧ (shown defs other properties after).map (fun at_ => outline at_.1 at_.2) =
      (shown defs other properties before).map fun at_ => outline at_.1 at_.2

/-- Setting a property leaves the other ones alone. -/
theorem sameAt_setKey {path other : FieldPath} {key : String} (apart : other.key ≠ key)
    (properties : Properties) (obj : Obj Number) (value : Option (Value Number)) :
    SameAt defs path other properties obj (setKey obj key value) :=
  .inl (shown_congr ((lookup_setKey obj key other.key value).trans (if_neg apart)))

/-- An edit emits nothing new outside its own path. -/
theorem sameAt_of_control {path other : FieldPath} {properties : Properties} {obj : Obj Number}
    {control' : Control Number} (rendered : control defs path properties obj = some control')
    (next : Option (Value Number)) (apart : ¬ path.Covers other) :
    SameAt defs path other properties obj (control'.emit next) := by
  induction path generalizing other properties obj control' with
  | here key =>
      obtain ⟨field, -, rfl⟩ := of_control_here rendered
      exact sameAt_setKey apart properties obj next
  | entry key name =>
      obtain ⟨entries, value, isMap, isObject, isValue, rfl⟩ := of_control_entry rendered
      cases next with
      | none => exact .inl rfl
      | some next =>
          change SameAt defs _ other properties obj
            (setKey obj key (some (.object (setField name next entries))))
          by_cases same : other.key = key
          · have after := lookup_setKey obj key key (some (.object (setField name next entries)))
            rw [if_pos rfl] at after
            cases other with
            | here key' =>
                obtain rfl : key' = key := same
                refine .inr ⟨rfl, ?_⟩
                rw [shown_here, shown_here, after, isMap, isObject]
                exact congrArg (fun names => some (Outline.entries names))
                  (map_fst_setField isValue)
            | entry key' name' =>
                obtain rfl : key' = key := same
                have differs : name' ≠ name := fun same => apart ⟨rfl, same⟩
                refine .inl ?_
                rw [shown_entry, shown_entry, after, isMap, isObject]
                change Option.map _ ((setField name next entries).lookup name') =
                  Option.map _ (entries.lookup name')
                rw [lookup_setField, if_neg differs]
            | inside key' path =>
                obtain rfl : key' = key := same
                refine .inl ?_
                rw [shown_inside, shown_inside, isMap]
            | item key' index path =>
                obtain rfl : key' = key := same
                refine .inl ?_
                rw [shown_item, shown_item, isMap]
          · exact sameAt_setKey same properties obj _
  | inside key path ih =>
      obtain ⟨inner, fields, below, isGroup, isObject, isBelow, rfl⟩ := of_control_inside rendered
      change SameAt defs _ other properties obj
        (setKey obj key (some (.object (below.emit next))))
      by_cases same : other.key = key
      · have after := lookup_setKey obj key key (some (.object (below.emit next)))
        rw [if_pos rfl] at after
        cases other with
        | here key' =>
            obtain rfl : key' = key := same
            refine .inr ⟨rfl, ?_⟩
            rw [shown_here, shown_here, after, isGroup, isObject]
            rfl
        | entry key' name =>
            obtain rfl : key' = key := same
            refine .inl ?_
            rw [shown_entry, shown_entry, isGroup]
        | inside key' path' =>
            obtain rfl : key' = key := same
            have apartBelow : ¬ path.Covers path' := fun covers => apart ⟨rfl, covers⟩
            rw [SameAt, shown_inside, shown_inside, isGroup, isObject, after]
            rcases ih isBelow apartBelow with kept | ⟨above, outlined⟩
            · exact .inl kept
            · exact .inr ⟨⟨rfl, above⟩, outlined⟩
        | item key' index path' =>
            obtain rfl : key' = key := same
            refine .inl ?_
            rw [shown_item, shown_item, isGroup]
      · exact sameAt_setKey same properties obj _
  | item key index path ih =>
      obtain ⟨inner, list, item, fields, below, isObjects, isArray, isItem, isFields, isBelow,
        rfl⟩ := of_control_item rendered
      change SameAt defs _ other properties obj
        (setKey obj key (some (.array (list.set index (.object (below.emit next))))))
      have inList : index < list.length := (List.getElem?_eq_some_iff.mp isItem).1
      by_cases same : other.key = key
      · have after := lookup_setKey obj key key
          (some (.array (list.set index (.object (below.emit next)))))
        rw [if_pos rfl, stored_set inList] at after
        cases other with
        | here key' =>
            obtain rfl : key' = key := same
            refine .inr ⟨rfl, ?_⟩
            rw [shown_here, shown_here, after, isObjects, isArray]
            exact congrArg (fun count => some (Outline.items count)) (List.length_set)
        | entry key' name =>
            obtain rfl : key' = key := same
            refine .inl ?_
            rw [shown_entry, shown_entry, isObjects]
        | inside key' path' =>
            obtain rfl : key' = key := same
            refine .inl ?_
            rw [shown_inside, shown_inside, isObjects]
        | item key' index' path' =>
            obtain rfl : key' = key := same
            rw [SameAt, shown_item, shown_item, isObjects, isArray, after]
            by_cases sameIndex : index' = index
            · subst sameIndex
              have apartBelow : ¬ path.Covers path' := fun covers => apart ⟨rfl, rfl, covers⟩
              dsimp only
              rw [List.getElem?_set_self inList, isItem, Option.bind_some, Option.bind_some,
                isFields]
              rcases ih isBelow apartBelow with kept | ⟨above, outlined⟩
              · exact .inl kept
              · exact .inr ⟨⟨rfl, rfl, above⟩, outlined⟩
            · refine .inl ?_
              dsimp only
              rw [List.getElem?_set_ne (Ne.symm sameIndex)]
      · exact sameAt_setKey same properties obj _

/-- What a field holds after it emits. Only an entry of a map is not set by `setKey`. -/
def kept (field : Field) (next : Option (Value Number)) : Option (Value Number) :=
  match field with
  | .entry => next
  | _ => stored next

/-- Every field but an entry keeps what is stored. -/
theorem kept_of_ne {field : Field} (other : field ≠ .entry) (next : Option (Value Number)) :
    kept field next = stored next := by
  cases field <;> first | rfl | exact absurd rfl other

/-- An entry is never the field of a property. -/
theorem fieldAt_ne_entry {properties : Properties} {key : String} {field : Field}
    (isField : fieldAt defs properties key = some field) : field ≠ .entry := by
  rintro rfl
  obtain ⟨schema, -, isField⟩ := Option.bind_eq_some_iff.mp isField
  unfold fieldOf at isField
  split at isField
  · cases isField
  · cases isField
  · split at isField
    · cases isField
    · split at isField <;> cases isField
    · unfold listField at isField
      split at isField <;> cases isField
    all_goals cases isField

/-- After an edit, its path holds what was emitted. -/
theorem shown_emit {path : FieldPath} {properties : Properties} {obj : Obj Number}
    {control' : Control Number} (rendered : control defs path properties obj = some control')
    {next : Option (Value Number)} (given : control'.field = .entry → next.isSome = true) :
    shown defs path properties (control'.emit next) =
      some (control'.field, kept control'.field next) := by
  induction path generalizing properties obj control' with
  | here key =>
      obtain ⟨field, isField, rfl⟩ := of_control_here rendered
      rw [shown_here, isField, lookup_setKey, if_pos rfl, kept_of_ne (fieldAt_ne_entry isField)]
      rfl
  | entry key name =>
      obtain ⟨entries, value, isMap, isObject, isValue, rfl⟩ := of_control_entry rendered
      obtain ⟨next, rfl⟩ := Option.isSome_iff_exists.mp (given rfl)
      have after := lookup_setKey obj key key (some (.object (setField name next entries)))
      rw [if_pos rfl] at after
      change shown defs _ properties (setKey obj key (some (.object (setField name next entries)))) = _
      rw [shown_entry, after, isMap]
      change Option.map _ ((setField name next entries).lookup name) = _
      rw [lookup_setField, if_pos rfl]
      rfl
  | inside key path ih =>
      obtain ⟨inner, fields, below, isGroup, isObject, isBelow, rfl⟩ := of_control_inside rendered
      have after := lookup_setKey obj key key (some (.object (below.emit next)))
      rw [if_pos rfl] at after
      change shown defs _ properties (setKey obj key (some (.object (below.emit next)))) = _
      rw [shown_inside, after, isGroup]
      exact ih isBelow given
  | item key index path ih =>
      obtain ⟨inner, list, item, fields, below, isObjects, isArray, isItem, isFields, isBelow,
        rfl⟩ := of_control_item rendered
      have inList : index < list.length := (List.getElem?_eq_some_iff.mp isItem).1
      have after := lookup_setKey obj key key
        (some (.array (list.set index (.object (below.emit next)))))
      rw [if_pos rfl, stored_set inList] at after
      change shown defs _ properties
        (setKey obj key (some (.array (list.set index (.object (below.emit next)))))) = _
      rw [shown_item, after, isObjects]
      dsimp only
      rw [List.getElem?_set_self inList]
      exact ih isBelow given

end Emit

section Change

variable {reader : Reader Number}

/-- A list that is stored has its items. -/
@[simp] theorem itemsOf_stored (items : List (Value Number)) :
    itemsOf (stored (some (.array items))) = items := by
  cases items <;> rfl

/-- A free field keeps what is not empty. -/
theorem decoded_free_iff (json : Bool) (value : Value Number) :
    decoded (.free json) (stored (some value)) = decoded (.free json) (some value) ↔
      value.isEmpty = false := by
  rw [stored]
  split
  · next empty =>
      rw [empty]
      refine ⟨fun same => ?_, fun no => by cases no⟩
      injection same with same
      cases value <;> cases same
      cases empty
  · next full => exact ⟨fun _ => Bool.eq_false_of_not_eq_true full, fun _ => rfl⟩

/-- The texts of a list are read back exactly when all of them are plain. -/
theorem readList_texts_iff (items : List String) :
    reader.readList false (.ofList (writeItems ',' ' ' (items.map String.toList))) =
        items.map .string ↔
      ∀ item ∈ items, PlainItem isBlank ',' item.toList := by
  let text (part : List Char) : Value Number := .string (.ofList part)
  have again : (items.map String.toList).map text = items.map .string := by
    rw [List.map_map]
    exact List.map_congr_left fun item _ => congrArg Value.string String.ofList_toList
  have injective : Function.Injective text :=
    fun _ _ same => String.ofList_inj.mp (Value.string.inj same)
  rw [Reader.readList, String.toList_ofList, if_neg Bool.false_ne_true, ← again,
    (List.map_injective_iff.mpr injective).eq_iff, readItems_writeItems_iff (by decide) (by decide)]
  exact List.forall_mem_map

/-- Numbers are always read back. -/
theorem readList_numbers (lawful : reader.Lawful) (items : List Number) :
    reader.readList true (.ofList (writeItems ',' ' ' (items.map reader.write))) =
      items.map .number := by
  rw [Reader.readList, String.toList_ofList, if_pos rfl,
    readItems_writeItems (by decide) (by decide)
      (List.forall_mem_map.mpr fun value _ => lawful.plain_write value)]
  induction items with
  | nil => rfl
  | cons value rest ih =>
      rw [List.map_cons, List.filterMap_cons, lawful.read_write, List.map_cons]
      exact congrArg (Value.number value :: ·) ih

/-- What the user enters is emitted, and kept exactly if the field keeps such values. -/
theorem change_of_entered (lawful : reader.Lawful) {field : Field} {old v : Option (Value Number)}
    {edit : Edit} (entered : Entered reader field old edit v) :
    ∃ next, change reader field old edit = some next ∧ (field = .entry → next.isSome = true) ∧
      (decoded field (kept field next) = decoded field v ↔ Keeps field v) := by
  cases entered with
  | free written parsed =>
      refine ⟨_, by rw [change, if_neg written, parsed, Option.map_some], nofun, ?_⟩
      exact decoded_free_iff _ _
  | opened absent =>
      exact ⟨_, by rw [change, absent, if_neg Bool.false_ne_true], nofun, iff_of_true rfl trivial⟩
  | closed present =>
      exact ⟨_, by rw [change, present, if_pos rfl], nofun, iff_of_true rfl trivial⟩
  | newEntry named fresh own =>
      exact ⟨some (.object _), if_neg (by simp [named, fresh, own]), nofun, iff_of_true rfl trivial⟩
  | noEntry name =>
      refine ⟨_, rfl, nofun, iff_of_true ?_ trivial⟩
      by_cases last : removeField name (entriesOf old) = []
      · rw [if_pos last, last]
        rfl
      · rw [if_neg last]
        rfl
  | entry text => exact ⟨_, rfl, fun _ => rfl, iff_of_true rfl trivial⟩
  | newItem =>
      exact ⟨_, rfl, nofun, iff_of_true (congrArg Decoded.items (itemsOf_stored _)) trivial⟩
  | noItem index =>
      exact ⟨_, rfl, nofun, iff_of_true (congrArg Decoded.items (itemsOf_stored _)) trivial⟩
  | texts items =>
      refine ⟨_, rfl, nofun, ?_⟩
      change Decoded.items (itemsOf (stored (some (.array _)))) = .items (items.map .string) ↔
        ∀ item ∈ items.map Value.string, _
      rw [itemsOf_stored, Decoded.items.injEq, readList_texts_iff, List.forall_mem_map]
      refine forall₂_congr fun item _ => ⟨?_, fun plain => plain item rfl⟩
      rintro plain text same
      cases same
      exact plain
  | numbers items =>
      refine ⟨_, rfl, nofun, iff_of_true ?_ trivial⟩
      change Decoded.items (itemsOf (stored (some (.array _)))) = .items (items.map .number)
      rw [itemsOf_stored, readList_numbers lawful]
  | flag checked => exact ⟨_, rfl, nofun, iff_of_true (by cases checked <;> rfl) trivial⟩
  | number value =>
      refine ⟨some (.number value), ?_, nofun, iff_of_true rfl trivial⟩
      have written : String.ofList (reader.write value) ≠ "" := fun empty =>
        (lawful.plain_write value).ne_nil (String.ofList_inj.mp empty)
      rw [change, if_neg written, String.toList_ofList, lawful.read_write]
      rfl
  | noNumber => exact ⟨_, rfl, nofun, iff_of_true rfl trivial⟩
  | text text =>
      refine ⟨_, rfl, nofun, iff_of_true ?_ trivial⟩
      change decoded .text (if decide (text = "") then none else some (.string text)) = _
      by_cases empty : text = ""
      · subst empty
        rfl
      · rw [if_neg (by simpa using empty)]

end Change

section Form

/-- The field at a path of a body, and its value. -/
def shownAt (defs : Defs) (root : Schema) (path : FieldPath) (body : Obj Number) :
    Option (Field × Option (Value Number)) :=
  (propertiesOf defs root).bind fun properties => shown defs path properties body

/-- The decoded body has a value at a path. -/
def HasAt (defs : Defs) (root : Schema) (path : FieldPath) (field : Field)
    (v : Option (Value Number)) (body : Obj Number) : Prop :=
  ∃ value, shownAt defs root path body = some (field, value) ∧ decoded field value = decoded field v

/-- An edit at a path leaves the other ones as they are, and the outline of what is above it. -/
structure OnlyAt (defs : Defs) (root : Schema) (path : FieldPath) (before after : Obj Number) :
    Prop where
  apart : ∀ other : FieldPath, ¬ path.Covers other → ¬ other.Covers path →
    shownAt defs root other after = shownAt defs root other before
  above : ∀ other : FieldPath, ¬ path.Covers other → other.Covers path →
    (shownAt defs root other after).map (fun at_ => outline at_.1 at_.2) =
      (shownAt defs root other before).map fun at_ => outline at_.1 at_.2

/-- The frame: whatever a control emits, an edit changes nothing but its own path. -/
theorem onlyAt_of_controlAt {defs : Defs} {root : Schema} {path : FieldPath} {body : Obj Number}
    {control' : Control Number} (rendered : controlAt defs root path body = some control')
    (next : Option (Value Number)) : OnlyAt defs root path body (control'.emit next) := by
  obtain ⟨properties, isProperties, rendered⟩ := Option.bind_eq_some_iff.mp rendered
  constructor
  · intro other apart below
    rw [shownAt, shownAt, isProperties]
    rcases sameAt_of_control rendered next apart with same | ⟨above, -⟩
    · exact same
    · exact absurd above below
  · intro other apart _
    rw [shownAt, shownAt, isProperties]
    rcases sameAt_of_control rendered next apart with same | ⟨-, same⟩
    · exact congrArg _ same
    · exact same

/-- What an edit emits changes its own path only, and holds the value there exactly if the
field keeps such values. -/
theorem formChange_of_entered {reader : Reader Number} (lawful : reader.Lawful) {defs : Defs}
    {root : Schema} {path : FieldPath} {body : Obj Number} {control' : Control Number}
    (rendered : controlAt defs root path body = some control') {edit : Edit}
    {v : Option (Value Number)} (entered : Entered reader control'.field control'.value edit v) :
    ∃ emitted, formChange reader defs root path body edit = some emitted ∧
      OnlyAt defs root path body emitted ∧
      (HasAt defs root path control'.field v emitted ↔ Keeps control'.field v) := by
  obtain ⟨next, changes, given, keeps⟩ := change_of_entered lawful entered
  refine ⟨control'.emit next, ?_, onlyAt_of_controlAt rendered next, ?_⟩
  · rw [formChange, rendered]
    change (change reader control'.field control'.value edit).bind _ = _
    rw [changes]
    rfl
  rw [← keeps]
  obtain ⟨properties, isProperties, rendered⟩ := Option.bind_eq_some_iff.mp rendered
  have after : shownAt defs root path (control'.emit next) =
      some (control'.field, kept control'.field next) := by
    rw [shownAt, isProperties]
    exact shown_emit rendered given
  constructor
  · rintro ⟨value, found, same⟩
    cases after.symm.trans found
    exact same
  · intro same
    exact ⟨_, after, same⟩

/-- For every schema, every body, every control that its form shows and every value that the
user enters there: the body that is emitted has the value at the path and is otherwise as
before exactly if the field keeps such values. -/
theorem form_edit_exact {reader : Reader Number} (lawful : reader.Lawful) {defs : Defs}
    {root : Schema} {path : FieldPath} {body : Obj Number} {control' : Control Number}
    (rendered : controlAt defs root path body = some control') {edit : Edit}
    {v : Option (Value Number)} (entered : Entered reader control'.field control'.value edit v) :
    ∃ emitted, formChange reader defs root path body edit = some emitted ∧
      (HasAt defs root path control'.field v emitted ∧ OnlyAt defs root path body emitted ↔
        Keeps control'.field v) := by
  obtain ⟨emitted, changes, onlyAt, keeps⟩ := formChange_of_entered lawful rendered entered
  exact ⟨emitted, changes, (and_iff_left onlyAt).trans keeps⟩

end Form

section Steps

/-- A digit is no blank. -/
theorem isBlank_of_isDigit {c : Char} (digit : c.isDigit = true) : isBlank c = false := by
  refine Bool.eq_false_of_not_eq_true fun blank => ?_
  rcases (Bool.or_eq_true _ _).mp blank with listed | between
  · simp only [List.mem_cons, List.not_mem_nil, or_false, decide_eq_true_eq] at listed
    rcases listed with rfl | rfl | rfl | rfl | rfl | rfl | rfl | rfl | rfl | rfl | rfl | rfl | rfl | rfl
    all_goals exact absurd digit (by decide)
  · have low : c.val.toNat ≤ 57 :=
      UInt32.le_iff_toNat_le.mp (of_decide_eq_true ((Bool.and_eq_true _ _).mp digit).2)
    have high : 0x2000 ≤ c.val.toNat := UInt32.le_iff_toNat_le.mp
      (of_decide_eq_true ((Bool.and_eq_true _ _).mp between).1)
    omega

/-- Texts without blanks and commas are plain. -/
theorem plainItem_of_forall {item : List Char} (nonempty : item ≠ [])
    (free : ∀ c ∈ item, c.isDigit = true) : PlainItem isBlank ',' item where
  ne_nil := nonempty
  unseparated := fun comma => by cases free ',' comma
  trimmed_eq := by
    have front : item.dropWhile isBlank = item := by
      cases item with
      | nil => rfl
      | cons c rest =>
          apply List.dropWhile_cons_of_neg
          rw [isBlank_of_isDigit (free c List.mem_cons_self)]
          exact Bool.false_ne_true
    rw [trimmed, front, List.rdropWhile_eq_self_iff]
    intro _
    rw [isBlank_of_isDigit (free _ (List.getLast_mem _))]
    exact Bool.false_ne_true

/-- Natural numbers in decimal, and the texts of two values. -/
def natReader : Reader Nat where
  write := Nat.toDigits 10
  read := fun text => if text ≠ [] ∧ text.all Char.isDigit then some (Nat.ofDigitChars 10 text 0)
    else none
  parse := fun _ text =>
    if text = "false" then some (.bool false) else if text = "[]" then some (.array []) else none

theorem natReader_lawful : natReader.Lawful where
  read_write := fun value => by
    have digits : (Nat.toDigits 10 value).all Char.isDigit = true :=
      List.all_eq_true.mpr fun _ member =>
        Nat.isDigit_of_mem_toDigits (by decide) (by decide) member
    change (if _ then some (Nat.ofDigitChars 10 (Nat.toDigits 10 value) 0) else none) = some value
    rw [if_pos ⟨Nat.toDigits_ne_nil, digits⟩, Nat.ofDigitChars_toDigits (by decide) (by decide)]
  plain_write := fun value => plainItem_of_forall Nat.toDigits_ne_nil fun _ member =>
    Nat.isDigit_of_mem_toDigits (by decide) (by decide) member

/-- The schema of an error rule, of a step and of a composition, less their other fields. -/
def stepDefs : Defs :=
  [("composition.ErrorRule", .node none (some .object)
      (some [("statuses", .node none (some .array) none none
          (some (.node none (some .integer) none none none))), ("body", .boolean true)])
      (some (.boolean false)) none),
    ("composition.Step", .node none (some .object)
      (some [("depends_on", .node none (some .array) none none
          (some (.node none (some .string) none none none))),
        ("error_rules", .node none (some .array) none none
          (some (.node (some "composition.ErrorRule") none none none none)))])
      (some (.boolean false)) none),
    ("composition.Composition", .node none (some .object)
      (some [("steps", .node none (some .array) none none
          (some (.node (some "composition.Step") none none none none)))])
      (some (.boolean false)) none)]

def compositionSchema : Schema := .node (some "composition.Composition") none none none none

/-- A composition with one step, and one rule for its errors. -/
def stepBody : Obj Nat :=
  [("steps", .array [.object [("depends_on", .array [.string "a,b"]), ("error_rules", .array
    [.object [("statuses", .array [.number 404]), ("body", .string "missing")]])]])]

def ruleField (key : String) : FieldPath := .item "steps" 0 (.item "error_rules" 0 (.here key))

/-- The statuses of the rule are kept. -/
theorem form_edit_of_statuses :
    ∃ emitted, formChange natReader stepDefs compositionSchema (ruleField "statuses") stepBody
        (.text "404, 410") = some emitted ∧
      HasAt stepDefs compositionSchema (ruleField "statuses") (.list true)
        (some (.array [.number 404, .number 410])) emitted ∧
      OnlyAt stepDefs compositionSchema (ruleField "statuses") stepBody emitted := by
  obtain ⟨emitted, changes, holds⟩ := form_edit_exact natReader_lawful
    (show controlAt stepDefs compositionSchema (ruleField "statuses") stepBody =
      some ⟨.list true, some (.array [.number 404]), _⟩ from rfl) (Entered.numbers [404, 410])
  have written : String.ofList (writeItems ',' ' ' ([404, 410].map natReader.write)) = "404, 410" := by
    decide +kernel
  rw [written] at changes
  exact ⟨emitted, changes, holds.mpr trivial⟩

/-- The body of a rule that is set to `false` is nil, and a dependency with a comma is two. -/
theorem form_edit_loses :
    (Entered natReader (.free false) (some (.string "missing")) (.text "false")
        (some (.bool false)) ∧
      ∃ emitted, formChange natReader stepDefs compositionSchema (ruleField "body") stepBody
          (.text "false") = some emitted ∧
        ¬ HasAt stepDefs compositionSchema (ruleField "body") (.free false) (some (.bool false))
          emitted) ∧
      ∃ emitted, formChange natReader stepDefs compositionSchema
          (.item "steps" 0 (.here "depends_on")) stepBody (.text "a,b, c") = some emitted ∧
        ¬ HasAt stepDefs compositionSchema (.item "steps" 0 (.here "depends_on")) (.list false)
          (some (.array [.string "a,b", .string "c"])) emitted := by
  have free : Entered natReader (.free false) (some (.string "missing")) (.text "false")
      (some (.bool false)) := .free (by decide +kernel) rfl
  refine ⟨⟨free, ?_⟩, ?_⟩
  · obtain ⟨emitted, changes, -, holds⟩ := formChange_of_entered natReader_lawful
      (show controlAt stepDefs compositionSchema (ruleField "body") stepBody =
        some ⟨.free false, some (.string "missing"), _⟩ from rfl) free
    exact ⟨emitted, changes, fun has => Bool.false_ne_true (holds.mp has).symm⟩
  · obtain ⟨emitted, changes, -, holds⟩ := formChange_of_entered natReader_lawful
      (show controlAt stepDefs compositionSchema (.item "steps" 0 (.here "depends_on")) stepBody =
        some ⟨.list false, some (.array [.string "a,b"]), _⟩ from rfl) (Entered.texts ["a,b", "c"])
    have written : String.ofList (writeItems ',' ' ' (["a,b", "c"].map String.toList)) = "a,b, c" := by
      decide +kernel
    rw [written] at changes
    refine ⟨emitted, changes, fun has => ?_⟩
    have plain := holds.mp has (.string "a,b") List.mem_cons_self "a,b" rfl
    exact plain.unseparated (by decide)

end Steps

end Restitch.Studio.Form
