import Restitch.Std.CommaList
import Restitch.Std.Fields
import Restitch.Studio.StepEditor

/-!
# The form of a resource (`schema-form.tsx`)

The form shows one control for every property of the schema of a resource, by the shape of
the schema. A control gets the value of its property and emits a new body for the resource.
Labels, hints and the secret picker change no value and are left out.
-/

namespace Restitch.Studio.Form

open Restitch.Std

/-- `type` in a schema. -/
inductive SchemaType where
  | object
  | array
  | boolean
  | integer
  | number
  | string
deriving DecidableEq

/-- `Schema`, less what changes no value. `ref` is the definition that `$ref` names. -/
inductive Schema where
  | boolean (value : Bool)
  | node (ref : Option String) (type : Option SchemaType)
      (properties : Option (List (String × Schema))) (additionalProperties : Option Schema)
      (items : Option Schema)

/-- The properties of a schema. -/
abbrev Properties := List (String × Schema)

/-- `Defs` -/
abbrev Defs := List (String × Schema)

/-- A value that JSON can hold. -/
inductive Value (Number : Type) where
  | null
  | bool (value : Bool)
  | number (value : Number)
  | string (text : String)
  | array (items : List (Value Number))
  | object (fields : List (String × Value Number))

variable {Number : Type}

/-- `Obj` -/
abbrev Obj (Number : Type) := List (String × Value Number)

/-- What the form asks of JavaScript: `String` and `Number` on finite numbers, and the
parsers of `FreeField` for JSON and for YAML. -/
structure Reader (Number : Type) where
  write : Number → List Char
  read : List Char → Option Number
  parse : Bool → String → Option (Value Number)

/-- The blanks of `trim`. -/
def isBlank (c : Char) : Bool :=
  c ∈ ['\t', '\n', '\x0b', '\x0c', '\r', ' ', '\u00a0', '\u1680', '\u2028', '\u2029', '\u202f',
    '\u205f', '\u3000', '\ufeff'] || ('\u2000' ≤ c && c ≤ '\u200a')

/-- A value that `setKey` removes. -/
def Value.isEmpty : Value Number → Bool
  | .string text => text = ""
  | .bool value => !value
  | .array items => items.isEmpty
  | _ => false

/-- `setKey`. The value `undefined` is `none`. -/
def setKey (obj : Obj Number) (key : String) : Option (Value Number) → Obj Number
  | none => removeField key obj
  | some value => if value.isEmpty then removeField key obj else setField key value obj

section Fields

variable (defs : Defs)

/-- `resolve` within a number of references. -/
def resolveWithin : Nat → Schema → Option Schema
  | _, .boolean _ => some (.boolean true)
  | fuel, .node (some name) _ _ _ _ =>
      match fuel, defs.lookup name with
      | _, none => some (.boolean true)
      | 0, some _ => none
      | fuel + 1, some target => resolveWithin fuel target
  | _, .node none type properties additionalProperties items =>
      some (.node none type properties additionalProperties items)

/-- `resolve`. Only a circle of references needs more of them than there are definitions. -/
def resolve (schema : Schema) : Option Schema := resolveWithin defs defs.length schema

/-- The properties that `ObjectFields` shows. -/
def propertiesOf (schema : Schema) : Option Properties :=
  match resolve defs schema with
  | some (.node _ _ properties _ _) => properties
  | _ => none

/-- The kinds of controls. -/
inductive Field where
  /-- `FreeField` -/
  | free (json : Bool)
  /-- A section that can be added and removed, with `ObjectFields`. -/
  | group (properties : Properties)
  /-- `MapField` -/
  | map
  /-- One entry of a `MapField`. -/
  | entry
  /-- A list with `ObjectFields` for every item. -/
  | objects (properties : Option Properties)
  /-- A list in one line of text. -/
  | list (numeric : Bool)
  | flag
  | number
  | text

/-- The control of a list. -/
def listField : Option Schema → Option Field
  | some (.node _ (some .object) properties _ _) => some (.objects properties)
  | some (.node _ type _ _ _) => some (.list (type = some .integer))
  | some (.boolean _) => some (.list false)
  | none => none

/-- A schema that is there and not `false`. -/
def isTruthy : Option Schema → Bool
  | none | some (.boolean false) => false
  | _ => true

/-- The control that `SchemaField` shows. -/
def fieldOf (schema : Schema) : Option Field :=
  match resolve defs schema with
  | none => none
  | some (.boolean _) => some (.free false)
  | some (.node _ type properties additionalProperties items) =>
      match type, properties with
      | some .object, some properties => some (.group properties)
      | some .object, none => some (if isTruthy additionalProperties then .map else .free true)
      | some .array, _ => listField (resolve defs (items.getD (.boolean true)))
      | some .boolean, _ => some .flag
      | some .integer, _ | some .number, _ => some .number
      | some .string, _ | none, _ => some .text

end Fields

/-- Where a control stands below an object. -/
inductive FieldPath where
  /-- The control of a property. -/
  | here (key : String)
  /-- An entry of the map at a property. -/
  | entry (key name : String)
  /-- Below the section of a property. -/
  | inside (key : String) (path : FieldPath)
  /-- Below an item of the list at a property. -/
  | item (key : String) (index : Nat) (path : FieldPath)

/-- A control as `SchemaField` gets it. `emit` is `onChange` up to the body. -/
structure Control (Number : Type) where
  field : Field
  value : Option (Value Number)
  emit : Option (Value Number) → Obj Number

/-- The object in an item of a list, `item ?? {}`. -/
def Value.itemFields : Value Number → Option (Obj Number)
  | .object fields => some fields
  | .null => some []
  | _ => none

/-- The control that `ObjectFields` shows at a path, for a value that has the shape of its
schema. -/
def control (defs : Defs) : FieldPath → Properties → Obj Number → Option (Control Number)
  | .here key, properties, obj => do
      let schema ← properties.lookup key
      let field ← fieldOf defs schema
      return ⟨field, obj.lookup key, setKey obj key⟩
  | .entry key name, properties, obj => do
      let schema ← properties.lookup key
      match fieldOf defs schema, obj.lookup key with
      | some .map, some (.object entries) =>
          let value ← entries.lookup name
          -- the input of an entry always has a text
          return ⟨.entry, some value, fun next =>
            next.elim obj fun next => setKey obj key (some (.object (setField name next entries)))⟩
      | _, _ => none
  | .inside key path, properties, obj => do
      let schema ← properties.lookup key
      match fieldOf defs schema, obj.lookup key with
      | some (.group inner), some (.object fields) =>
          let shown ← control defs path inner fields
          return ⟨shown.field, shown.value, fun next =>
            setKey obj key (some (.object (shown.emit next)))⟩
      | _, _ => none
  | .item key index path, properties, obj => do
      let schema ← properties.lookup key
      match fieldOf defs schema, obj.lookup key with
      | some (.objects (some inner)), some (.array list) =>
          let item ← list[index]?
          let fields ← item.itemFields
          let shown ← control defs path inner fields
          return ⟨shown.field, shown.value, fun next =>
            setKey obj key (some (.array (list.set index (.object (shown.emit next)))))⟩
      | _, _ => none

/-- What the user does with a control. -/
inductive Edit where
  /-- A new text in an input or an editor. -/
  | text (text : String)
  | check (checked : Bool)
  /-- The button that adds and removes a section. -/
  | toggle
  | addItem
  | removeItem (index : Nat)
  | addEntry (draft : String)
  | removeEntry (name : String)

/-- `trim` -/
def trim (text : String) : String := .ofList (trimmed isBlank text.toList)

/-- The items that the text of a list stands for. -/
def Reader.readList (reader : Reader Number) (numeric : Bool) (text : String) :
    List (Value Number) :=
  let parts := readItems isBlank ',' text.toList
  if numeric then parts.filterMap fun part => (reader.read part).map .number
  else parts.map fun part => .string (.ofList part)

/-- The items of a list, if there is one. -/
def itemsOf : Option (Value Number) → List (Value Number)
  | some (.array items) => items
  | _ => []

/-- The entries of a map, if there is one. -/
def entriesOf : Option (Value Number) → Obj Number
  | some (.object entries) => entries
  | _ => []

/-- A section that is shown open. -/
def isPresent : Option (Value Number) → Bool
  | none | some .null => false
  | _ => true

/-- What a control calls `onChange` with, if the edit makes it do so. A number input has no
other text than a number. -/
def change (reader : Reader Number) (field : Field) (value : Option (Value Number)) (edit : Edit) :
    Option (Option (Value Number)) :=
  match field, edit with
  | .free json, .text text =>
      if trim text = "" then some none else (reader.parse json text).map some
  | .group _, .toggle => some (if isPresent value then none else some (.object []))
  | .map, .addEntry draft =>
      let name := trim draft
      if name = "" ∨ name ∈ (entriesOf value).map Prod.fst ∨ name ∈ Editor.objectPrototype then
        none
      else some (some (.object (setField name (.string "") (entriesOf value))))
  | .map, .removeEntry name =>
      let next := removeField name (entriesOf value)
      some (if next = [] then none else some (.object next))
  | .entry, .text text => some (some (.string text))
  | .objects _, .addItem => some (some (.array (itemsOf value ++ [.object []])))
  | .objects _, .removeItem index => some (some (.array ((itemsOf value).eraseIdx index)))
  | .list numeric, .text text => some (some (.array (reader.readList numeric text)))
  | .flag, .check checked => some (some (.bool checked))
  | .number, .text text =>
      if text = "" then some none else (reader.read text.toList).map fun n => some (.number n)
  | .text, .text text => some (some (.string text))
  | _, _ => none

/-- The control at a path of the form of a resource. -/
def controlAt (defs : Defs) (root : Schema) (path : FieldPath) (body : Obj Number) :
    Option (Control Number) :=
  (propertiesOf defs root).bind fun properties => control defs path properties body

/-- The body that the form emits for an edit at a path. -/
def formChange (reader : Reader Number) (defs : Defs) (root : Schema) (path : FieldPath)
    (body : Obj Number) (edit : Edit) : Option (Obj Number) := do
  let shown ← controlAt defs root path body
  let next ← change reader shown.field shown.value edit
  return shown.emit next

end Restitch.Studio.Form
