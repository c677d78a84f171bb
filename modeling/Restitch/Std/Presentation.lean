import Mathlib.Data.List.Basic

/-!
# Documents and their texts

A text is made of markup and of scalars. A reader takes the structure of a document from the
markup and from the places and styles of the scalars, and its leaves from the scalars
themselves, as long as the text of each scalar fits its style.
-/

namespace Restitch.Std

universe u v

/-- A tree of sequences and mappings. -/
inductive Document (α : Type u) where
  | leaf (value : α)
  | sequence (items : List (Document α))
  | mapping (entries : List (String × Document α))

namespace Document

variable {α : Type u} {β : Type v} (f : α → β)

mutual

/-- Apply a function to every leaf. -/
def map : Document α → Document β
  | .leaf value => .leaf (f value)
  | .sequence items => .sequence (mapItems items)
  | .mapping entries => .mapping (mapEntries entries)

def mapItems : List (Document α) → List (Document β)
  | [] => []
  | item :: rest => item.map :: mapItems rest

def mapEntries : List (String × Document α) → List (String × Document β)
  | [] => []
  | (key, value) :: rest => (key, value.map) :: mapEntries rest

end

end Document

/-- A piece of a text: markup, keys included, or a scalar that is a leaf or a comment. -/
inductive TextPart (Style : Type u) where
  | markup (text : List Char)
  | scalar (style : Style) (text : List Char)
deriving DecidableEq

/-- What is left of a part without the text of a scalar. -/
inductive Shape (Style : Type u) where
  | markup (text : List Char)
  | scalar (style : Style)
deriving DecidableEq

variable {Style : Type u} {Node : Type v} {Error : Type}

def TextPart.text : TextPart Style → List Char
  | .markup text | .scalar _ text => text

def TextPart.shape : TextPart Style → Shape Style
  | .markup text => .markup text
  | .scalar style _ => .scalar style

/-- The value of a part, if it is a scalar. -/
def TextPart.value (resolve : Style → List Char → Node) : TextPart Style → Option Node
  | .markup _ => none
  | .scalar style text => some (resolve style text)

/-- A reader of texts. The leaves of the structure of a shape are the numbers of its scalars. -/
structure Reader (Style : Type u) (Node : Type v) (Error : Type) where
  decode : List Char → Except Error (Document Node)
  structureOf : List (Shape Style) → Option (Document Nat)
  fits : Style → List Char → Prop
  resolve : Style → List Char → Node
  /-- The value at a place without a scalar. -/
  absent : Node
  decode_eq : ∀ (parts : List (TextPart Style)) (document : Document Nat),
    structureOf (parts.map TextPart.shape) = some document →
    (∀ style text, TextPart.scalar style text ∈ parts → fits style text) →
    decode (parts.flatMap TextPart.text) = .ok (document.map fun place =>
      ((parts.filterMap (TextPart.value resolve))[place]?).getD absent)

end Restitch.Std
