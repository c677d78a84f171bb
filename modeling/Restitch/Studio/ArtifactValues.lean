import Restitch.Composition.Routes
import Restitch.Gwconfig.Env
import Restitch.Std.Presentation

/-!
# Variables in an artifact (`internal/studio/publish.go`, `cmd/restitch/run.go`)

Studio checks an artifact with a placeholder for every variable. A gateway puts the values
into the text and reads the result. A value that leaves every scalar it is put into a scalar
of the same style changes only leaves of the document.
-/

namespace Restitch.Studio

open Restitch.Composition Restitch.Gwconfig Restitch.Std

/-- `secretPlaceholder`. -/
def secretPlaceholder : List Char := ['x']

/-- The environment in which Studio expands. -/
def placeholderLookup : List Char → Option (List Char) := fun _ => some secretPlaceholder

/-- Why an artifact is refused. -/
inductive ArtifactError where
  | expand (error : ExpandError)
  | varName (name : List Char)
  | invalid
deriving DecidableEq

/-- `checkVarNames`. -/
def checkVarNames (doc : List Char) : Except ArtifactError Unit :=
  match references doc with
  | .error error => .error (.expand error)
  | .ok listed =>
      match listed.find? fun reference => !varName reference.name with
      | some reference => .error (.varName reference.name)
      | none => .ok ()

/-- `validateArtifact`. -/
def validateArtifact (checks : ArtifactChecks) (doc : List Char) : Except ArtifactError Unit := do
  checkVarNames doc
  match expandWith doc placeholderLookup with
  | .error error => .error (.expand error)
  | .ok expanded => if validate checks (.ofList expanded) then .ok () else .error .invalid

universe u v

variable {Style : Type u} {Node : Type v}

/-- A leaf of a document: the same under all values, or a text with references. -/
inductive Leaf (Node : Type v) where
  | fixed (node : Node)
  | text (pieces : List Piece)

/-- The leaf in an environment. -/
def Leaf.fill (string : List Char → Node) (lookup : List Char → Option (List Char)) :
    Leaf Node → Node
  | .fixed node => node
  | .text pieces => string ((Gwconfig.fill id (lookupReference lookup) pieces).toOption.getD [])

/-- What `ParseConfig` makes of a document. -/
def parseDocument (checks : ArtifactChecks) (typed : Document Node → Except String Config)
    (document : Document Node) : Except ParseError Config :=
  match typed document with
  | .error detail => .error (.decode detail)
  | .ok config => (validateAndApplyDefaults checks.net config).mapError .validation

section Inert

variable (reader : Reader Style Node String) (string : List Char → Node)

/-- With its references replaced, a scalar still fits its style and reads as the leaf. -/
def Inert (style : Style) (text : List Char) (lookup : List Char → Option (List Char))
    (leaf : Leaf Node) : Prop :=
  ∃ expanded, expandWith text lookup = .ok expanded ∧ reader.fits style expanded ∧
    reader.resolve style expanded = leaf.fill string lookup

/-- A style in which characters that meet a condition stand for themselves. -/
def ReadsAsWritten (style : Style) (ordinary : Char → Bool) : Prop :=
  ∀ text : List Char, text.all ordinary = true →
    reader.fits style text ∧ reader.resolve style text = string text

variable {reader string}

/-- In such a style, ordinary values are inert. -/
theorem inert_of_readsAsWritten {style : Style} {ordinary : Char → Bool}
    (asWritten : ReadsAsWritten reader string style ordinary) {pieces : List Piece}
    (wellFormed : ∀ piece ∈ pieces, piece.WellFormed) {lookup : List Char → Option (List Char)}
    {value : List Char} (filled : Gwconfig.fill id (lookupReference lookup) pieces = .ok value)
    (isOrdinary : value.all ordinary = true) :
    Inert reader string style (pieces.flatMap Piece.source) lookup (.text pieces) := by
  obtain ⟨fits, reads⟩ := asWritten value isOrdinary
  refine ⟨value, ?_, fits, ?_⟩
  · rw [expandWith, scan_eq_fill _ wellFormed, filled]
  · rw [reads, Leaf.fill, filled]
    rfl

end Inert

section Expand

variable {reader : Reader Style Node String} {string : List Char → Node}
  {lookup : List Char → Option (List Char)}

/-- A part whose references are replaced. -/
structure ExpandsTo (lookup : List Char → Option (List Char)) (part expanded : TextPart Style) :
    Prop where
  shape : expanded.shape = part.shape
  text : expandWith part.text lookup = .ok expanded.text

/-- The text of an artifact is expanded part by part. -/
theorem expandWith_parts {parts expanded : List (TextPart Style)}
    (expands : List.Forall₂ (ExpandsTo lookup) parts expanded) :
    expandWith (parts.flatMap TextPart.text) lookup = .ok (expanded.flatMap TextPart.text) := by
  induction expands with
  | nil => rfl
  | cons here _ ih =>
      rw [List.flatMap_cons, List.flatMap_cons]
      exact scan_append _ here.text ih

/-- Parts whose scalars are inert expand to parts of the same shape, which read as the
leaves. -/
theorem exists_expanded_parts {parts : List (TextPart Style)} {leafOf : Style → List Char → Leaf Node}
    (markup : ∀ text, TextPart.markup text ∈ parts → '$' ∉ text)
    (inert : ∀ style text, TextPart.scalar style text ∈ parts →
      Inert reader string style text lookup (leafOf style text)) :
    ∃ expanded, List.Forall₂ (ExpandsTo lookup) parts expanded ∧
      (∀ style text, TextPart.scalar style text ∈ expanded → reader.fits style text) ∧
      expanded.filterMap (TextPart.value reader.resolve) =
        (parts.filterMap (TextPart.value leafOf)).map (Leaf.fill string lookup) := by
  induction parts with
  | nil => exact ⟨[], .nil, nofun, rfl⟩
  | cons part rest ih =>
      obtain ⟨later, expands, fits, values⟩ :=
        ih (fun text member => markup text (.tail _ member))
          (fun style text member => inert style text (.tail _ member))
      cases part with
      | markup text =>
          have same : ExpandsTo lookup (.markup text : TextPart Style) (.markup text) :=
            ⟨rfl, scan_of_not_mem _ (markup text List.mem_cons_self)⟩
          refine ⟨.markup text :: later, .cons same expands, ?_, values⟩
          intro style other member
          rcases List.mem_cons.mp member with isMarkup | after
          · cases isMarkup
          · exact fits style other after
      | scalar style text =>
          obtain ⟨expanded, isExpanded, fitsHere, reads⟩ := inert style text List.mem_cons_self
          refine ⟨.scalar style expanded :: later, .cons ⟨rfl, isExpanded⟩ expands, ?_, ?_⟩
          · intro other otherText member
            rcases List.mem_cons.mp member with same | after
            · cases same
              exact fitsHere
            · exact fits other otherText after
          · simp only [List.filterMap_cons, TextPart.value, List.map_cons, reads, values]

/-- The leaf at a place. -/
def leafAt (absent : Node) (leafOf : Style → List Char → Leaf Node) (parts : List (TextPart Style))
    (place : Nat) : Leaf Node :=
  ((parts.filterMap (TextPart.value leafOf))[place]?).getD (.fixed absent)

/-- An environment in which all scalars are inert leaves the structure of an artifact alone. -/
theorem parseConfig_expanded {checks : ArtifactChecks}
    {typed : Document Node → Except String Config}
    (decodes : ∀ text, checks.decode text = (reader.decode text.toList).bind typed)
    {parts : List (TextPart Style)} {document : Document Nat}
    (isStructure : reader.structureOf (parts.map TextPart.shape) = some document)
    (markup : ∀ text, TextPart.markup text ∈ parts → '$' ∉ text)
    {leafOf : Style → List Char → Leaf Node}
    (inert : ∀ style text, TextPart.scalar style text ∈ parts →
      Inert reader string style text lookup (leafOf style text)) :
    ∃ expanded, expandWith (parts.flatMap TextPart.text) lookup = .ok expanded ∧
      parseConfig checks (.ofList expanded) = parseDocument checks typed (document.map fun place =>
        (leafAt reader.absent leafOf parts place).fill string lookup) := by
  obtain ⟨expanded, expands, fits, values⟩ := exists_expanded_parts markup inert
  have shapes : expanded.map TextPart.shape = parts.map TextPart.shape := by
    clear inert markup isStructure values fits
    induction expands with
    | nil => rfl
    | cons here _ ih => rw [List.map_cons, List.map_cons, ih, here.shape]
  have read := reader.decode_eq expanded document (shapes ▸ isStructure) fits
  have leaves : (fun place => ((expanded.filterMap (TextPart.value reader.resolve))[place]?).getD
      reader.absent) =
        fun place => (leafAt reader.absent leafOf parts place).fill string lookup := by
    funext place
    rw [values, List.getElem?_map, leafAt]
    cases (parts.filterMap (TextPart.value leafOf))[place]? <;> rfl
  rw [leaves] at read
  refine ⟨_, expandWith_parts expands, ?_⟩
  rw [parseConfig, decodes, String.toList_ofList, read]
  rfl

end Expand

/-- Where every scalar of an artifact is inert under the values of a gateway as it is under the
placeholder of Studio, both parse the same document, with the values in the place of the
references. -/
theorem expansion_keeps_structure (reader : Reader Style Node String) (string : List Char → Node)
    (checks : ArtifactChecks) (typed : Document Node → Except String Config)
    (decodes : ∀ text, checks.decode text = (reader.decode text.toList).bind typed)
    (parts : List (TextPart Style)) (document : Document Nat)
    (isStructure : reader.structureOf (parts.map TextPart.shape) = some document)
    (markup : ∀ text, TextPart.markup text ∈ parts → '$' ∉ text)
    (lookup : List Char → Option (List Char)) (leafOf : Style → List Char → Leaf Node)
    (inert : ∀ style text, TextPart.scalar style text ∈ parts →
      Inert reader string style text placeholderLookup (leafOf style text) ∧
        Inert reader string style text lookup (leafOf style text)) :
    ∃ checked expanded,
      expandWith (parts.flatMap TextPart.text) placeholderLookup = .ok checked ∧
      expandWith (parts.flatMap TextPart.text) lookup = .ok expanded ∧
      parseConfig checks (.ofList checked) = parseDocument checks typed (document.map fun place =>
        (leafAt reader.absent leafOf parts place).fill string placeholderLookup) ∧
      parseConfig checks (.ofList expanded) = parseDocument checks typed (document.map fun place =>
        (leafAt reader.absent leafOf parts place).fill string lookup) := by
  obtain ⟨checked, isChecked, parsedChecked⟩ := parseConfig_expanded decodes isStructure markup
    fun style text member => (inert style text member).1
  obtain ⟨expanded, isExpanded, parsedExpanded⟩ := parseConfig_expanded decodes isStructure markup
    fun style text member => (inert style text member).2
  exact ⟨checked, expanded, isChecked, isExpanded, parsedChecked, parsedExpanded⟩

/-- Characters that stand for themselves between double quotes. -/
def isOrdinary (c : Char) : Bool :=
  c ≠ '"' && c ≠ '\\' && 0x20 ≤ c.toNat && c.toNat < 0x7f

/-- An auth policy with one key, between double quotes. -/
def keyParts (key : List Char) : List (TextPart Unit) :=
  [.markup "auth:\n  api_keys: [\"".toList, .scalar () key, .markup "\"]\n".toList]

/-- The document of that policy. -/
def keyDocument {α : Type} (key : α) : Document α :=
  .mapping [("auth", .mapping [("api_keys", .sequence [.leaf key])])]

/-- A text with the shape of a key is the text of some key. -/
theorem eq_keyParts_of_shape {parts : List (TextPart Unit)}
    (shapes : parts.map TextPart.shape = (keyParts []).map TextPart.shape) :
    ∃ key, parts = keyParts key := by
  match parts, shapes with
  | [.markup opening, .scalar () key, .markup closing], shapes =>
      refine ⟨key, ?_⟩
      simp only [keyParts, List.map_cons, List.map_nil, TextPart.shape, List.cons.injEq,
        Shape.markup.injEq, and_true, true_and] at shapes
      rw [keyParts, shapes.1, shapes.2]

/-- YAML, as far as it is about such a policy. -/
def keyReader : Reader Unit (List Char) String where
  decode := fun text =>
    match GoStrings.cut '"' (text.drop 20) with
    | (key, some [']', '\n']) => .ok (keyDocument key)
    | _ => .error "invalid YAML"
  structureOf := fun shapes =>
    if shapes = (keyParts []).map TextPart.shape then some (keyDocument 0) else none
  fits := fun _ text => text.all isOrdinary = true
  resolve := fun _ text => text
  absent := []
  decode_eq := by
    intro parts document isStructure fits
    obtain ⟨shapes, isDocument⟩ := (Option.ite_none_right_eq_some ..).mp isStructure
    cases isDocument
    obtain ⟨key, rfl⟩ := eq_keyParts_of_shape shapes
    have fitsKey := fits () key (by simp [keyParts])
    have unquoted : '"' ∉ key := by
      intro member
      have ordinary := List.all_eq_true.mp fitsKey '"' member
      revert ordinary
      decide
    have dropped : ((keyParts key).flatMap TextPart.text).drop 20 = key ++ '"' :: [']', '\n'] := by
      rfl
    rw [dropped, GoStrings.cut_append unquoted]
    rfl

/-- The config of such a document. -/
def keyConfig : Document (List Char) → Except String Config
  | .mapping [("auth", .mapping [("api_keys", .sequence [.leaf key])])] =>
      .ok ⟨some ⟨[.ofList key], none⟩, none, false, ∅, ∅⟩
  | _ => .error "unknown key"

/-- Checks with a given decoder, which refuse nothing else. -/
def checksWith (decode : String → Except String Config) : ArtifactChecks :=
  { checksFor "" ⟨none, none, false, ∅, ∅⟩ with decode }

/-- An environment with one variable. -/
def oneVariable (name value : String) (other : List Char) : Option (List Char) :=
  if other = name.toList then some value.toList else none

/-- A quoted reference to a key, with a value of ordinary characters. -/
theorem expansion_keeps_structure_of_quoted_key :
    ∃ expanded,
      expandWith "auth:\n  api_keys: [\"$\x7bGATEWAY_KEY\x7d\"]\n".toList
          (oneVariable "GATEWAY_KEY" "s3cret: #1") = .ok expanded ∧
        parseConfig (checksWith fun text => (keyReader.decode text.toList).bind keyConfig)
            (.ofList expanded) =
          .ok ⟨some ⟨["s3cret: #1"], none⟩, none, false, ∅, ∅⟩ := by
  have asWritten : ReadsAsWritten keyReader id () isOrdinary := fun text ordinary => ⟨ordinary, rfl⟩
  have wellFormed : ∀ piece ∈ [Piece.reference "GATEWAY_KEY".toList], piece.WellFormed := by
    intro piece member
    cases List.mem_singleton.mp member
    show '\x7d' ∉ "GATEWAY_KEY".toList
    decide
  have structured : keyReader.structureOf
      ((keyParts "$\x7bGATEWAY_KEY\x7d".toList).map TextPart.shape) = some (keyDocument 0) := by
    unfold keyReader
    dsimp only
    exact if_pos rfl
  obtain ⟨checked, expanded, -, isExpanded, -, parsed⟩ :=
    expansion_keeps_structure keyReader id
      (checksWith fun text => (keyReader.decode text.toList).bind keyConfig) keyConfig
      (fun text => rfl) (keyParts "$\x7bGATEWAY_KEY\x7d".toList) (keyDocument 0) structured
      (by
        intro text member
        simp only [keyParts, List.mem_cons, TextPart.markup.injEq, reduceCtorEq, List.not_mem_nil,
          or_false, false_or] at member
        rcases member with rfl | rfl <;> decide)
      (oneVariable "GATEWAY_KEY" "s3cret: #1")
      (fun _ _ => .text [.reference "GATEWAY_KEY".toList])
      (by
        intro style text member
        have isText : text = [Piece.reference "GATEWAY_KEY".toList].flatMap Piece.source := by
          simp only [keyParts, List.mem_cons, TextPart.scalar.injEq, reduceCtorEq, List.not_mem_nil,
            or_false, false_or] at member
          exact member.2
        rw [isText]
        exact ⟨inert_of_readsAsWritten asWritten wellFormed rfl (by decide),
          inert_of_readsAsWritten asWritten wellFormed rfl (by decide)⟩)
  exact ⟨expanded, isExpanded, parsed⟩

/-- An artifact whose only composition needs a key. -/
def ordersArtifact : String :=
  "auth: \x7bapi_keys: [k1]\x7d\ncompositions:\n  orders:\n    path: /$\x7bORDERS\x7d\n"

/-- That artifact with the placeholder. -/
def ordersChecked : String :=
  "auth: \x7bapi_keys: [k1]\x7d\ncompositions:\n  orders:\n    path: /x\n"

/-- That artifact with a value of two lines. -/
def ordersExpanded : String :=
  "auth: \x7bapi_keys: [k1]\x7d\ncompositions:\n  orders:\n    path: /orders\n    public: true\n"

/-- A config with one composition. -/
def ordersConfig (path method : String) (isPublic : Bool) (contentType : String) : Config where
  auth := some ⟨["k1"], none⟩
  rateLimit := none
  blockPrivateUpstreams := false
  upstreams := ∅
  compositions := AList.singleton "orders"
    ⟨path, method, isPublic, [], ⟨.null, contentType, .null⟩, 0, none, none⟩

/-- YAML, as far as it is about these two texts. -/
def ordersDecode (text : String) : Except String Config :=
  if text = ordersChecked then .ok (ordersConfig "/x" "" false "")
  else if text = ordersExpanded then .ok (ordersConfig "/orders" "" true "")
  else .error "invalid YAML"

/-- Studio accepts the artifact, whose composition is not public. A value that goes on in a
new line makes it public. -/
theorem value_makes_composition_public :
    validateArtifact (checksWith ordersDecode) ordersArtifact.toList = .ok () ∧
      expandWith ordersArtifact.toList placeholderLookup = .ok ordersChecked.toList ∧
      expandWith ordersArtifact.toList (oneVariable "ORDERS" "orders\n    public: true") =
        .ok ordersExpanded.toList ∧
      parseConfig (checksWith ordersDecode) ordersChecked =
        .ok (ordersConfig "/x" "GET" false "application/json") ∧
      parseConfig (checksWith ordersDecode) ordersExpanded =
        .ok (ordersConfig "/orders" "GET" true "application/json") := by
  have checked : ordersDecode ordersChecked = .ok (ordersConfig "/x" "" false "") := if_pos rfl
  have expanded : ordersDecode ordersExpanded = .ok (ordersConfig "/orders" "" true "") := by
    rw [ordersDecode, if_neg (by decide), if_pos rfl]
  have parsed {text : String} {config : Config} (decoded : ordersDecode text = .ok config) :
      parseConfig (checksWith ordersDecode) text =
        (validateAndApplyDefaults (checksWith ordersDecode).net config).mapError .validation := by
    unfold parseConfig checksWith
    dsimp only
    rw [decoded]
  refine ⟨by decide +kernel, by decide +kernel, by decide +kernel, ?_, ?_⟩
  · rw [parsed checked]
    rfl
  · rw [parsed expanded]
    rfl

end Restitch.Studio
