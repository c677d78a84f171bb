import Restitch.Gwconfig.Indentation
import Restitch.Std.Results
import Restitch.Studio.ArtifactValues
import Restitch.Studio.PublishCommand

/-!
# The names an environment needs (`internal/studio/secrets.go`, `draft.go`, `publish.go`)

What is checked of a resource before it gets into a draft, how an artifact is split into
resources again, and which names are listed for them. YAML is a parameter.
-/

namespace Restitch.Studio

open Restitch.Gwconfig Restitch.Std

/-- `yaml.v3`, and the type assertion to `map[string]any`. -/
structure Yaml (Value : Type) where
  /-- `yaml.Marshal` of the body of a resource. -/
  marshalBody : GoMap String Value → Except String String
  /-- `yaml.Marshal` of an artifact. -/
  marshalDoc : GoMap String (DocValue Value) → String
  /-- `yaml.Unmarshal` into a `map[string]any`. -/
  unmarshal : String → Except String (GoMap String Value)
  asMap : Value → Option (GoMap String Value)

variable {Value : Type}

/-! ### Checks of a resource -/

/-- `singletonName`. -/
def singletonName : String := "default"

/-- A kind of which an environment has one resource. -/
def Kind.singleton : Kind → Bool
  | .auth | .rateLimit | .settings => true
  | .upstream | .composition => false

/-- `resourceName`. -/
def resourceName (name : String) : Bool :=
  match name.toList with
  | [] => false
  | first :: rest =>
      first.isAlphanum && rest.all (fun c => c.isAlphanum || c ∈ ['_', '.', '-']) &&
        rest.length ≤ 127

/-- The keys of `settingsResource`. -/
def settingsKeys : List String := ["block_private_upstreams"]

/-- Why a resource is refused. -/
inductive ResourceError where
  | singleton (kind : Kind)
  | name (name : String)
  | marshal (detail : String)
  | vars (error : ArtifactError)
  | decode
deriving DecidableEq

/-- `checkResource`. `decodes` is what the artifact types make of a body; `KnownFields` refuses
other keys than those of `settingsResource`. -/
def checkResource (yaml : Yaml Value) (decodes : Kind → String → GoMap String Value → Bool)
    (kind : Kind) (name : String) (body : GoMap String Value) : Except ResourceError Unit :=
  if kind.singleton ∧ name ≠ singletonName then .error (.singleton kind)
  else if ¬ kind.singleton ∧ ¬ resourceName name then .error (.name name)
  else
    match yaml.marshalBody body with
    | .error detail => .error (.marshal detail)
    | .ok data =>
        match checkVarNames data.toList with
        | .error error => .error (.vars error)
        | .ok () =>
            if kind = .settings ∧ ¬ body.keys.all (· ∈ settingsKeys) then .error .decode
            else if decodes kind name body then .ok ()
            else .error .decode

/-! ### Splitting an artifact -/

/-- Why an artifact cannot be split. -/
inductive SplitError where
  | invalid (detail : String)
  | notMapping (place : String)
deriving DecidableEq

def SplitError.message : SplitError → String
  | .invalid detail => "invalid YAML: " ++ detail
  | .notMapping place => place ++ " must be a mapping"

section Split

variable (yaml : Yaml Value)

/-- The named resources under one key. -/
def splitItems (key : String) (kind : Kind) :
    List (GoEntry String Value) → Except SplitError (List (Resource (GoMap String Value)))
  | [] => .ok []
  | item :: rest =>
      match yaml.asMap item.2 with
      | none => .error (.notMapping (key ++ "." ++ item.1))
      | some body => (splitItems key kind rest).map (⟨kind, item.1, body⟩ :: ·)

/-- The loop of `splitArtifact`, over the entries of the document in the order it visits them. -/
def splitEntries : List (GoEntry String Value) → List (Resource (GoMap String Value)) →
    GoMap String Value →
      Except SplitError (List (Resource (GoMap String Value)) × GoMap String Value)
  | [], out, settings => .ok (out, settings)
  | entry :: rest, out, settings =>
      if entry.1 = "upstreams" ∨ entry.1 = "compositions" then
        match yaml.asMap entry.2 with
        | none => .error (.notMapping entry.1)
        | some items => do
            let kind := if entry.1 = "compositions" then Kind.composition else .upstream
            let named ← splitItems yaml entry.1 kind items.entries
            splitEntries rest (out ++ named) settings
      else if entry.1 = "auth" ∨ entry.1 = "rate_limit" then
        match yaml.asMap entry.2 with
        | none => .error (.notMapping entry.1)
        | some body =>
            let kind := if entry.1 = "rate_limit" then Kind.rateLimit else .auth
            splitEntries rest (out ++ [⟨kind, singletonName, body⟩]) settings
      else splitEntries rest out (settings.insert entry.1 entry.2)

/-- The resource of the settings, if there are any. -/
def settingsResource (settings : GoMap String Value) : List (Resource (GoMap String Value)) :=
  if settings.entries.isEmpty then [] else [⟨.settings, singletonName, settings⟩]

/-- `splitArtifact`. -/
def splitArtifact (doc : String) : Except SplitError (List (Resource (GoMap String Value))) :=
  match yaml.unmarshal doc with
  | .error detail => .error (.invalid detail)
  | .ok top => do
      let (out, settings) ← splitEntries yaml top.entries [] ∅
      return out ++ settingsResource settings

end Split

/-! ### Listing names -/

/-- `requiredName`. -/
structure RequiredName where
  name : List Char
  optional : Bool
  usedBy : List String
deriving DecidableEq

/-- Why no names are listed. -/
inductive RequiredError where
  | marshal (detail : String)
  | references (kind : Kind) (name : String) (error : ExpandError)
deriving DecidableEq

def RequiredError.message : RequiredError → String
  | .marshal detail => detail
  | .references kind name error => kind.text ++ " " ++ name ++ ": " ++ error.message

/-- What is known of a name: whether every reference gives a default, and who refers to it. -/
structure NameUse where
  optional : Bool
  users : List String

/-- Note one reference of a user. -/
def addReference (user : String) (byName : GoMap (List Char) NameUse) (reference : Reference) :
    GoMap (List Char) NameUse :=
  let use := (byName.lookup reference.name).getD ⟨true, []⟩
  byName.insert reference.name
    ⟨use.optional && reference.default.isSome, use.users.insert user⟩

/-- Note the references of one resource. -/
def addResource (yaml : Yaml Value) (byName : GoMap (List Char) NameUse)
    (resource : Resource (GoMap String Value)) : Except RequiredError (GoMap (List Char) NameUse) :=
  match yaml.marshalBody resource.body with
  | .error detail => .error (.marshal detail)
  | .ok data =>
      match references data.toList with
      | .error error => .error (.references resource.kind resource.name error)
      | .ok listed =>
          .ok (listed.foldl (addReference (resource.kind.text ++ "/" ++ resource.name)) byName)

/-- `requiredNames`. -/
def requiredNames (yaml : Yaml Value) (resources : List (Resource (GoMap String Value))) :
    Except RequiredError (List RequiredName) :=
  (resources.foldlM (addResource yaml) ∅).map fun byName =>
    (byName.entries.map fun entry =>
      (⟨entry.1, entry.2.optional, entry.2.users.insertionSort (· ≤ ·)⟩ : RequiredName)).insertionSort
      fun first second => first.name ≤ second.name

end Restitch.Studio
