import Restitch.Studio.RequiredNames
import Restitch.Studio.VersionHistory

/-!
# The listed names are those a gateway needs

Studio lists the references of each resource by itself, a gateway expands the text of the whole
artifact. Both come to the same names.
-/

namespace Restitch.Studio

open Restitch.Gwconfig Restitch.Semantics Restitch.Std

variable {Value : Type}

/-- A name that a text refers to. -/
def Referenced (doc name : List Char) : Prop :=
  ∃ listed, references doc = .ok listed ∧ ∃ reference ∈ listed, reference.name = name

/-- The names listed for a text are those a gateway needs to expand it. -/
structure NamesExact (names : List RequiredName) (doc : List Char) : Prop where
  /-- Without a name that is not optional, and only then, expansion fails. -/
  required : ∀ name lookup,
    (∀ other, Referenced doc other → other ≠ name → (lookup other).getD [] ≠ []) →
    (lookup name).getD [] = [] →
    ((∃ entry ∈ names, entry.name = name ∧ entry.optional = false) ↔
      ∃ error, expandWith doc lookup = .error error)
  /-- The other names that are referred to are optional. -/
  optional : ∀ name, (∃ entry ∈ names, entry.name = name ∧ entry.optional = true) ↔
    Referenced doc name ∧ ¬ ∃ entry ∈ names, entry.name = name ∧ entry.optional = false
  /-- Each name is listed once, in order. -/
  sorted : (names.map RequiredName.name).Pairwise (· < ·)

/-! ### Listing -/

section Listing

/-- What the map of names knows of references. -/
def Counts (byName : GoMap (List Char) NameUse) (needs : List (List Char × Bool)) : Prop :=
  ∀ name, ((byName.lookup name).isSome ↔ ∃ need ∈ needs, need.1 = name) ∧
    ∀ use, byName.lookup name = some use →
      (use.optional = true ↔ ∀ need ∈ needs, need.1 = name → need.2 = true)

variable {byName : GoMap (List Char) NameUse} {needs : List (List Char × Bool)}

/-- Without needs nothing is counted. -/
theorem counts_empty : Counts ∅ [] := by
  intro name
  rw [AList.lookup_empty]
  exact ⟨by simp, fun use isUse => by cases isUse⟩

/-- A reference adds one need. -/
theorem Counts.addReference (counts : Counts byName needs) (user : String)
    (reference : Reference) :
    Counts (addReference user byName reference) (needs ++ [reference.need]) := by
  intro name
  obtain ⟨present, optional⟩ := counts name
  rw [Studio.addReference]
  by_cases same : name = reference.name
  · subst same
    rw [AList.lookup_insert]
    refine ⟨iff_of_true rfl ⟨reference.need, by simp, rfl⟩, ?_⟩
    rintro use ⟨rfl⟩
    rw [Bool.and_eq_true, List.forall_mem_append]
    refine and_congr ?_ (by simp [Reference.need])
    cases isUse : byName.lookup reference.name with
    | none =>
        refine iff_of_true rfl fun need member isName => ?_
        have listed := present.mpr ⟨need, member, isName⟩
        rw [isUse] at listed
        cases listed
    | some use => exact optional use isUse
  · have other : reference.need.1 ≠ name := Ne.symm same
    rw [AList.lookup_insert_ne same]
    refine ⟨present.trans ?_, fun use isUse => (optional use isUse).trans ?_⟩
    · simp [other]
    · rw [List.forall_mem_append, List.forall_mem_singleton]
      exact (and_iff_left fun isName => absurd isName other).symm

/-- Several references add their needs. -/
theorem Counts.foldl (counts : Counts byName needs) (user : String) (listed : List Reference) :
    Counts (listed.foldl (Studio.addReference user) byName)
      (needs ++ listed.map Reference.need) := by
  induction listed generalizing byName needs with
  | nil => simpa using counts
  | cons reference rest ih =>
      have later := ih (counts.addReference user reference)
      rwa [List.append_assoc] at later

/-- The references of all resources are counted. -/
theorem exists_counts {yaml : Yaml Value} {resources : List (Resource (GoMap String Value))}
    (own : Resource (GoMap String Value) → List Reference)
    (scans : ∀ resource ∈ resources, ∃ data, yaml.marshalBody resource.body = .ok data ∧
      references data.toList = .ok (own resource)) (counts : Counts byName needs) :
    ∃ after, resources.foldlM (addResource yaml) byName = .ok after ∧
      Counts after (needs ++ (resources.flatMap own).map Reference.need) := by
  induction resources generalizing byName needs with
  | nil => exact ⟨byName, rfl, by simpa using counts⟩
  | cons resource rest ih =>
      obtain ⟨here, behind⟩ := List.forall_mem_cons.mp scans
      obtain ⟨data, marshalled, listed⟩ := here
      obtain ⟨after, done, counted⟩ :=
        ih behind (counts.foldl (resource.kind.text ++ "/" ++ resource.name) (own resource))
      refine ⟨after, ?_, ?_⟩
      · rw [List.foldlM_cons, addResource, marshalled]
        dsimp only
        rw [listed]
        exact done
      · rwa [List.flatMap_cons, List.map_append, ← List.append_assoc]

/-- The names listed for a map. -/
theorem exists_name_iff {names : List RequiredName}
    (isNames : names.Perm (byName.entries.map fun entry =>
      (⟨entry.1, entry.2.optional, entry.2.users.insertionSort (· ≤ ·)⟩ : RequiredName)))
    (name : List Char) (optional : Bool) :
    (∃ entry ∈ names, entry.name = name ∧ entry.optional = optional) ↔
      ∃ use, byName.lookup name = some use ∧ use.optional = optional := by
  constructor
  · rintro ⟨entry, member, rfl, rfl⟩
    obtain ⟨⟨name, use⟩, listed, rfl⟩ := List.mem_map.mp (isNames.mem_iff.mp member)
    exact ⟨use, AList.mem_lookup_iff.mpr listed, rfl⟩
  · rintro ⟨use, isUse, rfl⟩
    refine ⟨_, isNames.mem_iff.mpr (List.mem_map.mpr ⟨⟨name, use⟩, ?_, rfl⟩), rfl, rfl⟩
    exact AList.mem_lookup_iff.mp isUse

/-- The names listed for the references of a text are those that it needs. -/
theorem namesExact_of_counts {doc : List Char} {listed : List Reference} {names : List RequiredName}
    (scanned : references doc = .ok listed) (counts : Counts byName needs)
    (same : ∀ need, need ∈ listed.map Reference.need ↔ need ∈ needs)
    (isNames : names.Perm (byName.entries.map fun entry =>
      (⟨entry.1, entry.2.optional, entry.2.users.insertionSort (· ≤ ·)⟩ : RequiredName)))
    (sorted : names.Pairwise fun first second => first.name ≤ second.name) :
    NamesExact names doc := by
  have referenced (name : List Char) :
      Referenced doc name ↔ ∃ need ∈ needs, need.1 = name := by
    constructor
    · rintro ⟨listed', scanned', reference, member, rfl⟩
      cases scanned.symm.trans scanned'
      exact ⟨_, (same _).mp (List.mem_map_of_mem member), rfl⟩
    · rintro ⟨need, member, rfl⟩
      obtain ⟨reference, isListed, rfl⟩ := List.mem_map.mp ((same need).mpr member)
      exact ⟨listed, scanned, reference, isListed, rfl⟩
  have required (name : List Char) :
      (∃ entry ∈ names, entry.name = name ∧ entry.optional = false) ↔
        ∃ need ∈ needs, need.1 = name ∧ need.2 = false := by
    obtain ⟨present, optional⟩ := counts name
    rw [exists_name_iff isNames]
    constructor
    · rintro ⟨use, isUse, needed⟩
      by_contra none_
      push Not at none_
      have all := (optional use isUse).mpr fun need member isName => by
        simpa using none_ need member isName
      rw [needed] at all
      cases all
    · rintro ⟨need, member, isName, needed⟩
      obtain ⟨use, isUse⟩ := Option.isSome_iff_exists.mp (present.mpr ⟨need, member, isName⟩)
      refine ⟨use, isUse, Bool.eq_false_iff.mpr fun isOptional => ?_⟩
      have default := (optional use isUse).mp isOptional need member isName
      rw [needed] at default
      cases default
  refine ⟨fun name lookup others unset => ?_, fun name => ?_, ?_⟩
  · rw [required, expandWith_error_iff scanned]
    constructor
    · rintro ⟨need, member, rfl, needed⟩
      exact ⟨need, (same need).mpr member, needed, unset⟩
    · rintro ⟨need, member, needed, isUnset⟩
      have listed := (same need).mp member
      refine ⟨need, listed, ?_, needed⟩
      by_contra other
      exact others need.1 ((referenced need.1).mpr ⟨need, listed, rfl⟩) other isUnset
  · obtain ⟨present, -⟩ := counts name
    rw [referenced, ← present, exists_name_iff isNames, exists_name_iff isNames]
    cases byName.lookup name <;> simp
  · have keys : (names.map RequiredName.name).Perm byName.keys := by
      refine (isNames.map RequiredName.name).trans ?_
      rw [List.map_map]
      exact List.Perm.refl _
    have nodup := keys.nodup_iff.mpr byName.keys_nodup
    rw [List.Nodup, List.pairwise_map] at nodup
    rw [List.pairwise_map]
    exact (sorted.and nodup).imp fun both => lt_of_le_of_ne both.1 both.2

end Listing

/-! ### The artifact of a draft -/

section Artifact

/-- The document that `assembleArtifact` marshals. -/
def artifactDoc (resources : List (Resource (GoMap String Value))) :
    GoMap String (DocValue Value) :=
  let parts := resources.foldl ArtifactParts.add {}
  setUnlessEmpty (setUnlessEmpty parts.doc "upstreams" parts.upstreams) "compositions"
    parts.compositions

/-- An entry of the document of checked resources. -/
inductive EntryOf (resources : List (Resource (GoMap String Value))) :
    GoEntry String (DocValue Value) → Prop where
  | field {key : String} {value : Value} (isKey : key ∈ settingsKeys)
      (isBody : ∃ resource ∈ resources, resource.body = AList.singleton key value) :
      EntryOf resources ⟨key, .field value⟩
  | body {key : String} {body : GoMap String Value} (isKey : key = "auth" ∨ key = "rate_limit")
      (isBody : ∃ resource ∈ resources, resource.body = body) :
      EntryOf resources ⟨key, .body body⟩
  | bodies {key : String} {bodies : GoMap String (GoMap String Value)}
      (isKey : key = "upstreams" ∨ key = "compositions")
      (named : ∀ item ∈ bodies.entries, resourceName item.1 = true ∧
        ∃ resource ∈ resources, resource.body = item.2) :
      EntryOf resources ⟨key, .bodies bodies⟩

variable {yaml : Yaml Value} {decodes : Kind → String → GoMap String Value → Bool}
  {resources : List (Resource (GoMap String Value))}

/-- What the check of a resource says of its body. -/
theorem checkResource_ok {kind : Kind} {name : String} {body : GoMap String Value}
    (checked : checkResource yaml decodes kind name body = .ok ()) :
    (kind.singleton = false → resourceName name = true) ∧
      (kind = .settings → ∀ key ∈ body.keys, key ∈ settingsKeys) ∧
      ∃ data, yaml.marshalBody body = .ok data ∧ checkVarNames data.toList = .ok () := by
  unfold checkResource at checked
  split at checked
  · cases checked
  split at checked
  · cases checked
  rename_i misnamed
  split at checked
  · cases checked
  rename_i data marshalled
  split at checked
  · cases checked
  rename_i vars
  split at checked
  · cases checked
  rename_i unknown
  refine ⟨fun isNamed => ?_, fun isSettings => ?_, data, marshalled, vars⟩
  · by_contra unnamed
    exact misnamed ⟨by simp [isNamed], unnamed⟩
  · have all := not_not.mp fun not_ => unknown ⟨isSettings, not_⟩
    simpa using all

/-- After an insert there is the new entry and those before. -/
theorem mem_entries_insert {κ : Type} {ν : Type} [DecidableEq κ] {map : GoMap κ ν} {key : κ}
    {value : ν} {entry : GoEntry κ ν} (member : entry ∈ (map.insert key value).entries) :
    entry = ⟨key, value⟩ ∨ entry ∈ map.entries := by
  rw [AList.entries_insert] at member
  rcases List.mem_cons.mp member with same | old
  · exact .inl same
  · exact .inr ((List.kerase_sublist key map.entries).subset old)

/-- The settings have at most one field. -/
theorem eq_singleton_of_keys {body : GoMap String Value} {field : GoEntry String Value}
    (keys : ∀ key ∈ body.keys, key ∈ settingsKeys) (member : field ∈ body.entries) :
    body = AList.singleton field.1 field.2 := by
  have nodup : (body.entries.map Sigma.fst).Nodup := body.keys_nodup
  have only : ∀ entry ∈ body.entries, entry.1 = "block_private_upstreams" := fun entry listed =>
    List.mem_singleton.mp (keys entry.1 (List.mem_map_of_mem listed))
  apply AList.ext
  rw [AList.singleton_entries]
  cases isEntries : body.entries with
  | nil =>
      rw [isEntries] at member
      cases member
  | cons first rest =>
      cases rest with
      | nil =>
          rw [isEntries, List.mem_singleton] at member
          rw [member]
      | cons second rest =>
          rw [isEntries] at nodup only
          have same : first.1 = second.1 := by
            rw [only first List.mem_cons_self, only second (List.mem_cons_of_mem _ List.mem_cons_self)]
          rw [List.map_cons, List.map_cons, same] at nodup
          exact absurd List.mem_cons_self (List.nodup_cons.mp nodup).1

/-- What is put together of checked resources. -/
structure PartsOf (resources : List (Resource (GoMap String Value))) (parts : ArtifactParts Value) :
    Prop where
  doc : ∀ entry ∈ parts.doc.entries, EntryOf resources entry
  upstreams : ∀ item ∈ parts.upstreams.entries, resourceName item.1 = true ∧
    ∃ resource ∈ resources, resource.body = item.2
  compositions : ∀ item ∈ parts.compositions.entries, resourceName item.1 = true ∧
    ∃ resource ∈ resources, resource.body = item.2

/-- A checked resource is added to the parts. -/
theorem PartsOf.add {parts : ArtifactParts Value} {resource : Resource (GoMap String Value)}
    (prior : PartsOf resources parts) (member : resource ∈ resources)
    (checked : checkResource yaml decodes resource.kind resource.name resource.body = .ok ()) :
    PartsOf resources (parts.add resource) := by
  obtain ⟨named, settings, -⟩ := checkResource_ok checked
  rw [ArtifactParts.add]
  cases isKind : resource.kind with
  | upstream =>
      refine ⟨prior.doc, fun item listed => ?_, prior.compositions⟩
      rcases mem_entries_insert listed with rfl | old
      · exact ⟨named (by rw [isKind]; rfl), resource, member, rfl⟩
      · exact prior.upstreams item old
  | composition =>
      refine ⟨prior.doc, prior.upstreams, fun item listed => ?_⟩
      rcases mem_entries_insert listed with rfl | old
      · exact ⟨named (by rw [isKind]; rfl), resource, member, rfl⟩
      · exact prior.compositions item old
  | auth =>
      refine ⟨fun entry listed => ?_, prior.upstreams, prior.compositions⟩
      rcases mem_entries_insert listed with rfl | old
      · exact .body (.inl rfl) ⟨resource, member, rfl⟩
      · exact prior.doc entry old
  | rateLimit =>
      refine ⟨fun entry listed => ?_, prior.upstreams, prior.compositions⟩
      rcases mem_entries_insert listed with rfl | old
      · exact .body (.inr rfl) ⟨resource, member, rfl⟩
      · exact prior.doc entry old
  | settings =>
      refine ⟨?_, prior.upstreams, prior.compositions⟩
      have fields : ∀ field ∈ resource.body.entries,
          EntryOf resources ⟨field.1, .field field.2⟩ := fun field listed =>
        .field (settings isKind field.1 (List.mem_map_of_mem listed))
          ⟨resource, member, eq_singleton_of_keys (settings isKind) listed⟩
      have start := prior.doc
      dsimp only
      generalize resource.body.entries = entries at fields
      generalize parts.doc = doc at start
      induction entries generalizing doc with
      | nil => exact start
      | cons field rest ih =>
          obtain ⟨here, behind⟩ := List.forall_mem_cons.mp fields
          refine ih behind _ fun entry listed => ?_
          rcases mem_entries_insert listed with rfl | old
          · exact here
          · exact start entry old

/-- The entries of the document come from the resources. -/
theorem entryOf_artifactDoc
    (checked : ∀ resource ∈ resources,
      checkResource yaml decodes resource.kind resource.name resource.body = .ok ()) :
    ∀ entry ∈ (artifactDoc resources).entries, EntryOf resources entry := by
  have all : ∀ rest : List (Resource (GoMap String Value)), (∀ resource ∈ rest, resource ∈ resources) →
      ∀ parts : ArtifactParts Value, PartsOf resources parts →
        PartsOf resources (rest.foldl ArtifactParts.add parts) := by
    intro rest
    induction rest with
    | nil => exact fun _ _ prior => prior
    | cons resource rest ih =>
        intro within parts prior
        obtain ⟨here, behind⟩ := List.forall_mem_cons.mp within
        exact ih behind _ (prior.add here (checked resource here))
  have parts := all resources (fun _ member => member) {} ⟨by simp, by simp, by simp⟩
  have set {doc : GoMap String (DocValue Value)} {key : String}
      {bodies : GoMap String (GoMap String Value)} (isKey : key = "upstreams" ∨ key = "compositions")
      (named : ∀ item ∈ bodies.entries, resourceName item.1 = true ∧
        ∃ resource ∈ resources, resource.body = item.2)
      (prior : ∀ entry ∈ doc.entries, EntryOf resources entry) :
      ∀ entry ∈ (setUnlessEmpty doc key bodies).entries, EntryOf resources entry := by
    rw [setUnlessEmpty]
    split
    · exact prior
    · intro entry listed
      rcases mem_entries_insert listed with rfl | old
      · exact .bodies isKey named
      · exact prior entry old
  exact set (.inr rfl) parts.compositions (set (.inl rfl) parts.upstreams parts.doc)

end Artifact

/-! ### What YAML does to an artifact -/

section Faithful

/-- The bodies that an entry of the document holds; a field of the settings is a body by itself. -/
def entryBodies (entry : GoEntry String (DocValue Value)) : List (GoMap String Value) :=
  match entry.2 with
  | .field value => [AList.singleton entry.1 value]
  | .body body => [body]
  | .bodies bodies => bodies.entries.map Sigma.snd

/-- Keys without a `$`. -/
def PlainKeys (entry : GoEntry String (DocValue Value)) : Prop :=
  '$' ∉ entry.1.toList ∧
    ∀ bodies, entry.2 = .bodies bodies → ∀ item ∈ bodies.entries, '$' ∉ item.1.toList

/-- What a value of the document is read back as: bodies that are marshalled as before. -/
inductive Reread (yaml : Yaml Value) (key : String) : DocValue Value → Value → Prop where
  | field {value again : Value}
      (same : yaml.marshalBody (AList.singleton key again) =
        yaml.marshalBody (AList.singleton key value)) :
      Reread yaml key (.field value) again
  | body {body again : GoMap String Value} {value : Value} (isMap : yaml.asMap value = some again)
      (same : yaml.marshalBody again = yaml.marshalBody body) :
      Reread yaml key (.body body) value
  | bodies {bodies : GoMap String (GoMap String Value)} {items : GoMap String Value} {value : Value}
      {order : List (GoEntry String (GoMap String Value))} (isMap : yaml.asMap value = some items)
      (isOrder : bodies.RangesIn order)
      (same : List.Forall₂ (fun given item => item.1 = given.1 ∧
          ∃ again, yaml.asMap item.2 = some again ∧
            yaml.marshalBody again = yaml.marshalBody given.2) order items.entries) :
      Reread yaml key (.bodies bodies) value

/-- What the text of an artifact has to do with the texts of its bodies. -/
structure YamlFaithful (yaml : Yaml Value) (doc : GoMap String (DocValue Value)) : Prop where
  /-- Bodies stand in the artifact as they are marshalled alone, indented, and scalars stand in
  them unescaped. -/
  layout : ∀ text : GoMap String Value → String,
    (∀ entry ∈ doc.entries, PlainKeys entry) →
    (∀ body ∈ doc.entries.flatMap entryBodies, yaml.marshalBody body = .ok (text body)) →
    ∃ order : List (GoMap String Value), order.Perm (doc.entries.flatMap entryBodies) ∧
      Nested (order.map fun body => (text body).toList) (yaml.marshalDoc doc).toList
  /-- What is read back has the same keys, and bodies that are marshalled as before. -/
  reread : ∃ top order, yaml.unmarshal (yaml.marshalDoc doc) = .ok top ∧ doc.RangesIn order ∧
    List.Forall₂ (fun given entry => entry.1 = given.1 ∧ Reread yaml given.1 given.2 entry.2)
      order top.entries

variable {yaml : Yaml Value} {resources : List (Resource (GoMap String Value))}

/-- The texts of the bodies that were split off so far. -/
def splitTexts (yaml : Yaml Value) (out : List (Resource (GoMap String Value)))
    (settings : GoMap String Value) : List (Except String String) :=
  (out ++ settingsResource settings).map fun resource => yaml.marshalBody resource.body

/-- The texts of the named resources come with those before them. -/
theorem mem_splitTexts_append {out named : List (Resource (GoMap String Value))}
    {settings : GoMap String Value} {text : Except String String} :
    text ∈ splitTexts yaml (out ++ named) settings ↔ text ∈ splitTexts yaml out settings ∨
      text ∈ named.map fun resource => yaml.marshalBody resource.body := by
  simp only [splitTexts, List.map_append, List.mem_append]
  exact or_right_comm

/-- A section is split into resources with the texts they were written with. -/
theorem exists_splitItems {order : List (GoEntry String (GoMap String Value))}
    {items : List (GoEntry String Value)} (key : String) (kind : Kind)
    (same : List.Forall₂ (fun given item => item.1 = given.1 ∧
      ∃ again, yaml.asMap item.2 = some again ∧
        yaml.marshalBody again = yaml.marshalBody given.2) order items) :
    ∃ named, splitItems yaml key kind items = .ok named ∧
      named.map (fun resource => yaml.marshalBody resource.body) =
        order.map fun given => yaml.marshalBody given.2 := by
  induction same with
  | nil => exact ⟨[], rfl, rfl⟩
  | @cons given item _ _ here _ ih =>
      obtain ⟨-, again, isMap, text⟩ := here
      obtain ⟨named, done, texts⟩ := ih
      refine ⟨⟨kind, item.1, again⟩ :: named, ?_, ?_⟩
      · rw [splitItems, isMap]
        dsimp only
        rw [done]
        rfl
      · rw [List.map_cons, List.map_cons, text, texts]

/-- A key of the settings is not one that `splitArtifact` looks for. -/
theorem settingsKey_ne {key : String} (isSetting : key ∈ settingsKeys) :
    ¬ (key = "upstreams" ∨ key = "compositions") ∧ ¬ (key = "auth" ∨ key = "rate_limit") := by
  obtain rfl := List.mem_singleton.mp isSetting
  exact ⟨by decide, by decide⟩

/-- There is one key of the settings: as long as it is still to come, there are none. -/
theorem settings_eq_empty {settings : GoMap String Value} {key : String}
    {order : List String} (isSetting : key ∈ settingsKeys)
    (settled : ∀ other ∈ settings.keys, other ∈ settingsKeys ∧ other ∉ key :: order) :
    settings = ∅ := by
  apply AList.ext
  refine List.eq_nil_iff_forall_not_mem.mpr fun entry member => ?_
  obtain ⟨also, unseen⟩ := settled entry.1 (List.mem_map_of_mem member)
  refine unseen ?_
  rw [List.mem_singleton.mp also, ← List.mem_singleton.mp isSetting]
  exact List.mem_cons_self

/-- Splitting gives the bodies of the entries back. -/
theorem exists_splitEntries {order : List (GoEntry String (DocValue Value))}
    {entries : List (GoEntry String Value)} (out : List (Resource (GoMap String Value)))
    (settings : GoMap String Value) (distinct : order.NodupKeys)
    (known : ∀ given ∈ order, EntryOf resources given)
    (settled : ∀ key ∈ settings.keys, key ∈ settingsKeys ∧ key ∉ order.keys)
    (same : List.Forall₂ (fun given entry =>
      entry.1 = given.1 ∧ Reread yaml given.1 given.2 entry.2) order entries) :
    ∃ out' settings', splitEntries yaml entries out settings = .ok (out', settings') ∧
      ∀ text, text ∈ splitTexts yaml out' settings' ↔ text ∈ splitTexts yaml out settings ∨
        text ∈ (order.flatMap entryBodies).map yaml.marshalBody := by
  induction same generalizing out settings with
  | nil => exact ⟨out, settings, rfl, fun text => by simp⟩
  | @cons given entry order entries here _ ih =>
      obtain ⟨absent, restDistinct⟩ := List.nodupKeys_cons.mp distinct
      obtain ⟨isGiven, restKnown⟩ := List.forall_mem_cons.mp known
      obtain ⟨key, value⟩ := entry
      obtain ⟨isKey, reread⟩ := here
      have restSettled : ∀ key ∈ settings.keys, key ∈ settingsKeys ∧ key ∉ order.keys := by
        intro other member
        obtain ⟨isSetting, unseen⟩ := settled other member
        exact ⟨isSetting, fun listed => unseen (List.mem_cons_of_mem _ listed)⟩
      cases isGiven with
      | @field key' given isSetting isBody =>
          obtain rfl : key = key' := isKey
          cases reread with
          | field same =>
              obtain rfl := settings_eq_empty isSetting settled
              obtain ⟨out', settings', done, texts⟩ := ih out (AList.singleton key value) restDistinct
                restKnown fun other member => by
                  obtain rfl := List.mem_singleton.mp member
                  exact ⟨isSetting, absent⟩
              refine ⟨out', settings', ?_, fun text => ?_⟩
              · rw [splitEntries, if_neg (settingsKey_ne isSetting).1,
                  if_neg (settingsKey_ne isSetting).2, AList.insert_empty]
                exact done
              · rw [texts, List.flatMap_cons, List.map_append, List.mem_append, ← or_assoc,
                  entryBodies, List.map_singleton, ← same]
                have none_ : settingsResource (∅ : GoMap String Value) = [] := rfl
                rw [splitTexts, splitTexts, none_, List.append_nil, List.map_append, List.mem_append]
                exact Iff.rfl
      | @body key' body isName isBody =>
          obtain rfl : key = key' := isKey
          cases reread with
          | @body _ again _ isMap same =>
              obtain ⟨out', settings', done, texts⟩ := ih
                (out ++ [⟨if key = "rate_limit" then .rateLimit else .auth, singletonName, again⟩])
                settings restDistinct restKnown restSettled
              refine ⟨out', settings', ?_, fun text => ?_⟩
              · have other : ¬ (key = "upstreams" ∨ key = "compositions") := by
                  rcases isName with rfl | rfl <;> decide
                rw [splitEntries, if_neg other, if_pos isName]
                dsimp only
                rw [isMap]
                exact done
              · rw [texts, mem_splitTexts_append, List.flatMap_cons, List.map_append, List.mem_append,
                  or_assoc, List.map_singleton, same]
                rfl
      | @bodies key' bodies isName named =>
          obtain rfl : key = key' := isKey
          cases reread with
          | @bodies _ items _ order isMap isOrder same =>
              obtain ⟨named, split_, namedTexts⟩ := exists_splitItems key
                (if key = "compositions" then .composition else .upstream) same
              obtain ⟨out', settings', done, texts⟩ := ih (out ++ named) settings restDistinct restKnown
                restSettled
              refine ⟨out', settings', ?_, fun text => ?_⟩
              · rw [splitEntries, if_pos isName]
                dsimp only
                rw [isMap]
                dsimp only
                rw [split_]
                exact done
              · have perm : (order.map fun given => yaml.marshalBody given.2).Perm
                    ((entryBodies ⟨key, .bodies bodies⟩).map yaml.marshalBody) := by
                  rw [entryBodies, List.map_map]
                  exact isOrder.map _
                rw [texts, mem_splitTexts_append, List.flatMap_cons, List.map_append, List.mem_append,
                  or_assoc, namedTexts, perm.mem_iff]

end Faithful

/-! ### Exactness for an artifact -/

section Exact

variable {yaml : Yaml Value} {decodes : Kind → String → GoMap String Value → Bool}
  {resources : List (Resource (GoMap String Value))}

/-- The text of a body. -/
def bodyText (yaml : Yaml Value) (body : GoMap String Value) : List Char :=
  ((yaml.marshalBody body).toOption.getD "").toList

/-- The references of a text by itself. -/
def ownReferences (text : List Char) : List Reference :=
  (references text).toOption.getD []

/-- A body whose text scans by itself. -/
def BodyScans (yaml : Yaml Value) (body : GoMap String Value) : Prop :=
  yaml.marshalBody body = .ok (.ofList (bodyText yaml body)) ∧
    ScansAlone (bodyText yaml body) (ownReferences (bodyText yaml body))

/-- The needs of a text that was marshalled. -/
def textNeeds (text : Except String String) : List (List Char × Bool) :=
  (ownReferences (text.toOption.getD "").toList).map Reference.need

/-- A text whose names are checked scans on its own. -/
theorem scansAlone_of_checkVarNames {text : List Char} (checked : checkVarNames text = .ok ()) :
    ScansAlone text (ownReferences text) := by
  unfold checkVarNames at checked
  split at checked
  · cases checked
  rename_i listed scanned
  split at checked
  · cases checked
  rename_i named
  have isOwn : ownReferences text = listed := by
    rw [ownReferences, scanned]
    rfl
  rw [isOwn]
  exact ⟨scanned, fun reference member => by simpa using List.find?_eq_none.mp named _ member⟩

/-- A body that is marshalled as a checked one scans. -/
theorem bodyScans_of_checked {kind : Kind} {name : String} {body again : GoMap String Value}
    (checked : checkResource yaml decodes kind name body = .ok ())
    (same : yaml.marshalBody again = yaml.marshalBody body) : BodyScans yaml again := by
  obtain ⟨-, -, data, marshalled, vars⟩ := checkResource_ok checked
  have isText : bodyText yaml again = data.toList := by
    rw [bodyText, same, marshalled]
    rfl
  refine ⟨?_, ?_⟩
  · rw [isText, same, marshalled, String.ofList_toList]
  · rw [isText]
    exact scansAlone_of_checkVarNames vars

/-- The bodies in the document are bodies of the resources. -/
theorem EntryOf.mem_bodies {entry : GoEntry String (DocValue Value)} {body : GoMap String Value}
    (isEntry : EntryOf resources entry) (member : body ∈ entryBodies entry) :
    ∃ resource ∈ resources, resource.body = body := by
  cases isEntry with
  | field isKey isBody =>
      obtain rfl := List.mem_singleton.mp member
      exact isBody
  | body isKey isBody =>
      obtain rfl := List.mem_singleton.mp member
      exact isBody
  | bodies isKey named =>
      obtain ⟨item, listed, rfl⟩ := List.mem_map.mp member
      exact (named item listed).2

/-- A character of the name of a resource is one that `resourceName` allows. -/
theorem not_mem_of_resourceName {name : String} {c : Char} (isName : resourceName name = true)
    (notAlphanum : c.isAlphanum = false) (notMark : c ∉ ['_', '.', '-']) : c ∉ name.toList := by
  unfold resourceName at isName
  split at isName
  · cases isName
  rename_i first rest isList
  rw [Bool.and_eq_true, Bool.and_eq_true, List.all_eq_true] at isName
  obtain ⟨⟨firstAlphanum, restAllowed⟩, -⟩ := isName
  rw [isList]
  intro member
  rcases List.mem_cons.mp member with rfl | later
  · rw [notAlphanum] at firstAlphanum
    cases firstAlphanum
  · have allowed := restAllowed c later
    rw [notAlphanum, Bool.false_or, decide_eq_true_eq] at allowed
    exact notMark allowed

/-- The entries of an artifact have plain keys. -/
theorem EntryOf.plainKeys {entry : GoEntry String (DocValue Value)}
    (isEntry : EntryOf resources entry) : PlainKeys entry := by
  cases isEntry with
  | field isKey isBody =>
      obtain rfl := List.mem_singleton.mp isKey
      refine ⟨?_, fun bodies isBodies => by cases isBodies⟩
      dsimp only
      decide
  | body isKey isBody =>
      refine ⟨?_, fun bodies isBodies => by cases isBodies⟩
      dsimp only
      rcases isKey with rfl | rfl <;> decide
  | bodies isKey named =>
      refine ⟨?_, ?_⟩
      · dsimp only
        rcases isKey with rfl | rfl <;> decide
      · rintro bodies ⟨rfl⟩ item listed
        exact not_mem_of_resourceName (named item listed).1 (by decide) (by decide)

/-- An artifact of checked resources is split into resources whose texts are those in it. -/
theorem exists_splitArtifact
    (checked : ∀ resource ∈ resources,
      checkResource yaml decodes resource.kind resource.name resource.body = .ok ())
    (faithful : YamlFaithful yaml (artifactDoc resources)) :
    ∃ out, splitArtifact yaml (assembleArtifact yaml.marshalDoc resources) = .ok out ∧
      ∀ text, text ∈ out.map (fun resource => yaml.marshalBody resource.body) ↔
        text ∈ ((artifactDoc resources).entries.flatMap entryBodies).map yaml.marshalBody := by
  obtain ⟨top, order, read, isOrder, same⟩ := faithful.reread
  have distinct : order.NodupKeys :=
    (List.perm_nodupKeys isOrder).mpr (artifactDoc resources).nodupKeys
  obtain ⟨out, settings, done, texts⟩ := exists_splitEntries [] ∅ distinct
    (fun given member => entryOf_artifactDoc checked given (isOrder.mem_iff.mp member))
    (by simp) same
  refine ⟨out ++ settingsResource settings, ?_, fun text => (texts text).trans ?_⟩
  · have isDoc : assembleArtifact yaml.marshalDoc resources =
        yaml.marshalDoc (artifactDoc resources) := rfl
    rw [splitArtifact, isDoc, read]
    dsimp only
    rw [done]
    rfl
  · have none_ : splitTexts yaml [] ∅ = [] := rfl
    rw [none_, ((isOrder.flatMap_right entryBodies).map yaml.marshalBody).mem_iff]
    simp

/-- The required names are listed in order. -/
theorem sorted_byName (names : List RequiredName) :
    (names.insertionSort fun first second => first.name ≤ second.name).Pairwise
      fun first second => first.name ≤ second.name := by
  have : Std.Total fun first second : RequiredName => first.name ≤ second.name :=
    ⟨fun first second => le_total first.name second.name⟩
  have : IsTrans RequiredName fun first second => first.name ≤ second.name :=
    ⟨fun _ _ _ => le_trans⟩
  exact List.pairwise_insertionSort _ names

/-- The names listed for an artifact of checked resources are exact. -/
theorem exists_namesExact
    (checked : ∀ resource ∈ resources,
      checkResource yaml decodes resource.kind resource.name resource.body = .ok ())
    (faithful : YamlFaithful yaml (artifactDoc resources)) :
    ∃ out names, splitArtifact yaml (assembleArtifact yaml.marshalDoc resources) = .ok out ∧
      requiredNames yaml out = .ok names ∧
      NamesExact names (assembleArtifact yaml.marshalDoc resources).toList := by
  have known := entryOf_artifactDoc checked
  have ofBody : ∀ body ∈ (artifactDoc resources).entries.flatMap entryBodies,
      ∀ again, yaml.marshalBody again = yaml.marshalBody body → BodyScans yaml again := by
    intro body member again same
    obtain ⟨entry, listed, isBody⟩ := List.mem_flatMap.mp member
    obtain ⟨resource, isResource, rfl⟩ := (known entry listed).mem_bodies isBody
    exact bodyScans_of_checked (checked resource isResource) same
  obtain ⟨order, isOrder, nested⟩ := faithful.layout
    (fun body => .ofList (bodyText yaml body)) (fun entry listed => (known entry listed).plainKeys)
    (fun body member => (ofBody body member body rfl).1)
  obtain ⟨listed, scanned, needs⟩ := exists_references_of_nested ownReferences nested (by
    intro text member
    obtain ⟨body, isBody, rfl⟩ := List.mem_map.mp member
    rw [String.toList_ofList]
    exact (ofBody body (isOrder.mem_iff.mp isBody) body rfl).2)
  obtain ⟨out, split_, texts⟩ := exists_splitArtifact checked faithful
  have outScans : ∀ resource ∈ out, BodyScans yaml resource.body := by
    intro resource member
    obtain ⟨body, isBody, same⟩ :=
      List.mem_map.mp ((texts _).mp (List.mem_map.mpr ⟨resource, member, rfl⟩))
    exact ofBody body isBody _ same.symm
  obtain ⟨after, done, counted⟩ := exists_counts
    (fun resource => ownReferences (bodyText yaml resource.body))
    (fun resource member => ⟨_, (outScans resource member).1, by
      rw [String.toList_ofList]
      exact (outScans resource member).2.1⟩) counts_empty
  have names : requiredNames yaml out = .ok ((after.entries.map fun entry =>
      (⟨entry.1, entry.2.optional, entry.2.users.insertionSort (· ≤ ·)⟩ :
        RequiredName)).insertionSort fun first second => first.name ≤ second.name) := by
    rw [requiredNames, done]
    rfl
  refine ⟨out, _, split_, names, namesExact_of_counts scanned counted (fun need => ?_)
    (List.perm_insertionSort _ _) (sorted_byName _)⟩
  -- Both sides list the needs of the same texts.
  have ofTexts : ∀ bodies : List (GoMap String Value),
      (bodies.flatMap fun body => ownReferences (bodyText yaml body)).map Reference.need =
        (bodies.map yaml.marshalBody).flatMap textNeeds := by
    intro bodies
    rw [List.map_flatMap, List.flatMap_map]
    rfl
  have inDoc : listed.map Reference.need = (order.map yaml.marshalBody).flatMap textNeeds := by
    rw [needs, ← ofTexts, List.flatMap_map]
    simp only [String.toList_ofList]
  have inParts : (out.flatMap fun resource => ownReferences (bodyText yaml resource.body)).map
      Reference.need = (out.map fun resource => yaml.marshalBody resource.body).flatMap textNeeds := by
    have ofBodies := ofTexts (out.map Resource.body)
    rwa [List.flatMap_map, List.map_map] at ofBodies
  rw [inDoc, inParts, List.nil_append, List.mem_flatMap, List.mem_flatMap]
  refine exists_congr fun text => and_congr_left fun _ => ?_
  rw [texts, (isOrder.map yaml.marshalBody).mem_iff]

end Exact

end Restitch.Studio
