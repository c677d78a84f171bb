import Restitch.Composition.AuthenticatedRoutes
import Restitch.Import.ImportedComposition

/-!
# The artifact of a document

The artifact passes the checks of the gateway whatever order the operations are visited in, and none
of its compositions is served without the API key.
-/

namespace Restitch.Import

open Restitch.Composition Restitch.Http Restitch.Inbound Restitch.Std

section Artifact

variable {flags : ImportFlags} {doc : Document} {order : List PlacedOperation}

/-- The composition of an operation is found under its name, whatever the order, if no other
operation has that name. -/
theorem lookup_importCompositions {placed : PlacedOperation} (member : placed ∈ order)
    (selected : placed.selected flags = true)
    (alone : ∀ other ∈ order, other.selected flags = true → other.name = placed.name →
      other = placed) :
    (importCompositions flags order).lookup placed.name =
      some (placed.composition flags.upstream) := by
  have inserted : ∀ compositions : GoMap String CompositionConfig,
      (placed ∈ order ∨ compositions.lookup placed.name =
        some (placed.composition flags.upstream)) →
      (order.foldl (addOperation flags) compositions).lookup placed.name =
        some (placed.composition flags.upstream) := by
    clear member
    induction order with
    | nil =>
        intro compositions present
        rcases present with never | found
        · cases never
        · exact found
    | cons first rest ih =>
        intro compositions present
        refine ih (fun other listed => alone other (List.mem_cons_of_mem first listed)) _ ?_
        by_cases later : placed ∈ rest
        · exact .inl later
        right
        by_cases taken : first.selected flags = true
        · rw [addOperation, if_pos taken]
          by_cases same : first.name = placed.name
          · rw [alone first List.mem_cons_self taken same, AList.lookup_insert]
          · rw [AList.lookup_insert_ne (Ne.symm same)]
            rcases present with here | found
            · rcases List.mem_cons.mp here with rfl | here
              · exact absurd rfl same
              · exact absurd here later
            · exact found
        · rw [addOperation, if_neg taken]
          rcases present with here | found
          · rcases List.mem_cons.mp here with rfl | here
            · exact absurd selected taken
            · exact absurd here later
          · exact found
  exact inserted ∅ (.inl member)

/-- An operation that is imported, with its composition under this name. -/
def ComesFrom (flags : ImportFlags) (order : List PlacedOperation) (name : String)
    (comp : CompositionConfig) : Prop :=
  ∃ placed ∈ order, placed.selected flags = true ∧ placed.name = name ∧
    comp = placed.composition flags.upstream

/-- Every composition is that of an operation that was selected. -/
theorem comesFrom_of_lookup {name : String} {comp : CompositionConfig}
    (found : (importCompositions flags order).lookup name = some comp) :
    ComesFrom flags order name comp := by
  have inserted : ∀ compositions : GoMap String CompositionConfig,
      (order.foldl (addOperation flags) compositions).lookup name = some comp →
      compositions.lookup name = some comp ∨ ComesFrom flags order name comp := by
    clear found
    induction order with
    | nil => exact fun _ found => .inl found
    | cons first rest ih =>
        intro compositions found
        rcases ih _ found with before | ⟨placed, member, comes⟩
        · rw [addOperation] at before
          split at before
          · next taken =>
              by_cases same : name = first.name
              · subst same
                rw [AList.lookup_insert] at before
                exact .inr ⟨first, List.mem_cons_self, taken, rfl, (Option.some.inj before).symm⟩
              · rw [AList.lookup_insert_ne same] at before
                exact .inl before
          · exact .inl before
        · exact .inr ⟨placed, List.mem_cons_of_mem first member, comes⟩
  rcases inserted ∅ found with never | comes
  · cases never
  · exact comes

/-- Every operation that is selected leaves a composition under its name. -/
theorem exists_lookup_of_selected {placed : PlacedOperation} (member : placed ∈ order)
    (selected : placed.selected flags = true) :
    ∃ comp, (importCompositions flags order).lookup placed.name = some comp := by
  have kept : ∀ compositions : GoMap String CompositionConfig,
      (placed ∈ order ∨ ∃ comp, compositions.lookup placed.name = some comp) →
      ∃ comp, (order.foldl (addOperation flags) compositions).lookup placed.name = some comp := by
    clear member
    induction order with
    | nil =>
        intro compositions present
        rcases present with never | found
        · cases never
        · exact found
    | cons first rest ih =>
        intro compositions present
        apply ih
        by_cases later : placed ∈ rest
        · exact .inl later
        right
        by_cases same : placed.name = first.name ∧ first.selected flags = true
        · rw [addOperation, if_pos same.2, same.1, AList.lookup_insert]
          exact ⟨_, rfl⟩
        · have before : ∃ comp, compositions.lookup placed.name = some comp := by
            rcases present with here | found
            · rcases List.mem_cons.mp here with rfl | here
              · exact absurd ⟨rfl, selected⟩ same
              · exact absurd here later
            · exact found
          rw [addOperation]
          split
          · next taken =>
              rwa [AList.lookup_insert_ne fun isName => same ⟨isName, taken⟩]
          · exact before
  exact kept ∅ (.inl member)

/-- The texts of the artifact that come from an operation. -/
def PlacedOperation.texts (placed : PlacedOperation) : List String :=
  placed.path :: placed.name :: placed.operation.requiredQuery

/-- What the gateway needs of the flags, of the servers of a document and of its operations. -/
structure Servable (net : NetParser) (flags : ImportFlags) (doc : Document) : Prop where
  upstream : flags.upstream ≠ ""
  url : ∃ url, net.parseURL (base flags doc) = .ok url ∧
    (url.scheme = "http" ∨ url.scheme = "https")
  paths : ∀ placed ∈ doc.operations, placed.selected flags = true → placed.path ∉ reservedPaths
  methods : ∀ placed ∈ doc.operations, placed.selected flags = true → placed.method.toUpper ≠ ""
  /-- Nothing but the API key is a variable. -/
  noVariable : ∀ text ∈ flags.upstream :: base flags doc ::
    (doc.operations.filter (·.selected flags)).flatMap PlacedOperation.texts, '$' ∉ text.toList

/-- The upstream has a URL. -/
theorem base_ne_empty (flags : ImportFlags) (doc : Document) : base flags doc ≠ "" := by
  by_cases empty : (if flags.baseURL = "" then doc.servers.headD "" else flags.baseURL) = ""
  · simp only [base, if_pos empty]
    exact String.toList_inj.not.mp (by decide)
  · simp only [base, if_neg empty]
    exact empty

/-- The checks accept the composition of an operation. -/
theorem validateComposition_imported (placed : PlacedOperation) {upstream : String} (name : String)
    (filled : upstream ≠ "") (free : placed.path ∉ reservedPaths)
    (named : placed.method.toUpper ≠ "") :
    validateComposition true [upstream] name (placed.composition upstream) =
      .ok (placed.checked upstream) := by
  have isMethod : defaultMethod placed.method.toUpper = placed.method.toUpper := if_neg named
  have isStep : validateSteps name [upstream] [] 0 [placed.step upstream] =
      .ok [placed.step upstream] := by
    simp only [validateSteps, validateStep, PlacedOperation.step]
    simp [filled, isMethod, bind, Except.bind, pure, Except.pure]
  have steps : (placed.composition upstream).steps = [placed.step upstream] := rfl
  have isPath : (placed.composition upstream).path = placed.path := rfl
  have bytes : ¬ (placed.composition upstream).maxRequestBytes < 0 := Int.lt_irrefl 0
  have method : (placed.composition upstream).method = placed.method.toUpper := rfl
  rw [validateComposition, isPath, if_neg free, if_neg (by simp), if_neg bytes, steps, isStep,
    method, isMethod]
  rfl

section Servable

variable {net : NetParser} (servable : Servable net flags doc)

include servable

/-- The composition of a servable operation is accepted with its defaults. -/
theorem Servable.validateComposition_eq {placed : PlacedOperation} (inDoc : placed ∈ doc.operations)
    (selected : placed.selected flags = true) (name : String) :
    validateComposition true [flags.upstream] name (placed.composition flags.upstream) =
      .ok (placed.checked flags.upstream) :=
  validateComposition_imported placed name servable.upstream (servable.paths placed inDoc selected)
    (servable.methods placed inDoc selected)

/-- Every composition of the accepted artifact is that of a selected operation. -/
theorem Servable.operation_of_lookup (isOrder : order.Perm doc.operations)
    {compositions : GoMap String CompositionConfig}
    (traversed : GoMap.traverse (validateComposition true [flags.upstream])
      (importCompositions flags order) = .ok compositions) {name : String}
    {comp : CompositionConfig} (found : compositions.lookup name = some comp) :
    ∃ placed ∈ doc.operations, placed.selected flags = true ∧ placed.name = name ∧
      comp = placed.checked flags.upstream := by
  obtain ⟨written, listed, isValid⟩ :=
    GoMap.exists_of_traverse _ traversed (GoMap.mem_entries_iff.mpr found)
  obtain ⟨placed, inOrder, selected, isName, rfl⟩ :=
    comesFrom_of_lookup (GoMap.mem_entries_iff.mp listed)
  have inDoc := isOrder.mem_iff.mp inOrder
  cases isValid.symm.trans (servable.validateComposition_eq inDoc selected name)
  exact ⟨placed, inDoc, selected, isName, rfl⟩

/-- The artifact passes the checks. -/
theorem Servable.exists_validated (apiKey : String) (isOrder : order.Perm doc.operations) :
    ∃ config, validateAndApplyDefaults net (importConfig flags doc order apiKey) = .ok config ∧
      config.auth = some ⟨[apiKey], none⟩ ∧
      GoMap.traverse (validateComposition true [flags.upstream]) (importCompositions flags order) =
        .ok config.compositions := by
  obtain ⟨url, parsed, scheme⟩ := servable.url
  have keys : (importConfig flags doc order apiKey).upstreams.keys = [flags.upstream] := rfl
  have upstreams : ∃ result, GoMap.traverse (validateUpstream net false)
      (importConfig flags doc order apiKey).upstreams = .ok result := by
    refine GoMap.exists_traverse _ fun entry member => ?_
    cases List.mem_singleton.mp member
    rw [validateUpstream, if_neg (base_ne_empty flags doc)]
    simp only [parsed]
    rw [if_neg (by rcases scheme with isHttp | isHttps <;> simp [*]), if_neg (by simp)]
    exact ⟨_, rfl⟩
  obtain ⟨valid, isValid⟩ := upstreams
  have compositions : ∃ result, GoMap.traverse (validateComposition true [flags.upstream])
      (importCompositions flags order) = .ok result := by
    refine GoMap.exists_traverse _ fun entry member => ?_
    obtain ⟨placed, listed, selected, -, isComp⟩ :=
      comesFrom_of_lookup (GoMap.mem_entries_iff.mp member)
    exact ⟨_, isComp ▸
      servable.validateComposition_eq (isOrder.mem_iff.mp listed) selected entry.1⟩
  obtain ⟨checked, isChecked⟩ := compositions
  refine ⟨{ importConfig flags doc order apiKey with
    upstreams := valid, compositions := checked }, ?_, rfl, isChecked⟩
  have auth : validateAuth (importConfig flags doc order apiKey).auth = .ok () := by
    simp [validateAuth, importConfig]
  have hasAuth : (importConfig flags doc order apiKey).auth.isSome = true := rfl
  have isCompositions : (importConfig flags doc order apiKey).compositions =
      importCompositions flags order := rfl
  have notBlocked : (importConfig flags doc order apiKey).blockPrivateUpstreams = false := rfl
  rw [validateAndApplyDefaults, auth, notBlocked, hasAuth, keys, isCompositions]
  change (GoMap.traverse (validateUpstream net false) _).bind _ = _
  rw [isValid]
  change (GoMap.traverse (validateComposition true [flags.upstream]) _).bind _ = _
  rw [isChecked]
  rfl

end Servable

/-- For every document, every choice of the flags and every order in which the operations are
visited, the artifact that the import prints passes the checks of the gateway. Its compositions are those of
the selected operations, under their names in kebab case: each of them if no other one has its
name. No request reaches a composition without the API key. -/
theorem imported_artifact_needs_key {net : NetParser} (servable : Servable net flags doc)
    (apiKey : String) (isOrder : order.Perm doc.operations) :
    ∃ config, validateAndApplyDefaults net (importConfig flags doc order apiKey) = .ok config ∧
      (∀ name comp, config.compositions.lookup name = some comp →
        ∃ placed ∈ doc.operations, placed.selected flags = true ∧ placed.name = name ∧
          comp = placed.checked flags.upstream) ∧
      (∀ placed ∈ doc.operations, placed.selected flags = true →
        ∃ comp, config.compositions.lookup placed.name = some comp ∧
          ((∀ other ∈ doc.operations, other.selected flags = true → other.name = placed.name →
            other = placed) → comp = placed.checked flags.upstream)) ∧
      ∀ (Value : Type) (library : JWTLibrary Value)
        (authenticator : Option (Authenticator library)) (arrival : Arrival)
        (request : HttpRequest) (context : Context Value) (call : CompositionCall Value),
        loadAuthenticator library config = .ok authenticator →
        gatewayHandler authenticator arrival config request context =
          .served (.composition call) →
        apiKey ≠ "" ∧ request.header.get "X-API-Key" = apiKey := by
  obtain ⟨config, accepted, isAuth, traversed⟩ := servable.exists_validated apiKey isOrder
  have fromOperation {name : String} {comp : CompositionConfig}
      (found : config.compositions.lookup name = some comp) :=
    servable.operation_of_lookup isOrder traversed found
  refine ⟨config, accepted, fun name comp => fromOperation, ?_, ?_⟩
  · intro placed inDoc selected
    have listed := isOrder.mem_iff.mpr inDoc
    obtain ⟨written, isWritten⟩ := exists_lookup_of_selected listed selected
    obtain ⟨comp, found, isValid⟩ := GoMap.lookup_of_traverse traversed isWritten
    refine ⟨comp, found, fun alone => ?_⟩
    have own := lookup_importCompositions listed selected fun other member taken sameName =>
      alone other (isOrder.mem_iff.mp member) taken sameName
    cases isWritten.symm.trans own
    exact Except.ok.inj
      (isValid.symm.trans (servable.validateComposition_eq inDoc selected placed.name))
  · intro Value library authenticator arrival request context call loaded served
    obtain ⟨-, comp, found, passage⟩ := gatewayHandler_served loaded served
    obtain ⟨placed, -, -, -, rfl⟩ := fromOperation found
    generalize call.context = arrived at passage
    cases passage with
    | onPublic isPublic => cases isPublic
    | withKey notPublic policy key =>
        cases isAuth.symm.trans policy
        obtain ⟨filled, listed⟩ := key
        have isKey := List.mem_singleton.mp listed
        exact ⟨isKey ▸ filled, isKey⟩
    | withToken notPublic policy noKey token =>
        -- there are no tokens without a key set
        cases isAuth.symm.trans policy
        obtain ⟨-, jwt, -, -, -, isJWT, -⟩ := token
        cases isJWT

end Artifact

/-- `GET /users/{id}?of=...` -/
def getUser : PlacedOperation where
  path := "/users/\x7bid\x7d"
  method := "GET"
  operation := ⟨"getUser", [some ⟨"id", "path", true⟩, some ⟨"of", "query", true⟩]⟩

def userDocument : Document where
  servers := ["http://api/v1/"]
  paths := AList.singleton "/users/\x7bid\x7d" (AList.singleton "GET" getUser.operation)

def apiFlags : ImportFlags := ⟨"api", "", ""⟩

theorem toUpper_get : "GET".toUpper = "GET" := by
  apply String.toList_inj.mp
  rw [String.toUpper, String.toList_map]
  rfl

theorem servable_getUser : Servable sampleNet apiFlags userDocument where
  upstream := by decide
  url := ⟨_, rfl, .inl rfl⟩
  paths := by
    intro placed member
    cases List.mem_singleton.mp member
    decide
  methods := by
    intro placed member
    cases List.mem_singleton.mp member
    intro _ empty
    rw [toUpper_get] at empty
    exact absurd empty (by decide)
  noVariable := by decide +kernel

/-- The composition of the operation is found under its name. -/
theorem imported_artifact_needs_key_getUser :
    ∃ config, validateAndApplyDefaults sampleNet
        (importConfig apiFlags userDocument userDocument.operations "k1") = .ok config ∧
      config.compositions.lookup "get-user" = some (getUser.checked "api") := by
  obtain ⟨config, accepted, -, kept, -⟩ :=
    imported_artifact_needs_key servable_getUser "k1" (.refl userDocument.operations)
  obtain ⟨comp, found, own⟩ := kept getUser (List.mem_singleton.mpr rfl) rfl
  refine ⟨config, accepted, ?_⟩
  have isName : getUser.name = "get-user" := by decide +kernel
  rw [← isName, found, own fun other member _ _ => List.mem_singleton.mp member]
  rfl

end Restitch.Import
