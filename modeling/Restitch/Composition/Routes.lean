import Restitch.Composition.Compile
import Restitch.Http.PatternConflict

/-!
# Loading an artifact (`validate.go`, `handler.go`, `server/router.go`, `run.go`)

An accepted artifact is loaded by registering one route for each composition, in
the iteration order of the map, and then the two probes. A registration that the
multiplexer refuses panics. Handlers, middleware and rate limiters do not enter
into it and are left out.
-/

namespace Restitch.Composition

open Restitch.Http Restitch.Std

/-- The code around the checks of an artifact: the strict YAML decoding with its
check of the top-level keys, and the checks of upstream auth, expressions and
schemas that `CompileConfig` makes. -/
structure ArtifactChecks where
  decode : String → Except String Config
  net : NetParser
  checkAuth : String → Upstream → Option String
  compiler : ExprCompiler
  checkSchema : Yaml → Option String
  order : (deps : StepDependencies) → RangeOrder deps

inductive ParseError where
  | decode (detail : String)
  | validation (error : ValidationError)
deriving DecidableEq

section Validate

variable (checks : ArtifactChecks)

/-- `ParseConfig`. -/
def parseConfig (document : String) : Except ParseError Config :=
  match checks.decode document with
  | .error detail => .error (.decode detail)
  | .ok config => (validateAndApplyDefaults checks.net config).mapError .validation

/-- Whether `CompileConfig` returns no error. It changes nothing of the config. -/
def compilesConfig (config : Config) : Bool :=
  config.upstreams.entries.all (fun entry => (checks.checkAuth entry.1 entry.2).isNone) &&
    config.compositions.entries.all fun entry =>
      match compileComposition checks.compiler checks.checkSchema entry.2 checks.order with
      | some (.ok _) => true
      | _ => false

/-- `Validate`: whether the artifact is accepted. -/
def validate (document : String) : Bool :=
  match parseConfig checks document with
  | .ok config => compilesConfig checks config
  | .error _ => false

end Validate

section Register

variable (classes : CharClasses)

/-- The patterns registered on the multiplexer of a router. -/
abbrev Router := List Pattern

/-- `mux.HandleFunc`; `none` is a panic. -/
def handleFunc (router : Router) (text : String) : Option Router :=
  match parsePattern classes text with
  | .error _ => none
  | .ok pattern => if router.any pattern.conflictsWith then none else some (router ++ [pattern])

/-- `Router.Handle`. -/
def Router.handle (router : Router) (method pattern : String) : Option Router :=
  if method ≠ "" then handleFunc classes router (method ++ " " ++ pattern)
  else handleFunc classes router pattern

/-- `RegisterRoutes`, in the given iteration order of the compositions. -/
def registerRoutes (order : List (GoEntry String CompositionConfig)) (router : Router) :
    Option Router :=
  order.foldlM (fun router entry => router.handle classes entry.2.method entry.2.path) router

/-- The registrations of `withProbes`. -/
def withProbes (router : Router) : Option Router :=
  (router.handle classes "GET" "/health").bind fun router => router.handle classes "GET" "/ready"

/-- The part of `reloadFromBytes` that registers the routes. -/
def loadRoutes (order : List (GoEntry String CompositionConfig)) : Option Router :=
  (registerRoutes classes order []).bind (withProbes classes)

/-- The probes. -/
def probeRoutes : List String := ["GET /health", "GET /ready"]

/-- The routes of the compositions of an artifact as it is written. -/
def Config.routes (config : Config) : List String :=
  config.compositions.entries.map fun entry =>
    defaultMethod entry.2.method ++ " " ++ entry.2.path

/-- Two routes whose patterns do not conflict. -/
def Compatible (first second : String) : Prop :=
  ∀ pattern pattern', parsePattern classes first = .ok pattern →
    parsePattern classes second = .ok pattern' → ¬ pattern.Conflicts pattern'

/-- All routes are well formed, and no two of them conflict, the probes included. -/
structure Config.Routable (config : Config) : Prop where
  wellFormed : ∀ text ∈ config.routes, ∃ pattern, parsePattern classes text = .ok pattern
  compatible : (config.routes ++ probeRoutes).Pairwise (Compatible classes)

variable {classes}

/-- Compatibility goes both ways. -/
theorem Compatible.symm {first second : String} (compatible : Compatible classes first second) :
    Compatible classes second first := by
  intro pattern pattern' parsed parsed' conflicts
  exact compatible pattern' pattern parsed' parsed conflicts.symm

/-- Registering routes one by one panics for none of them exactly when all are well
formed and no two conflict. -/
theorem foldlM_handleFunc_isSome_iff (texts : List String) (router : Router) :
    (texts.foldlM (handleFunc classes) router).isSome = true ↔
      (∀ text ∈ texts, ∃ pattern, parsePattern classes text = .ok pattern ∧
        ∀ registered ∈ router, ¬ pattern.Conflicts registered) ∧
      texts.Pairwise (Compatible classes) := by
  induction texts generalizing router with
  | nil => simp
  | cons text rest ih =>
      rw [List.foldlM_cons, handleFunc]
      cases parsed : parsePattern classes text with
      | error error => simp [parsed]
      | ok pattern =>
          have free : ¬ router.any pattern.conflictsWith = true ↔
              ∀ registered ∈ router, ¬ pattern.Conflicts registered := by
            simp [← conflictsWith_iff]
          change (Option.bind (if router.any pattern.conflictsWith = true then none
            else some (router ++ [pattern])) _).isSome = true ↔ _
          by_cases isFree : router.any pattern.conflictsWith = true
          · rw [if_pos isFree]
            refine ⟨fun no => absurd no Bool.false_ne_true, ?_⟩
            rintro ⟨each, -⟩
            obtain ⟨pattern', parsed', registered⟩ := each text List.mem_cons_self
            cases parsed.symm.trans parsed'
            exact absurd isFree (free.mpr registered)
          · rw [if_neg isFree, Option.bind_some, ih, List.pairwise_cons]
            constructor
            · rintro ⟨each, pairs⟩
              refine ⟨?_, ?_, pairs⟩
              · intro other member
                rcases List.mem_cons.mp member with rfl | later
                · exact ⟨pattern, parsed, free.mp isFree⟩
                · obtain ⟨pattern', parsed', registered⟩ := each other later
                  exact ⟨pattern', parsed', fun old listed =>
                    registered old (List.mem_append_left _ listed)⟩
              · intro other later first second parsedFirst parsedSecond conflicts
                cases parsed.symm.trans parsedFirst
                obtain ⟨pattern', parsed', registered⟩ := each other later
                cases parsed'.symm.trans parsedSecond
                exact registered pattern (by simp) conflicts.symm
            · rintro ⟨each, apart, pairs⟩
              refine ⟨?_, pairs⟩
              intro other later
              obtain ⟨pattern', parsed', registered⟩ := each other (List.mem_cons_of_mem _ later)
              refine ⟨pattern', parsed', fun old listed => ?_⟩
              rcases List.mem_append.mp listed with earlier | last
              · exact registered old earlier
              · cases List.mem_singleton.mp last
                exact fun conflicts => apart other later pattern pattern' parsed parsed'
                  conflicts.symm

/-- A composition that validation accepts has the route it is written with. -/
theorem route_of_validateComposition {hasAuth : Bool} {upstreams : List String} {name : String}
    {comp valid : CompositionConfig}
    (checked : validateComposition hasAuth upstreams name comp = .ok valid) :
    valid.method = defaultMethod comp.method ∧ valid.path = comp.path := by
  obtain ⟨-, steps, -, rfl⟩ := validateComposition_ok checked
  exact ⟨rfl, rfl⟩

/-- The default method is not empty. -/
theorem defaultMethod_ne (method : String) : defaultMethod method ≠ "" := by
  unfold defaultMethod
  split
  · decide
  · assumption

/-- The text of a route of a validated config. -/
def routeText (entry : GoEntry String CompositionConfig) : String :=
  entry.2.method ++ " " ++ entry.2.path

/-- Validation keeps the routes, and leaves no method empty. -/
theorem routes_of_validate {net : NetParser} {raw config : Config}
    (valid : validateAndApplyDefaults net raw = .ok config) :
    config.compositions.entries.map routeText = raw.routes ∧
      ∀ entry ∈ config.compositions.entries, entry.2.method ≠ "" := by
  obtain ⟨-, -, valid⟩ := Except.bind_eq_ok valid
  obtain ⟨upstreams, -, valid⟩ := Except.bind_eq_ok valid
  obtain ⟨compositions, isCompositions, valid⟩ := Except.bind_eq_ok valid
  cases valid
  refine ⟨?_, ?_⟩
  · have related := GoMap.forall₂_of_traverse _ isCompositions
    simp only [Config.routes]
    generalize raw.compositions.entries = before at related
    generalize compositions.entries = after at related
    induction related with
    | nil => rfl
    | cons here _ ih =>
        obtain ⟨method, path⟩ := route_of_validateComposition here.2
        rw [List.map_cons, List.map_cons, ih, routeText, method, path]
  · intro entry member
    obtain ⟨comp, -, checked⟩ := GoMap.exists_of_traverse _ isCompositions member
    rw [(route_of_validateComposition checked).1]
    exact defaultMethod_ne _

/-- Registering compositions is registering their routes. -/
theorem registerRoutes_eq {order : List (GoEntry String CompositionConfig)}
    (named : ∀ entry ∈ order, entry.2.method ≠ "") (router : Router) :
    registerRoutes classes order router =
      (order.map routeText).foldlM (handleFunc classes) router := by
  induction order generalizing router with
  | nil => rfl
  | cons entry rest ih =>
      rw [registerRoutes, List.foldlM_cons, List.map_cons, List.foldlM_cons, Router.handle,
        if_pos (named entry List.mem_cons_self)]
      congr 1
      funext router
      exact ih (fun entry member => named entry (List.mem_cons_of_mem _ member)) router

/-- The routes are registered one after the other, the probes last. -/
theorem loadRoutes_eq {order : List (GoEntry String CompositionConfig)}
    (named : ∀ entry ∈ order, entry.2.method ≠ "") :
    loadRoutes classes order =
      (order.map routeText ++ probeRoutes).foldlM (handleFunc classes) [] := by
  rw [loadRoutes, registerRoutes_eq named, List.foldlM_append]
  congr 1
  funext router
  rw [withProbes, probeRoutes, List.foldlM_cons, Router.handle, if_pos (by decide)]
  change (handleFunc classes router "GET /health").bind _ = _
  congr 1
  funext router
  rw [List.foldlM_cons, Router.handle, if_pos (by decide)]
  change handleFunc classes router "GET /ready" = _
  cases handleFunc classes router "GET /ready" <;> rfl

/-- The probes are well formed. -/
theorem parse_probeRoutes : ∀ text ∈ probeRoutes, ∃ pattern, parsePattern classes text = .ok pattern := by
  intro text member
  simp only [probeRoutes, List.mem_cons, List.not_mem_nil, or_false] at member
  rcases member with rfl | rfl
  · exact ⟨_, rfl⟩
  · exact ⟨_, rfl⟩

/-- Whether two routes are compatible, by the test of the multiplexer. -/
def compatibleRoutes (classes : CharClasses) (first second : String) : Bool :=
  match parsePattern classes first, parsePattern classes second with
  | .ok pattern, .ok pattern' => !pattern.conflictsWith pattern'
  | _, _ => true

/-- The check of two routes decides whether they are compatible. -/
theorem compatibleRoutes_iff {first second : String} :
    compatibleRoutes classes first second = true ↔ Compatible classes first second := by
  unfold compatibleRoutes Compatible
  cases parsed : parsePattern classes first with
  | error error => simp
  | ok pattern =>
      cases parsed' : parsePattern classes second with
      | error error => simp
      | ok pattern' => simp [← conflictsWith_iff]

instance (first second : String) : Decidable (Compatible classes first second) :=
  decidable_of_iff _ compatibleRoutes_iff

/-- All routes of a config load in an order exactly when the config is routable. -/
theorem loadRoutes_isSome_iff {net : NetParser} {raw config : Config}
    (valid : validateAndApplyDefaults net raw = .ok config)
    {order : List (GoEntry String CompositionConfig)} (ranges : config.compositions.RangesIn order) :
    (loadRoutes classes order).isSome = true ↔ raw.Routable classes := by
  obtain ⟨routes, named⟩ := routes_of_validate valid
  have perm : (order.map routeText).Perm raw.routes := by
    rw [← routes]
    exact ranges.map routeText
  rw [loadRoutes_eq fun entry member => named entry (ranges.subset member),
    foldlM_handleFunc_isSome_iff,
    (perm.append_right probeRoutes).pairwise_iff Compatible.symm]
  constructor
  · rintro ⟨each, pairs⟩
    refine ⟨fun text member => ?_, pairs⟩
    obtain ⟨pattern, parsed, -⟩ := each text (List.mem_append_left _ (perm.mem_iff.mpr member))
    exact ⟨pattern, parsed⟩
  · rintro ⟨wellFormed, pairs⟩
    refine ⟨fun text member => ?_, pairs⟩
    have parses : ∃ pattern, parsePattern classes text = .ok pattern := by
      rcases List.mem_append.mp member with route | probe
      · exact wellFormed text (perm.mem_iff.mp route)
      · exact parse_probeRoutes text probe
    obtain ⟨pattern, parsed⟩ := parses
    exact ⟨pattern, parsed, fun registered none_ => by cases none_⟩

variable (classes) in
/-- An accepted artifact loads without a panic, whatever the iteration order of its
compositions, exactly when its routes are well formed and no two of them conflict. -/
theorem accepted_artifact_loads_iff (checks : ArtifactChecks) (document : String)
    (accepted : validate checks document = true) :
    ∃ raw config, checks.decode document = .ok raw ∧ parseConfig checks document = .ok config ∧
      ((∀ order, config.compositions.RangesIn order →
        (loadRoutes classes order).isSome = true) ↔ raw.Routable classes) := by
  unfold validate at accepted
  split at accepted
  · rename_i config parsed
    have parts := parsed
    unfold parseConfig at parts
    split at parts
    · cases parts
    · rename_i raw decoded
      have valid : validateAndApplyDefaults checks.net raw = .ok config := by
        cases outcome : validateAndApplyDefaults checks.net raw with
        | error error => simp [outcome, Except.mapError] at parts
        | ok result =>
            simp only [outcome, Except.mapError, Except.ok.injEq] at parts
            rw [parts]
      refine ⟨raw, config, decoded, parsed, ?_, ?_⟩
      · intro loads
        exact (loadRoutes_isSome_iff valid (.refl _)).mp (loads _ (.refl _))
      · intro routable order ranges
        exact (loadRoutes_isSome_iff valid ranges).mpr routable
  · cases accepted

end Register

/-- The classes of ASCII characters. -/
def asciiClasses : CharClasses := ⟨Char.isAlpha, Char.isDigit⟩

/-- A public composition without steps. -/
def staticComposition (path method : String) : CompositionConfig :=
  ⟨path, method, true, [], ⟨.null, "", .null⟩, 0, none, none⟩

/-- Checks whose decoder knows one document, and which refuse nothing else. -/
def checksFor (document : String) (config : Config) : ArtifactChecks where
  decode := fun text => if text = document then .ok config else .error "invalid YAML"
  net := ⟨fun _ => .error "invalid URL", fun _ => none⟩
  checkAuth := fun _ _ => none
  compiler := ⟨fun _ => .error "unexpected token", fun _ _ => none, id, fun _ => false⟩
  checkSchema := fun _ => none
  order := RangeOrder.listed

/-- Two compositions on different routes. -/
def usersDocument : String :=
  "compositions:\n  user: \x7bpath: '/users/\x7bid\x7d', public: true\x7d\n" ++
    "  create: \x7bpath: /users, method: POST, public: true\x7d\n"

def usersConfig : Config where
  auth := none
  rateLimit := none
  blockPrivateUpstreams := false
  upstreams := ∅
  compositions := AList.insert "user" (staticComposition "/users/\x7bid\x7d" "")
    (AList.singleton "create" (staticComposition "/users" "POST"))

/-- That artifact is accepted and loads in both orders. -/
theorem accepted_artifact_loads_of_users :
    validate (checksFor usersDocument usersConfig) usersDocument = true ∧
      ∃ config, parseConfig (checksFor usersDocument usersConfig) usersDocument = .ok config ∧
        ∀ order, config.compositions.RangesIn order →
          (loadRoutes asciiClasses order).isSome = true := by
  have accepted : validate (checksFor usersDocument usersConfig) usersDocument = true := by
    decide +kernel
  obtain ⟨raw, config, decoded, parsed, loads⟩ :=
    accepted_artifact_loads_iff asciiClasses _ _ accepted
  have isRaw : raw = usersConfig := by
    simpa [checksFor] using decoded.symm
  subst isRaw
  refine ⟨accepted, config, parsed, loads.mpr ⟨?_, by decide +kernel⟩⟩
  have parses : ∀ text ∈ usersConfig.routes, (parsePattern asciiClasses text).isOk = true := by
    decide +kernel
  intro text member
  have isOk := parses text member
  cases result : parsePattern asciiClasses text with
  | error error => simp [result, Except.isOk, Except.toBool] at isOk
  | ok pattern => exact ⟨pattern, rfl⟩

/-- Two compositions on the same route. -/
def twiceDocument : String :=
  "compositions:\n  a: \x7bpath: /users, public: true\x7d\n  b: \x7bpath: /users, public: true\x7d\n"

def twiceConfig : Config where
  auth := none
  rateLimit := none
  blockPrivateUpstreams := false
  upstreams := ∅
  compositions := AList.insert "a" (staticComposition "/users" "")
    (AList.singleton "b" (staticComposition "/users" ""))

/-- The parsed config, with its defaults. -/
def validTwice : Config where
  auth := none
  rateLimit := none
  blockPrivateUpstreams := false
  upstreams := ∅
  compositions :=
    AList.insert "a" ⟨"/users", "GET", true, [], ⟨.null, "application/json", .null⟩, 0, none, none⟩
      (AList.singleton "b"
        ⟨"/users", "GET", true, [], ⟨.null, "application/json", .null⟩, 0, none, none⟩)

/-- That artifact is accepted, and loading it panics. -/
theorem accepted_artifact_panics :
    validate (checksFor twiceDocument twiceConfig) twiceDocument = true ∧
      ∃ config order, parseConfig (checksFor twiceDocument twiceConfig) twiceDocument =
          .ok config ∧ config.compositions.RangesIn order ∧
        loadRoutes asciiClasses order = none := by
  refine ⟨by decide +kernel, validTwice, validTwice.compositions.entries, by rfl, .refl _, ?_⟩
  have panics : (loadRoutes asciiClasses validTwice.compositions.entries).isNone = true := by
    decide +kernel
  exact Option.isNone_iff_eq_none.mp panics

end Restitch.Composition
