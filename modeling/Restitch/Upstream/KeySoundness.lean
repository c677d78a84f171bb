import Restitch.Upstream.RequestKey

/-!
# When equal keys mean equal requests

The key determines everything it is taken from: method, URL, header fields that
are not per-request, body and inbound Authorization. The credential that the
auth RoundTripper adds afterwards is determined by none of these.
-/

namespace Restitch.Upstream

open Restitch.Http Restitch.Std Restitch.Std.Framing

/-- Two executions agree on what the key is taken from. -/
structure SameKeyFields (first second : StepExecution) : Prop where
  method : first.request.method = second.request.method
  url : first.request.url = second.request.url
  header : ∀ name, name ∉ perRequestHeaders →
    first.request.header.fields.lookup name = second.request.header.fields.lookup name
  body : first.request.body = second.request.body
  clientAuthorization : first.clientAuthorization = second.clientAuthorization

/-- Two wire requests are equal except for the per-request headers. -/
structure SameRequest (first second : WireRequest) : Prop where
  method : first.method = second.method
  url : first.url = second.url
  header : ∀ name, name ∉ perRequestHeaders → first.header name = second.header name
  body : first.body = second.body

/-- What two executions send is equal except for the per-request headers. -/
def SameOnWire (userinfo : List UInt8 → Option (List UInt8)) (first second : StepExecution) :
    Prop :=
  ∀ firstSent secondSent, wireRequest userinfo first = .ok firstSent →
    wireRequest userinfo second = .ok secondSent → SameRequest firstSent secondSent

/-- The credential one auth adds is what a request with the other auth carries
too: the other auth adds the same, or it leaves that field alone and the request
already has this value in it. -/
def CredentialCarried (added other : Option (String × List UInt8))
    (header : String → List (List UInt8)) : Prop :=
  ∀ name value, added = some (name, value) → name ∉ perRequestHeaders →
    other = some (name, value) ∨ ((∀ different, other ≠ some (name, different)) ∧
      header name = [value])

/-- The credentials of each execution are carried by the request of the other. -/
def CredentialsAgree (userinfo : List UInt8 → Option (List UInt8))
    (first second : StepExecution) : Prop :=
  ∀ firstAdded secondAdded, credential first = .ok firstAdded →
    credential second = .ok secondAdded →
    CredentialCarried firstAdded secondAdded (clientHeader userinfo second.request) ∧
    CredentialCarried secondAdded firstAdded (clientHeader userinfo first.request)

/-- Different texts have different bytes. -/
theorem textBytes_injective {first second : String} (equal : textBytes first = textBytes second) :
    first = second :=
  String.toByteArray_inj.mp (ByteArray.ext (Array.toList_inj.mp equal))

/-- The names in the key are those listed that do not differ from request to request. -/
theorem mem_keyNames {order : List String} {name : String} :
    name ∈ keyNames order ↔ name ∈ order ∧ canonicalHeaderKey name ∉ perRequestHeaders := by
  rw [keyNames, List.mem_mergeSort, List.mem_filter, decide_eq_true_iff]

/-- The fields of a header in the key are within bounds. -/
theorem headerFields_sized {header : OutgoingHeader} {order : List String}
    (ranges : order.Perm header.fields.keys) :
    Sized ((keyNames order).map (headerField header)) ∧
      ∀ field ∈ (keyNames order).map (headerField header),
        Sized field.1 ∧ Sized field.2 ∧ ∀ value ∈ field.2, Sized value := by
  refine ⟨?_, ?_⟩
  · have shorter : (keyNames order).length ≤ order.length := by
      rw [keyNames, List.length_mergeSort]
      exact List.length_filter_le ..
    have small := header.sized
    rw [Sized, ← ranges.length_eq] at small
    rw [Sized, List.length_map]
    exact Nat.lt_of_le_of_lt shorter small
  · intro field member
    obtain ⟨name, listed, rfl⟩ := List.mem_map.mp member
    have present := ranges.subset (mem_keyNames.mp listed).1
    obtain ⟨values, found⟩ := GoMap.mem_keys_iff.mp present
    obtain ⟨nameSized, valuesSized⟩ := header.fieldsSized name values found
    simpa [headerField, OutgoingHeader.values, GoMap.getD, found, header.canonical name present]
      using ⟨nameSized, valuesSized⟩

/-- Equal header parts of two keys hold the same value under every name. -/
theorem lookup_eq_of_headerFields {first second : OutgoingHeader} {order order' : List String}
    (ranges : order.Perm first.fields.keys) (ranges' : order'.Perm second.fields.keys)
    (equal : (keyNames order).map (headerField first) = (keyNames order').map (headerField second))
    {name : String} (counted : name ∉ perRequestHeaders) (present : name ∈ first.fields.keys) :
    first.fields.lookup name = second.fields.lookup name := by
  have canonical := first.canonical name present
  have listed : name ∈ keyNames order := by
    rw [mem_keyNames, canonical]
    exact ⟨ranges.symm.subset present, counted⟩
  have member := List.mem_map_of_mem (f := headerField first) listed
  rw [equal] at member
  obtain ⟨other, otherListed, same⟩ := List.mem_map.mp member
  have otherPresent := ranges'.subset (mem_keyNames.mp otherListed).1
  obtain ⟨names, values⟩ := Prod.mk.inj same
  have sameName := textBytes_injective names
  rw [second.canonical other otherPresent, canonical] at sameName
  subst sameName
  obtain ⟨value, found⟩ := GoMap.mem_keys_iff.mp present
  obtain ⟨value', found'⟩ := GoMap.mem_keys_iff.mp otherPresent
  rw [OutgoingHeader.values, OutgoingHeader.values, GoMap.getD, GoMap.getD, found, found'] at values
  rw [found, found']
  exact congrArg some values.symm

/-- The hashed bytes determine everything they are made of. -/
theorem sameKeyFields_of_input {first second : StepExecution} {order order' : List String}
    (ranges : order.Perm first.request.header.fields.keys)
    (ranges' : order'.Perm second.request.header.fields.keys)
    (equal : requestKeyInput first order = requestKeyInput second order') :
    SameKeyFields first second := by
  have field : SelfDelimiting Sized writeField := selfDelimiting_writeField
  have headerFields := (field.prod field.writeList).writeList
  obtain ⟨method, afterMethod⟩ := field first.request.sized.1 second.request.sized.1 equal
  obtain ⟨url, afterURL⟩ := field first.request.sized.2.1 second.request.sized.2.1 afterMethod
  obtain ⟨headers, afterHeader⟩ :=
    headerFields (headerFields_sized ranges) (headerFields_sized ranges') afterURL
  obtain ⟨body, afterBody⟩ := field first.request.sized.2.2 second.request.sized.2.2 afterHeader
  rw [← List.append_nil (writeField first.clientAuthorization),
    ← List.append_nil (writeField second.clientAuthorization)] at afterBody
  refine ⟨method, url, ?_, body, (field first.sized second.sized afterBody).1⟩
  intro name counted
  by_cases present : name ∈ first.request.header.fields.keys
  · exact lookup_eq_of_headerFields ranges ranges' headers counted present
  · by_cases present' : name ∈ second.request.header.fields.keys
    · exact (lookup_eq_of_headerFields ranges' ranges headers.symm counted present').symm
    · rw [AList.lookup_eq_none.mpr present, AList.lookup_eq_none.mpr present']

/-- The sorted names do not depend on the iteration order, nor on per-request headers. -/
theorem keyNames_eq {first second : OutgoingHeader} {order order' : List String}
    (ranges : order.Perm first.fields.keys) (ranges' : order'.Perm second.fields.keys)
    (same : ∀ name, name ∉ perRequestHeaders →
      first.fields.lookup name = second.fields.lookup name) :
    keyNames order = keyNames order' := by
  have canonical : ∀ name ∈ keyNames order, canonicalHeaderKey name = name := fun name listed =>
    first.canonical name (ranges.subset (mem_keyNames.mp listed).1)
  have canonical' : ∀ name ∈ keyNames order', canonicalHeaderKey name = name :=
    fun name listed => second.canonical name (ranges'.subset (mem_keyNames.mp listed).1)
  have sorted (names : List String) : (keyNames names).Pairwise fun first second =>
      decide (canonicalHeaderKey first ≤ canonicalHeaderKey second) = true := by
    refine List.pairwise_mergeSort ?_ ?_ _
    · intro a b c ab bc
      exact decide_eq_true (le_trans (of_decide_eq_true ab) (of_decide_eq_true bc))
    · intro a b
      rw [Bool.or_eq_true, decide_eq_true_iff, decide_eq_true_iff]
      exact le_total _ _
  have nodup : ∀ {header : OutgoingHeader} {names : List String},
      names.Perm header.fields.keys → (keyNames names).Nodup := by
    intro header names perm
    rw [keyNames, (List.mergeSort_perm _ _).nodup_iff]
    exact (perm.nodup_iff.mpr header.fields.keys_nodup).filter _
  refine List.Perm.eq_of_pairwise ?_ (sorted order) (sorted order') ?_
  · intro a b listed listed' ab ba
    have equal := le_antisymm (of_decide_eq_true ab) (of_decide_eq_true ba)
    rwa [canonical a listed, canonical' b listed'] at equal
  · rw [List.perm_ext_iff_of_nodup (nodup ranges) (nodup ranges')]
    have transfer : ∀ {one two : OutgoingHeader} {names names' : List String} {name : String},
        names.Perm one.fields.keys → names'.Perm two.fields.keys →
        (∀ name, name ∉ perRequestHeaders → one.fields.lookup name = two.fields.lookup name) →
        name ∈ keyNames names → name ∈ keyNames names' := by
      intro one two names names' name perm perm' equal listed
      obtain ⟨member, counted⟩ := mem_keyNames.mp listed
      have present := perm.subset member
      obtain ⟨values, found⟩ := GoMap.mem_keys_iff.mp present
      rw [one.canonical name present] at counted
      rw [equal name counted] at found
      have present' := GoMap.mem_keys_iff.mpr ⟨values, found⟩
      rw [mem_keyNames, two.canonical name present']
      exact ⟨perm'.symm.subset present', counted⟩
    intro name
    exact ⟨transfer ranges ranges' same,
      transfer ranges' ranges fun name counted => (same name counted).symm⟩

/-- Executions that agree on the fields of the key have one key. -/
theorem input_eq_of_sameKeyFields {first second : StepExecution} {order order' : List String}
    (ranges : order.Perm first.request.header.fields.keys)
    (ranges' : order'.Perm second.request.header.fields.keys)
    (same : SameKeyFields first second) :
    requestKeyInput first order = requestKeyInput second order' := by
  have names := keyNames_eq ranges ranges' same.header
  have fields : (keyNames order).map (headerField first.request.header) =
      (keyNames order').map (headerField second.request.header) := by
    rw [← names]
    refine List.map_congr_left ?_
    intro name listed
    obtain ⟨member, counted⟩ := mem_keyNames.mp listed
    rw [first.request.header.canonical name (ranges.subset member)] at counted
    rw [headerField, headerField, OutgoingHeader.values, OutgoingHeader.values, GoMap.getD,
      GoMap.getD, same.header name counted]
  rw [requestKeyInput, requestKeyInput, fields, same.method, same.url, same.body,
    same.clientAuthorization]

/-- The header `http.Client` sends on is determined by the fields of the key. -/
theorem clientHeader_eq (userinfo : List UInt8 → Option (List UInt8)) {first second : StepExecution}
    (same : SameKeyFields first second) {name : String} (counted : name ∉ perRequestHeaders) :
    clientHeader userinfo first.request name = clientHeader userinfo second.request name := by
  have values : ∀ name, name ∉ perRequestHeaders →
      first.request.header.values name = second.request.header.values name := by
    intro name counted
    rw [OutgoingHeader.values, OutgoingHeader.values, GoMap.getD, GoMap.getD,
      same.header name counted]
  unfold clientHeader
  rw [values "Authorization" (by decide), same.url]
  split
  · cases userinfo second.request.url with
    | none => exact values name counted
    | some value =>
        by_cases authorization : name = "Authorization"
        · simp only [authorization, Function.update_self]
        · simp only [Function.update_of_ne authorization]
          exact values name counted
  · exact values name counted

/-- Two headers that agree stay in agreement under two credentials exactly when
each credential is carried by the other header. -/
theorem withCredential_eq_iff {first second : String → List (List UInt8)}
    (agree : ∀ name, name ∉ perRequestHeaders → first name = second name)
    (added other : Option (String × List UInt8)) :
    (∀ name, name ∉ perRequestHeaders →
      withCredential first added name = withCredential second other name) ↔
    CredentialCarried added other second ∧ CredentialCarried other added first := by
  constructor
  · have carried : ∀ {first second : String → List (List UInt8)}
        {added other : Option (String × List UInt8)},
        (∀ name, name ∉ perRequestHeaders →
          withCredential first added name = withCredential second other name) →
        CredentialCarried added other second := by
      intro first second added other equal name value isAdded counted
      have here := equal name counted
      rw [isAdded, withCredential, Function.update_self] at here
      rcases other with _ | ⟨otherName, otherValue⟩
      · exact .inr ⟨by simp, here.symm⟩
      · by_cases sameName : otherName = name
        · subst sameName
          rw [withCredential, Function.update_self] at here
          cases here
          exact .inl rfl
        · rw [withCredential, Function.update_of_ne (Ne.symm sameName)] at here
          refine .inr ⟨?_, here.symm⟩
          intro different equalPair
          cases equalPair
          exact sameName rfl
    intro equal
    exact ⟨carried equal, carried fun name counted => (equal name counted).symm⟩
  · rintro ⟨carried, carried'⟩ name counted
    have single : ∀ {first second : String → List (List UInt8)} {value : List UInt8}
        {other : Option (String × List UInt8)},
        CredentialCarried (some (name, value)) other second →
        withCredential first (some (name, value)) name = withCredential second other name := by
      intro first second value other carried
      rw [withCredential, Function.update_self]
      rcases carried name value rfl counted with rfl | ⟨absent, present⟩
      · rw [withCredential, Function.update_self]
      · rcases other with _ | ⟨otherName, otherValue⟩
        · exact present.symm
        · have different : name ≠ otherName := by
            rintro rfl
            exact absent otherValue rfl
          rw [withCredential, Function.update_of_ne different, present]
    have untouched : ∀ {header : String → List (List UInt8)}
        {added : Option (String × List UInt8)}, (∀ value, added ≠ some (name, value)) →
        withCredential header added name = header name := by
      intro header added absent
      rcases added with _ | ⟨addedName, value⟩
      · rfl
      · have different : name ≠ addedName := by
          rintro rfl
          exact absent value rfl
        rw [withCredential, Function.update_of_ne different]
    by_cases mine : ∃ value, added = some (name, value)
    · obtain ⟨value, rfl⟩ := mine
      exact single carried
    · by_cases others : ∃ value, other = some (name, value)
      · obtain ⟨value, rfl⟩ := others
        exact (single carried').symm
      · rw [untouched (not_exists.mp mine), untouched (not_exists.mp others)]
        exact agree name counted

/-- With the fields of the key equal, the wire requests are equal exactly when
the credentials agree. -/
theorem sameOnWire_iff (userinfo : List UInt8 → Option (List UInt8)) {first second : StepExecution}
    (same : SameKeyFields first second) :
    SameOnWire userinfo first second ↔ CredentialsAgree userinfo first second := by
  have headers : ∀ name, name ∉ perRequestHeaders →
      clientHeader userinfo first.request name = clientHeader userinfo second.request name :=
    fun _ counted => clientHeader_eq userinfo same counted
  constructor
  · intro equal added other isAdded isOther
    have sent := equal _ _ (by rw [wireRequest, isAdded]; rfl) (by rw [wireRequest, isOther]; rfl)
    exact (withCredential_eq_iff headers added other).mp sent.header
  · intro agree firstSent secondSent isFirst isSecond
    unfold wireRequest at isFirst isSecond
    cases added : credential first with
    | error error =>
        rw [added] at isFirst
        cases isFirst
    | ok added' =>
        cases other : credential second with
        | error error =>
            rw [other] at isSecond
            cases isSecond
        | ok other' =>
            rw [added] at isFirst
            rw [other] at isSecond
            cases isFirst
            cases isSecond
            exact ⟨same.method, same.url,
              (withCredential_eq_iff headers added' other').mpr (agree _ _ added other), same.body⟩

/-- Two step executions with one key send the same request, credentials
included, exactly when executions that agree on the fields of the key also agree
on the credentials their upstreams add. -/
theorem requestKey_sound_iff {Digest : Type} (digest : List UInt8 → Digest)
    (userinfo : List UInt8 → Option (List UInt8)) (first second : StepExecution)
    (order order' : List String) (ranges : order.Perm first.request.header.fields.keys)
    (ranges' : order'.Perm second.request.header.fields.keys)
    (noCollision : requestKey digest first order = requestKey digest second order' →
      requestKeyInput first order = requestKeyInput second order') :
    (requestKey digest first order = requestKey digest second order' →
      SameOnWire userinfo first second) ↔
    (SameKeyFields first second → CredentialsAgree userinfo first second) := by
  constructor
  · intro sound same
    rw [← sameOnWire_iff userinfo same]
    exact sound (congrArg digest (input_eq_of_sameKeyFields ranges ranges' same))
  · intro agree equal
    have same := sameKeyFields_of_input ranges ranges' (noCollision equal)
    exact (sameOnWire_iff userinfo same).mpr (agree same)

/-- `GET https://api.internal/users` for a client that sent `Authorization: k`,
through an upstream with the given auth. -/
def usersCall (auth : AuthStrategy) : StepExecution where
  request :=
    { method := textBytes "GET"
      url := textBytes "https://api.internal/users"
      header := ⟨∅, (by simp), (by decide), (by simp)⟩
      body := []
      sized := by decide }
  clientAuthorization := textBytes "k"
  auth
  token := none
  sized := by decide

/-- A static Authorization with the client's value and a passthrough of it send
the same request under the same key. -/
theorem requestKey_sound_of_passthrough :
    requestKey id (usersCall (.header "authorization" (textBytes "k"))) [] =
        requestKey id (usersCall .passthrough) [] ∧
      SameOnWire (fun _ => none) (usersCall (.header "authorization" (textBytes "k")))
        (usersCall .passthrough) := by
  have agree : CredentialsAgree (fun _ => none)
      (usersCall (.header "authorization" (textBytes "k"))) (usersCall .passthrough) := by
    have static : credential (usersCall (.header "authorization" (textBytes "k"))) =
        .ok (some ("Authorization", textBytes "k")) := by decide
    have forwarded : credential (usersCall .passthrough) =
        .ok (some ("Authorization", textBytes "k")) := by decide
    intro added other isAdded isOther
    rw [static] at isAdded
    rw [forwarded] at isOther
    cases isAdded
    cases isOther
    exact ⟨fun _ _ same _ => .inl same, fun _ _ same _ => .inl same⟩
  exact ⟨rfl, (requestKey_sound_iff id (fun _ => none) _ _ [] [] .rfl .rfl id).mpr
    (fun _ => agree) rfl⟩

/-- Two upstreams of one service with different API keys: the key is the same,
the credentials are not. -/
theorem requestKey_shared_across_credentials :
    ¬ ∀ (first second : StepExecution) (order order' : List String),
      order.Perm first.request.header.fields.keys →
      order'.Perm second.request.header.fields.keys →
      requestKey id first order = requestKey id second order' →
      SameOnWire (fun _ => none) first second := by
  intro claimed
  have same := claimed (usersCall (.header "X-Api-Key" (textBytes "a")))
    (usersCall (.header "X-Api-Key" (textBytes "b"))) [] [] .rfl .rfl rfl _ _ rfl rfl
  have header := same.header "X-Api-Key" (by decide)
  have name : canonicalHeaderKey "X-Api-Key" = "X-Api-Key" := by decide
  simp only [withCredential, name, Function.update_self] at header
  exact absurd header (by decide)

/-- The hashed bytes are equal exactly when method, URL, the header without its
per-request fields, body and client Authorization are, in whatever orders the
two header maps are ranged over. -/
theorem requestKeyInput_eq_iff_sameKeyFields (first second : StepExecution)
    (order order' : List String) (ranges : order.Perm first.request.header.fields.keys)
    (ranges' : order'.Perm second.request.header.fields.keys) :
    requestKeyInput first order = requestKeyInput second order' ↔ SameKeyFields first second :=
  ⟨sameKeyFields_of_input ranges ranges', input_eq_of_sameKeyFields ranges ranges'⟩

/-- The header of a request for JSON that carries a request id. -/
def tracedHeader (id : List UInt8) (small : Sized id) : OutgoingHeader where
  fields := AList.insert "X-Request-Id" [id]
    (AList.singleton "Accept" [textBytes "application/json"])
  canonical := by
    rw [AList.keys_insert]
    decide
  sized := by
    rw [AList.keys_insert]
    decide
  fieldsSized := by
    intro name values found
    by_cases isId : name = "X-Request-Id"
    · subst isId
      rw [AList.lookup_insert] at found
      cases found
      exact ⟨by decide, Nat.one_lt_two_pow (by decide), List.forall_mem_singleton.mpr small⟩
    · rw [AList.lookup_insert_ne isId] at found
      by_cases isAccept : name = "Accept"
      · subst isAccept
        cases found
        exact ⟨by decide, by decide, by decide⟩
      · rw [AList.lookup_eq_none.mpr (by simpa [AList.mem_keys] using isAccept)] at found
        cases found

/-- `GET https://api.internal/users` with the given request id. -/
def tracedCall (id : List UInt8) (small : Sized id) : StepExecution :=
  { usersCall .none with
    request := { (usersCall .none).request with header := tracedHeader id small } }

/-- Two requests that differ in their request id only, ranged over in two orders. -/
theorem requestKeyInput_of_traced_calls :
    requestKeyInput (tracedCall (textBytes "1") (by decide)) ["X-Request-Id", "Accept"] =
      requestKeyInput (tracedCall (textBytes "2") (by decide)) ["Accept", "X-Request-Id"] := by
  refine (requestKeyInput_eq_iff_sameKeyFields _ _ _ _ .rfl (List.Perm.swap _ _ _)).mpr ?_
  refine ⟨rfl, rfl, ?_, rfl, rfl⟩
  intro name counted
  have other : name ≠ "X-Request-Id" := by
    rintro rfl
    exact counted (by decide)
  exact (AList.lookup_insert_ne other).trans (AList.lookup_insert_ne other).symm

end Restitch.Upstream
