import Restitch.Semantics.Quiescence
import Restitch.Studio.GatewayApi

/-!
# One environment cannot be told from one that is alone

Every statement does to the rows of an environment what it would do to them in a database
that holds nothing else, or leaves them alone. A run therefore leads an environment to where
the statements that do not name another environment lead it by themselves.
-/

namespace Restitch.Studio

open Restitch.Hotreload (etag)
open Restitch.Reqlog Restitch.Semantics Restitch.Std Restitch.Std.GoTime Restitch.Std.KeyedTable

variable {Digest : Type} [DecidableEq Digest] {parseHost : List Char → Option (List Char)}
  {sha256 : String → Digest} {part : String}

section Requests

variable {environment instanceID : String}

/-- Requests with one key are of one environment. -/
theorem environment_of_requestKey (first second : RequestRow) (same : first.key = second.key) :
    first.environment = second.environment :=
  congrArg Prod.fst same

/-- The cap of an environment counts its own rows. -/
theorem keptIn_inPart (rows : List RequestRow) (minute : Nat) :
    keptIn (inPart RequestRow.environment environment rows) environment minute =
      keptIn rows environment minute := by
  unfold keptIn inPart
  rw [List.countP_filter]
  refine List.countP_congr fun row _ => ?_
  simp only [Bool.and_eq_true, decide_eq_true_eq]
  tauto

/-- Storing a record is storing it in its environment. -/
theorem inPart_storeRecord (cap : Nat) (rows : List RequestRow)
    (entry : RequestNumber × Record) :
    inPart RequestRow.environment part
        (storeRecord parseHost cap environment instanceID rows entry) =
      if environment = part then
        storeRecord parseHost cap environment instanceID
          (inPart RequestRow.environment part rows) entry
      else inPart RequestRow.environment part rows := by
  unfold storeRecord
  dsimp only
  split
  · rw [ite_self]
  · by_cases here : environment = part
    · subst here
      rw [keptIn_inPart, if_pos rfl]
      split
      · rfl
      · rw [inPart_insertNew environment_of_requestKey]
        exact if_pos rfl
    · rw [if_neg here]
      split
      · rfl
      · rw [inPart_insertNew environment_of_requestKey]
        exact if_neg here

/-- Storing a batch is storing it in its environment. -/
theorem inPart_storeRequests (cap cutoff : Nat) (batch : List (RequestNumber × Record))
    (rows : List RequestRow) :
    inPart RequestRow.environment part
        (storeRequests parseHost cap cutoff environment instanceID batch rows) =
      if environment = part then
        storeRequests parseHost cap cutoff environment instanceID batch
          (inPart RequestRow.environment part rows)
      else inPart RequestRow.environment part rows := by
  unfold storeRequests
  split
  · rename_i here
    rw [inPart_filter, inPart_foldl]
    intro rows entry
    rw [inPart_storeRecord, if_pos here]
  · rename_i elsewhere
    rw [inPart_filter_of_keep, inPart_foldl_of_ne]
    · intro rows entry
      rw [inPart_storeRecord, if_neg elsewhere]
    · rintro row rfl
      simp [afterCutoff, Ne.symm elsewhere]

end Requests

section Reads

/-- The versions of an environment are found among its rows. -/
theorem versionsOf_inPart (versions : List VersionRow) (environment : String) :
    versionsOf (inPart VersionRow.environment environment versions) environment =
      versionsOf versions environment :=
  inPart_inPart versions

/-- The versions that a call reads are those of its environment. -/
theorem namedVersion_inPart (versions : List VersionRow) (environment : String)
    (number : Option Nat) :
    namedVersion (inPart VersionRow.environment environment versions) environment number =
      namedVersion versions environment number := by
  have select : selectVersion (inPart VersionRow.environment environment versions) environment =
      selectVersion versions environment := by
    funext number
    unfold selectVersion
    rw [versionsOf_inPart]
  unfold namedVersion selectMaxNumber
  rw [select, versionsOf_inPart]

/-- The artifact of an environment depends on its rows only. -/
theorem answerArtifact_inPart (versions : List VersionRow) (environment ifNoneMatch : String)
    (number : Option Nat) :
    answerArtifact (inPart VersionRow.environment environment versions) environment ifNoneMatch
        number = answerArtifact versions environment ifNoneMatch number := by
  unfold answerArtifact
  rw [namedVersion_inPart]

/-- The settings of an environment are found in its row. -/
theorem settingsOf_inPart (environments : List EnvironmentRow) (name : String) :
    settingsOf (inPart EnvironmentRow.name name environments) name =
      settingsOf environments name := by
  unfold settingsOf
  rw [find?_inPart]
  · congr 1
    cases found : environments.find? fun row => row.name = name with
    | none => rfl
    | some row =>
        have named := List.find?_some found
        simp only [decide_eq_true_eq] at named
        simp [Option.filter, named]
  · simp only [decide_eq_true_eq]
    rintro first - second - rfl other
    exact other.symm

end Reads

/-- What holds of tokens and calls. -/
structure GatewayInvariant (state : GatewayApi Digest) : Prop where
  digests : KeyedTable.Unique TokenRow.digest state.tokens
  calls : KeyedTable.Unique GatewayCall.id state.calls
  /-- A call is in the environment of its token. -/
  token : ∀ call ∈ state.calls, ∃ row ∈ state.tokens,
    row.digest = call.digest ∧ row.environment = call.environment

omit [DecidableEq Digest] in
variable (parseHost) in
/-- A handler for another environment leaves the rows of this one alone. -/
theorem only_handle_of_ne (state : GatewayApi Digest) {environment : String} (now : Nat)
    (request : GatewayRequest) (elsewhere : environment ≠ part) :
    (state.handle parseHost environment now request).1.only part = state.only part := by
  cases request with
  | artifact ifNoneMatch number =>
      rcases number with - | - | number <;> simp only [GatewayApi.handle]
      split <;> rfl
  | heartbeat hb =>
      simp only [GatewayApi.handle]
      split
      · rfl
      · simp only [GatewayApi.only, inPart_storeHeartbeat, if_neg elsewhere]
  | usage push =>
      simp only [GatewayApi.handle]
      split
      · rfl
      · split
        · rfl
        · simp only [GatewayApi.only, inPart_storeBuckets, inPart_storeBreakers, if_neg elsewhere]
  | requests push =>
      simp only [GatewayApi.handle]
      split
      · rfl
      · split
        · rfl
        · simp only [GatewayApi.only, inPart_storeRequests, if_neg elsewhere]

omit [DecidableEq Digest] in
variable (parseHost) in
/-- A handler for an environment does and answers what it would if that were alone. -/
theorem handle_only (state : GatewayApi Digest) (environment : String) (now : Nat)
    (request : GatewayRequest) :
    (state.only environment).handle parseHost environment now request =
      ((state.handle parseHost environment now request).1.only environment,
        (state.handle parseHost environment now request).2) := by
  cases request with
  | artifact ifNoneMatch number =>
      rcases number with - | - | number
      · simp only [GatewayApi.handle, GatewayApi.only, answerArtifact_inPart]
      · rfl
      · simp only [GatewayApi.handle]
        split
        · rfl
        · simp only [GatewayApi.only, answerArtifact_inPart]
  | heartbeat hb =>
      simp only [GatewayApi.handle]
      split
      · rfl
      · simp only [GatewayApi.only, inPart_storeHeartbeat, if_true]
  | usage push =>
      simp only [GatewayApi.handle]
      split
      · rfl
      · have same : settingsOf (state.only environment).environments environment =
            settingsOf state.environments environment := settingsOf_inPart ..
        rw [same]
        split
        · rfl
        · simp only [GatewayApi.only, inPart_storeBuckets, inPart_storeBreakers, if_true]
  | requests push =>
      simp only [GatewayApi.handle]
      split
      · rfl
      · have same : settingsOf (state.only environment).environments environment =
            settingsOf state.environments environment := settingsOf_inPart ..
        rw [same]
        split
        · rfl
        · simp only [GatewayApi.only, inPart_storeRequests, if_true]

omit [DecidableEq Digest] in
variable (parseHost) in
/-- No handler touches the tokens and the calls. -/
theorem handle_frame (state : GatewayApi Digest) (environment : String) (now : Nat)
    (request : GatewayRequest) :
    (state.handle parseHost environment now request).1.tokens = state.tokens ∧
      (state.handle parseHost environment now request).1.calls = state.calls ∧
      (state.handle parseHost environment now request).1.answers = state.answers := by
  cases request with
  | artifact ifNoneMatch number =>
      rcases number with - | - | number
      · exact ⟨rfl, rfl, rfl⟩
      · exact ⟨rfl, rfl, rfl⟩
      · simp only [GatewayApi.handle]
        split <;> exact ⟨rfl, rfl, rfl⟩
  | heartbeat | usage | requests =>
      simp only [GatewayApi.handle]
      split
      · exact ⟨rfl, rfl, rfl⟩
      · first | exact ⟨rfl, rfl, rfl⟩ | (split <;> exact ⟨rfl, rfl, rfl⟩)

omit [DecidableEq Digest] in
/-- The invariant depends on the tokens' digests and environments. -/
theorem GatewayInvariant.mapTokens {state : GatewayApi Digest} (invariant : GatewayInvariant state)
    {update : TokenRow Digest → TokenRow Digest}
    (same : ∀ row, (update row).digest = row.digest ∧
      (update row).environment = row.environment) :
    GatewayInvariant { state with tokens := state.tokens.map update } where
  digests := invariant.digests.map fun row => (same row).1
  calls := invariant.calls
  token := by
    intro call member
    obtain ⟨row, isRow, digest, environment⟩ := invariant.token call member
    exact ⟨update row, List.mem_map_of_mem isRow, (same row).1.trans digest,
      (same row).2.trans environment⟩

/-- A live token is stored, with its digest and not revoked. -/
theorem mem_of_liveToken {tokens : List (TokenRow Digest)} {digest : Digest}
    {row : TokenRow Digest} (found : liveToken tokens digest = some row) :
    row ∈ tokens ∧ row.digest = digest ∧ row.revokedAt = none := by
  have meets := List.find?_some found
  simp only [Bool.and_eq_true, decide_eq_true_eq, Option.isNone_iff_eq_none] at meets
  exact ⟨List.mem_of_find?_eq_some found, meets⟩

/-- Every event keeps the invariant. -/
theorem GatewayInvariant.step {state next : GatewayApi Digest} {event : GatewayEvent}
    (invariant : GatewayInvariant state)
    (stepped : gatewayStep parseHost sha256 state event = some next) : GatewayInvariant next := by
  obtain ⟨digests, calls, token⟩ := invariant
  cases event with
  | createEnvironment | changeSettings | insertVersion =>
      cases stepped
      exact ⟨digests, calls, token⟩
  | issueToken environment id fresh =>
      simp only [gatewayStep] at stepped
      split at stepped
      · cases stepped
        exact ⟨digests, calls, token⟩
      · rename_i accepted
        cases stepped
        refine ⟨digests.append fun row member same => accepted (.inr ⟨row, member, .inr same⟩),
          calls, ?_⟩
        intro call member
        obtain ⟨row, isRow, fits⟩ := token call member
        exact ⟨row, List.mem_append_left _ isRow, fits⟩
  | revokeToken environment id now =>
      cases stepped
      refine GatewayInvariant.mapTokens ⟨digests, calls, token⟩ fun row => ?_
      split <;> exact ⟨rfl, rfl⟩
  | authenticate call authorization request =>
      simp only [gatewayStep] at stepped
      split at stepped
      · cases stepped
      · rename_i unused
        split at stepped
        · cases stepped
          exact ⟨digests, calls, token⟩
        · rename_i row found
          cases stepped
          refine ⟨digests, calls.append fun other member same => unused ⟨other, member, same⟩, ?_⟩
          intro other member
          rcases List.mem_append.mp member with before | new
          · exact token other before
          · cases List.mem_singleton.mp new
            obtain ⟨text, -, live⟩ := Option.bind_eq_some_iff.mp found
            exact ⟨row, (mem_of_liveToken live).1, rfl, rfl⟩
  | recordUse call now =>
      simp only [gatewayStep] at stepped
      split at stepped
      · cases stepped
        exact ⟨digests, calls, token⟩
      · cases stepped
        refine GatewayInvariant.mapTokens ⟨digests, calls, token⟩ fun row => ?_
        split <;> exact ⟨rfl, rfl⟩
  | serve call now =>
      simp only [gatewayStep] at stepped
      split at stepped
      · cases stepped
        exact ⟨digests, calls, token⟩
      · rename_i found isFound
        cases stepped
        obtain ⟨sameTokens, sameCalls, -⟩ := handle_frame parseHost state
          found.environment now found.request
        refine ⟨by rw [sameTokens]; exact digests, ?_, ?_⟩
        · rw [sameCalls]
          exact calls.filter _
        · intro other member
          rw [sameCalls] at member
          rw [sameTokens]
          exact token other (List.mem_of_mem_filter member)

/-- The invariant holds in every reachable state. -/
theorem gatewayInvariant {state : GatewayApi Digest}
    (reached : (gatewayApi parseHost sha256).Reachable state) : GatewayInvariant state := by
  refine reached.induction _ ?_ ?_
  · rintro start rfl
    exact ⟨.nil, .nil, nofun⟩
  · intro before event after _ invariant stepped
    exact invariant.step stepped

/-- A statement that names another environment leaves this one alone. -/
theorem only_step_of_not_concerns {state next : GatewayApi Digest} {event : GatewayEvent}
    (stepped : gatewayStep parseHost sha256 state event = some next)
    (other : event.concerns part = false) : next.only part = state.only part := by
  cases event with
  | createEnvironment name =>
      have elsewhere : name ≠ part := by simpa [GatewayEvent.concerns] using other
      cases stepped
      simp only [GatewayApi.only]
      rw [inPart_insertNew fun _ _ same => same, if_neg elsewhere]
  | changeSettings environment settings =>
      have elsewhere : environment ≠ part := by simpa [GatewayEvent.concerns] using other
      cases stepped
      simp only [GatewayApi.only]
      rw [inPart_map_of_ne]
      · intro row
        split <;> rfl
      · rintro row - rfl
        exact if_neg fun same => elsewhere same.symm
  | issueToken environment id token =>
      have elsewhere : environment ≠ part := by simpa [GatewayEvent.concerns] using other
      simp only [gatewayStep] at stepped
      split at stepped
      · cases stepped
        rfl
      · cases stepped
        simp only [GatewayApi.only]
        rw [inPart_append, inPart_singleton, if_neg elsewhere, List.append_nil]
  | revokeToken environment id now =>
      have elsewhere : environment ≠ part := by simpa [GatewayEvent.concerns] using other
      cases stepped
      simp only [GatewayApi.only]
      rw [inPart_map_of_ne]
      · intro row
        split <;> rfl
      · rintro row - rfl
        exact if_neg fun same => elsewhere same.1.symm
  | insertVersion row =>
      have elsewhere : row.environment ≠ part := by simpa [GatewayEvent.concerns] using other
      cases stepped
      simp only [GatewayApi.only, insertVersion]
      split
      · rfl
      · rw [Option.getD_some, inPart_append, inPart_singleton, if_neg elsewhere, List.append_nil]
  | authenticate | recordUse | serve => cases other

/-- The accepted tokens of an environment are those it would accept if it were alone. -/
theorem liveToken_inPart {state : GatewayApi Digest} (invariant : GatewayInvariant state)
    (digest : Digest) :
    liveToken (inPart TokenRow.environment part state.tokens) digest =
      (liveToken state.tokens digest).filter (·.environment = part) := by
  refine find?_inPart fun first isFirst second isSecond => ?_
  simp only [Bool.and_eq_true, decide_eq_true_eq]
  rintro ⟨rfl, -⟩ ⟨same, -⟩
  rw [invariant.digests.eq_of_key isFirst isSecond same.symm]

omit [DecidableEq Digest] in
/-- A call is found among those of its environment only. -/
theorem findCall_inPart {state : GatewayApi Digest} (invariant : GatewayInvariant state)
    (call : CallId) :
    (inPart GatewayCall.environment part state.calls).find? (·.id = call) =
      (state.calls.find? (·.id = call)).filter (·.environment = part) := by
  refine find?_inPart fun first isFirst second isSecond => ?_
  simp only [decide_eq_true_eq]
  rintro rfl same
  rw [invariant.calls.eq_of_key isFirst isSecond same.symm]

/-- Any other statement does to an environment what it would do to that alone. -/
theorem only_step_of_concerns {state next : GatewayApi Digest} {event : GatewayEvent}
    (invariant : GatewayInvariant state)
    (stepped : gatewayStep parseHost sha256 state event = some next)
    (fresh : FreshToken sha256 state event) (own : event.concerns part = true) :
    gatewayStep parseHost sha256 (state.only part) event = some (next.only part) := by
  cases event with
  | createEnvironment name =>
      have here : name = part := by simpa [GatewayEvent.concerns] using own
      cases stepped
      simp only [gatewayStep, GatewayApi.only]
      rw [inPart_insertNew fun _ _ same => same, if_pos here]
  | changeSettings environment settings =>
      cases stepped
      simp only [gatewayStep, GatewayApi.only]
      rw [inPart_map]
      intro row
      split <;> rfl
  | issueToken environment id token =>
      have here : environment = part := by simpa [GatewayEvent.concerns] using own
      subst here
      have free : ¬ ∃ row ∈ state.tokens, row.id = id ∨ row.digest = sha256 token := by
        rintro ⟨row, member, same | same⟩
        · exact (fresh row member).1 same
        · exact (fresh row member).2 same
      have freeHere : ¬ ∃ row ∈ (state.only environment).tokens,
          row.id = id ∨ row.digest = sha256 token := by
        rintro ⟨row, member, same⟩
        exact free ⟨row, (mem_inPart.mp member).1, same⟩
      have missing : (∀ row ∈ (state.only environment).environments, row.name ≠ environment) ↔
          ∀ row ∈ state.environments, row.name ≠ environment := by
        simp only [GatewayApi.only, mem_inPart]
        exact ⟨fun absent row member same => absent row ⟨member, same⟩ same,
          fun absent row member => absent row member.1⟩
      simp only [gatewayStep, free, freeHere, missing, or_false] at stepped ⊢
      split at stepped
      · rename_i absent
        cases stepped
        rw [if_pos absent]
      · rename_i there
        cases stepped
        rw [if_neg there]
        simp only [GatewayApi.only, inPart_append, inPart_singleton, if_true]
  | revokeToken environment id now =>
      cases stepped
      simp only [gatewayStep, GatewayApi.only]
      rw [inPart_map]
      intro row
      split <;> rfl
  | insertVersion row =>
      have here : row.environment = part := by simpa [GatewayEvent.concerns] using own
      subst here
      cases stepped
      have same : selectVersion (state.only row.environment).versions row.environment =
          selectVersion state.versions row.environment := by
        funext number
        exact congrArg (List.find? _) (versionsOf_inPart state.versions row.environment)
      simp only [gatewayStep, insertVersion, same]
      split
      · rfl
      · simp only [GatewayApi.only, Option.getD_some, inPart_append, inPart_singleton, if_true]
  | authenticate call authorization request =>
      simp only [gatewayStep] at stepped ⊢
      split at stepped
      · cases stepped
      · rename_i unused
        have unusedHere : ¬ ∃ other ∈ (state.only part).calls, other.id = call := by
          rintro ⟨other, member, same⟩
          exact unused ⟨other, (mem_inPart.mp member).1, same⟩
        rw [if_neg unusedHere]
        cases presented : gatewayToken authorization with
        | none =>
            rw [presented] at stepped
            cases stepped
            rfl
        | some token =>
            have accepted : liveToken (state.only part).tokens (sha256 token) =
                (liveToken state.tokens (sha256 token)).filter (·.environment = part) :=
              liveToken_inPart invariant _
            rw [presented] at stepped
            simp only [Option.bind_some] at stepped ⊢
            rw [accepted]
            cases live : liveToken state.tokens (sha256 token) with
            | none =>
                rw [live] at stepped
                cases stepped
                rfl
            | some row =>
                rw [live] at stepped
                cases stepped
                by_cases here : row.environment = part
                · simp [Option.filter, here, GatewayApi.only, inPart_singleton]
                · simp [Option.filter, here, GatewayApi.only, inPart_singleton]
  | recordUse call now =>
      have calls : (state.only part).calls.find? (·.id = call) =
          (state.calls.find? (·.id = call)).filter (·.environment = part) :=
        findCall_inPart invariant call
      simp only [gatewayStep, calls] at stepped ⊢
      cases found : state.calls.find? (·.id = call) with
      | none =>
          rw [found] at stepped
          cases stepped
          rfl
      | some used =>
          rw [found] at stepped
          cases stepped
          have aligned : ∀ row : TokenRow Digest, TokenRow.environment
              (if row.digest = used.digest then { row with lastUsedAt := some now } else row) =
                row.environment := by
            intro row
            split <;> rfl
          by_cases here : used.environment = part
          · simp [Option.filter, here, GatewayApi.only, inPart_map _ aligned]
          · have spared : inPart TokenRow.environment part (state.tokens.map fun row =>
                if row.digest = used.digest then { row with lastUsedAt := some now } else row) =
                inPart TokenRow.environment part state.tokens := by
              refine inPart_map_of_ne _ aligned fun row member inHere => if_neg fun same => here ?_
              obtain ⟨owner, isOwner, digest, environment⟩ :=
                invariant.token used (List.mem_of_find?_eq_some found)
              rw [← environment, ← inHere,
                invariant.digests.eq_of_key isOwner member (digest.trans same.symm)]
            simp [Option.filter, here, GatewayApi.only, spared]
  | serve call now =>
      have calls : (state.only part).calls.find? (·.id = call) =
          (state.calls.find? (·.id = call)).filter (·.environment = part) :=
        findCall_inPart invariant call
      simp only [gatewayStep, calls] at stepped ⊢
      cases found : state.calls.find? (·.id = call) with
      | none =>
          rw [found] at stepped
          cases stepped
          rfl
      | some served =>
          rw [found] at stepped
          cases stepped
          by_cases here : served.environment = part
          · subst here
            have alone := handle_only parseHost state served.environment now
              served.request
            simp only [Option.filter, decide_true, if_true, alone]
            simp only [GatewayApi.only, inPart_filter, inPart_append, inPart_singleton, if_true]
          · have handled := only_handle_of_ne parseHost state now served.request here
            have sameCalls := (handle_frame parseHost state served.environment now
              served.request).2.1
            have spared : inPart GatewayCall.environment part
                (state.calls.filter (·.id ≠ call)) =
                inPart GatewayCall.environment part state.calls := by
              rw [inPart_filter, List.filter_eq_self]
              intro other member
              obtain ⟨isOther, inHere⟩ := mem_inPart.mp member
              have named : served.id = call := by simpa using List.find?_some found
              refine decide_eq_true fun same => here ?_
              rw [← inHere, invariant.calls.eq_of_key (List.mem_of_find?_eq_some found) isOther
                (named.trans same.symm)]
            simp only [Option.filter, here, decide_false, Bool.false_eq_true, if_false]
            rw [← handled]
            simp only [GatewayApi.only, inPart_append, inPart_singleton, if_neg here, sameCalls,
              spared, List.append_nil]

/-- Studio keeps environments apart. Whatever a run does, with any tokens and calls of any
environments in any order, an environment has the rows, the tokens, the calls and the answers
that the statements which do not name another environment lead it to when it is alone. -/
theorem environment_isolated (parseHost : List Char → Option (List Char))
    (sha256 : String → Digest) (environment : String) (state next : GatewayApi Digest)
    (events : List GatewayEvent)
    (reached : ((gatewayApi parseHost sha256).restrict (FreshToken sha256)).Reachable state)
    (steps : ((gatewayApi parseHost sha256).restrict (FreshToken sha256)).Steps state events next) :
    (gatewayApi parseHost sha256).Steps (state.only environment)
      (events.filter (·.concerns environment)) (next.only environment) := by
  induction steps with
  | refl => exact .refl
  | @step middle events event after prior transition ih =>
      have invariant := gatewayInvariant (reached.steps prior).of_restrict
      obtain ⟨stepped, fresh⟩ := transition
      rw [List.filter_append]
      cases concerns : event.concerns environment with
      | true =>
          rw [List.filter_cons_of_pos concerns, List.filter_nil]
          exact ih.step (only_step_of_concerns invariant stepped fresh concerns)
      | false =>
          rw [List.filter_cons_of_neg (by simp [concerns]), List.filter_nil, List.append_nil,
            only_step_of_not_concerns stepped concerns]
          exact ih

instance (state : GatewayApi Digest) (event : GatewayEvent) :
    Decidable (FreshToken sha256 state event) :=
  match event with
  | .issueToken _ id token =>
      inferInstanceAs (Decidable (∀ row ∈ state.tokens, row.id ≠ id ∧ row.digest ≠ sha256 token))
  | .createEnvironment _ | .changeSettings _ _ | .revokeToken _ _ _ | .insertVersion _
  | .authenticate _ _ _ | .recordUse _ _ | .serve _ _ => inferInstanceAs (Decidable True)

/-- Two environments with a token and a version each, and an instance of the same name. -/
def twoEnvironments : List GatewayEvent :=
  [.createEnvironment "prod", .createEnvironment "test", .issueToken "prod" "1" "rgt_p",
   .issueToken "test" "2" "rgt_t", .insertVersion ⟨⟨1, "a: 1", "", ""⟩, "prod", 0⟩,
   .insertVersion ⟨⟨1, "a: 2", "", ""⟩, "test", 1⟩,
   .authenticate 0 "Bearer rgt_t" (.heartbeat ⟨"gw", "2", 1, ""⟩),
   .authenticate 1 "Bearer rgt_p" (.heartbeat ⟨"gw", "1", 0, ""⟩),
   .authenticate 2 "Bearer rgt_p" (.artifact "" none), .serve 0 60000, .serve 1 60000,
   .recordUse 2 60000, .authenticate 3 "Bearer other" (.artifact "" none), .serve 2 60000]

/-- The token of `prod` reads the version of `prod` and writes its instance. -/
theorem environment_isolated_of_two :
    ∃ final : GatewayApi String,
      System.replay (System.guarded (gatewayStep (fun _ => none) id) (FreshToken id)) emptyStudio
        twoEnvironments = some final ∧
      (final.only "prod").answers =
        [("prod", .noContent), ("prod", .artifact "\"prod-1\"" "a: 1" 1)] ∧
      (gatewayApi (fun _ => none) id).Steps emptyStudio
        (twoEnvironments.filter (·.concerns "prod")) (final.only "prod") := by
  let final := (System.replay (System.guarded (gatewayStep (fun _ => none) id) (FreshToken id))
    emptyStudio twoEnvironments).get (by decide)
  have ends : System.replay (System.guarded (gatewayStep (fun _ => none) id) (FreshToken id))
      emptyStudio twoEnvironments = some final := (Option.some_get _).symm
  exact ⟨final, ends, by decide, environment_isolated _ id "prod" emptyStudio final twoEnvironments
    (.initial rfl) (System.restrict_steps_of_guarded twoEnvironments ends)⟩

/-- No accepted token, and no call. -/
structure Closed (state : GatewayApi Digest) : Prop where
  tokens : ∀ row ∈ state.tokens, row.revokedAt ≠ none
  calls : state.calls = []

/-- What gateways have written and what they were told. -/
def GatewayApi.telemetry (state : GatewayApi Digest) :
    List InstanceRow × List UsageRow × List RequestRow × List (String × GatewayAnswer) :=
  (state.instances, state.usage, state.requests, state.answers)

/-- Of revoked tokens none is live. -/
theorem liveToken_of_revoked {tokens : List (TokenRow Digest)}
    (revoked : ∀ row ∈ tokens, row.revokedAt ≠ none) (digest : Digest) :
    liveToken tokens digest = none := by
  refine List.find?_eq_none.mpr fun row member => ?_
  simp [revoked row member]

/-- Without a new token nothing is written and nobody is answered. -/
theorem Closed.step {state next : GatewayApi Digest} {event : GatewayEvent}
    (closed : Closed state) (stepped : gatewayStep parseHost sha256 state event = some next)
    (noToken : ∀ environment id token, event ≠ .issueToken environment id token) :
    Closed next ∧ next.telemetry = state.telemetry := by
  obtain ⟨tokens, calls⟩ := closed
  cases event with
  | createEnvironment | changeSettings | insertVersion =>
      cases stepped
      exact ⟨⟨tokens, calls⟩, rfl⟩
  | issueToken environment id token => exact absurd rfl (noToken environment id token)
  | revokeToken environment id now =>
      cases stepped
      refine ⟨⟨?_, calls⟩, rfl⟩
      simp only [List.mem_map]
      rintro row ⟨before, member, rfl⟩
      split
      · simp
      · exact tokens before member
  | authenticate call authorization request =>
      simp only [gatewayStep, calls, List.not_mem_nil, false_and, exists_false, if_false] at stepped
      cases presented : gatewayToken authorization with
      | none =>
          rw [presented] at stepped
          cases stepped
          exact ⟨⟨tokens, calls⟩, rfl⟩
      | some token =>
          rw [presented, Option.bind_some, liveToken_of_revoked tokens] at stepped
          cases stepped
          exact ⟨⟨tokens, calls⟩, rfl⟩
  | recordUse call now | serve call now =>
      rw [gatewayStep, calls] at stepped
      cases stepped
      exact ⟨⟨tokens, calls⟩, rfl⟩

/-- The digest of a token that is revoked. -/
def Revoked (state : GatewayApi Digest) (digest : Digest) : Prop :=
  ∃ row ∈ state.tokens, row.digest = digest ∧ row.revokedAt ≠ none

omit [DecidableEq Digest] in
/-- An update that keeps digests and revocations keeps a revoked digest. -/
theorem Revoked.map {state : GatewayApi Digest} {digest : Digest} (revoked : Revoked state digest)
    {update : TokenRow Digest → TokenRow Digest}
    (keeps : ∀ row, (update row).digest = row.digest ∧
      (row.revokedAt ≠ none → (update row).revokedAt ≠ none)) :
    Revoked { state with tokens := state.tokens.map update } digest := by
  obtain ⟨row, member, isDigest, isRevoked⟩ := revoked
  exact ⟨update row, List.mem_map_of_mem member, (keeps row).1.trans isDigest,
    (keeps row).2 isRevoked⟩

/-- No statement takes a revocation back or accepts a revoked token. -/
theorem Revoked.step {state next : GatewayApi Digest} {event : GatewayEvent} {digest : Digest}
    (revoked : Revoked state digest) (invariant : GatewayInvariant state)
    (stepped : gatewayStep parseHost sha256 state event = some next) :
    Revoked next digest ∧
      ∀ call ∈ next.calls, call.digest = digest → call ∈ state.calls := by
  cases event with
  | createEnvironment | changeSettings | insertVersion =>
      cases stepped
      exact ⟨revoked, fun _ member _ => member⟩
  | issueToken environment id token =>
      simp only [gatewayStep] at stepped
      split at stepped <;> cases stepped
      · exact ⟨revoked, fun _ member _ => member⟩
      · obtain ⟨row, member, fits⟩ := revoked
        exact ⟨⟨row, List.mem_append_left _ member, fits⟩, fun _ member _ => member⟩
  | revokeToken environment id now =>
      cases stepped
      refine ⟨revoked.map fun row => ?_, fun _ member _ => member⟩
      split <;> simp
  | recordUse call now =>
      simp only [gatewayStep] at stepped
      split at stepped <;> cases stepped
      · exact ⟨revoked, fun _ member _ => member⟩
      · refine ⟨revoked.map fun row => ?_, fun _ member _ => member⟩
        split <;> simp
  | authenticate call authorization request =>
      simp only [gatewayStep] at stepped
      split at stepped
      · cases stepped
      · split at stepped <;> cases stepped
        · exact ⟨revoked, fun _ member _ => member⟩
        · rename_i row found
          refine ⟨revoked, fun other member isDigest => ?_⟩
          rcases List.mem_append.mp member with before | new
          · exact before
          · cases List.mem_singleton.mp new
            obtain ⟨text, -, live⟩ := Option.bind_eq_some_iff.mp found
            obtain ⟨isRow, -, isLive⟩ := mem_of_liveToken live
            obtain ⟨owner, isOwner, ownDigest, isRevoked⟩ := revoked
            have same := invariant.digests.eq_of_key isOwner isRow (ownDigest.trans isDigest.symm)
            exact absurd (same ▸ isLive) isRevoked
  | serve call now =>
      simp only [gatewayStep] at stepped
      split at stepped <;> cases stepped
      · exact ⟨revoked, fun _ member _ => member⟩
      · rename_i found isFound
        obtain ⟨sameTokens, sameCalls, -⟩ := handle_frame parseHost state
          found.environment now found.request
        refine ⟨?_, fun other member _ => ?_⟩
        · unfold Revoked
          rw [sameTokens]
          exact revoked
        · rw [sameCalls] at member
          exact List.mem_of_mem_filter member

/-- A revoked token stays so, and no call with it begins. -/
theorem revoked_steps {state next : GatewayApi Digest} {events : List GatewayEvent}
    {digest : Digest} (reached : (gatewayApi parseHost sha256).Reachable state)
    (revoked : Revoked state digest)
    (steps : (gatewayApi parseHost sha256).Steps state events next) :
    Revoked next digest ∧
      ∀ call ∈ next.calls, call.digest = digest → call ∈ state.calls := by
  induction steps with
  | refl => exact ⟨revoked, fun _ member _ => member⟩
  | step prior transition ih =>
      obtain ⟨still, earlier⟩ := ih.1.step (gatewayInvariant (reached.steps prior)) transition
      exact ⟨still, fun call member isDigest =>
        ih.2 call (earlier call member isDigest) isDigest⟩

/-- An environment without a token stays closed as long as none is issued for it. -/
theorem closed_steps {state next : GatewayApi Digest} {events : List GatewayEvent}
    {environment : String}
    (reached : ((gatewayApi parseHost sha256).restrict (FreshToken sha256)).Reachable state)
    (closed : Closed (state.only environment))
    (steps : ((gatewayApi parseHost sha256).restrict (FreshToken sha256)).Steps state events next)
    (noToken : ∀ id token, .issueToken environment id token ∉ events) :
    Closed (next.only environment) ∧
      (next.only environment).telemetry = (state.only environment).telemetry := by
  induction steps with
  | refl => exact ⟨closed, rfl⟩
  | @step middle events event after prior transition ih =>
      have invariant := gatewayInvariant (reached.steps prior).of_restrict
      obtain ⟨still, same⟩ := ih fun id token member => noToken id token
        (List.mem_append_left _ member)
      cases concerns : event.concerns environment with
      | false =>
          rw [only_step_of_not_concerns transition.1 concerns]
          exact ⟨still, same⟩
      | true =>
          have alone := only_step_of_concerns invariant transition.1 transition.2 concerns
          obtain ⟨closed, unchanged⟩ := still.step alone fun other id token isIssue => by
            rw [isIssue] at concerns
            have here : other = environment := by simpa [GatewayEvent.concerns] using concerns
            refine noToken id token (List.mem_append_right _ (List.mem_singleton.mpr ?_))
            rw [isIssue, here]
          exact ⟨closed, unchanged.trans same⟩

/-- A revocation holds from the statement on that makes it. In every run that follows, a call
of the token is one that was accepted before. Once an environment has neither a token that is
not revoked nor such a call, no run without a new token for it writes anything to it or
answers anybody for it, whatever tokens are presented. -/
theorem revocation_holds (parseHost : List Char → Option (List Char)) (sha256 : String → Digest)
    (state next : GatewayApi Digest) (events : List GatewayEvent)
    (reached : ((gatewayApi parseHost sha256).restrict (FreshToken sha256)).Reachable state)
    (steps : ((gatewayApi parseHost sha256).restrict (FreshToken sha256)).Steps state events next) :
    (∀ row ∈ state.tokens, row.revokedAt ≠ none →
      ∀ call ∈ next.calls, call.digest = row.digest → call ∈ state.calls) ∧
    ∀ environment,
      (∀ row ∈ state.tokens, row.environment = environment → row.revokedAt ≠ none) →
      (∀ call ∈ state.calls, call.environment ≠ environment) →
      (∀ id token, .issueToken environment id token ∉ events) →
      (next.only environment).telemetry = (state.only environment).telemetry ∧
        ∀ call ∈ next.calls, call.environment ≠ environment := by
  constructor
  · intro row member isRevoked
    exact (revoked_steps reached.of_restrict ⟨row, member, rfl, isRevoked⟩ steps.of_restrict).2
  · intro environment revoked quiet noToken
    have closed : Closed (state.only environment) := by
      refine ⟨fun row member => ?_, List.filter_eq_nil_iff.mpr fun call member => ?_⟩
      · obtain ⟨isRow, here⟩ := mem_inPart.mp member
        exact revoked row isRow here
      · simpa using quiet call member
    obtain ⟨still, same⟩ := closed_steps reached closed steps noToken
    refine ⟨same, fun call member here => ?_⟩
    have none_ := still.calls
    rw [List.eq_nil_iff_forall_not_mem] at none_
    exact none_ call (mem_inPart.mpr ⟨member, here⟩)

/-- The token of `prod` is revoked while a call with it is under way. -/
def revokedDuringCall : List GatewayEvent :=
  [.createEnvironment "prod", .issueToken "prod" "1" "rgt_p",
   .authenticate 0 "Bearer rgt_p" (.heartbeat ⟨"gw", "1", 0, ""⟩), .revokeToken "prod" "1" 1]

/-- That call ends, and a later one is refused. -/
def afterRevocation : List GatewayEvent :=
  [.authenticate 1 "Bearer rgt_p" (.heartbeat ⟨"late", "1", 0, ""⟩), .serve 0 2, .serve 1 3]

/-- A call that was under way at the revocation still stores its instance. -/
theorem revocation_holds_of_call_under_way :
    ∃ state next : GatewayApi String,
      System.replay (System.guarded (gatewayStep (fun _ => none) id) (FreshToken id)) emptyStudio
        revokedDuringCall = some state ∧
      System.replay (System.guarded (gatewayStep (fun _ => none) id) (FreshToken id)) state
        afterRevocation = some next ∧
      next.instances.map (·.instanceID) = ["gw"] ∧
      ∀ call ∈ next.calls, call.digest = "rgt_p" → call ∈ state.calls := by
  let state := (System.replay (System.guarded (gatewayStep (fun _ => none) id) (FreshToken id))
    emptyStudio revokedDuringCall).get (by decide)
  have begins : System.replay (System.guarded (gatewayStep (fun _ => none) id) (FreshToken id))
      emptyStudio revokedDuringCall = some state := (Option.some_get _).symm
  let next := (System.replay (System.guarded (gatewayStep (fun _ => none) id) (FreshToken id))
    state afterRevocation).get (by decide)
  have ends : System.replay (System.guarded (gatewayStep (fun _ => none) id) (FreshToken id))
      state afterRevocation = some next := (Option.some_get _).symm
  have reached : ((gatewayApi (fun _ => none) id).restrict (FreshToken id)).Reachable state :=
    System.reachable_of_guarded revokedDuringCall (.initial rfl) begins
  have holds := revocation_holds _ id state next afterRevocation reached
    (System.restrict_steps_of_guarded afterRevocation ends)
  exact ⟨state, next, begins, ends, by decide,
    holds.1 ⟨"1", "prod", "rgt_p", some 1, none⟩ (by decide) (by decide)⟩

end Restitch.Studio
