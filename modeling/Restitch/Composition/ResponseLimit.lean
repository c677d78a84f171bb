import Restitch.Composition.Config
import Restitch.Composition.StepResult

/-!
# The size limit of responses (`internal/composition/step.go`, `parser.go`)

A step reads one byte more than the limit, so that a longer body shows. The limit is an `int64`,
and the one byte more is computed in it.
-/

namespace Restitch.Composition

open Restitch.Http Restitch.Std

variable {Value : Type}

/-- `io.ReadAll` of `io.LimitReader`. -/
def readLimited (limit : Int64) (body : List UInt8) : List UInt8 :=
  if limit ≤ 0 then [] else body.take limit.toInt.toNat

/-- What `sendStepRequest` reads of a body. -/
def readStepBody (maxBytes : Int64) (body : List UInt8) : Except SendError (List UInt8) :=
  let rawBody := readLimited (maxBytes + 1) body
  if Int64.ofNat rawBody.length > maxBytes then .error .tooLarge else .ok rawBody

/-- `sendStepRequest` after the exchange, under the limit of the upstream. -/
def sendStepRequestWithin (decoder : BodyDecoder Value) (errorRules : List (ErrorRule Value))
    (maxBytes : Int64) (exchange : Except SendError UpstreamResponse) :
    Except SendError (StepResult Value) :=
  match exchange with
  | .error error => .error error
  | .ok response =>
      match readStepBody maxBytes response.body with
      | .error error => .error error
      | .ok rawBody =>
          let parsed := (parseJSONBody decoder rawBody
            (response.header.get "Content-Type")).getD (decoder.text rawBody)
          match matchErrorRule response.status errorRules with
          | some replacement =>
              .ok ⟨response.status, response.header, replacement, rawBody, true⟩
          | none => .ok ⟨response.status, response.header, parsed, rawBody, false⟩

/-- The step has the whole body, or it fails because the body is longer than the limit. -/
structure KeepsLimit (maxBytes : Int64) (body : List UInt8)
    (outcome : Except SendError (StepResult Value)) : Prop where
  whole : ∀ result, outcome = .ok result → result.rawBody = body ∧ body.length ≤ maxBytes.toInt
  tooLarge : outcome = .error .tooLarge ↔ maxBytes.toInt < body.length

section Read

variable {maxBytes : Int64} {body : List UInt8}

/-- A limit other than the largest is below it. -/
theorem toInt_lt_of_ne_maxValue (below : maxBytes ≠ Int64.maxValue) :
    maxBytes.toInt < 9223372036854775807 := by
  have other : maxBytes.toInt ≠ 9223372036854775807 := fun same => below (Int64.toInt_inj.mp same)
  have upper := maxBytes.toInt_lt
  omega

/-- Below the largest `int64` one byte more is read. -/
theorem readLimited_eq (below : maxBytes ≠ Int64.maxValue) (positive : 0 ≤ maxBytes.toInt) :
    readLimited (maxBytes + 1) body = body.take (maxBytes.toInt.toNat + 1) := by
  have upper := toInt_lt_of_ne_maxValue below
  have zero : (0 : Int64).toInt = 0 := by decide
  have one : (1 : Int64).toInt = 1 := by decide
  have more : (maxBytes + 1).toInt = maxBytes.toInt + 1 := by
    rw [Int64.toInt_add, one, Int.bmod_eq_of_le (by omega) (by omega)]
  have notEmpty : ¬ maxBytes + 1 ≤ 0 := by
    rw [Int64.le_iff_toInt_le]
    omega
  have count : (maxBytes.toInt + 1).toNat = maxBytes.toInt.toNat + 1 := by omega
  rw [readLimited, if_neg notEmpty, more, count]

/-- Under any other limit, a body is read or refused as a whole. -/
theorem readStepBody_eq (below : maxBytes ≠ Int64.maxValue) (positive : 0 ≤ maxBytes.toInt) :
    readStepBody maxBytes body =
      if maxBytes.toInt < body.length then .error .tooLarge else .ok body := by
  have upper := toInt_lt_of_ne_maxValue below
  have length := List.length_take (i := maxBytes.toInt.toNat + 1) (l := body)
  have size := Int64.toInt_ofNat_of_lt
    (n := (body.take (maxBytes.toInt.toNat + 1)).length) (by omega)
  have shows : Int64.ofNat (body.take (maxBytes.toInt.toNat + 1)).length > maxBytes ↔
      maxBytes.toInt < body.length := by
    rw [gt_iff_lt, Int64.lt_iff_toInt_lt, size]
    omega
  unfold readStepBody
  rw [readLimited_eq below positive]
  dsimp only
  by_cases larger : maxBytes.toInt < body.length
  · rw [if_pos (shows.mpr larger), if_pos larger]
  · rw [if_neg (mt shows.mp larger), if_neg larger, List.take_of_length_le (by omega)]

/-- The sum wraps around for the largest `int64`, and nothing is read. -/
theorem readStepBody_maxValue : readStepBody Int64.maxValue body = .ok [] := by
  have wrapped : Int64.maxValue + 1 ≤ 0 := by decide
  rw [readStepBody, readLimited, if_pos wrapped]
  exact if_neg (by decide)

end Read

/-! ### What a step makes of a body -/

section Send

variable {decoder : BodyDecoder Value} {errorRules : List (ErrorRule Value)} {maxBytes : Int64}
  {response : UpstreamResponse}

/-- Reading a body fails only if it is too large. -/
theorem eq_tooLarge_of_readStepBody {body : List UInt8} {error : SendError}
    (failed : readStepBody maxBytes body = .error error) : error = .tooLarge := by
  unfold readStepBody at failed
  dsimp only at failed
  split at failed
  · exact (Except.error.inj failed).symm
  · cases failed

/-- The step fails as the read of the body does, or has what was read. -/
theorem sendStepRequestWithin_cases (decoder : BodyDecoder Value)
    (errorRules : List (ErrorRule Value)) (maxBytes : Int64) (response : UpstreamResponse) :
    (sendStepRequestWithin decoder errorRules maxBytes (.ok response) = .error .tooLarge ∧
      readStepBody maxBytes response.body = .error .tooLarge) ∨
    ∃ result, sendStepRequestWithin decoder errorRules maxBytes (.ok response) = .ok result ∧
      readStepBody maxBytes response.body = .ok result.rawBody := by
  rw [sendStepRequestWithin]
  cases read : readStepBody maxBytes response.body with
  | error error =>
      obtain rfl := eq_tooLarge_of_readStepBody read
      exact .inl ⟨rfl, rfl⟩
  | ok rawBody =>
      right
      dsimp only
      cases matchErrorRule response.status errorRules with
      | none => exact ⟨_, rfl, rfl⟩
      | some replacement => exact ⟨_, rfl, rfl⟩

/-- Below the largest `int64`, the step is one whose limit is a number. -/
theorem sendStepRequestWithin_eq {settings : StepSettings Value}
    {exchange : Except SendError UpstreamResponse} (below : maxBytes ≠ Int64.maxValue)
    (isLimit : maxBytes.toInt = settings.maxResponseBytes) :
    sendStepRequestWithin decoder settings.errorRules maxBytes exchange =
      sendStepRequest decoder settings exchange := by
  cases exchange with
  | error error => rfl
  | ok response =>
      rw [sendStepRequestWithin, sendStepRequest]
      dsimp only
      rw [readStepBody_eq below (by omega), isLimit]
      by_cases larger : settings.maxResponseBytes < response.body.length
      · rw [if_pos larger, if_pos (by omega)]
      · cases matchErrorRule response.status settings.errorRules <;>
          rw [if_neg larger, if_neg (by omega)]

/-- A call keeps the limit exactly if reading its body does. -/
theorem keepsLimit_iff : KeepsLimit maxBytes response.body
      (sendStepRequestWithin decoder errorRules maxBytes (.ok response)) ↔
    readStepBody maxBytes response.body =
      if maxBytes.toInt < response.body.length then .error .tooLarge else .ok response.body := by
  rcases sendStepRequestWithin_cases decoder errorRules maxBytes response with
    ⟨failed, read⟩ | ⟨result, sent, read⟩
  · rw [failed, read]
    constructor
    · intro keeps
      rw [if_pos (keeps.tooLarge.mp rfl)]
    · intro refused
      split at refused
      · rename_i larger
        exact ⟨fun result impossible => (by cases impossible), iff_of_true rfl larger⟩
      · cases refused
  · rw [sent, read]
    constructor
    · intro keeps
      obtain ⟨whole, fits⟩ := keeps.whole result rfl
      rw [if_neg (Int.not_lt.mpr fits), whole]
    · intro accepted
      split at accepted
      · cases accepted
      · rename_i fits
        refine ⟨?_, iff_of_false (fun impossible => by cases impossible) fits⟩
        rintro _ ⟨rfl⟩
        exact ⟨Except.ok.inj accepted, Int.not_lt.mp fits⟩

end Send

/-! ### When the limit holds -/

section Limit

/-- An upstream that is accepted has the limit that was configured, or the default. -/
theorem maxResponseBytes_of_validateUpstream {net : NetParser} {blockPrivate : Bool} {name : String}
    {upstream accepted : Upstream}
    (isAccepted : validateUpstream net blockPrivate name upstream = .ok accepted) :
    accepted.maxResponseBytes = if upstream.maxResponseBytes ≤ 0 then 10 * 1024 * 1024
      else upstream.maxResponseBytes := by
  unfold validateUpstream at isAccepted
  split at isAccepted
  · cases isAccepted
  split at isAccepted
  · cases isAccepted
  split at isAccepted
  · cases isAccepted
  split at isAccepted
  · cases isAccepted
  split at isAccepted
  · rename_i none_
    cases isAccepted
    exact (if_pos none_).symm
  · rename_i configured
    cases isAccepted
    exact (if_neg configured).symm

/-- An accepted upstream is one that was written, validated. -/
theorem validateUpstream_of_validate {net : NetParser} {raw config : Config} {name : String}
    {written upstream : Upstream} (isAccepted : validateAndApplyDefaults net raw = .ok config)
    (isWritten : raw.upstreams.lookup name = some written)
    (isUpstream : config.upstreams.lookup name = some upstream) :
    validateUpstream net raw.blockPrivateUpstreams name written = .ok upstream := by
  obtain ⟨_, -, isAccepted⟩ := Except.bind_eq_ok isAccepted
  obtain ⟨upstreams, isUpstreams, isAccepted⟩ := Except.bind_eq_ok isAccepted
  obtain ⟨compositions, -, isAccepted⟩ := Except.bind_eq_ok isAccepted
  cases isAccepted
  obtain ⟨value, listed, checked⟩ := GoMap.exists_of_traverse _ isUpstreams
    (GoMap.mem_entries_iff.mpr isUpstream)
  have found := GoMap.mem_entries_iff.mp listed
  rw [isWritten] at found
  cases found
  exact checked

/-- A step keeps the limit of its upstream exactly if that is not the largest `int64`, or the
body is empty. -/
theorem response_limit_iff (decoder : BodyDecoder Value) (errorRules : List (ErrorRule Value))
    (net : NetParser) (raw config : Config) (name : String) (configured : Int64)
    (written upstream : Upstream) (isAccepted : validateAndApplyDefaults net raw = .ok config)
    (isWritten : raw.upstreams.lookup name = some written)
    (isConfigured : written.maxResponseBytes = configured.toInt)
    (isUpstream : config.upstreams.lookup name = some upstream) (response : UpstreamResponse) :
    KeepsLimit (.ofInt upstream.maxResponseBytes) response.body
        (sendStepRequestWithin decoder errorRules (.ofInt upstream.maxResponseBytes)
          (.ok response)) ↔
      configured ≠ Int64.maxValue ∨ response.body = [] := by
  rw [keepsLimit_iff]
  have limit := maxResponseBytes_of_validateUpstream
    (validateUpstream_of_validate isAccepted isWritten isUpstream)
  rw [isConfigured] at limit
  by_cases default : configured.toInt ≤ 0
  · rw [if_pos default] at limit
    have other : configured ≠ Int64.maxValue := by
      rintro rfl
      exact absurd default (by decide)
    rw [limit]
    exact iff_of_true (readStepBody_eq (by decide) (by decide)) (.inl other)
  · rw [if_neg default] at limit
    rw [limit, Int64.ofInt_toInt]
    by_cases largest : configured = Int64.maxValue
    · rw [largest, readStepBody_maxValue]
      constructor
      · intro read
        split at read
        · cases read
        · exact .inr (Except.ok.inj read).symm
      · rintro (other | empty)
        · exact absurd rfl other
        · rw [empty]
          exact (if_neg (by decide)).symm
    · exact iff_of_true (readStepBody_eq largest (by omega)) (.inl largest)

end Limit

/-! ### A limit of one upstream -/

/-- Texts, of which none is nil. -/
def bytesDecoder : BodyDecoder (List UInt8) := ⟨fun _ => none, id, fun _ => false⟩

def limitNet : NetParser := ⟨fun _ => .ok ⟨"http", "users"⟩, fun _ => none⟩

/-- An artifact with one upstream. -/
def limitConfig (maxResponseBytes : Int) : Config where
  auth := none
  rateLimit := none
  blockPrivateUpstreams := false
  upstreams := AList.singleton "users" ⟨"http://users", maxResponseBytes⟩
  compositions := ∅

/-- A limit of 4 bytes is kept. -/
theorem response_limit_of_four :
    KeepsLimit 4 [1, 2, 3, 4, 5]
      (sendStepRequestWithin bytesDecoder [] 4 (.ok ⟨200, [], [1, 2, 3, 4, 5]⟩)) :=
  (response_limit_iff bytesDecoder [] limitNet (limitConfig 4) (limitConfig 4) "users" 4
    ⟨"http://users", 4⟩ ⟨"http://users", 4⟩ rfl rfl (by decide) rfl
    ⟨200, [], [1, 2, 3, 4, 5]⟩).mpr (.inl (by decide))

def shortResponse : UpstreamResponse := ⟨200, [], [1, 2]⟩

/-- Under the largest `int64`, a body of two bytes is read as an empty one. -/
theorem response_cut_at_largest :
    validateAndApplyDefaults limitNet (limitConfig 9223372036854775807) =
      .ok (limitConfig 9223372036854775807) ∧
    ¬ KeepsLimit (.ofInt 9223372036854775807) shortResponse.body
      (sendStepRequestWithin bytesDecoder [] (.ofInt 9223372036854775807)
        (.ok shortResponse)) := by
  refine ⟨rfl, fun keeps => ?_⟩
  have read := keepsLimit_iff.mp keeps
  rw [if_neg (by decide)] at read
  have empty : readStepBody (.ofInt 9223372036854775807) shortResponse.body = .ok [] :=
    readStepBody_maxValue
  rw [empty] at read
  cases read

end Restitch.Composition
