import Restitch.Composition.WholeResponse
import Restitch.Http.Url
import Restitch.Std.JsonMeaning

/-!
# JSON values in the gateway (`encoding/json`)

`json.Unmarshal` into an `any` and `json.Marshal` of one. Every number becomes a float64 on
the way in, and the shortest decimal of it on the way out.
-/

namespace Restitch.Composition

open Restitch.Http Restitch.Std

/-- The code points of the bytes of a text; a byte that starts none becomes U+FFFD. -/
def runesFrom : Nat → List UInt8 → List Char
  | 0, _ | _, [] => []
  | fuel + 1, byte :: rest =>
      match (byte :: rest).toByteArray.utf8DecodeChar? 0 with
      | some c => c :: runesFrom fuel ((byte :: rest).drop c.utf8Size)
      | none => '\ufffd' :: runesFrom fuel rest

def runes (bytes : List UInt8) : List Char := runesFrom bytes.length bytes

/-- How the numbers that are no integers are read and written, and the JSON of the values
that no JSON text is decoded to. -/
structure JsonCodec where
  read : Json.Number → Option Float64.Value
  write : Int → Nat → Json.Number
  other : String → Option Json.Value

/-- `maxNestingDepth` -/
def maxNestingDepth : Nat := 10000

/-- `{"step": ..., "message": ..., "status": ...}` -/
def detailJson (detail : StepErrorDetail) : Json.Value :=
  .object [("step".toList, .string detail.step.toList),
    ("message".toList, .string detail.message.toList),
    ("status".toList, .string detail.status.toList)]

/-- The members of a map, sorted by key. -/
def sortMembers (members : List (List Char × Json.Value)) : List (List Char × Json.Value) :=
  members.insertionSort fun first second => first.1 ≤ second.1

namespace JsonCodec

variable (codec : JsonCodec)

/-- The nearest float64; none for a number out of its range. -/
def readNumber (number : Json.Number) : Option Float64.Value :=
  if number.value.isInt then
    let magnitude := Float64.round number.value.num.natAbs
    if magnitude < 2 ^ 1024 then some (.finite (number.value.num.sign * magnitude) 0) else none
  else codec.read number

/-- The number of a float64; none for NaN and the infinities. -/
def writeNumber (value : Float64.Value) : Option Json.Number :=
  match value with
  | .finite numerator exponent =>
      match value.whole with
      | some n => some (Json.writeWhole n)
      | none => some (codec.write numerator exponent)
  | .nan | .infinite _ => none

mutual

/-- A JSON value as an `any`. -/
def decodeValue : Json.Value → Option ResponseValue
  | .null => some .null
  | .bool value => some (.bool value)
  | .number number => (codec.readNumber number).map .float
  | .string text => some (.string (.ofList text))
  | .array items => (decodeItems items).map .list
  | .object members => (decodeMembers members []).map .map

def decodeItems : List Json.Value → Option (List ResponseValue)
  | [] => some []
  | item :: rest =>
      (decodeValue item).bind fun value => (decodeItems rest).map fun values => value :: values

/-- The entries of a map, one after the other. -/
def decodeMembers : List (List Char × Json.Value) → List (String × ResponseValue) →
    Option (List (String × ResponseValue))
  | [], fields => some fields
  | (key, value) :: rest, fields =>
      (decodeValue value).bind fun value =>
        decodeMembers rest (Values.setField fields (.ofList key) value)

end

mutual

/-- The JSON of an `any`. -/
def encodeValue : ResponseValue → Option Json.Value
  | .null => some .null
  | .bool value => some (.bool value)
  | .int value => some (.number (Json.writeInt value))
  | .float value => (codec.writeNumber value).map .number
  | .string text => some (.string text.toList)
  | .list items => (encodeItems items).map .array
  | .map fields => (encodeFields fields).map fun members => .object (sortMembers members)
  | .anyMap _ => none
  | .stepErrors details => some (.array (details.map detailJson))
  | .other description => codec.other description

def encodeItems : List ResponseValue → Option (List Json.Value)
  | [] => some []
  | item :: rest =>
      (encodeValue item).bind fun value => (encodeItems rest).map fun values => value :: values

def encodeFields : List (String × ResponseValue) → Option (List (List Char × Json.Value))
  | [] => some []
  | (key, value) :: rest =>
      (encodeValue value).bind fun value =>
        (encodeFields rest).map fun members => (key.toList, value) :: members

end

/-- `json.Unmarshal` into an `any`. -/
def unmarshal (bytes : List UInt8) : Option ResponseValue :=
  (Json.parse (runes bytes)).bind fun value =>
    if value.depth ≤ maxNestingDepth then codec.decodeValue value else none

/-- `json.Marshal`. -/
def marshal (value : ResponseValue) : Option (List Char) :=
  (codec.encodeValue value).map Json.encode

end JsonCodec

/-! ### Bytes of a text -/

/-- A code point in front is read off. -/
theorem runesFrom_append {c : Char} {bytes rest : List UInt8} (fuel : Nat)
    (isBytes : bytes = String.utf8EncodeChar c ++ rest) :
    runesFrom (fuel + 1) bytes = c :: runesFrom fuel rest := by
  have decoded : bytes.toByteArray.utf8DecodeChar? 0 = some c := by
    rw [isBytes, List.toByteArray_append]
    exact ByteArray.utf8DecodeChar?_utf8EncodeChar_append
  have dropped : bytes.drop c.utf8Size = rest := by
    rw [isBytes, ← String.length_utf8EncodeChar c, List.drop_left]
  cases bytes with
  | nil =>
      have positive := Char.utf8Size_pos c
      have count := congrArg List.length isBytes
      rw [List.length_append, String.length_utf8EncodeChar, List.length_nil] at count
      omega
  | cons byte bytes =>
      rw [runesFrom, decoded]
      dsimp only
      rw [dropped]

/-- The bytes of a text are decoded as the text. -/
theorem runesFrom_utf8 (text : List Char) {fuel : Nat} (enough : (utf8 text).length ≤ fuel) :
    runesFrom fuel (utf8 text) = text := by
  induction text generalizing fuel with
  | nil => cases fuel <;> rfl
  | cons c text ih =>
      have bytes : utf8 (c :: text) = String.utf8EncodeChar c ++ utf8 text := rfl
      have positive := Char.utf8Size_pos c
      rw [bytes, List.length_append, String.length_utf8EncodeChar] at enough
      obtain ⟨less, rfl⟩ := Nat.exists_eq_add_of_lt (Nat.lt_of_lt_of_le positive
        (Nat.le_trans (Nat.le_add_right _ _) enough))
      rw [Nat.zero_add, runesFrom_append less bytes, ih (by omega)]

/-- The code points of the bytes of a text are the text. -/
theorem runes_utf8 (text : List Char) : runes (utf8 text) = text :=
  runesFrom_utf8 text (Nat.le_refl _)

namespace JsonCodec

variable {codec : JsonCodec}

/-! ### Which values have a JSON text -/

/-- The finite numbers can be written. -/
theorem isSome_writeNumber (value : Float64.Value) :
    (codec.writeNumber value).isSome = value.isFinite := by
  cases value with
  | nan => rfl
  | infinite negative => rfl
  | finite numerator exponent =>
      rw [writeNumber]
      split <;> rfl

mutual

/-- The encoder takes the values that the model of the handler says. -/
theorem isSome_encodeValue : ∀ value : ResponseValue,
    (codec.encodeValue value).isSome =
      value.encodable fun description => (codec.other description).isSome
  | .null | .bool _ | .int _ | .string _ | .stepErrors _ | .anyMap _ | .other _ => by
      simp only [encodeValue, GoValue.encodable, Option.isSome_some, Option.isSome_none]
  | .float value => by
      rw [encodeValue, GoValue.encodable, Option.isSome_map, isSome_writeNumber]
  | .list items => by
      rw [encodeValue, GoValue.encodable, Option.isSome_map, isSome_encodeItems items]
  | .map fields => by
      rw [encodeValue, GoValue.encodable, Option.isSome_map, isSome_encodeFields fields]

/-- Items are encoded exactly if their numbers are finite and their other values can be. -/
theorem isSome_encodeItems : ∀ items : List ResponseValue,
    (codec.encodeItems items).isSome =
      GoValue.encodableItems (fun description => (codec.other description).isSome) items
  | [] => by
      rw [encodeItems, GoValue.encodableItems]
      rfl
  | item :: rest => by
      rw [encodeItems, GoValue.encodableItems, ← isSome_encodeValue item, ← isSome_encodeItems rest]
      cases codec.encodeValue item with
      | none => rfl
      | some value => cases codec.encodeItems rest <;> rfl

/-- Fields are encoded exactly if their numbers are finite and their other values can be. -/
theorem isSome_encodeFields : ∀ fields : List (String × ResponseValue),
    (codec.encodeFields fields).isSome =
      GoValue.encodableFields (fun description => (codec.other description).isSome) fields
  | [] => by
      rw [encodeFields, GoValue.encodableFields]
      rfl
  | (key, value) :: rest => by
      rw [encodeFields, GoValue.encodableFields, ← isSome_encodeValue value,
        ← isSome_encodeFields rest]
      cases codec.encodeValue value with
      | none => rfl
      | some json => cases codec.encodeFields rest <;> rfl

end

/-! ### Which values are read -/

/-- An integer is read unless its nearest float64 is out of range. -/
theorem isSome_readNumber {number : Json.Number} (integer : number.value.isInt = true) :
    (codec.readNumber number).isSome = true ↔
      Float64.round number.value.num.natAbs < 2 ^ 1024 := by
  rw [readNumber, if_pos integer]
  dsimp only
  split
  · exact iff_of_true rfl ‹_›
  · exact iff_of_false Bool.false_ne_true ‹_›

mutual

/-- A value is read exactly if all of its numbers are. -/
theorem isSome_decodeValue : ∀ value : Json.Value,
    (codec.decodeValue value).isSome = true ↔
      ∀ number ∈ value.numbers, (codec.readNumber number).isSome = true
  | .null | .bool _ | .string _ => by simp [decodeValue, Json.Value.numbers]
  | .number number => by simp [decodeValue, Json.Value.numbers]
  | .array items => by
      rw [decodeValue, Json.Value.numbers, Option.isSome_map]
      exact isSome_decodeItems items
  | .object members => by
      rw [decodeValue, Json.Value.numbers, Option.isSome_map]
      exact isSome_decodeMembers members []

/-- Items are decoded exactly if their numbers can be read. -/
theorem isSome_decodeItems : ∀ items : List Json.Value,
    (codec.decodeItems items).isSome = true ↔
      ∀ number ∈ Json.itemsNumbers items, (codec.readNumber number).isSome = true
  | [] => by simp [decodeItems, Json.itemsNumbers]
  | item :: rest => by
      rw [decodeItems, Json.itemsNumbers, List.forall_mem_append, ← isSome_decodeValue item,
        ← isSome_decodeItems rest]
      cases codec.decodeValue item <;> simp

/-- Members are decoded exactly if their numbers can be read. -/
theorem isSome_decodeMembers : ∀ (members : List (List Char × Json.Value))
    (fields : List (String × ResponseValue)),
    (codec.decodeMembers members fields).isSome = true ↔
      ∀ number ∈ Json.membersNumbers members, (codec.readNumber number).isSome = true
  | [], fields => by simp [decodeMembers, Json.membersNumbers]
  | (key, value) :: rest, fields => by
      rw [decodeMembers, Json.membersNumbers, List.forall_mem_append, ← isSome_decodeValue value]
      cases codec.decodeValue value with
      | none => simp
      | some decoded =>
          rw [Option.bind_some, isSome_decodeMembers rest]
          simp

end

/-! ### What is written of what was read -/

/-- What the number that is written for a float64 stands for. -/
def reread (number : Json.Number) : Rat :=
  (number.value.num.sign * Float64.shortestValue (Float64.round number.value.num.natAbs) : Int)

/-- Rounding the magnitude keeps the sign. -/
theorem sign_mul_round (n : Int) :
    (n.sign * Float64.round n.natAbs).sign = n.sign ∧
      (n.sign * Float64.round n.natAbs).natAbs = Float64.round n.natAbs := by
  by_cases zero : n = 0
  · subst zero
    exact ⟨rfl, rfl⟩
  · have positive := Float64.round_pos (Int.natAbs_ne_zero.mpr zero)
    rw [Int.sign_mul, Int.natAbs_mul, Int.sign_sign, Int.natAbs_sign_of_ne_zero zero,
      Int.sign_eq_one_of_pos (Int.natCast_pos.mpr positive), Int.natAbs_natCast]
    exact ⟨Int.mul_one _, Nat.one_mul _⟩

/-- A whole number is written as one. -/
theorem writeNumber_whole (n : Int) :
    codec.writeNumber (.finite n 0) = some (Json.writeWhole n) := by
  have whole : (Float64.Value.finite n 0).whole = some n := by
    rw [Float64.Value.whole, pow_zero, Nat.cast_one, Int.emod_one, if_pos rfl, Int.ediv_one]
  rw [writeNumber, whole]

/-- An integer is written back as the shortest decimal of its nearest float64. -/
theorem writeNumber_readNumber {number : Json.Number} (integer : number.value.isInt = true)
    {float : Float64.Value} (isRead : codec.readNumber number = some float) :
    ∃ written, codec.writeNumber float = some written ∧ written.value = reread number := by
  rw [readNumber, if_pos integer] at isRead
  dsimp only at isRead
  split at isRead
  · cases isRead
    refine ⟨_, writeNumber_whole _, ?_⟩
    obtain ⟨sign, magnitude⟩ := sign_mul_round number.value.num
    rw [Json.value_writeWhole, sign, magnitude, reread]
  · cases isRead

/-! ### Entries of a map -/

/-- Encoded fields keep their keys. -/
theorem keys_encodeFields {fields : List (String × ResponseValue)}
    {members : List (List Char × Json.Value)} (encodes : codec.encodeFields fields = some members) :
    members.map Prod.fst = (fields.map Prod.fst).map String.toList := by
  induction fields generalizing members with
  | nil =>
      cases encodes
      rfl
  | cons field rest ih =>
      obtain ⟨key, value⟩ := field
      rw [encodeFields, Option.bind_eq_some_iff] at encodes
      obtain ⟨json, -, encodes⟩ := encodes
      obtain ⟨later, encodesRest, rfl⟩ := Option.map_eq_some_iff.mp encodes
      rw [List.map_cons, List.map_cons, List.map_cons, ih encodesRest]

/-- Encoded fields have distinct keys if the fields have. -/
theorem nodup_encodeFields {fields : List (String × ResponseValue)}
    {members : List (List Char × Json.Value)} (encodes : codec.encodeFields fields = some members)
    (unique : (fields.map Prod.fst).Nodup) : (members.map Prod.fst).Nodup := by
  rw [keys_encodeFields encodes]
  exact unique.map fun _ _ same => String.toList_injective same

/-- Sorting the members of a map keeps what they mean. -/
theorem fieldMeaning_sortMembers {fields : List (String × ResponseValue)}
    {members : List (List Char × Json.Value)} (encodes : codec.encodeFields fields = some members)
    (unique : (fields.map Prod.fst).Nodup) (f : Json.Number → Rat) :
    Json.fieldMeaning f (sortMembers members) = Json.fieldMeaning f members :=
  Json.fieldMeaning_perm (nodup_encodeFields encodes unique) (List.perm_insertionSort _ _).symm

/-- Setting a field adds its key at most. -/
theorem mem_keys_setField {fields : List (String × ResponseValue)} {key other : String}
    {value : ResponseValue} (member : other ∈ (Values.setField fields key value).map Prod.fst) :
    other = key ∨ other ∈ fields.map Prod.fst := by
  induction fields with
  | nil => exact .inl (List.mem_singleton.mp member)
  | cons field rest ih =>
      obtain ⟨first, old⟩ := field
      rw [Values.setField] at member
      split at member
      · rcases List.mem_cons.mp member with here | later
        · exact .inl here
        · exact .inr (List.mem_cons_of_mem _ later)
      · rcases List.mem_cons.mp member with here | later
        · exact .inr (here ▸ List.mem_cons_self)
        · exact (ih later).imp_right (List.mem_cons_of_mem _)

/-- Setting a field keeps the keys distinct. -/
theorem nodup_setField {fields : List (String × ResponseValue)} (key : String)
    (value : ResponseValue) (unique : (fields.map Prod.fst).Nodup) :
    ((Values.setField fields key value).map Prod.fst).Nodup := by
  induction fields with
  | nil => exact List.nodup_singleton key
  | cons field rest ih =>
      obtain ⟨first, old⟩ := field
      rw [List.map_cons, List.nodup_cons] at unique
      rw [Values.setField]
      split
      · rename_i same
        exact List.nodup_cons.mpr ⟨same ▸ unique.1, unique.2⟩
      · rename_i different
        refine List.nodup_cons.mpr ⟨?_, ih unique.2⟩
        intro member
        exact (mem_keys_setField member).elim different unique.1

/-- Writing an entry writes the member. -/
theorem encodeFields_setField {fields : List (String × ResponseValue)}
    {members : List (List Char × Json.Value)} {value : ResponseValue} {json : Json.Value}
    (key : String) (unique : (fields.map Prod.fst).Nodup)
    (encodes : codec.encodeFields fields = some members)
    (isJson : codec.encodeValue value = some json) :
    ∃ written, codec.encodeFields (Values.setField fields key value) = some written ∧
      Json.fieldMeaning Json.Number.value written =
        Function.update (Json.fieldMeaning Json.Number.value members) key.toList
          (some json.meaning) := by
  induction fields generalizing members with
  | nil =>
      cases encodes
      refine ⟨[(key.toList, json)], ?_, ?_⟩
      · rw [Values.setField, encodeFields, isJson, encodeFields]
        rfl
      · funext other
        rw [Function.update_apply]
        simp only [Json.fieldMeaning, Option.none_or, eq_comm, Json.Value.meaning]
  | cons field rest ih =>
      obtain ⟨first, old⟩ := field
      rw [List.map_cons, List.nodup_cons] at unique
      rw [encodeFields, Option.bind_eq_some_iff] at encodes
      obtain ⟨oldJson, isOld, encodes⟩ := encodes
      obtain ⟨later, encodesRest, rfl⟩ := Option.map_eq_some_iff.mp encodes
      rw [Values.setField]
      split
      · rename_i same
        subst same
        have last : first.toList ∉ later.map Prod.fst := by
          rw [keys_encodeFields encodesRest]
          intro member
          obtain ⟨other, isKey, same⟩ := List.mem_map.mp member
          exact unique.1 (String.toList_injective same ▸ isKey)
        refine ⟨(first.toList, json) :: later, ?_, ?_⟩
        · rw [encodeFields, isJson, encodesRest]
          rfl
        · funext other
          rw [Function.update_apply, Json.fieldMeaning, Json.fieldMeaning]
          by_cases here : other = first.toList
          · rw [if_pos here, if_pos here.symm, here, Json.fieldMeaning_eq_none_iff.mpr last,
              Option.none_or]
            rfl
          · rw [if_neg here, if_neg (Ne.symm here), if_neg (Ne.symm here)]
      · rename_i different
        obtain ⟨written, encodesWritten, isMeaning⟩ := ih unique.2 encodesRest
        refine ⟨(first.toList, oldJson) :: written, ?_, ?_⟩
        · rw [encodeFields, isOld, encodesWritten]
          rfl
        · funext other
          rw [Function.update_apply, Json.fieldMeaning, Json.fieldMeaning, isMeaning,
            Function.update_apply]
          by_cases here : other = key.toList
          · rw [if_pos here, if_pos here, Option.some_or]
          · rw [if_neg here, if_neg here]

mutual

/-- What is written of a value that was read is the value with its numbers reread. -/
theorem exists_encodeValue_of_decodeValue : ∀ (value : Json.Value) {decoded : ResponseValue},
    (∀ number ∈ value.numbers, number.value.isInt = true) →
    codec.decodeValue value = some decoded →
    ∃ json, codec.encodeValue decoded = some json ∧ json.meaning = value.meaningWith reread
  | .null, _, _, decodes => by
      cases decodes
      exact ⟨.null, rfl, rfl⟩
  | .bool value, _, _, decodes => by
      cases decodes
      exact ⟨.bool value, rfl, rfl⟩
  | .string text, _, _, decodes => by
      cases decodes
      refine ⟨.string text, ?_, rfl⟩
      rw [encodeValue, String.toList_ofList]
  | .number number, _, integers, decodes => by
      obtain ⟨float, isRead, rfl⟩ := Option.map_eq_some_iff.mp decodes
      obtain ⟨written, isWritten, isValue⟩ :=
        writeNumber_readNumber (integers number List.mem_cons_self) isRead
      refine ⟨.number written, ?_, ?_⟩
      · rw [encodeValue, isWritten]
        rfl
      · exact congrArg Json.Meaning.number isValue
  | .array items, _, integers, decodes => by
      obtain ⟨values, decodesItems, rfl⟩ := Option.map_eq_some_iff.mp decodes
      obtain ⟨jsons, encodes, isMeaning⟩ :=
        exists_encodeItems_of_decodeItems items integers decodesItems
      refine ⟨.array jsons, ?_, ?_⟩
      · rw [encodeValue, encodes]
        rfl
      · exact congrArg Json.Meaning.array isMeaning
  | .object members, _, integers, decodes => by
      obtain ⟨fields, decodesMembers, rfl⟩ := Option.map_eq_some_iff.mp decodes
      obtain ⟨unique, written, encodes, isMeaning⟩ :=
        exists_encodeFields_of_decodeMembers members integers decodesMembers List.nodup_nil rfl
      refine ⟨.object (sortMembers written), ?_, ?_⟩
      · rw [encodeValue, encodes]
        rfl
      · refine congrArg Json.Meaning.object ?_
        rw [fieldMeaning_sortMembers encodes unique, isMeaning]
        funext key
        exact Option.or_none

/-- Items of integers are encoded again, with the meaning of the numbers that were read. -/
theorem exists_encodeItems_of_decodeItems : ∀ (items : List Json.Value)
    {decoded : List ResponseValue},
    (∀ number ∈ Json.itemsNumbers items, number.value.isInt = true) →
    codec.decodeItems items = some decoded →
    ∃ jsons, codec.encodeItems decoded = some jsons ∧
      Json.itemsMeaning Json.Number.value jsons = Json.itemsMeaning reread items
  | [], _, _, decodes => by
      cases decodes
      exact ⟨[], rfl, rfl⟩
  | item :: rest, _, integers, decodes => by
      rw [Json.itemsNumbers, List.forall_mem_append] at integers
      rw [decodeItems, Option.bind_eq_some_iff] at decodes
      obtain ⟨value, decodesItem, decodes⟩ := decodes
      obtain ⟨values, decodesRest, rfl⟩ := Option.map_eq_some_iff.mp decodes
      obtain ⟨json, encodesItem, isMeaning⟩ :=
        exists_encodeValue_of_decodeValue item integers.1 decodesItem
      obtain ⟨jsons, encodesRest, areMeanings⟩ :=
        exists_encodeItems_of_decodeItems rest integers.2 decodesRest
      refine ⟨json :: jsons, ?_, ?_⟩
      · rw [encodeItems, encodesItem, encodesRest]
        rfl
      · rw [Json.itemsMeaning, Json.itemsMeaning, areMeanings, ← isMeaning]
        rfl

/-- Members of integers are encoded again, with the meaning of the numbers that were read. -/
theorem exists_encodeFields_of_decodeMembers : ∀ (members : List (List Char × Json.Value))
    {fields decoded : List (String × ResponseValue)} {written : List (List Char × Json.Value)},
    (∀ number ∈ Json.membersNumbers members, number.value.isInt = true) →
    codec.decodeMembers members fields = some decoded →
    (fields.map Prod.fst).Nodup → codec.encodeFields fields = some written →
    (decoded.map Prod.fst).Nodup ∧ ∃ jsons, codec.encodeFields decoded = some jsons ∧
      Json.fieldMeaning Json.Number.value jsons = fun key =>
        (Json.fieldMeaning reread members key).or
          (Json.fieldMeaning Json.Number.value written key)
  | [], _, _, written, _, decodes, unique, encodes => by
      cases decodes
      exact ⟨unique, written, encodes, rfl⟩
  | (key, value) :: rest, fields, decoded, written, integers, decodes, unique, encodes => by
      rw [Json.membersNumbers, List.forall_mem_append] at integers
      rw [decodeMembers, Option.bind_eq_some_iff] at decodes
      obtain ⟨first, decodesFirst, decodesRest⟩ := decodes
      obtain ⟨json, isJson, isMeaning⟩ :=
        exists_encodeValue_of_decodeValue value integers.1 decodesFirst
      obtain ⟨next, encodesNext, isNext⟩ := encodeFields_setField _ unique encodes isJson
      obtain ⟨uniqueDecoded, jsons, encodesDecoded, isDecoded⟩ :=
        exists_encodeFields_of_decodeMembers rest integers.2 decodesRest
          (nodup_setField _ first unique) encodesNext
      refine ⟨uniqueDecoded, jsons, encodesDecoded, ?_⟩
      rw [isDecoded]
      funext other
      rw [isNext, Function.update_apply, String.toList_ofList, Json.fieldMeaning, isMeaning]
      cases Json.fieldMeaning reread rest other with
      | some later => rfl
      | none =>
          by_cases here : other = key
          · rw [if_pos here, if_pos here.symm]
            rfl
          · rw [if_neg here, if_neg (Ne.symm here)]
            rfl

end

end JsonCodec

end Restitch.Composition
