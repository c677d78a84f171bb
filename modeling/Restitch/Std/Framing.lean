import Mathlib.Algebra.Group.Nat.Defs
import Mathlib.Data.List.Basic

/-!
# Length-prefixed encodings

A self-delimiting encoding can be read back from the front of any continuation,
so a sequence of such fields determines every one of them. Lengths are written
as eight bytes, most significant first.
-/

namespace Restitch.Std.Framing

universe u v

variable {α : Type u} {β : Type v}

/-- A length that fits in an `int`. -/
def Sized (list : List α) : Prop := list.length < 2 ^ 63

instance (list : List α) : Decidable (Sized list) :=
  inferInstanceAs (Decidable (list.length < 2 ^ 63))

/-- Two encodings of valid values in front of a continuation are equal only if
both parts are. -/
def SelfDelimiting (valid : α → Prop) (encode : α → List UInt8) : Prop :=
  ∀ ⦃first second rest rest'⦄, valid first → valid second →
    encode first ++ rest = encode second ++ rest' → first = second ∧ rest = rest'

/-- A length as a big-endian 64-bit integer. -/
def writeLen (n : Nat) : List UInt8 :=
  (List.range 8).map fun i => UInt8.ofNat (n / 256 ^ (7 - i))

/-- A field with its length in front. -/
def writeField (bytes : List UInt8) : List UInt8 :=
  writeLen bytes.length ++ bytes

/-- A list with its length in front. -/
def writeList (encode : α → List UInt8) (list : List α) : List UInt8 :=
  writeLen list.length ++ list.flatMap encode

/-- Lengths below `2 ^ 64` are written in different ways. -/
theorem writeLen_injective {m n : Nat} (mSmall : m < 2 ^ 64) (nSmall : n < 2 ^ 64)
    (equal : writeLen m = writeLen n) : m = n := by
  have byte (i : Nat) (small : i < 8) :
      m / 256 ^ (7 - i) % 256 = n / 256 ^ (7 - i) % 256 := by
    have at_ := congrArg (fun list => list[i]?) equal
    simp only [writeLen, List.getElem?_map, List.getElem?_range small, Option.map_some,
      Option.some.injEq] at at_
    simpa using congrArg UInt8.toNat at_
  have b0 := byte 0 (by decide)
  have b1 := byte 1 (by decide)
  have b2 := byte 2 (by decide)
  have b3 := byte 3 (by decide)
  have b4 := byte 4 (by decide)
  have b5 := byte 5 (by decide)
  have b6 := byte 6 (by decide)
  have b7 := byte 7 (by decide)
  simp only [Nat.reduceSub, Nat.reducePow, Nat.div_one] at b0 b1 b2 b3 b4 b5 b6 b7
  omega

/-- A length in front of a continuation. -/
theorem writeLen_append {m n : Nat} (mSmall : m < 2 ^ 64) (nSmall : n < 2 ^ 64)
    {rest rest' : List UInt8} (equal : writeLen m ++ rest = writeLen n ++ rest') :
    m = n ∧ rest = rest' := by
  obtain ⟨lengths, rests⟩ := List.append_inj equal (by simp [writeLen])
  exact ⟨writeLen_injective mSmall nSmall lengths, rests⟩

/-- A field behind its length is told from what follows it. -/
theorem selfDelimiting_writeField : SelfDelimiting Sized writeField := by
  intro first second rest rest' firstSized secondSized equal
  rw [writeField, writeField, List.append_assoc, List.append_assoc] at equal
  obtain ⟨lengths, remaining⟩ := writeLen_append (Nat.lt_trans firstSized (by decide))
    (Nat.lt_trans secondSized (by decide)) equal
  exact List.append_inj remaining lengths

/-- Two fields in a row. -/
theorem SelfDelimiting.prod {valid : α → Prop} {valid' : β → Prop} {encode : α → List UInt8}
    {encode' : β → List UInt8} (left : SelfDelimiting valid encode)
    (right : SelfDelimiting valid' encode') :
    SelfDelimiting (fun pair : α × β => valid pair.1 ∧ valid' pair.2)
      (fun pair => encode pair.1 ++ encode' pair.2) := by
  intro first second rest rest' firstValid secondValid equal
  rw [List.append_assoc, List.append_assoc] at equal
  obtain ⟨firsts, remaining⟩ := left firstValid.1 secondValid.1 equal
  obtain ⟨seconds, rests⟩ := right firstValid.2 secondValid.2 remaining
  exact ⟨Prod.ext firsts seconds, rests⟩

/-- Lists of one length, element by element. -/
theorem SelfDelimiting.flatMap {valid : α → Prop} {encode : α → List UInt8}
    (each : SelfDelimiting valid encode) {first second : List α}
    (firstValid : ∀ element ∈ first, valid element)
    (secondValid : ∀ element ∈ second, valid element)
    (lengths : first.length = second.length) {rest rest' : List UInt8}
    (equal : first.flatMap encode ++ rest = second.flatMap encode ++ rest') :
    first = second ∧ rest = rest' := by
  induction first generalizing second with
  | nil =>
      cases second with
      | nil => exact ⟨rfl, equal⟩
      | cons => cases lengths
  | cons head tail ih =>
      cases second with
      | nil => cases lengths
      | cons head' tail' =>
          rw [List.flatMap_cons, List.flatMap_cons, List.append_assoc, List.append_assoc] at equal
          obtain ⟨headValid, tailValid⟩ := List.forall_mem_cons.mp firstValid
          obtain ⟨headValid', tailValid'⟩ := List.forall_mem_cons.mp secondValid
          obtain ⟨rfl, remaining⟩ := each headValid headValid' equal
          obtain ⟨rfl, rests⟩ := ih tailValid tailValid' (Nat.succ.inj lengths) remaining
          exact ⟨rfl, rests⟩

/-- A counted list of self-delimiting elements. -/
theorem SelfDelimiting.writeList {valid : α → Prop} {encode : α → List UInt8}
    (each : SelfDelimiting valid encode) :
    SelfDelimiting (fun list => Sized list ∧ ∀ element ∈ list, valid element)
      (writeList encode) := by
  intro first second rest rest' firstValid secondValid equal
  simp only [Framing.writeList, List.append_assoc] at equal
  obtain ⟨lengths, remaining⟩ := writeLen_append (Nat.lt_trans firstValid.1 (by decide))
    (Nat.lt_trans secondValid.1 (by decide)) equal
  exact each.flatMap firstValid.2 secondValid.2 lengths remaining

end Restitch.Std.Framing
