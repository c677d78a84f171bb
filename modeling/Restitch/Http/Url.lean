import Mathlib.Data.List.Basic

/-!
# Percent-encoding (`net/url`)

A text is encoded byte by byte, in UTF-8.
-/

namespace Restitch.Http

/-- The bytes of a text. -/
def utf8 (text : List Char) : List UInt8 :=
  text.flatMap String.utf8EncodeChar

/-- Different texts have different bytes. -/
theorem utf8_injective : Function.Injective utf8 := by
  intro first second same
  have bytes : (String.ofList first).toByteArray = (String.ofList second).toByteArray := by
    rw [String.toByteArray_ofList, String.toByteArray_ofList]
    exact congrArg List.toByteArray same
  exact String.ofList_injective (String.toByteArray_inj.mp bytes)

/-- The digits of `%XX`. -/
def upperhex : List Char := "0123456789ABCDEF".toList

/-- Unreserved characters, which no part of a URL escapes. -/
def isUnreserved (c : Char) : Bool :=
  c.isAlphanum || c ∈ ['-', '_', '.', '~']

/-- `escape`: bytes other than those of `keep` become `%XX`. -/
def escapeByte (keep : Char → Bool) (byte : UInt8) : List Char :=
  let c := Char.ofNat byte.toNat
  if byte.toNat < 128 ∧ keep c then [c]
  else ['%', upperhex.getD (byte.toNat / 16) '0', upperhex.getD (byte.toNat % 16) '0']

/-- The characters that a segment of a path keeps. -/
def isPathSegment (c : Char) : Bool :=
  isUnreserved c || c ∈ ['$', '&', '+', ':', '=', '@']

/-- `url.PathEscape` of bytes. -/
def pathEscapeBytes (bytes : List UInt8) : List Char :=
  bytes.flatMap (escapeByte isPathSegment)

/-- `url.QueryEscape` of bytes. -/
def queryEscapeBytes (bytes : List UInt8) : List Char :=
  bytes.flatMap fun byte => if byte = 0x20 then ['+'] else escapeByte isUnreserved byte

/-- The value of a hexadecimal digit. -/
def unhex (byte : UInt8) : Option UInt8 :=
  if 0x30 ≤ byte ∧ byte ≤ 0x39 then some (byte - 0x30)
  else if 0x41 ≤ byte ∧ byte ≤ 0x46 then some (byte - 0x41 + 10)
  else if 0x61 ≤ byte ∧ byte ≤ 0x66 then some (byte - 0x61 + 10)
  else none

/-- `url.PathUnescape`; `none` for a `%` without two digits behind it. -/
def unescapeBytes : List UInt8 → Option (List UInt8)
  | [] => some []
  | byte :: rest =>
      if byte = 0x25 then
        match rest with
        | high :: low :: rest => do
            let high ← unhex high
            let low ← unhex low
            let rest ← unescapeBytes rest
            return (high * 16 + low) :: rest
        | _ => none
      else (unescapeBytes rest).map (byte :: ·)

/-- A segment of a path, unescaped if it can be. -/
def pathUnescape (segment : List Char) : List UInt8 :=
  (unescapeBytes (utf8 segment)).getD (utf8 segment)

end Restitch.Http
