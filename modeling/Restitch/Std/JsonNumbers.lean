import Mathlib.Data.Rat.Defs
import Mathlib.Tactic.Ring
import Restitch.Std.Json
import Restitch.Std.ShortestDecimal

/-!
# The numbers of a JSON text

What a number stands for, and the number that `encoding/json` writes for a float64 with a
whole value.
-/

namespace Restitch.Std.Json

open Float64 (fmtE fmtF shortest shortestValue)

/-- The number of these digits. -/
def digitsValue (digits : List Char) : Nat := Nat.ofDigitChars 10 digits 0

/-- The exponent behind the digits. -/
def exponentValue : List Char → Int
  | _ :: '-' :: digits => -(digitsValue digits : Int)
  | _ :: '+' :: digits => digitsValue digits
  | _ :: digits => digitsValue digits
  | [] => 0

/-- `coefficient * 10 ^ exponent` -/
def scaled (coefficient : Nat) (exponent : Int) : Rat :=
  if 0 ≤ exponent then (coefficient * 10 ^ exponent.toNat : Nat)
  else mkRat coefficient (10 ^ (-exponent).toNat)

/-- What a number without its sign stands for. -/
def unsignedValue (text : List Char) : Rat :=
  let whole := text.takeWhile Char.isDigit
  match text.dropWhile Char.isDigit with
  | '.' :: rest =>
      let fraction := rest.takeWhile Char.isDigit
      scaled (digitsValue (whole ++ fraction))
        (exponentValue (rest.dropWhile Char.isDigit) - fraction.length)
  | rest => scaled (digitsValue whole) (exponentValue rest)

/-- What a number stands for. -/
def Number.value (number : Number) : Rat :=
  match number.text with
  | '-' :: rest => -unsignedValue rest
  | text => unsignedValue text

/-! ### Whole floats -/

/-- `floatEncoder` for a magnitude: an exponent from `1e21` on. -/
def magnitudeText (m : Nat) : List Char :=
  let (digits, zeros) := shortest m
  let text := Nat.toDigits 10 digits
  if 10 ^ 21 ≤ m then fmtE text (text.length + zeros - 1) else fmtF text zeros

/-- `floatEncoder` for a float64 with a whole value. -/
def wholeText (n : Int) : List Char :=
  (if n < 0 then ['-'] else []) ++ magnitudeText n.natAbs

/-! ### What is written -/

/-- A coefficient with zeros behind it is a natural number. -/
theorem scaled_natCast (coefficient exponent : Nat) :
    scaled coefficient exponent = (coefficient * 10 ^ exponent : Nat) := by
  rw [scaled, if_pos (Int.natCast_nonneg exponent), Int.toNat_natCast]

/-- Without an exponent the coefficient is the value. -/
theorem scaled_zero (coefficient : Nat) : scaled coefficient 0 = coefficient := by
  rw [scaled, if_pos (Int.le_refl 0), Int.toNat_zero, pow_zero, Nat.mul_one]

/-- The digits in front of a text that does not go on with a digit. -/
theorem span_digits {digits : List Char} (rest : List Char)
    (all : ∀ c ∈ digits, c.isDigit = true) (stops : ∀ c, rest.head? = some c → c.isDigit = false) :
    (digits ++ rest).takeWhile Char.isDigit = digits ∧
      (digits ++ rest).dropWhile Char.isDigit = rest := by
  rw [List.takeWhile_append_of_pos all, List.dropWhile_append_of_pos all]
  cases rest with
  | nil => exact ⟨List.append_nil digits, rfl⟩
  | cons c rest =>
      have other : ¬ c.isDigit = true := by
        rw [stops c rfl]
        exact Bool.false_ne_true
      exact ⟨by rw [List.takeWhile_cons_of_neg other, List.append_nil],
        List.dropWhile_cons_of_neg other⟩

/-- Digits are scanned to their end. -/
theorem span_all {digits : List Char} (all : ∀ c ∈ digits, c.isDigit = true) :
    digits.takeWhile Char.isDigit = digits ∧ digits.dropWhile Char.isDigit = [] := by
  have span := span_digits [] all (by intro c absent; cases absent)
  rwa [List.append_nil] at span

/-- Decimal digits are digits. -/
theorem isDigit_toDigits (n : Nat) : ∀ c ∈ Nat.toDigits 10 n, c.isDigit = true :=
  fun _ member => Nat.isDigit_of_mem_toDigits (by decide) (by decide) member

/-- Reading the digits of a number gives the number. -/
theorem digitsValue_toDigits (n : Nat) : digitsValue (Nat.toDigits 10 n) = n :=
  Nat.ofDigitChars_ten_toDigits

/-- A number without a point and an exponent is written with digits only. -/
theorem isDigit_fmtF (n zeros : Nat) : ∀ c ∈ fmtF (Nat.toDigits 10 n) zeros, c.isDigit = true := by
  intro c member
  rcases List.mem_append.mp member with digit | zero
  · exact isDigit_toDigits n c digit
  · rw [List.eq_of_mem_replicate zero]
    rfl

/-- What is written without an exponent means the digits with their zeros. -/
theorem unsignedValue_fmtF (n zeros : Nat) :
    unsignedValue (fmtF (Nat.toDigits 10 n) zeros) = (n * 10 ^ zeros : Nat) := by
  obtain ⟨taken, dropped⟩ := span_all (isDigit_fmtF n zeros)
  have digits : digitsValue (fmtF (Nat.toDigits 10 n) zeros) = n * 10 ^ zeros := by
    rw [fmtF, digitsValue, Nat.ofDigitChars_append, Nat.ofDigitChars_replicate_zero, Nat.mul_comm]
    rw [← digitsValue, digitsValue_toDigits]
  simp only [unsignedValue, taken, dropped, digits, exponentValue]
  exact scaled_zero _

/-- The exponent of `%e`. -/
def exponentText (exponent : Nat) : List Char :=
  'e' :: '+' :: ((if exponent < 10 then ['0'] else []) ++ Nat.toDigits 10 exponent)

/-- The exponent is read as it was written. -/
theorem exponentValue_exponentText (exponent : Nat) :
    exponentValue (exponentText exponent) = exponent := by
  have digits : digitsValue ((if exponent < 10 then ['0'] else []) ++ Nat.toDigits 10 exponent) =
      exponent := by
    split
    · exact digitsValue_toDigits exponent
    · exact digitsValue_toDigits exponent
  rw [exponentText, exponentValue, digits]

theorem fmtE_single (first : Char) (exponent : Nat) :
    fmtE [first] exponent = [first] ++ exponentText exponent := by
  simp [fmtE, exponentText]

/-- The first of several digits stands before the point. -/
theorem fmtE_fraction (first second : Char) (fraction : List Char) (exponent : Nat) :
    fmtE (first :: second :: fraction) exponent =
      [first] ++ '.' :: (second :: fraction ++ exponentText exponent) := by
  simp [fmtE, exponentText]

/-- Digits end where the exponent starts. -/
theorem exponentText_stops (exponent : Nat) :
    ∀ c, (exponentText exponent).head? = some c → c.isDigit = false := by
  intro c head
  cases head
  rfl

/-- One digit in front of the point, and the exponent of that digit. -/
theorem unsignedValue_fmtE (n zeros : Nat) :
    unsignedValue (fmtE (Nat.toDigits 10 n) ((Nat.toDigits 10 n).length + zeros - 1)) =
      (n * 10 ^ zeros : Nat) := by
  have all := isDigit_toDigits n
  have value := digitsValue_toDigits n
  cases isText : Nat.toDigits 10 n with
  | nil => exact absurd isText Nat.toDigits_ne_nil
  | cons first fraction =>
      rw [isText] at all value
      have firstDigit : ∀ c ∈ [first], c.isDigit = true := by
        intro c member
        rw [List.mem_singleton.mp member]
        exact all first List.mem_cons_self
      cases fraction with
      | nil =>
          obtain ⟨taken, dropped⟩ := span_digits (exponentText (1 + zeros - 1)) firstDigit
            (exponentText_stops _)
          rw [List.length_singleton, fmtE_single, unsignedValue, taken, dropped]
          change scaled (digitsValue [first]) (exponentValue (exponentText (1 + zeros - 1))) = _
          rw [value, exponentValue_exponentText, Nat.add_sub_cancel_left, scaled_natCast]
      | cons second fraction =>
          have later : ∀ c ∈ second :: fraction, c.isDigit = true := by
            intro c member
            exact all c (List.mem_cons_of_mem first member)
          have exponent : ((first :: second :: fraction).length + zeros - 1 : Nat) -
              ((second :: fraction).length : Int) = (zeros : Nat) := by
            simp only [List.length_cons]
            omega
          generalize (first :: second :: fraction).length + zeros - 1 = written at exponent ⊢
          obtain ⟨taken, dropped⟩ :=
            span_digits ('.' :: (second :: fraction ++ exponentText written)) firstDigit (by
              intro c head
              cases head
              rfl)
          obtain ⟨fractionTaken, exponentLeft⟩ := span_digits (exponentText written) later
            (exponentText_stops _)
          rw [fmtE_fraction, unsignedValue, taken, dropped]
          change scaled
            (digitsValue ([first] ++
              (second :: fraction ++ exponentText written).takeWhile Char.isDigit))
            (exponentValue ((second :: fraction ++ exponentText written).dropWhile Char.isDigit) -
              ((second :: fraction ++ exponentText written).takeWhile Char.isDigit).length) = _
          rw [fractionTaken, exponentLeft, exponentValue_exponentText, exponent, scaled_natCast]
          exact congrArg (fun digits : Nat => ((digits * 10 ^ zeros : Nat) : Rat)) value

/-- The text of a magnitude means its shortest decimal. -/
theorem unsignedValue_magnitudeText (m : Nat) :
    unsignedValue (magnitudeText m) = shortestValue m := by
  rw [magnitudeText, shortestValue]
  dsimp only
  split
  · exact unsignedValue_fmtE _ _
  · exact unsignedValue_fmtF _ _

/-! ### It is a number -/

/-- A positive number has no leading zero. -/
theorem head_toDigits {n : Nat} (positive : 0 < n) {first : Char} {rest : List Char}
    (isText : Nat.toDigits 10 n = first :: rest) : first ≠ '0' := by
  induction n using Nat.strong_induction_on generalizing rest with
  | _ n ih =>
      by_cases small : n < 10
      · rw [Nat.toDigits_of_lt_base small] at isText
        cases isText
        intro zero
        rw [Nat.digitChar_eq_zero] at zero
        exact positive.ne' zero
      · have large : 10 ≤ n := Nat.le_of_not_lt small
        rw [Nat.toDigits_of_base_le (by decide) large] at isText
        cases isInit : Nat.toDigits 10 (n / 10) with
        | nil => exact absurd isInit Nat.toDigits_ne_nil
        | cons head tail =>
            rw [isInit] at isText
            cases isText
            exact ih (n / 10) (by omega) (by omega) isInit

/-- A digit other than zero may start a number, whatever digits follow it. -/
theorem isUnsigned_cons {first : Char} {rest : List Char} (digit : first.isDigit = true)
    (nonzero : first ≠ '0') (fraction : isFraction (rest.dropWhile Char.isDigit) = true) :
    isUnsigned (first :: rest) = true := by
  rw [isUnsigned, digit, fraction]
  · rfl
  · exact nonzero

/-- The exponent is padded with digits. -/
theorem isDigit_exponentDigits (exponent : Nat) :
    ∀ c ∈ (if exponent < 10 then ['0'] else []) ++ Nat.toDigits 10 exponent,
      c.isDigit = true := by
  intro c member
  rcases List.mem_append.mp member with padding | digit
  · split at padding
    · rw [List.mem_singleton.mp padding]
      rfl
    · cases padding
  · exact isDigit_toDigits exponent c digit

/-- `e+` and digits are an exponent. -/
theorem isExponent_digits {digits : List Char} (all : ∀ c ∈ digits, c.isDigit = true)
    (nonempty : digits ≠ []) : isExponent ('e' :: '+' :: digits) = true := by
  have allDigits : digits.all Char.isDigit = true := List.all_eq_true.mpr all
  rw [isExponent, allDigits, decide_eq_true nonempty]
  rfl

/-- What is written as an exponent is one. -/
theorem isExponent_exponentText (exponent : Nat) : isExponent (exponentText exponent) = true := by
  refine isExponent_digits (isDigit_exponentDigits exponent) ?_
  intro empty
  exact Nat.toDigits_ne_nil (List.append_eq_nil_iff.mp empty).2

/-- What is written with an exponent is a number without a sign. -/
theorem isUnsigned_fmtE {n : Nat} (positive : 0 < n) (exponent : Nat) :
    isUnsigned (fmtE (Nat.toDigits 10 n) exponent) = true := by
  have all := isDigit_toDigits n
  cases isText : Nat.toDigits 10 n with
  | nil => exact absurd isText Nat.toDigits_ne_nil
  | cons first fraction =>
      rw [isText] at all
      have digit := all first List.mem_cons_self
      have nonzero := head_toDigits positive isText
      cases fraction with
      | nil =>
          rw [fmtE_single]
          exact isUnsigned_cons digit nonzero (isExponent_exponentText exponent)
      | cons second fraction =>
          have later : ∀ c ∈ second :: fraction, c.isDigit = true := by
            intro c member
            exact all c (List.mem_cons_of_mem first member)
          obtain ⟨taken, dropped⟩ := span_digits (exponentText exponent) later
            (exponentText_stops exponent)
          rw [fmtE_fraction]
          refine isUnsigned_cons digit nonzero ?_
          change isFraction ('.' :: (second :: fraction ++ exponentText exponent)) = true
          rw [isFraction, taken, dropped, isExponent_exponentText]
          rfl

/-- What is written without an exponent is a number without a sign. -/
theorem isUnsigned_fmtF {n : Nat} (positive : 0 < n) (zeros : Nat) :
    isUnsigned (fmtF (Nat.toDigits 10 n) zeros) = true := by
  have all := isDigit_fmtF n zeros
  cases isText : Nat.toDigits 10 n with
  | nil => exact absurd isText Nat.toDigits_ne_nil
  | cons first rest =>
      rw [isText] at all
      have dropped := (span_all fun c member => all c (List.mem_cons_of_mem first member)).2
      refine isUnsigned_cons (all first List.mem_cons_self) (head_toDigits positive isText) ?_
      rw [dropped]
      rfl

/-- The text of a magnitude is a number without a sign. -/
theorem isUnsigned_magnitudeText (m : Nat) : isUnsigned (magnitudeText m) = true := by
  rcases Nat.eq_zero_or_pos m with rfl | positive
  · rfl
  · have digits := Float64.shortest_pos positive
    rw [magnitudeText]
    dsimp only
    split
    · exact isUnsigned_fmtE digits _
    · exact isUnsigned_fmtF digits _

/-- Digits are part of a number. -/
theorem isNumberChar_of_isDigit {c : Char} (digit : c.isDigit = true) : isNumberChar c = true := by
  rw [isNumberChar, digit]
  rfl

/-- Every character that is written with an exponent is part of a number. -/
theorem isNumberChar_fmtE (n exponent : Nat) :
    ∀ c ∈ fmtE (Nat.toDigits 10 n) exponent, isNumberChar c = true := by
  intro c member
  rw [fmtE] at member
  rcases List.mem_append.mp member with member | member
  · rcases List.mem_append.mp member with member | padding
    · rcases List.mem_append.mp member with member | sign
      · rcases List.mem_append.mp member with first | fraction
        · exact isNumberChar_of_isDigit (isDigit_toDigits n c (List.mem_of_mem_take first))
        · split at fraction
          · cases fraction
          · rcases List.mem_cons.mp fraction with rfl | later
            · rfl
            · exact isNumberChar_of_isDigit (isDigit_toDigits n c (List.mem_of_mem_tail later))
      · rcases List.mem_pair.mp sign with rfl | rfl
        · rfl
        · rfl
    · split at padding
      · rw [List.mem_singleton.mp padding]
        rfl
      · cases padding
  · exact isNumberChar_of_isDigit (isDigit_toDigits exponent c member)

/-- Every character of the text of a magnitude is part of a number. -/
theorem isNumberChar_magnitudeText (m : Nat) :
    ∀ c ∈ magnitudeText m, isNumberChar c = true := by
  rw [magnitudeText]
  dsimp only
  split
  · exact isNumberChar_fmtE _ _
  · exact fun c member => isNumberChar_of_isDigit (isDigit_fmtF _ _ c member)

/-- A number without a sign starts with no minus. -/
theorem ne_minus_of_isUnsigned {c : Char} {rest : List Char}
    (isNumber : isUnsigned (c :: rest) = true) : c ≠ '-' := by
  rintro rfl
  cases isNumber

/-- A sign may stand in front. -/
theorem isNumber_signed (n : Int) {text : List Char} (unsigned : isUnsigned text = true)
    (chars : ∀ c ∈ text, isNumberChar c = true) :
    isNumber ((if n < 0 then ['-'] else []) ++ text) = true ∧
      ((if n < 0 then ['-'] else []) ++ text).all isNumberChar = true := by
  have allChars := List.all_eq_true.mpr chars
  split
  · exact ⟨unsigned, by rw [List.all_append, allChars]; rfl⟩
  · refine ⟨?_, allChars⟩
    rw [List.nil_append]
    cases text with
    | nil => cases unsigned
    | cons c rest =>
        rw [isNumber]
        · exact unsigned
        · intro rest minus
          cases minus
          exact ne_minus_of_isUnsigned unsigned rfl

/-- Decimal digits are a number without a sign. -/
theorem isUnsigned_toDigits (n : Nat) : isUnsigned (Nat.toDigits 10 n) = true := by
  rcases Nat.eq_zero_or_pos n with rfl | positive
  · rfl
  · have unsigned := isUnsigned_fmtF positive 0
    rwa [fmtF, List.replicate_zero, List.append_nil] at unsigned

/-- The number that is written for a float64 with a whole value. -/
def writeWhole (n : Int) : Number where
  text := wholeText n
  valid := isNumber_signed n (isUnsigned_magnitudeText n.natAbs)
    (isNumberChar_magnitudeText n.natAbs)

/-- The number that is written for an integer. -/
def writeInt (n : Int) : Number where
  text := Float64.decimal n
  valid := isNumber_signed n (isUnsigned_toDigits n.natAbs)
    fun c digit => isNumberChar_of_isDigit (isDigit_toDigits n.natAbs c digit)

/-- A literal without a sign means what its text means. -/
theorem Number.value_of_isUnsigned {number : Number} (unsigned : isUnsigned number.text = true) :
    number.value = unsignedValue number.text := by
  rw [Number.value]
  split
  · rename_i rest isText
    rw [isText] at unsigned
    exact absurd rfl (ne_minus_of_isUnsigned unsigned)
  · rfl

/-- A minus in front of a literal negates what it means. -/
theorem Number.value_signed {number : Number} {n : Int} {text : List Char}
    (isText : number.text = (if n < 0 then ['-'] else []) ++ text)
    (unsigned : isUnsigned text = true) :
    number.value = if n < 0 then -unsignedValue text else unsignedValue text := by
  split at isText
  · rename_i negative
    rw [Number.value, isText, if_pos negative]
    rfl
  · rename_i natural
    rw [List.nil_append] at isText
    rw [if_neg natural, ← isText]
    exact Number.value_of_isUnsigned (isText ▸ unsigned)

/-- A whole float is written as its shortest decimal. -/
theorem value_writeWhole (n : Int) :
    (writeWhole n).value = (n.sign * shortestValue n.natAbs : Int) := by
  have value : (writeWhole n).value = _ :=
    Number.value_signed rfl (isUnsigned_magnitudeText n.natAbs)
  rw [value, unsignedValue_magnitudeText]
  rcases Int.lt_trichotomy n 0 with negative | rfl | positive
  · rw [if_pos negative, Int.sign_eq_neg_one_of_neg negative, Int.neg_one_mul, Rat.intCast_neg,
      Rat.intCast_natCast]
  · rfl
  · rw [if_neg (by omega), Int.sign_eq_one_of_pos positive, Int.one_mul, Rat.intCast_natCast]

/-- An integer is written as it is. -/
theorem value_writeInt (n : Int) : (writeInt n).value = n := by
  have digits : unsignedValue (Nat.toDigits 10 n.natAbs) = n.natAbs := by
    have value := unsignedValue_fmtF n.natAbs 0
    rwa [fmtF, List.replicate_zero, List.append_nil, pow_zero, Nat.mul_one] at value
  have value : (writeInt n).value = _ :=
    Number.value_signed rfl (isUnsigned_toDigits n.natAbs)
  rw [value, digits, ← Rat.intCast_natCast]
  split
  · rw [← Rat.intCast_neg, Rat.intCast_inj]
    omega
  · rw [Rat.intCast_inj]
    omega

end Restitch.Std.Json
