import Mathlib.Data.List.TakeWhile
import Mathlib.Tactic.NormNum

/-!
# Decimal numbers as text

Printing a signed integer in decimal and reading it back the way the C
library does: white space, an optional sign, the longest run of digits.  The
unsigned reader negates modulo its word and saturates; it undoes the signed
printer of the same word size.
-/

namespace OpenChat.Foundation.Decimal

def formatInt (value : Int) : List Char :=
  if value < 0 then
    '-' :: Nat.toDigits 10 value.natAbs
  else
    Nat.toDigits 10 value.natAbs

/-- White space as the C locale has it. -/
def isSpace (char : Char) : Bool :=
  char = ' ' || ('\t' ≤ char && char ≤ '\r')

def magnitude (text : List Char) : Nat :=
  Nat.ofDigitChars 10 (text.takeWhile Char.isDigit) 0

/-- Sign (`true` for a minus) and magnitude of the number a text begins
with. -/
def readNumber (text : List Char) : Bool × Nat :=
  let body := text.dropWhile isSpace
  if body.head? = some '-' then
    (true, magnitude body.tail)
  else if body.head? = some '+' then
    (false, magnitude body.tail)
  else
    (false, magnitude body)

def readInt (text : List Char) : Int :=
  match readNumber text with
  | (true, value) => -(value : Int)
  | (false, value) => value

/-- Read an unsigned word: a minus negates modulo the word, a magnitude which
does not fit saturates. -/
def readUnsigned (bits : Nat) (text : List Char) : Nat :=
  match readNumber text with
  | (negative, value) =>
      if 2 ^ bits ≤ value then 2 ^ bits - 1
      else if negative then (2 ^ bits - value) % 2 ^ bits
      else value

/-- The low `bits` bits of a number read as a two's complement integer. -/
def signed (bits : Nat) (value : Nat) : Int :=
  if 2 * (value % 2 ^ bits) < 2 ^ bits then
    ((value % 2 ^ bits : Nat) : Int)
  else
    ((value % 2 ^ bits : Nat) : Int) - ((2 ^ bits : Nat) : Int)

private theorem takeWhile_toDigits (value : Nat) :
    (Nat.toDigits 10 value).takeWhile Char.isDigit =
      Nat.toDigits 10 value := by
  apply List.takeWhile_eq_self_iff.mpr
  intro char member
  exact Nat.isDigit_of_mem_toDigits (by decide) (by decide) member

theorem magnitude_toDigits (value : Nat) :
    magnitude (Nat.toDigits 10 value) = value := by
  rw [magnitude, takeWhile_toDigits, Nat.ofDigitChars_ten_toDigits]

private theorem not_isSpace_of_isDigit {char : Char}
    (digit : char.isDigit = true) : isSpace char = false := by
  have bounds : 48 ≤ char.toNat ∧ char.toNat ≤ 57 := by
    simpa [Char.isDigit, UInt32.le_iff_toNat_le] using digit
  have notBlank : char ≠ ' ' := by
    rintro rfl
    simp at bounds
  have aboveReturn : ¬char ≤ '\r' := by
    intro below
    have : char.toNat ≤ 13 := below
    omega
  simp [isSpace, notBlank, aboveReturn]

private theorem readNumber_toDigits (value : Nat) :
    readNumber (Nat.toDigits 10 value) = (false, value) := by
  have digits : ∀ char ∈ Nat.toDigits 10 value, char.isDigit = true :=
    fun char member =>
      Nat.isDigit_of_mem_toDigits (by decide) (by decide) member
  have value_eq := magnitude_toDigits value
  cases text : Nat.toDigits 10 value with
  | nil => exact (Nat.toDigits_ne_nil text).elim
  | cons head tail =>
      rw [text] at digits value_eq
      have headDigit : head.isDigit = true := digits head (by simp)
      have notMinus : head ≠ '-' := by
        rintro rfl
        simp at headDigit
      have notPlus : head ≠ '+' := by
        rintro rfl
        simp at headDigit
      simp [readNumber, not_isSpace_of_isDigit headDigit, notMinus, notPlus,
        value_eq]

theorem readNumber_formatInt (value : Int) :
    readNumber (formatInt value) = (decide (value < 0), value.natAbs) := by
  by_cases negative : value < 0
  · have minusKept : isSpace '-' = false := by decide
    simp [formatInt, negative, readNumber, minusKept, magnitude_toDigits]
  · rw [formatInt, if_neg negative, readNumber_toDigits]
    simp [negative]

theorem readInt_formatInt (value : Int) : readInt (formatInt value) = value := by
  rw [readInt, readNumber_formatInt]
  by_cases negative : value < 0
  · simp only [negative, decide_true]
    omega
  · simp only [negative, decide_false]
    omega

/-- The unsigned reader undoes the signed printer of the same word size. -/
theorem readUnsigned_formatInt_signed {bits value : Nat}
    (fits : value < 2 ^ bits) :
    readUnsigned bits (formatInt (signed bits value)) = value := by
  rw [readUnsigned, readNumber_formatInt, signed, Nat.mod_eq_of_lt fits]
  by_cases low : 2 * value < 2 ^ bits
  · have nonnegative : ¬((value : Nat) : Int) < 0 := by omega
    rw [if_pos low]
    simp only [nonnegative, decide_false, Int.natAbs_natCast,
      if_neg (Nat.not_le_of_gt fits), Bool.false_eq_true, if_false]
  · have negative :
        ((value : Nat) : Int) - ((2 ^ bits : Nat) : Int) < 0 := by omega
    have absolute :
        (((value : Nat) : Int) - ((2 ^ bits : Nat) : Int)).natAbs =
          2 ^ bits - value := by omega
    have noSaturation : ¬2 ^ bits ≤ 2 ^ bits - value := by omega
    rw [if_neg low]
    simp only [negative, decide_true, absolute, if_neg noSaturation, if_true]
    rw [Nat.sub_sub_self fits.le, Nat.mod_eq_of_lt fits]

/-- Printing as signed words keeps distinct words distinct. -/
theorem formatInt_signed_injective {bits left right : Nat}
    (leftFits : left < 2 ^ bits) (rightFits : right < 2 ^ bits)
    (sameText :
      formatInt (signed bits left) = formatInt (signed bits right)) :
    left = right := by
  rw [← readUnsigned_formatInt_signed leftFits, sameText,
    readUnsigned_formatInt_signed rightFits]

end OpenChat.Foundation.Decimal
