/-
Integers as text.

A log writes its integers in one form only: an optional minus sign and one or more of the
ten ASCII digits.  Nothing else is a numeral, so there is no plus sign, no blank, no
grouping and no digit of another script.  Leading zeros are allowed, and `-0` is zero.

A log also promises that every integer fits a signed 64-bit word.  That promise is kept
apart from the grammar: `readInt?` reads a numeral of any length, and `readWord?` refuses
the value afterwards.
-/

namespace HeapReel.Numeral

/-! ### Writing -/

/-- The decimal numeral of an integer, with a minus sign only below zero. -/
def decimal (i : Int) : List Char :=
  if i < 0 then '-' :: Nat.toDigits 10 i.natAbs else Nat.toDigits 10 i.natAbs

/-- The lower-case hexadecimal digits of `n`, filled up with zeros to `places`. -/
def hexadecimal (places n : Nat) : List Char :=
  (Nat.toDigits 16 n).leftpad places '0'

/-! ### Reading -/

/-- The value of one or more ASCII digits and nothing else. -/
def readNat? (cs : List Char) : Option Nat :=
  if cs ≠ [] ∧ cs.all Char.isDigit then some (Nat.ofDigitChars 10 cs 0) else none

/-- The value of digits after an optional minus sign. -/
def readInt? : List Char → Option Int
  | '-' :: cs => (readNat? cs).map fun n => -(n : Int)
  | cs => (readNat? cs).map fun n => (n : Int)

/-- The integers of a signed 64-bit word. -/
def FitsWord (i : Int) : Prop :=
  -0x8000000000000000 ≤ i ∧ i < 0x8000000000000000

instance (i : Int) : Decidable (FitsWord i) :=
  inferInstanceAs (Decidable (_ ∧ _))

/-- The value of a numeral that fits a word. -/
def readWord? (cs : List Char) : Option Int :=
  (readInt? cs).filter fun i => decide (FitsWord i)

end HeapReel.Numeral
