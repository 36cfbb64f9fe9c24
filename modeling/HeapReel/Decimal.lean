/-
Doubles in decimal with a fixed number of places.

The decimal expansion of a double ends, so its text can be rounded once and exactly.  A
value half way between two texts goes to the one whose last digit is even.  The sign is kept
even where every digit is zero.
-/
import HeapReel.Binary64

namespace HeapReel.Decimal

/-- `n` units of the last of `places` places, with a point before those. -/
def pointed (places n : Nat) : List Char :=
  Nat.toDigits 10 (n / Nat.pow 10 places)
    ++ '.' :: (Nat.toDigits 10 (n % Nat.pow 10 places)).leftpad places '0'

/-- The text after a minus sign, where there is one. -/
def signed (negative : Bool) (text : List Char) : List Char :=
  if negative then '-' :: text else text

/-- A double rounded to `places` places. -/
def fixed (places : Nat) : Binary64 → List Char
  | .nan => ['N', 'a', 'N']
  | .infinite negative => signed negative ['i', 'n', 'f']
  | .finite negative size =>
      signed negative
        (pointed places (Rounding.halfEven (size * Nat.pow 10 places) Binary64.unit))

/-- A share as a percentage with two places.  The share times a hundred is a double again
before it is written. -/
def percent (share : Binary64) : String :=
  String.ofList (fixed 2 (share.times 100) ++ ['%'])

end HeapReel.Decimal
