/-
Rounding quotients of natural numbers, and their square roots.

What is no integer goes to the nearest one, and what lies half way between two goes to the
even one.  Numbers with a limited count of binary digits are reached by the same rounding,
in units of the last digit that they keep.

A root need not be known for that.  Its whole part is that of the root of an integer, and on which
side of the middle it lies is seen from the squares.
-/

namespace HeapReel.Rounding

/-! ### Quotients -/

/-- The integer nearest to `num / den`, the even one of two that are equally near. -/
def halfEven (num den : Nat) : Nat :=
  let q := num / den
  let r := num % den
  if den < 2 * r ∨ (2 * r = den ∧ q % 2 = 1) then q + 1 else q

/-- The number nearest to `num / den` among those with at most `digits` binary digits before
any zeros that end them, the even one of two that are equally near. -/
def significant (digits num den : Nat) : Nat :=
  let dropped := (num / den).log2 + 1 - digits
  halfEven num (den <<< dropped) <<< dropped

/-! ### Roots -/

/-- The integer nearest to the root of `num / den`, the even one of two that are equally near. -/
def halfEvenRoot (num den : Nat) : Nat :=
  let q := (num / den).sqrt
  let middle := den * ((2 * q + 1) * (2 * q + 1))
  if middle < 4 * num ∨ (4 * num = middle ∧ q % 2 = 1) then q + 1 else q

/-- The number nearest to the root of `n` among those with at most `digits` binary digits
before any zeros that end them, the even one of two that are equally near. -/
def significantRoot (digits n : Nat) : Nat :=
  let dropped := n.sqrt.log2 + 1 - digits
  halfEvenRoot n (1 <<< (2 * dropped)) <<< dropped

end HeapReel.Rounding
