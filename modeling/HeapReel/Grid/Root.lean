/-
The ceiling of a square root.

The root is estimated first and corrected afterwards, down while its square is too large
and up while it is too small.  The correction alone decides the answer; the estimate only
decides how many steps it takes.

Squares are compared as 64-bit words, and a square that does not fit a word stops either
loop.  That is right going up: the only root that gets there is `2 ^ 32`, and its square is
above every word.  Going down it would leave an estimate that is too large to be squared as
it is.  The only such estimate is `2 ^ 32` again, and it is given only where it is the root.
-/
import HeapReel.Binary64

namespace HeapReel.Root

/-- The square of `r`, if it fits a 64-bit word. -/
def square? (r : Nat) : Option Nat :=
  if r * r < UInt64.size then some (r * r) else none

theorem square?_eq_some_iff {r q : Nat} : square? r = some q ↔ r < UInt32.size ∧ q = r * r := by
  have hfits : r * r < UInt64.size ↔ r < UInt32.size := by
    have hsize : UInt64.size = UInt32.size * UInt32.size := rfl
    rw [hsize, Nat.mul_self_lt_mul_self_iff]
  unfold square?
  split
  · rename_i h
    constructor
    · intro hq
      exact ⟨hfits.mp h, (Option.some.inj hq).symm⟩
    · rintro ⟨-, rfl⟩
      rfl
  · rename_i h
    constructor
    · intro hq
      cases hq
    · rintro ⟨hr, -⟩
      exact absurd (hfits.mpr hr) h

/-- Down from `r` while its square is above `n`. -/
def descend (n : Nat) : Nat → Nat
  | 0 => 0
  | r + 1 =>
      match square? (r + 1) with
      | some q => if n < q then descend n r else r + 1
      | none => r + 1

/-- Up from `r` while its square is below `n`. -/
def ascend (n r : Nat) : Nat :=
  match h : square? r with
  | some q => if q < n then ascend n (r + 1) else r
  | none => r
termination_by UInt32.size - r
decreasing_by
  have := (square?_eq_some_iff.mp h).1
  omega

/-- The estimate `start` corrected to the least root whose square reaches `n`. -/
def settle (n start : Nat) : Nat :=
  ascend n (descend n start)

/-- The truncated square root of `n` in double precision. -/
def estimate (n : Nat) : Nat :=
  (Binary64.ofNat n).sqrt.toWord

/-- The least root whose square is at least `n`. -/
def ceil (n : Nat) : Nat :=
  settle n (estimate n)

end HeapReel.Root
