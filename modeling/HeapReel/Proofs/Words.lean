/-
A grid computed with words.

The numbers of a grid are natural numbers here, and no step of the computation can go wrong.  A
machine has words of 64 bits instead, and there a step can: a quotient needs a divisor, a
difference must not be below zero, and a sum or a product must fit a word again.  `inWords?` is
the computation with all of that looked at, step by step and in every turn of the two loops that
correct the root.

Only one of these steps is ever refused.  Zero is not lowered, since its square is above nothing;
no root is raised past the one whose square no word holds; a width is never zero; and where there
is a remainder the quotient is far from the end of its word.  What is left is the product of the
columns and the rows, and the computation succeeds exactly if a word can count the cells.
-/
import HeapReel.Proofs.Grid
import HeapReel.Proofs.Root

namespace HeapReel

/-! ### Steps that may be refused -/

namespace Word

/-- The number, if a word holds it. -/
def fit? (n : Nat) : Option Nat :=
  if n < UInt64.size then some n else none

/-- The number, if half a word holds it. -/
def fitHalf? (n : Nat) : Option Nat :=
  if n < UInt32.size then some n else none

/-- The difference, if it is not below zero. -/
def sub? (a b : Nat) : Option Nat :=
  if b ≤ a then some (a - b) else none

/-- The quotient, if there is a divisor. -/
def div? (a b : Nat) : Option Nat :=
  if b = 0 then none else some (a / b)

/-- The quotient, one more where there is a remainder. -/
def ceilDiv? (a b : Nat) : Option Nat := do
  let q ← div? a b
  if a % b = 0 then return q else fit? (q + 1)

theorem fit?_of_lt {n : Nat} (h : n < UInt64.size) : fit? n = some n :=
  if_pos h

theorem fit?_of_not_lt {n : Nat} (h : ¬n < UInt64.size) : fit? n = none :=
  if_neg h

theorem fitHalf?_of_lt {n : Nat} (h : n < UInt32.size) : fitHalf? n = some n :=
  if_pos h

theorem sub?_of_le {a b : Nat} (h : b ≤ a) : sub? a b = some (a - b) :=
  if_pos h

theorem div?_of_pos (a : Nat) {b : Nat} (h : 0 < b) : div? a b = some (a / b) :=
  if_neg (Nat.ne_of_gt h)

/-- A word divided and rounded up is a word. -/
theorem ceilDiv?_of_pos {a b : Nat} (ha : a < UInt64.size) (hb : 0 < b) :
    ceilDiv? a b = some ((a + b - 1) / b) := by
  have hdiv := Nat.div_add_mod a b
  have hmod := Nat.mod_lt a hb
  rw [ceilDiv?, div?_of_pos a hb]
  simp only [Option.bind_eq_bind, Option.bind_some, pure]
  split
  · rename_i hzero
    have hq : (a + b - 1) / b = a / b := by
      refine Nat.div_eq_of_lt_le ?_ ?_
      · rw [Nat.mul_comm]
        omega
      · rw [Nat.mul_comm, Nat.mul_succ]
        omega
    rw [hq]
  · rename_i hpos
    have hq : (a + b - 1) / b = a / b + 1 := by
      refine Nat.div_eq_of_lt_le ?_ ?_
      · rw [Nat.mul_comm, Nat.mul_succ]
        omega
      · rw [Nat.mul_comm, Nat.mul_succ, Nat.mul_succ]
        omega
    -- A remainder means that there are at least two to share, so the quotient is below the number.
    have hlt : a / b < a := Nat.div_lt_self (by omega) (by omega)
    rw [hq, fit?_of_lt (by omega)]

end Word

/-! ### The root -/

namespace Root

/-- Down from `r` while its square is above `n`; zero cannot be lowered. -/
def descendInWords? (n : Nat) : Nat → Option Nat
  | 0 =>
      match square? 0 with
      | some q => if n < q then none else some 0
      | none => some 0
  | r + 1 =>
      match square? (r + 1) with
      | some q => if n < q then descendInWords? n r else some (r + 1)
      | none => some (r + 1)

/-- Up from `r` while its square is below `n`; the largest word cannot be raised. -/
def ascendInWords? (n r : Nat) : Option Nat :=
  match h : square? r with
  | some q =>
      if q < n then
        if r + 1 < UInt64.size then ascendInWords? n (r + 1) else none
      else some r
  | none => some r
termination_by UInt32.size - r
decreasing_by
  have := (square?_eq_some_iff.mp h).1
  omega

/-- The estimate `start` corrected with words. -/
def settleInWords? (n start : Nat) : Option Nat :=
  (descendInWords? n start).bind (ascendInWords? n)

/-- Zero is never lowered. -/
theorem descendInWords?_eq (n r : Nat) : descendInWords? n r = some (descend n r) := by
  induction r with
  | zero => simp [descendInWords?, descend, square?]
  | succ r ih =>
      rw [descendInWords?, descend, ih]
      cases square? (r + 1) with
      | none => rfl
      | some q => exact (apply_ite some _ _ _).symm

/-- Nothing is raised but roots whose square fits a word. -/
theorem ascendInWords?_eq (n r : Nat) : ascendInWords? n r = some (ascend n r) := by
  fun_induction ascendInWords? n r with
  | case1 r q hq hlt hfits ih => rw [ih, ascend_of_square? hq, if_pos hlt]
  | case2 r q hq hlt hfits =>
      have hr := (square?_eq_some_iff.mp hq).1
      exact absurd (Nat.lt_of_le_of_lt hr (by decide)) hfits
  | case3 r q hq hle => rw [ascend_of_square? hq, if_neg hle]
  | case4 r hq => rw [ascend_of_square?_eq_none hq]

/-- **No estimate makes the correction of a root leave its words.** -/
theorem settleInWords?_eq (n start : Nat) : settleInWords? n start = some (settle n start) := by
  rw [settleInWords?, descendInWords?_eq, Option.bind_some, ascendInWords?_eq, settle]

end Root

/-! ### The grid -/

namespace Grid

/-- The grid as words give it, unless one of the steps is refused. -/
def inWords? (units : Nat) (s : Settings) : Option Grid := do
  let root ← Root.settleInWords? units (Root.estimate units)
  let columns := max (max root s.minColumns) 1
  let rows ← Word.ceilDiv? units columns
  let cells ← Word.fit? (columns * rows)
  let padding ← Word.sub? cells units
  let side ← Word.div? s.maxCanvasWidth columns
  let cellSide ← Word.fitHalf? (max (min side s.maxCellSide) 1)
  return { units, columns, rows, padding, cellSide }

/-- **Words give the grid if they can count its cells, and nothing otherwise.** -/
theorem inWords?_eq {units : Nat} {s : Settings} (hunits : units < UInt64.size)
    (hside : s.maxCellSide < UInt32.size) :
    inWords? units s
      = if (ofUnits units s).cellCount < UInt64.size then some (ofUnits units s) else none := by
  have hroot : Root.settleInWords? units (Root.estimate units) = some (Root.ceil units) :=
    Root.settleInWords?_eq units _
  have hcolumns : max (max (Root.ceil units) s.minColumns) 1 = (ofUnits units s).columns := rfl
  have hpos := columns_pos units s
  have hrows : Word.ceilDiv? units (ofUnits units s).columns = some (ofUnits units s).rows :=
    Word.ceilDiv?_of_pos hunits hpos
  have hcells := units_le_cellCount units s
  have hquotient := Word.div?_of_pos s.maxCanvasWidth hpos
  have hcellSide : Word.fitHalf? (max (min (s.maxCanvasWidth / (ofUnits units s).columns)
      s.maxCellSide) 1) = some (ofUnits units s).cellSide := by
    have hone : 1 < UInt32.size := by decide
    exact Word.fitHalf?_of_lt (by omega)
  have hsteps : inWords? units s
      = (Word.fit? (ofUnits units s).cellCount).bind fun cells =>
          (Word.sub? cells units).bind fun padding => some { ofUnits units s with padding } := by
    simp only [inWords?, hroot, Option.bind_eq_bind, Option.bind_some, hcolumns, hrows, hquotient,
      hcellSide]
    rfl
  rw [hsteps]
  by_cases hcount : (ofUnits units s).cellCount < UInt64.size
  · rw [if_pos hcount, Word.fit?_of_lt hcount, Option.bind_some, Word.sub?_of_le hcells]
    rfl
  · rw [if_neg hcount, Word.fit?_of_not_lt hcount]
    rfl

end Grid

end HeapReel
