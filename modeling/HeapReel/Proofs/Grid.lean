/-
What a grid has room for.

A grid is as wide as the ceiling of a square root asks, or wider, and as high as it must be
for all units to have a cell.  The second half does not depend on the first: whatever the
width, the rounded-up quotient gives rows enough.
-/
import HeapReel.Grid

namespace HeapReel

namespace Grid

variable (units : Nat) (s : Settings)

theorem columns_pos : 0 < (ofUnits units s).columns :=
  Nat.lt_of_lt_of_le Nat.zero_lt_one (Nat.le_max_right _ _)

theorem cellSide_pos : 0 < (ofUnits units s).cellSide :=
  Nat.lt_of_lt_of_le Nat.zero_lt_one (Nat.le_max_right _ _)

/-- Every unit has a cell. -/
theorem units_le_cellCount : units ≤ (ofUnits units s).cellCount := by
  have hpos := columns_pos units s
  have hrows : (ofUnits units s).rows
      = (units + (ofUnits units s).columns - 1) / (ofUnits units s).columns := rfl
  unfold cellCount
  generalize (ofUnits units s).columns = columns at hpos hrows ⊢
  have hdiv := Nat.div_add_mod (units + columns - 1) columns
  have hmod := Nat.mod_lt (units + columns - 1) hpos
  rw [hrows]
  omega

/-- The cell of a unit lies in one of the rows. -/
theorem div_columns_lt_rows {g : Grid} {i : Nat} (hi : i < g.cellCount) :
    i / g.columns < g.rows :=
  Nat.div_lt_of_lt_mul hi

/-- No count of cells is cut when it becomes a count of pixels. -/
def FitsWords (g : Grid) : Prop :=
  g.columns < UInt32.size ∧ g.rows < UInt32.size

instance (g : Grid) : Decidable g.FitsWords :=
  inferInstanceAs (Decidable (_ ∧ _))

end Grid

theorem lowWord_of_lt {n : Nat} (h : n < UInt32.size) : lowWord n = n :=
  Nat.mod_eq_of_lt h

theorem Grid.FitsWords.imageSize_eq {g : Grid} (h : g.FitsWords) :
    g.imageSize = (g.columns * g.cellSide, g.rows * g.cellSide) := by
  rw [imageSize, lowWord_of_lt h.1, lowWord_of_lt h.2]

end HeapReel
