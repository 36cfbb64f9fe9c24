/-
What a grid measures.

The width decides everything else.  It is at least the root, so that the rows are no more than
the columns; the rows are as many as the units need and no more, so that only the last one can
hold padding and none is empty; and the side of a cell is the largest that the width allows.
`Measures` says this against the number of units and the settings alone.

A word can count the cells of every grid for up to `2 ^ 64 - 2 ^ 32` units, if the settings ask
for no more than `2 ^ 32` columns: the padding is less than one row, and no row is longer.  One
unit more, and the grid that is `2 ^ 32` cells wide needs a last row that no word can count.  A
replay that is too long for its units to be counted gets such a grid.
-/
import HeapReel.Proofs.Words
import HeapReel.Reel

namespace HeapReel

namespace Grid

/-! ### What is measured -/

/-- The side lets the columns fit the width that the settings aim at. -/
def SideFits (g : Grid) (s : Settings) (side : Nat) : Prop :=
  side ≤ s.maxCellSide ∧ side * g.columns ≤ s.maxCanvasWidth

/-- The grid has the measures that the settings ask for with this many units. -/
structure Measures (g : Grid) (units : Nat) (s : Settings) : Prop where
  units_eq : g.units = units
  /-- The width is what the root asks for or what the settings do, and never nothing. -/
  columns_eq : ∃ root, IsLeast {r | units ≤ r * r} root
    ∧ g.columns = max 1 (max s.minColumns root)
  /-- Every unit has a cell, and the other cells are the padding. -/
  cells_eq : g.columns * g.rows = units + g.padding
  padding_lt : g.padding < g.columns
  /-- Every row begins with the cell of a unit. -/
  lt_units : ∀ row < g.rows, row * g.columns < units
  rows_le : g.rows ≤ g.columns
  countP_isBeyond : (List.range g.cellCount).countP g.isBeyond = g.padding
  /-- The cells are as large as they can be, if they can be anything. -/
  cellSide_greatest : (∃ side ≥ 1, g.SideFits s side) →
    IsGreatest {side | g.SideFits s side} g.cellSide
  cellSide_eq_one : (¬∃ side ≥ 1, g.SideFits s side) → g.cellSide = 1

section

variable {units : Nat} {s : Settings}

/-- The rows are the least number that gives every unit a cell. -/
theorem columns_mul_rows (units : Nat) (s : Settings) :
    (ofUnits units s).columns * (ofUnits units s).rows = units + (ofUnits units s).padding
      ∧ (ofUnits units s).padding < (ofUnits units s).columns := by
  have hpos := columns_pos units s
  have hcells : units ≤ (ofUnits units s).columns * (ofUnits units s).rows :=
    units_le_cellCount units s
  have hrows : (ofUnits units s).rows
      = (units + (ofUnits units s).columns - 1) / (ofUnits units s).columns := rfl
  have hpadding : (ofUnits units s).padding
      = (ofUnits units s).columns * (ofUnits units s).rows - units := rfl
  have hdiv := Nat.div_add_mod (units + (ofUnits units s).columns - 1) (ofUnits units s).columns
  rw [← hrows] at hdiv
  omega

theorem rows_le_columns (hunits : units ≤ (ofUnits units s).columns * (ofUnits units s).columns) :
    (ofUnits units s).rows ≤ (ofUnits units s).columns := by
  obtain ⟨hcells, hpadding⟩ := columns_mul_rows units s
  have hlt : (ofUnits units s).columns * (ofUnits units s).rows
      < (ofUnits units s).columns * ((ofUnits units s).columns + 1) := by
    rw [Nat.mul_succ]
    omega
  exact Nat.le_of_lt_succ (Nat.lt_of_mul_lt_mul_left hlt)

theorem mul_columns_lt {row : Nat} (hrow : row < (ofUnits units s).rows) :
    row * (ofUnits units s).columns < units := by
  obtain ⟨hcells, hpadding⟩ := columns_mul_rows units s
  have hle := Nat.mul_le_mul_left (ofUnits units s).columns (Nat.succ_le_of_lt hrow)
  rw [Nat.mul_succ, Nat.mul_comm _ row] at hle
  omega

/-- The indices past the units are as many as the padding. -/
theorem countP_isBeyond_range {g : Grid} {n : Nat} (hcells : g.cellCount = g.units + n) :
    (List.range g.cellCount).countP g.isBeyond = n := by
  have hnone : (List.range g.units).countP g.isBeyond = 0 := by
    rw [List.countP_eq_zero]
    intro i hi
    simpa [isBeyond] using List.mem_range.mp hi
  have hall : ((List.range n).map (g.units + ·)).countP g.isBeyond
      = ((List.range n).map (g.units + ·)).length := by
    rw [List.countP_eq_length]
    intro i hi
    obtain ⟨j, -, rfl⟩ := List.mem_map.mp hi
    simp [isBeyond]
  rw [hcells, List.range_add, List.countP_append, hnone, hall, List.length_map,
    List.length_range, Nat.zero_add]

theorem sideFits_iff {side : Nat} : (ofUnits units s).SideFits s side
    ↔ side ≤ min (s.maxCanvasWidth / (ofUnits units s).columns) s.maxCellSide := by
  rw [SideFits, Nat.le_min, Nat.le_div_iff_mul_le (columns_pos units s), and_comm]

/-- **The grid for a word of units has the measures that are asked for.** -/
theorem measures_ofUnits (s : Settings) (hunits : units ≤ UInt64.size) :
    (ofUnits units s).Measures units s := by
  have hroot := Root.isLeast_ceil hunits
  have hcolumns : (ofUnits units s).columns = max (max (Root.ceil units) s.minColumns) 1 := rfl
  have hside : (ofUnits units s).cellSide
      = max (min (s.maxCanvasWidth / (ofUnits units s).columns) s.maxCellSide) 1 := rfl
  obtain ⟨hcells, hpadding⟩ := columns_mul_rows units s
  have hsquare : units ≤ (ofUnits units s).columns * (ofUnits units s).columns := by
    have hle : Root.ceil units ≤ (ofUnits units s).columns := by omega
    exact Nat.le_trans hroot.1 (Nat.mul_le_mul hle hle)
  exact
    { units_eq := rfl
      columns_eq := ⟨Root.ceil units, hroot, by omega⟩
      cells_eq := hcells
      padding_lt := hpadding
      lt_units := fun row hrow => mul_columns_lt hrow
      rows_le := rows_le_columns hsquare
      countP_isBeyond := countP_isBeyond_range hcells
      cellSide_greatest := by
        rintro ⟨side, hpos, hfits⟩
        simp only [sideFits_iff] at hfits ⊢
        rw [hside, Nat.max_eq_left (by omega)]
        exact isGreatest_Iic
      cellSide_eq_one := by
        intro hnone
        have hzero : ¬1 ≤ min (s.maxCanvasWidth / (ofUnits units s).columns) s.maxCellSide :=
          fun hone => hnone ⟨1, Nat.le_refl 1, sideFits_iff.mpr hone⟩
        omega }

/-! ### Where words end -/

/-- Above the square of the largest half word a grid is as wide as it can be. -/
theorem columns_eq_of_lt (hcolumns : s.minColumns ≤ UInt32.size)
    (hlt : (UInt32.size - 1) * (UInt32.size - 1) < units) (hunits : units ≤ UInt64.size) :
    (ofUnits units s).columns = UInt32.size := by
  obtain ⟨root, hroot, hmax⟩ := (measures_ofUnits s hunits).columns_eq
  have hsize : root = UInt32.size := hroot.unique ((Root.isLeast_size_iff hunits).mpr hlt)
  have hone : 1 ≤ UInt32.size := by decide
  omega

theorem cellCount_lt (hcolumns : s.minColumns ≤ UInt32.size)
    (hunits : units ≤ UInt64.size - UInt32.size) : (ofUnits units s).cellCount < UInt64.size := by
  have hword : units ≤ UInt64.size := by omega
  obtain ⟨root, hroot, hmax⟩ := (measures_ofUnits s hword).columns_eq
  have hle := Root.le_of_isLeast hroot hword
  have hone : 1 ≤ UInt32.size := by decide
  obtain ⟨hcells, hpadding⟩ := columns_mul_rows units s
  rw [cellCount, hcells]
  have hsizes : UInt32.size ≤ UInt64.size := by decide
  omega

/-- Past `2 ^ 64 - 2 ^ 32` units the cells are one more than a word can count. -/
theorem cellCount_eq_of_lt (hcolumns : s.minColumns ≤ UInt32.size)
    (hlt : UInt64.size - UInt32.size < units) (hunits : units < UInt64.size) :
    (ofUnits units s).cellCount = UInt64.size := by
  have hsquare : (UInt32.size - 1) * (UInt32.size - 1) < units :=
    Nat.lt_of_le_of_lt (by decide) hlt
  obtain ⟨hcells, hpadding⟩ := columns_mul_rows units s
  rw [cellCount]
  rw [columns_eq_of_lt hcolumns hsquare (Nat.le_of_lt hunits)] at hcells hpadding ⊢
  simp only [UInt32.size, UInt64.size] at *
  omega

end

/--
**What a grid measures, and that words are enough to find out.**

With up to `2 ^ 64 - 2 ^ 32` units, and settings that ask for at most `2 ^ 32` columns and name the
largest side of a cell with half a word, no step of the computation leaves its word, goes below
zero or lacks a divisor.  The grid is as wide as the
least root that reaches the units, or as the settings ask; no higher than wide; without a row that
is all padding; and its cells are the largest that the settings allow.

Nothing more would do: with any larger number of units that is a word, the default settings give
a grid of `2 ^ 64` cells, which the computation refuses.  A replay whose units no word can count
gets that grid too.
-/
theorem measured_in_words {units : Nat} {s : Settings}
    (hunits : units ≤ UInt64.size - UInt32.size) (hcolumns : s.minColumns ≤ UInt32.size)
    (hside : s.maxCellSide < UInt32.size) :
    inWords? units s = some (ofUnits units s)
      ∧ (ofUnits units s).Measures units s
      ∧ (∀ n, UInt64.size - UInt32.size < n → n < UInt64.size →
          (ofUnits n {}).columns * (ofUnits n {}).rows = UInt64.size ∧ inWords? n {} = none)
      ∧ ∀ r : Replay, r.settings = {} → ∀ x, r.extent? = some x → UInt64.size - 1 ≤ x.units →
          ∃ g, r.grid? = some g ∧ g.columns * g.rows = UInt64.size := by
  have hword : units < UInt64.size := Nat.lt_of_le_of_lt hunits (by decide)
  refine ⟨?_, measures_ofUnits s (Nat.le_of_lt hword), fun n hlt hn => ⟨?_, ?_⟩, ?_⟩
  · rw [inWords?_eq hword hside, if_pos (cellCount_lt hcolumns hunits)]
  · exact cellCount_eq_of_lt (by decide) hlt hn
  · have hcount : ¬(ofUnits n {}).cellCount < UInt64.size :=
      Nat.not_lt.mpr (Nat.le_of_eq (cellCount_eq_of_lt (by decide) hlt hn).symm)
    rw [inWords?_eq hn (by decide), if_neg hcount]
  · intro r hsettings x hx hlong
    refine ⟨ofUnits (UInt64.size - 1) {}, ?_, cellCount_eq_of_lt (by decide) (by decide) (by decide)⟩
    rw [Replay.grid?, hx, hsettings, Option.map_some, Nat.min_eq_right hlong]

/-- The largest number of units that the default settings can lay out fills its grid. -/
theorem measured_at_limit :
    0xffffffff00000000 ≤ UInt64.size - UInt32.size
      ∧ ({} : Settings).minColumns ≤ UInt32.size
      ∧ ({} : Settings).maxCellSide < UInt32.size
      ∧ ∃ g, inWords? 0xffffffff00000000 {} = some g
        ∧ g.columns = 0x100000000 ∧ g.rows = 0xffffffff ∧ g.padding = 0 ∧ g.cellSide = 1 := by
  have hunits : 0xffffffff00000000 ≤ UInt64.size - UInt32.size := by decide
  have hcolumns : ({} : Settings).minColumns ≤ UInt32.size := by decide
  have hside : ({} : Settings).maxCellSide < UInt32.size := by decide
  obtain ⟨hwords, hmeasures, -⟩ := measured_in_words hunits hcolumns hside
  have hwide : (ofUnits 0xffffffff00000000 {}).columns = 0x100000000 :=
    columns_eq_of_lt hcolumns (by decide) (by decide)
  have hcells := hmeasures.cells_eq
  have hpadding := hmeasures.padding_lt
  have hsmall : ¬∃ side ≥ 1, (ofUnits 0xffffffff00000000 {}).SideFits {} side := by
    rintro ⟨side, hpos, -, hfits⟩
    have hcanvas : side * (ofUnits 0xffffffff00000000 {}).columns ≤ 2048 := hfits
    rw [hwide] at hcanvas
    omega
  rw [hwide] at hcells hpadding
  exact ⟨hunits, hcolumns, hside, _, hwords, hwide, by omega, by omega,
    hmeasures.cellSide_eq_one hsmall⟩

end Grid

end HeapReel
