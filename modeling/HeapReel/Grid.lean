/-
How a line of address units becomes a grid of cells.

The grid is about square: as wide as the ceiling of the square root of the unit count, but
never narrower than the settings ask.  It has as many rows as the units need, so only the
last row can hold cells past the end of the range.  Those are padding.

Each cell becomes a square of pixels, as large as fits the canvas width that the settings
aim at, and at least one pixel.
-/
import HeapReel.Grid.Root
import HeapReel.Settings

namespace HeapReel

/-- A grid for `units` units, in cells, and the side of a cell in pixels. -/
structure Grid where
  units : Nat
  columns : Nat
  rows : Nat
  /-- The cells past the end of the range. -/
  padding : Nat
  cellSide : Nat
  deriving Repr, DecidableEq

/-- Pixel counts are 32-bit words, and a cell count is cut to one before it is scaled. -/
def lowWord (n : Nat) : Nat :=
  n % UInt32.size

namespace Grid

/-- The grid for `units` units. -/
def ofUnits (units : Nat) (s : Settings) : Grid :=
  let columns := max (max (Root.ceil units) s.minColumns) 1
  let rows := (units + columns - 1) / columns
  { units, columns, rows
    padding := columns * rows - units
    cellSide := max (min (s.maxCanvasWidth / columns) s.maxCellSide) 1 }

/-- How many cells the grid has, padding included. -/
def cellCount (g : Grid) : Nat :=
  g.columns * g.rows

/-- Width and height in pixels. -/
def imageSize (g : Grid) : Nat × Nat :=
  (lowWord g.columns * g.cellSide, lowWord g.rows * g.cellSide)

/-- Cell `i`, counted along the rows, lies past the end of the range. -/
def isBeyond (g : Grid) (i : Nat) : Bool :=
  g.units ≤ i

end Grid

end HeapReel
