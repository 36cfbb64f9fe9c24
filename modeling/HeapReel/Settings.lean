/-
The numbers that decide how a replay looks and how much it may hold.
-/

namespace HeapReel

/-- Layout, captions and limits of one replay.  Lengths are in pixels, unless a field says
otherwise. -/
structure Settings where
  /-- Grids are never narrower than this many cells. -/
  minColumns : Nat := 32
  /-- The width that a grid should fill without going over it. -/
  maxCanvasWidth : Nat := 2048
  /-- The largest side of a cell. -/
  maxCellSide : Nat := 10
  /-- The empty border, and the gap between the grid and the text. -/
  margin : Nat := 10
  /-- The height set aside for one line of text. -/
  lineHeight : Nat := 10
  /-- The gap between two lines of text. -/
  lineGap : Nat := 2
  /-- How long each frame is shown, in milliseconds. -/
  frameDelay : Nat := 10
  /-- The longest address range that may be replayed, in units. -/
  unitLimit : Nat := 1 <<< 32
  deriving Repr, DecidableEq

namespace Settings

/-- Every frame has this many lines of text. -/
def textLines : Nat := 3

/-- From the top of one line of text to the top of the next. -/
def lineStep (s : Settings) : Nat :=
  s.lineHeight + s.lineGap

end Settings

end HeapReel
