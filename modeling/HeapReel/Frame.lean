/-
One picture of the address range.

A frame shows the grid after one event, and under it three lines of text:

    margin
    the grid                        indented by the margin on both sides
    margin
    the number of the event
    line gap
    the share of free units
    line gap
    the label of the event
    margin

A scene holds what all frames of a replay share, so that they have one size.
-/
import HeapReel.Decimal
import HeapReel.Grid
import HeapReel.Indexed
import HeapReel.Lettering
import HeapReel.Scheme
import HeapReel.Usage

namespace HeapReel

/-- The picture after one event, and what it says. -/
structure Frame where
  /-- The position of the event in its log, from zero. -/
  index : Nat
  freeShare : Binary64
  event : Event
  image : Indexed

/-- The lines of text under the grid. -/
def caption (index : Nat) (freeShare : Binary64) (event : Event) : List String :=
  [s!"Event ID: {index}", "Free: " ++ Decimal.percent freeShare, event.label]

/-- The lines of text under the grid of the frame. -/
def Frame.caption (f : Frame) : List String :=
  HeapReel.caption f.index f.freeShare f.event

/-- What the frames of a replay share. -/
structure Scene where
  grid : Grid
  settings : Settings
  scheme : Scheme

namespace Scene

/-! ### Measures -/

/-- Width and height of every frame. -/
def size (s : Scene) : Nat × Nat :=
  let (width, height) := s.grid.imageSize
  (width + s.settings.margin * 2,
    height + s.settings.margin * 3 + s.settings.lineHeight * Settings.textLines
      + s.settings.lineGap * (Settings.textLines - 1))

/-- The corner of the grid. -/
def gridCorner (s : Scene) : Nat × Nat :=
  (s.settings.margin, s.settings.margin)

/-- The corner of line `l` of the text under a grid of this many pixel rows. -/
def textCorner (s : Scene) (gridHeight l : Nat) : Nat × Nat :=
  (s.settings.margin, s.settings.margin * 2 + gridHeight + s.settings.lineStep * l)

/-! ### Drawing -/

/-- What cell `i` shows.  Cells past the range are padding, whatever the buffer holds. -/
def stateAt (s : Scene) (u : Usage) (i : Nat) : CellState :=
  if s.grid.isBeyond i then .padding else u.state i

/-- The grid with one pixel a cell. -/
def cells (s : Scene) (u : Usage) : Raster Color :=
  Raster.ofFn (lowWord s.grid.columns) (lowWord s.grid.rows) fun x y =>
    s.scheme.colorOf (s.stateAt u (y.val * s.grid.columns + x.val))

/-- The grid on an empty canvas. -/
def backdrop (s : Scene) (grid : Raster Color) : Raster Color :=
  let (width, height) := s.size
  let (left, above) := s.gridCorner
  (Raster.filled width height s.scheme.background).overlay grid left above

/-- The canvas with lines of text drawn on it. -/
def drawLines (s : Scene) (gridHeight : Nat) (lines : List String) (canvas : Raster Color) :
    Raster Color :=
  lines.zipIdx.foldl
    (fun r (text, l) =>
      let (x, y) := s.textCorner gridHeight l
      Lettering.draw r x y text s.scheme.text)
    canvas

/-- The canvas of a frame in full colour. -/
def canvas (s : Scene) (u : Usage) (lines : List String) : Raster Color :=
  let grid := (s.cells u).scale s.grid.cellSide
  s.drawLines grid.height lines (s.backdrop grid)

/-- The frame after `event`, which is event number `index`. -/
def render (s : Scene) (u : Usage) (event : Event) (index : Nat) : Frame :=
  let freeShare := u.freeShare
  { index, freeShare, event
    image := Indexed.ofRaster (s.canvas u (caption index freeShare event)) s.scheme.palette }

end Scene

end HeapReel
