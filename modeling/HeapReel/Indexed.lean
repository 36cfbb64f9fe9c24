/-
Images of palette indices.

An image is brought onto a palette by representing each of its pixels by the nearest entry.
Images have far fewer colours than pixels, so the answer for each colour is remembered: the
search runs once a colour, and not at all for the colours of the palette itself.
-/
import HeapReel.Palette
import HeapReel.Raster
import Std.Data.HashMap

namespace HeapReel

/-- An image whose pixels are entries of a palette. -/
structure Indexed where
  palette : Palette
  pixels : Raster palette.Index

/-- What cannot be asked of an image on a palette. -/
inductive ImageError where
  | paletteSize (count : Nat)
  | outside (x y : Nat)
  deriving Repr, DecidableEq

/-- The text of the error. -/
def ImageError.message : ImageError → String
  | .paletteSize count => s!"palette must hold 1..=256 colours, got {count}"
  | .outside x y => s!"pixel ({x}, {y}) out of bounds"

/-! ### Remembering the nearest entries -/

/-- For some colours, the entry that represents them. -/
abbrev Palette.Memo (p : Palette) : Type :=
  Std.HashMap Color p.Index

/-- Each colour of the palette with its first entry. -/
def Palette.ownColors (p : Palette) : p.Memo :=
  (List.finRange p.colors.size).foldr (fun i memo => memo.insert (p.colorAt i) i) ∅

/-- The entry for a colour, remembered or searched, and what is remembered afterwards. -/
def Palette.recall (p : Palette) (memo : p.Memo) (c : Color) : p.Index × p.Memo :=
  match memo[c]? with
  | some i => (i, memo)
  | none => (p.nearest c, memo.insert c (p.nearest c))

/-- One more pixel: its entry is added to those of the pixels before it. -/
def Palette.represent (p : Palette) (done : Array p.Index × p.Memo) (c : Color) :
    Array p.Index × p.Memo :=
  let (i, memo) := p.recall done.2 c
  (done.1.push i, memo)

theorem Palette.size_represent (p : Palette) (cs : List Color) (done : Array p.Index × p.Memo) :
    (cs.foldl p.represent done).1.size = done.1.size + cs.length := by
  induction cs generalizing done with
  | nil => rfl
  | cons c cs ih =>
      rw [List.foldl_cons, ih]
      simp [Palette.represent]
      omega

/-! ### Images -/

namespace Indexed

/-- The image on a palette. -/
def ofRaster (image : Raster Color) (p : Palette) : Indexed where
  palette := p
  pixels :=
    { width := image.width
      height := image.height
      cells :=
        (image.cells.foldl p.represent
          (Array.emptyWithCapacity image.cells.size, p.ownColors)).1
      size_cells := by
        rw [← Array.foldl_toList, Palette.size_represent]
        simp [image.size_cells] }

/-- Width in pixels. -/
def width (image : Indexed) : Nat :=
  image.pixels.width

/-- Height in pixels. -/
def height (image : Indexed) : Nat :=
  image.pixels.height

/-- The colour that an index stands for. -/
def colorOf (image : Indexed) (i : image.palette.Index) : Color :=
  image.palette.colorAt i

/-- The colour at a position; only positions inside have one. -/
def color (image : Indexed) (x y : Nat) : Except ImageError Color :=
  match image.pixels.get? x y with
  | some i => .ok (image.colorOf i)
  | none => .error (.outside x y)

/-- The image with every index replaced by its colour. -/
def expand (image : Indexed) : Raster Color :=
  image.pixels.map image.colorOf

/-- The image as paint, which hides everything beneath. -/
def painted (image : Indexed) : Raster Paint :=
  image.expand.map Color.solid

end Indexed

end HeapReel
