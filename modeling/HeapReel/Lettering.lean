/-
Text on an image.

Characters stand side by side, one glyph width each, whether they have a glyph or not.
What a text draws is a list of positions, and drawing sets the pixels there; positions
outside the image set nothing, which clips the text at every edge.

Columns are 32-bit words.  Text that would run past the last column piles up on it, and no
image is wide enough to have that column.
-/
import HeapReel.Font
import HeapReel.Raster

namespace HeapReel.Lettering

/-- The last column that a word can name. -/
def lastColumn : Nat := UInt32.size - 1

/-- The column `dx` to the right of `x`, or the last one. -/
def columnAfter (x dx : Nat) : Nat :=
  min (x + dx) lastColumn

/-- The positions that a text with its corner at `(x, y)` inks. -/
def points (x y : Nat) (text : List Char) : List (Nat × Nat) :=
  text.zipIdx.flatMap fun (c, i) =>
    match Font.glyph? c with
    | some glyph =>
        let pen := columnAfter x (Font.glyphSize * i)
        (Font.ink glyph).map fun (column, row) => (columnAfter pen column, y + row)
    | none => []

/-- The image with the text drawn on it, its corner at `(x, y)`. -/
def draw {α : Type} (canvas : Raster α) (x y : Nat) (text : String) (ink : α) : Raster α :=
  (points x y text.toList).foldl (fun r p => r.set p.1 p.2 ink) canvas

/-- How many pixels wide a text is. -/
def width (text : String) : Nat :=
  text.length * Font.glyphSize

/-! ### What drawing leaves alone -/

@[simp] theorem width_foldl_set {α : Type} (ps : List (Nat × Nat)) (r : Raster α) (ink : α) :
    (ps.foldl (fun r p => r.set p.1 p.2 ink) r).width = r.width := by
  induction ps generalizing r with
  | nil => rfl
  | cons p ps ih => simp [ih]

@[simp] theorem height_foldl_set {α : Type} (ps : List (Nat × Nat)) (r : Raster α) (ink : α) :
    (ps.foldl (fun r p => r.set p.1 p.2 ink) r).height = r.height := by
  induction ps generalizing r with
  | nil => rfl
  | cons p ps ih => simp [ih]

/-- Setting many pixels to one value changes exactly those among them that are inside. -/
theorem get?_foldl_set {α : Type} (ps : List (Nat × Nat)) (r : Raster α) (ink : α) (x y : Nat) :
    (ps.foldl (fun r p => r.set p.1 p.2 ink) r).get? x y
      = if (x, y) ∈ ps then (r.get? x y).map fun _ => ink else r.get? x y := by
  induction ps generalizing r with
  | nil => simp
  | cons p ps ih =>
      obtain ⟨px, py⟩ := p
      simp only [List.foldl_cons, ih, Raster.get?_set, List.mem_cons, Prod.mk.injEq]
      by_cases hp : x = px ∧ y = py
      · obtain ⟨rfl, rfl⟩ := hp
        by_cases hmem : (x, y) ∈ ps <;> simp [hmem, Function.comp_def]
      · simp [hp]

end HeapReel.Lettering
