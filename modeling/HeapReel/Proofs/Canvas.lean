/-
Every pixel of a frame.

A canvas has two kinds of places.  Those of the grid belong to a cell each, and no text reaches
them, since all lines start below the grid.  Everywhere else there is the background, unless some
line of the text has ink there; lines may overlap one another, and the canvas may cut them off,
but ink is ink whichever line it comes from, and what is cut off has no place.

The palette of a scheme holds all colours that these rules give, so bringing the canvas onto it
changes nothing, also where the scheme uses one colour twice.
-/
import HeapReel.Proofs.Frame
import HeapReel.Proofs.Lettering
import HeapReel.Proofs.Animation

namespace HeapReel

theorem Scheme.text_mem_palette (s : Scheme) : s.text ∈ s.palette.colors := by
  simp [palette]

namespace Scene

variable {s : Scene} {u : Usage} {lines : List String} {x y : Nat}

/-- The position lies in the grid. -/
def InGrid (s : Scene) (x y : Nat) : Prop :=
  s.settings.margin ≤ x ∧ x < s.settings.margin + s.grid.columns * s.grid.cellSide
    ∧ s.settings.margin ≤ y ∧ y < s.settings.margin + s.grid.rows * s.grid.cellSide

instance (s : Scene) (x y : Nat) : Decidable (s.InGrid x y) :=
  inferInstanceAs (Decidable (_ ∧ _))

/-- The cell that a position in the grid belongs to, counted along the rows. -/
def cellAt (s : Scene) (x y : Nat) : Nat :=
  (y - s.settings.margin) / s.grid.cellSide * s.grid.columns
    + (x - s.settings.margin) / s.grid.cellSide

/-- One of the lines of text has ink at the position. -/
def Inks (s : Scene) (lines : List String) (x y : Nat) : Prop :=
  ∃ l line dx dy,
    lines[l]? = some line
    ∧ x = s.settings.margin + dx
    ∧ y = s.settings.margin * 2 + s.grid.rows * s.grid.cellSide
        + l * (s.settings.lineHeight + s.settings.lineGap) + dy
    ∧ Lettering.Inks line.toList dx dy

/-! ### The grid -/

/-- A position in the grid shows its cell. -/
theorem color_render_of_inGrid (hfits : s.grid.FitsWords) (hside : 0 < s.grid.cellSide)
    (hin : s.InGrid x y) (u : Usage) (e : Event) (index : Nat) :
    (s.render u e index).image.color x y
      = .ok (s.scheme.colorOf (s.stateAt u (s.cellAt x y))) := by
  obtain ⟨hleft, hright, habove, hbelow⟩ := hin
  have hcolumn : (x - s.settings.margin) / s.grid.cellSide < s.grid.columns :=
    (Nat.div_lt_iff_lt_mul hside).mpr (by omega)
  have hrow : (y - s.settings.margin) / s.grid.cellSide < s.grid.rows :=
    (Nat.div_lt_iff_lt_mul hside).mpr (by omega)
  have hcell := color_render hfits u e index hcolumn hrow
    (Nat.mod_lt (x - s.settings.margin) hside) (Nat.mod_lt (y - s.settings.margin) hside)
  rw [Nat.div_add_mod', Nat.div_add_mod', Nat.add_sub_cancel' hleft,
    Nat.add_sub_cancel' habove] at hcell
  exact hcell

/-- A cell shows the state of its unit if it has one that the buffer counts. -/
theorem colorOf_stateAt {units i : Nat} {c : Int} (hunits : s.grid.units = units)
    (hi : i < units) (hc : u.count? i = some c) :
    s.scheme.colorOf (s.stateAt u i) = s.scheme.colorOf (.ofCount c) := by
  have hin : s.grid.isBeyond i = false := decide_eq_false (by omega)
  rw [stateAt, hin, if_neg Bool.false_ne_true, Usage.state, hc]

/-- A cell without a unit, or with one that the buffer does not have, looks empty. -/
theorem colorOf_stateAt_of_le {units i : Nat} (hunits : s.grid.units = units)
    (hi : units ≤ i ∨ u.size ≤ i) :
    s.scheme.colorOf (s.stateAt u i) = s.scheme.background := by
  unfold stateAt
  split
  · rfl
  · rename_i hin
    have hlt : i < units := by simpa [Grid.isBeyond, hunits] using hin
    have hnone : u.count? i = none := Array.getElem?_eq_none (hi.resolve_left (by omega))
    rw [Usage.state, hnone]
    rfl

/-! ### The text -/

/-- The positions that the lines ink, one line after the other. -/
def linePoints (s : Scene) (gridHeight : Nat) (lines : List String) : List (Nat × Nat) :=
  lines.zipIdx.flatMap fun (text, l) =>
    Lettering.points (s.textCorner gridHeight l).1 (s.textCorner gridHeight l).2 text.toList

theorem drawLines_eq (gridHeight : Nat) (lines : List String) (canvas : Raster Color) :
    s.drawLines gridHeight lines canvas
      = (s.linePoints gridHeight lines).foldl (fun r p => r.set p.1 p.2 s.scheme.text) canvas :=
  List.foldl_flatMap.symm

theorem mem_linePoints_iff (hx : x < Lettering.lastColumn) :
    (x, y) ∈ s.linePoints (s.grid.rows * s.grid.cellSide) lines ↔ s.Inks lines x y := by
  simp only [linePoints, List.mem_flatMap, Prod.exists, List.mem_zipIdx_iff_getElem?,
    Lettering.mem_points_iff hx, textCorner, Settings.lineStep]
  constructor
  · rintro ⟨line, l, hline, dx, dy, hdx, hdy, hinks⟩
    exact ⟨l, line, dx, dy, hline, hdx, by rw [hdy, Nat.mul_comm l], hinks⟩
  · rintro ⟨l, line, dx, dy, hline, hdx, hdy, hinks⟩
    exact ⟨line, l, hline, dx, dy, hdx, by rw [hdy, Nat.mul_comm l], hinks⟩

/-! ### The rest of the canvas -/

theorem get?_backdrop_of_not_inGrid (hfits : s.grid.FitsWords) (hside : 0 < s.grid.cellSide)
    (hx : x < s.size.1) (hy : y < s.size.2) (hout : ¬s.InGrid x y) :
    (s.backdrop ((s.cells u).scale s.grid.cellSide)).get? x y = some s.scheme.background := by
  rw [backdrop, Raster.get?_overlay_of_none, Raster.get?_filled hx hy]
  intro hleft habove
  refine Raster.get?_eq_none ?_
  rw [Raster.width_scale hside, height_scale_cells hfits hside, cells, Raster.width_ofFn,
    lowWord_of_lt hfits.1]
  rintro ⟨hwidth, hheight⟩
  have hleft' : s.settings.margin ≤ x := hleft
  have habove' : s.settings.margin ≤ y := habove
  have hright : x - s.settings.margin < s.grid.columns * s.grid.cellSide := hwidth
  have hbelow : y - s.settings.margin < s.grid.rows * s.grid.cellSide := hheight
  exact hout ⟨hleft', by omega, habove', by omega⟩

/-- Outside the grid there is the ink of the text on the background. -/
theorem get?_canvas_of_not_inGrid (u : Usage) (lines : List String) (hfits : s.grid.FitsWords)
    (hside : 0 < s.grid.cellSide) (hwidth : s.size.1 < UInt32.size)
    (hx : x < s.size.1) (hy : y < s.size.2) (hout : ¬s.InGrid x y) :
    (s.Inks lines x y → (s.canvas u lines).get? x y = some s.scheme.text)
      ∧ (¬s.Inks lines x y → (s.canvas u lines).get? x y = some s.scheme.background) := by
  have hcolumn : x < Lettering.lastColumn := by
    unfold Lettering.lastColumn
    omega
  rw [canvas, height_scale_cells hfits hside, drawLines_eq, Lettering.get?_foldl_set,
    get?_backdrop_of_not_inGrid hfits hside hx hy hout, ← mem_linePoints_iff hcolumn]
  refine ⟨fun hinks => ?_, fun hinks => ?_⟩
  · rw [if_pos hinks]
    rfl
  · rw [if_neg hinks]

/--
**What every pixel of a frame shows.**

A frame is drawn for any number of units, with any settings and colours, after any event, and
from a buffer that need not be that of the units.  It has the size of its scene.  A position in
the grid shows the counter of its cell, if the cell has a unit and the buffer a counter for it,
and the background otherwise, whatever the text says.  Any other position shows the colour of
the text where one of the lines has ink, and the background where none has.  Two of the colours
may be equal; the frame shows the right one all the same.

The cells of the grid and the pixels in a row of the canvas are counted by words of 32 bits.
-/
theorem pixels_of_render {units : Nat} (hgrid : s.grid = Grid.ofUnits units s.settings)
    (hfits : s.grid.FitsWords) (hwidth : s.size.1 < UInt32.size)
    (u : Usage) (e : Event) (index : Nat) :
    (s.render u e index).image.width = s.size.1
      ∧ (s.render u e index).image.height = s.size.2
      ∧ (∀ x y, s.InGrid x y →
          (∀ c, s.cellAt x y < units → u.count? (s.cellAt x y) = some c →
            (s.render u e index).image.color x y = .ok (s.scheme.colorOf (.ofCount c)))
          ∧ (units ≤ s.cellAt x y ∨ u.size ≤ s.cellAt x y →
            (s.render u e index).image.color x y = .ok s.scheme.background))
      ∧ ∀ x y, x < s.size.1 → y < s.size.2 → ¬s.InGrid x y →
          (s.Inks (s.render u e index).caption x y →
            (s.render u e index).image.color x y = .ok s.scheme.text)
          ∧ (¬s.Inks (s.render u e index).caption x y →
            (s.render u e index).image.color x y = .ok s.scheme.background) := by
  have hunits : s.grid.units = units := congrArg Grid.units hgrid
  have hside : 0 < s.grid.cellSide := by
    rw [hgrid]
    exact Grid.cellSide_pos units s.settings
  refine ⟨size_render.1, size_render.2, fun x y hin => ⟨fun c hi hc => ?_, fun hi => ?_⟩,
    fun x y hx hy hout => ?_⟩
  · rw [color_render_of_inGrid hfits hside hin, colorOf_stateAt hunits hi hc]
  · rw [color_render_of_inGrid hfits hside hin, colorOf_stateAt_of_le hunits hi]
  · obtain ⟨hinked, hblank⟩ := get?_canvas_of_not_inGrid u (s.render u e index).caption
      hfits hside hwidth hx hy hout
    exact ⟨fun h => Indexed.color_ofRaster (hinked h) s.scheme.text_mem_palette,
      fun h => Indexed.color_ofRaster (hblank h) (s.scheme.colorOf_mem_palette .padding)⟩

/-- Six units, with one colour for the text and for what is in use. -/
def sixUnits : Scene where
  grid := Grid.ofUnits 6 {}
  settings := {}
  scheme := { used := .black }

/-- A frame of it, from a buffer of three units of which the first is in use. -/
def sixUnitsFrame : Frame :=
  sixUnits.render ((Usage.empty 0 3).apply ⟨.alloc, 0, 1⟩) ⟨.free, 7, 5⟩ 0

/-- The first cell is in use, the fourth is empty, and the text begins with ink. -/
theorem pixels_of_sixUnits :
    sixUnits.grid = Grid.ofUnits 6 sixUnits.settings
      ∧ sixUnits.grid.FitsWords
      ∧ sixUnits.size.1 < UInt32.size
      ∧ sixUnitsFrame.image.color 10 10 = .ok .black
      ∧ sixUnitsFrame.image.color 45 15 = .ok ⟨190, 190, 190⟩
      ∧ sixUnitsFrame.image.color 10 30 = .ok .black := by
  have hcells : sixUnits.grid
      = { units := 6, columns := 32, rows := 1, padding := 26, cellSide := 10 } :=
    Replay.grid_overlapping
  have hsize : sixUnits.size = (340, 74) := by
    rw [size, hcells]
    rfl
  have hfits : sixUnits.grid.FitsWords := by
    rw [hcells]
    decide
  have hwidth : sixUnits.size.1 < UInt32.size := by
    rw [hsize]
    decide
  have hunits : sixUnits.grid = Grid.ofUnits 6 sixUnits.settings := rfl
  obtain ⟨-, -, hin, hout⟩ := pixels_of_render hunits hfits hwidth
    ((Usage.empty 0 3).apply ⟨.alloc, 0, 1⟩) ⟨.free, 7, 5⟩ 0
  have hgrid : ∀ x y, sixUnits.InGrid x y ↔ 10 ≤ x ∧ x < 330 ∧ 10 ≤ y ∧ y < 20 := by
    intro x y
    rw [InGrid, hcells]
    rfl
  have hcell : ∀ x y, sixUnits.cellAt x y = (y - 10) / 10 * 32 + (x - 10) / 10 := by
    intro x y
    rw [cellAt, hcells]
    rfl
  have hink : sixUnits.Inks sixUnitsFrame.caption 10 30 := by
    refine ⟨0, s!"Event ID: {0}", 0, 0, rfl, rfl, ?_, 0, 'E', 0x7f46161e16467f00, 0, rfl, rfl,
      rfl, ?_⟩
    · rw [hcells]
      rfl
    · decide
  have hused := (hin 10 10 ((hgrid 10 10).mpr (by decide))).1 1
    (by rw [hcell]; decide) (by rw [hcell]; decide)
  have hempty := (hin 45 15 ((hgrid 45 15).mpr (by decide))).2
    (by rw [hcell]; decide)
  have htext := (hout 10 30 (by rw [hsize]; decide) (by rw [hsize]; decide)
    (by rw [hgrid]; decide)).1 hink
  exact ⟨hunits, hfits, hwidth, hused, hempty, htext⟩

end Scene

end HeapReel
