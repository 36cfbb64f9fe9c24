/-
What the grid part of a frame shows.

A frame is put together in steps: the cells are drawn one pixel each, scaled, laid on an
empty canvas, written under, and brought onto the palette.  Followed pixel by pixel, a
position inside the square of cell `i` keeps the colour of that cell through all of them.
Scaling divides its coordinates by the side of a cell, laying adds the margin, the text
stands below the whole grid, and the palette holds every colour that a cell can have.
-/
import HeapReel.Frame
import HeapReel.Proofs.Grid
import HeapReel.Proofs.Indexed

namespace HeapReel

namespace Lettering

/-- Text inks nothing but the rows of its glyphs. -/
theorem row_of_mem_points {x y px py : Nat} {text : List Char}
    (h : (px, py) ∈ points x y text) : y ≤ py ∧ py < y + Font.glyphSize := by
  simp only [points, List.mem_flatMap] at h
  obtain ⟨⟨c, i⟩, -, hp⟩ := h
  split at hp
  · obtain ⟨⟨column, row⟩, hink, heq⟩ := List.mem_map.mp hp
    have hpy : y + row = py := congrArg Prod.snd heq
    have hrow := (Font.mem_ink.mp hink).2.1
    omega
  · simp at hp

theorem get?_draw_of_row {α : Type} {canvas : Raster α} {x y px py : Nat} {text : String}
    {ink : α} (h : py < y ∨ y + Font.glyphSize ≤ py) :
    (draw canvas x y text ink).get? px py = canvas.get? px py := by
  have hmem : (px, py) ∉ points x y text.toList := by
    intro hp
    have hrow := row_of_mem_points hp
    omega
  rw [draw, get?_foldl_set, if_neg hmem]

end Lettering

theorem Scheme.colorOf_mem_palette (s : Scheme) (state : CellState) :
    s.colorOf state ∈ s.palette.colors := by
  cases state <;> simp [colorOf, palette]

namespace Scene

variable {s : Scene}

/-! ### Text stays below the grid -/

theorem get?_drawLines_of_lt {gridHeight x y : Nat} (lines : List String)
    (canvas : Raster Color) (h : y < s.settings.margin * 2 + gridHeight) :
    (s.drawLines gridHeight lines canvas).get? x y = canvas.get? x y := by
  refine List.foldlRecOn lines.zipIdx _
    (motive := fun r : Raster Color => r.get? x y = canvas.get? x y) rfl ?_
  intro r hr line _
  have habove : y < s.settings.margin * 2 + gridHeight + s.settings.lineStep * line.2 :=
    Nat.lt_of_lt_of_le h (Nat.le_add_right _ _)
  exact (Lettering.get?_draw_of_row (Or.inl habove)).trans hr

/-! ### One cell, from the grid to the canvas -/

theorem get?_cells (hfits : s.grid.FitsWords) (u : Usage) {column row : Nat}
    (hcolumn : column < s.grid.columns) (hrow : row < s.grid.rows) :
    (s.cells u).get? column row
      = some (s.scheme.colorOf (s.stateAt u (row * s.grid.columns + column))) := by
  rw [cells, lowWord_of_lt hfits.1, lowWord_of_lt hfits.2, Raster.get?_ofFn,
    dif_pos ⟨hcolumn, hrow⟩]

/-- A pixel of the square that a cell becomes. -/
theorem get?_scale_cells (hfits : s.grid.FitsWords) (u : Usage) {column row dx dy : Nat}
    (hcolumn : column < s.grid.columns) (hrow : row < s.grid.rows)
    (hdx : dx < s.grid.cellSide) (hdy : dy < s.grid.cellSide) :
    ((s.cells u).scale s.grid.cellSide).get?
        (column * s.grid.cellSide + dx) (row * s.grid.cellSide + dy)
      = some (s.scheme.colorOf (s.stateAt u (row * s.grid.columns + column))) := by
  have hside : 0 < s.grid.cellSide := Nat.lt_of_le_of_lt (Nat.zero_le dx) hdx
  have hdiv : ∀ a {d : Nat}, d < s.grid.cellSide →
      (a * s.grid.cellSide + d) / s.grid.cellSide = a := by
    intro a d hd
    rw [Nat.mul_comm, Nat.mul_add_div hside, Nat.div_eq_of_lt hd, Nat.add_zero]
  rw [Raster.get?_scale hside, hdiv column hdx, hdiv row hdy, get?_cells hfits u hcolumn hrow]

theorem height_scale_cells (hfits : s.grid.FitsWords) (hside : 0 < s.grid.cellSide)
    (u : Usage) :
    ((s.cells u).scale s.grid.cellSide).height = s.grid.rows * s.grid.cellSide := by
  rw [Raster.height_scale hside, cells, Raster.height_ofFn, lowWord_of_lt hfits.2]

/-- The square of a cell lies in front of everything else that is drawn. -/
theorem get?_canvas (hfits : s.grid.FitsWords) (u : Usage) (lines : List String)
    {column row dx dy : Nat} (hcolumn : column < s.grid.columns) (hrow : row < s.grid.rows)
    (hdx : dx < s.grid.cellSide) (hdy : dy < s.grid.cellSide) :
    (s.canvas u lines).get? (s.settings.margin + (column * s.grid.cellSide + dx))
        (s.settings.margin + (row * s.grid.cellSide + dy))
      = some (s.scheme.colorOf (s.stateAt u (row * s.grid.columns + column))) := by
  have hside : 0 < s.grid.cellSide := Nat.lt_of_le_of_lt (Nat.zero_le dx) hdx
  have hx : column * s.grid.cellSide + dx < s.grid.columns * s.grid.cellSide := by
    rw [Nat.mul_comm s.grid.columns]
    exact Raster.cell_lt hdx hcolumn
  have hy : row * s.grid.cellSide + dy < s.grid.rows * s.grid.cellSide := by
    rw [Nat.mul_comm s.grid.rows]
    exact Raster.cell_lt hdy hrow
  have hsize : s.size = (s.grid.columns * s.grid.cellSide + s.settings.margin * 2,
      s.grid.rows * s.grid.cellSide + s.settings.margin * 3
        + s.settings.lineHeight * Settings.textLines
        + s.settings.lineGap * (Settings.textLines - 1)) := by
    rw [size, hfits.imageSize_eq]
  rw [canvas, get?_drawLines_of_lt _ _ (by rw [height_scale_cells hfits hside]; omega),
    backdrop, hsize]
  refine Raster.get?_overlay_of_some ?_ ?_ (get?_scale_cells hfits u hcolumn hrow hdx hdy)
  · rw [Raster.width_filled]
    omega
  · rw [Raster.height_filled]
    omega

/-- **Every pixel of a cell has the colour of what the cell shows.** -/
theorem color_render (hfits : s.grid.FitsWords) (u : Usage) (e : Event) (index : Nat)
    {column row dx dy : Nat} (hcolumn : column < s.grid.columns) (hrow : row < s.grid.rows)
    (hdx : dx < s.grid.cellSide) (hdy : dy < s.grid.cellSide) :
    (s.render u e index).image.color
        (s.settings.margin + (column * s.grid.cellSide + dx))
        (s.settings.margin + (row * s.grid.cellSide + dy))
      = .ok (s.scheme.colorOf (s.stateAt u (row * s.grid.columns + column))) :=
  Indexed.color_ofRaster (get?_canvas hfits u _ hcolumn hrow hdx hdy)
    (s.scheme.colorOf_mem_palette _)

/-! ### The size of a frame -/

theorem width_drawLines (gridHeight : Nat) (lines : List String) (canvas : Raster Color) :
    (s.drawLines gridHeight lines canvas).width = canvas.width := by
  refine List.foldlRecOn lines.zipIdx _
    (motive := fun r : Raster Color => r.width = canvas.width) rfl ?_
  intro r hr line _
  exact (Lettering.width_foldl_set _ _ _).trans hr

theorem height_drawLines (gridHeight : Nat) (lines : List String) (canvas : Raster Color) :
    (s.drawLines gridHeight lines canvas).height = canvas.height := by
  refine List.foldlRecOn lines.zipIdx _
    (motive := fun r : Raster Color => r.height = canvas.height) rfl ?_
  intro r hr line _
  exact (Lettering.height_foldl_set _ _ _).trans hr

theorem width_canvas (u : Usage) (lines : List String) : (s.canvas u lines).width = s.size.1 := by
  rw [canvas, width_drawLines, backdrop, Raster.width_overlay, Raster.width_filled]

theorem height_canvas (u : Usage) (lines : List String) :
    (s.canvas u lines).height = s.size.2 := by
  rw [canvas, height_drawLines, backdrop, Raster.height_overlay, Raster.height_filled]

/-- Every frame has the size of its scene. -/
theorem size_render {u : Usage} {e : Event} {index : Nat} :
    (s.render u e index).image.width = s.size.1
      ∧ (s.render u e index).image.height = s.size.2 := by
  rw [render, Indexed.width_ofRaster, Indexed.height_ofRaster, width_canvas, height_canvas]
  exact ⟨rfl, rfl⟩

end Scene

end HeapReel
