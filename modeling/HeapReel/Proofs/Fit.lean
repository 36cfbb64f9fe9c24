/-
The default settings leave room.

The width of a canvas goes up and down with the number of units: while the grid gets wider its
cells get smaller, in steps, until they are single pixels.  Two cases are enough all the same.
Either the cells have the largest side that the settings allow, and the grid is at least as wide
as the narrowest one with such cells; or one more pixel for each cell would have been too much for
the canvas, and then the grid takes more than half of it.  The default settings make both wide
enough for the longest line.

Their longest range has `2 ^ 32` units.  So no grid has more than `2 ^ 16` columns or rows, and
none of the numbers that describe a frame comes near the end of a word.
-/
import HeapReel.Proofs.Caption
import HeapReel.Proofs.Layout
import HeapReel.Proofs.Reel

namespace HeapReel

/-! ### How wide a grid is in pixels -/

namespace Grid

namespace Measures

variable {g : Grid} {units : Nat} {s : Settings}

theorem columns_le (h : g.Measures units s) {side : Nat} (hside : units ≤ side * side) :
    g.columns ≤ max 1 (max s.minColumns side) := by
  obtain ⟨root, hroot, hcolumns⟩ := h.columns_eq
  have hle : root ≤ side := hroot.2 hside
  omega

/-- With smaller cells than the largest, a grid takes more than half of the canvas. -/
theorem le_width (h : g.Measures units s) :
    s.minColumns * s.maxCellSide ≤ g.columns * g.cellSide
      ∨ s.maxCanvasWidth < 2 * (g.columns * g.cellSide) := by
  obtain ⟨root, -, hcolumns⟩ := h.columns_eq
  have hmin : s.minColumns ≤ g.columns := by omega
  by_cases hfit : ∃ side ≥ 1, g.SideFits s side
  · obtain ⟨⟨hmax, -⟩, hgreatest⟩ := h.cellSide_greatest hfit
    rcases Nat.eq_or_lt_of_le hmax with hlargest | hsmaller
    · exact .inl (hlargest ▸ Nat.mul_le_mul_right _ hmin)
    · refine .inr ?_
      obtain ⟨side, hpos, hside⟩ := hfit
      have hone : 1 ≤ g.cellSide := Nat.le_trans hpos (hgreatest hside)
      have hnext : ¬(g.cellSide + 1) * g.columns ≤ s.maxCanvasWidth := fun hcanvas =>
        Nat.not_succ_le_self _ (hgreatest ⟨hsmaller, hcanvas⟩)
      have hcells := Nat.mul_le_mul_left g.columns hone
      rw [Nat.succ_mul, Nat.mul_comm g.cellSide] at hnext
      omega
  · have hside := h.cellSide_eq_one hfit
    have hone : ¬(1 ≤ s.maxCellSide ∧ 1 * g.columns ≤ s.maxCanvasWidth) := fun hone =>
      hfit ⟨1, Nat.le_refl 1, hone⟩
    rcases Nat.eq_zero_or_pos s.maxCellSide with hzero | hpos
    · exact .inl (by simp [hzero])
    · rw [hside]
      omega

/-- No cell of more than one pixel makes the grid wider than the canvas. -/
theorem width_le (h : g.Measures units s) :
    g.columns * g.cellSide ≤ max s.maxCanvasWidth g.columns := by
  by_cases hfit : ∃ side ≥ 1, g.SideFits s side
  · obtain ⟨⟨-, hcanvas⟩, -⟩ := h.cellSide_greatest hfit
    rw [Nat.mul_comm]
    omega
  · rw [h.cellSide_eq_one hfit]
    omega

end Measures

/-- With the default settings, the sides of a grid are between 320 and `2 ^ 16` pixels. -/
theorem bounds_of_default {units : Nat} (hunits : units ≤ ({} : Settings).unitLimit) :
    320 ≤ (ofUnits units {}).columns * (ofUnits units {}).cellSide
      ∧ (ofUnits units {}).columns * (ofUnits units {}).cellSide ≤ 0x10000
      ∧ (ofUnits units {}).rows * (ofUnits units {}).cellSide ≤ 0x10000
      ∧ (ofUnits units {}).FitsWords := by
  have hmeasures := measures_ofUnits {} (Nat.le_trans hunits (by decide))
  have hsquare : units ≤ 0x10000 * 0x10000 := hunits
  have hcolumns : (ofUnits units {}).columns ≤ 0x10000 := hmeasures.columns_le hsquare
  have hrows := hmeasures.rows_le
  have hleast : 32 * 10 ≤ (ofUnits units {}).columns * (ofUnits units {}).cellSide
      ∨ 2048 < 2 * ((ofUnits units {}).columns * (ofUnits units {}).cellSide) :=
    hmeasures.le_width
  have hmost : (ofUnits units {}).columns * (ofUnits units {}).cellSide
      ≤ max 2048 (ofUnits units {}).columns := hmeasures.width_le
  have hheight := Nat.mul_le_mul_right (ofUnits units {}).cellSide hrows
  have hword : 0x10000 < UInt32.size := by decide
  refine ⟨by omega, by omega, by omega, ?_, ?_⟩ <;> omega

end Grid

/-! ### Numbers that words hold -/

namespace Scene

/-- No length and no position of the scene leaves its word. -/
structure InWords (s : Scene) : Prop where
  /-- Nothing is cut off when cells become pixels. -/
  imageSize_eq :
    s.grid.imageSize = (s.grid.columns * s.grid.cellSide, s.grid.rows * s.grid.cellSide)
  imageSize_lt : s.grid.imageSize.1 < UInt32.size ∧ s.grid.imageSize.2 < UInt32.size
  size_lt : s.size.1 < UInt32.size ∧ s.size.2 < UInt32.size
  lineCorner_lt : ∀ l < Settings.textLines,
    (s.lineCorner l).1 < UInt32.size ∧ (s.lineCorner l).2 + Font.glyphSize < UInt32.size
  /-- Cells are counted along the rows. -/
  cell_lt : ∀ x < s.grid.columns, ∀ y < s.grid.rows, y * s.grid.columns + x < UInt64.size
  pixel_lt : ∀ x < s.size.1, ∀ y < s.size.2, y * s.size.1 + x < UInt64.size

theorem index_lt {width height x y : Nat} (hwidth : width < UInt32.size)
    (hheight : height < UInt32.size) (hx : x < width) (hy : y < height) :
    y * width + x < UInt64.size := by
  have hcell := Raster.cell_lt hx hy
  have hcells : width * height ≤ UInt32.size * UInt32.size :=
    Nat.mul_le_mul (Nat.le_of_lt hwidth) (Nat.le_of_lt hheight)
  have hsizes : UInt32.size * UInt32.size = UInt64.size := rfl
  omega

variable {s : Scene}

theorem inWords_of_size_lt (hfits : s.grid.FitsWords) (hwidth : s.size.1 < UInt32.size)
    (hheight : s.size.2 < UInt32.size) (hglyph : Font.glyphSize ≤ s.settings.lineHeight) :
    s.InWords := by
  have hsize : s.size.1 = s.grid.imageSize.1 + s.settings.margin * 2 := rfl
  refine
    { imageSize_eq := hfits.imageSize_eq
      imageSize_lt := ?_
      size_lt := ⟨hwidth, hheight⟩
      lineCorner_lt := fun l hl => ?_
      cell_lt := fun x hx y hy => index_lt hfits.1 hfits.2 hx hy
      pixel_lt := fun x hx y hy => index_lt hwidth hheight hx hy }
  · have hbelow := height_le_of_lt (s := s) hglyph (l := 0) (by decide)
    have hcorner : (s.lineCorner 0).2 = s.settings.margin * 2 + s.grid.imageSize.2 := rfl
    omega
  · have hbelow := height_le_of_lt hglyph hl
    have hleft : (s.lineCorner l).1 = s.settings.margin := rfl
    omega

end Scene

/-! ### With the default settings -/

namespace Replay

variable {r : Replay} {x : Extent}

theorem size_scene_of_default (hdefault : r.settings = {}) :
    (r.scene x).size = ((r.scene x).grid.imageSize.1 + 20, (r.scene x).grid.imageSize.2 + 64) := by
  unfold scene
  rw [hdefault]
  rfl

/-- The canvas is within words, and has room for the longest line. -/
theorem scene_of_default (hdefault : r.settings = {}) (hunits : x.units ≤ r.settings.unitLimit) :
    (r.scene x).grid.FitsWords
      ∧ (r.scene x).InWords
      ∧ ∀ l < Settings.textLines, ∀ line : String, line.length ≤ longestLine →
          (r.scene x).Holds l line := by
  have hsize := size_scene_of_default (x := x) hdefault
  have hsettings : (r.scene x).settings = {} := hdefault
  have hgrid : (r.scene x).grid = Grid.ofUnits x.units {} := by
    rw [scene, hdefault]
  rw [hdefault] at hunits
  obtain ⟨hleast, hmost, hheight, hfits⟩ := Grid.bounds_of_default hunits
  rw [← hgrid] at hleast hmost hheight hfits
  rw [hfits.imageSize_eq] at hsize
  have hglyph : Font.glyphSize ≤ (r.scene x).settings.lineHeight := by
    rw [hsettings]
    decide
  have hword : 0x10000 + 64 < UInt32.size := by decide
  refine ⟨hfits, Scene.inWords_of_size_lt hfits ?_ ?_ hglyph, fun l hl line hline => ⟨?_, ?_⟩⟩
  · rw [hsize]
    omega
  · rw [hsize]
    omega
  · have hmargin : (r.scene x).settings.margin = 10 := congrArg Settings.margin hsettings
    have hleft : ((r.scene x).lineCorner l).1 = (r.scene x).settings.margin := rfl
    have hwidth : Lettering.width line ≤ longestLine * Font.glyphSize :=
      Nat.mul_le_mul_right _ hline
    have hlongest : longestLine * Font.glyphSize = 304 := rfl
    rw [hleft, hmargin, hsize]
    omega
  · exact Scene.height_le_of_lt hglyph hl

/--
**With the default settings every frame has room for its text.**

Take any replay with the default settings that starts, however long its range may then be and
wherever it lies.  The grid becomes as many pixels as its cells ask for, and no length and no
position of a frame leaves its word.  Each pull before the end brings a frame of that size.  If
its event has no negative size, each of its three lines lies inside the canvas, at least one
margin away from the edges on the right and below, and every pixel that a line has ink for is there
in the colour of the text.

The events are those of a log: their numbers are words, and so are their positions.
-/
theorem captions_fit (hdefault : r.settings = {}) (hwords : ∀ e ∈ r.events, e.FitsWords)
    (hcount : r.events.length ≤ UInt64.size) {reel : Reel} {notices : List Notice}
    (hstart : r.start = .ok (reel, notices)) {k : Nat} (hk : k < r.events.length) :
    ∃ (run : Run) (f : Frame),
      reel.run = some run
      ∧ run.scene.InWords
      ∧ reel.frameSize? = some run.scene.size
      ∧ (reel.after k).pull.frame = some f
      ∧ f.index = k
      ∧ r.events[k]? = some f.event
      ∧ f.image.width = run.scene.size.1
      ∧ f.image.height = run.scene.size.2
      ∧ f.caption.length = Settings.textLines
      ∧ (0 ≤ f.event.size → ∀ l line, f.caption[l]? = some line →
          run.scene.Holds l line ∧ f.Writes run.scene l line) := by
  have hne : r.events ≠ [] := List.ne_nil_of_length_pos (Nat.lt_of_le_of_lt (Nat.zero_le k) hk)
  obtain ⟨x, hx, rfl⟩ := reelAt_of_start hstart hne
  have hunits := units_le_of_start hstart (Extent.ofEvents?_eq_some_iff.mpr hx)
  obtain ⟨hfits, hinWords, hholds⟩ := scene_of_default hdefault hunits
  have he : r.events[k]? = some r.events[k] := List.getElem?_eq_getElem hk
  have hmem : r.events[k] ∈ r.events := List.getElem_mem hk
  have hsize : (r.frameAt x k r.events[k]).image.width = (r.scene x).size.1
      ∧ (r.frameAt x k r.events[k]).image.height = (r.scene x).size.2 := Scene.size_render
  refine ⟨_, r.frameAt x k r.events[k], rfl, hinWords, rfl, ?_, rfl, he, hsize.1, hsize.2, rfl, ?_⟩
  · rw [after_reelAt (Nat.le_of_lt hk), pull_reelAt he]
  · intro hnonneg l line hline
    rw [frameAt, Scene.caption_render] at hline
    rw [hdefault] at hunits
    have hlimit : ({} : Settings).unitLimit = 0x100000000 := rfl
    have husage : (r.usageAt x (k + 1)).size < UInt64.size := by
      rw [size_usageAt]
      exact Nat.lt_of_le_of_lt hunits (by decide)
    have hshort : r.events[k].size < 10 ^ 10 := by
      have := hx.size_le hmem
      omega
    have hl : l < Settings.textLines := (List.getElem?_eq_some_iff.mp hline).1
    have hlength := length_le_of_mem_caption (Nat.lt_of_lt_of_le hk hcount) husage
      (hwords _ hmem).1 hnonneg hshort (List.mem_of_getElem? hline)
    have hroom := hholds l hl line hlength
    have hside : 0 < (r.scene x).grid.cellSide := Grid.cellSide_pos x.units r.settings
    exact ⟨hroom, Scene.writes_render hfits hside hinWords.size_lt.1 hline hroom⟩

/-- One event, as long as a replay may be, at the lowest offset that there is. -/
def lowest : Replay where
  events := [⟨.alloc, -0x8000000000000000, 0x100000000⟩]

/-- Its label is the longest line there can be, and the frame shows all of it. -/
theorem captions_fit_lowest :
    lowest.settings = {}
      ∧ (∀ e ∈ lowest.events, e.FitsWords)
      ∧ lowest.events.length ≤ UInt64.size
      ∧ 0 < lowest.events.length
      ∧ ∃ reel notices run f,
        lowest.start = .ok (reel, notices)
        ∧ reel.run = some run
        ∧ reel.pull.frame = some f
        ∧ f.caption[2]? = some "alloc -0x8000000000000000 : 4294967296"
        ∧ "alloc -0x8000000000000000 : 4294967296".length = longestLine
        ∧ run.scene.Holds 2 "alloc -0x8000000000000000 : 4294967296"
        ∧ f.Writes run.scene 2 "alloc -0x8000000000000000 : 4294967296" := by
  have hdefault : lowest.settings = {} := rfl
  have hwords : ∀ e ∈ lowest.events, e.FitsWords := by
    intro e he
    rw [List.mem_singleton.mp he]
    exact ⟨by decide, by decide⟩
  have hcount : lowest.events.length ≤ UInt64.size := by decide
  have hk : 0 < lowest.events.length := by decide
  have hstart := start_of_extent (r := lowest)
    (x := ⟨-0x8000000000000000, -0x8000000000000000 + 0x100000000⟩) rfl (by decide)
  obtain ⟨run, f, hrun, -, -, hf, -, he, -, -, -, hlines⟩ :=
    captions_fit hdefault hwords hcount hstart hk
  have hevent : f.event = ⟨.alloc, -0x8000000000000000, 0x100000000⟩ :=
    (Option.some.inj he).symm
  have hline : f.caption[2]? = some "alloc -0x8000000000000000 : 4294967296" := by
    show some f.event.label = _
    rw [hevent]
    decide +kernel
  obtain ⟨hholds, hwrites⟩ := hlines (by rw [hevent]; decide) 2 _ hline
  exact ⟨hdefault, hwords, hcount, hk, _, _, run, f, hstart, hrun, hf, hline, rfl, hholds, hwrites⟩

end Replay

end HeapReel
