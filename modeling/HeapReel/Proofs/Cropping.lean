/-
Text at the edge of a canvas.

A canvas without edges would show every glyph whole.  Drawing on a real one shows the part of that
which lies inside, whatever the corner of the text and however long it is.  `InksAt` is the canvas
without edges: it counts in integers, knows no last column and cuts nothing off.

The image is not drawn that way.  A pen goes from character to character and stops at the last
column that a word can name; a glyph is left at the first of its rows that is below the canvas; and
pixels beside the canvas are skipped one by one.  `penDraw` does just that, and it leaves the same
canvas.  The stopped pen does no harm, because no canvas is wide enough to have the last column;
leaving a glyph early does none, because its later rows are below the canvas too.
-/
import HeapReel.Proofs.Lettering
import HeapReel.Proofs.Raster
import Mathlib.Data.List.Basic

namespace HeapReel.Lettering

variable {α : Type}

/-! ### A canvas without edges -/

/-- On a canvas without edges, a text with its corner at `(x, y)` has ink at `(px, py)`. -/
def InksAt (text : List Char) (x y px py : Int) : Prop :=
  ∃ (i : Nat) (c : Char) (glyph column row : Nat),
    text[i]? = some c
    ∧ Font.glyph? c = some glyph
    ∧ px - x - Font.glyphSize * i = column ∧ column < Font.glyphSize
    ∧ py - y = row ∧ row < Font.glyphSize
    ∧ Font.isInked glyph column row = true

theorem inksAt_iff {text : List Char} {x y px py : Nat} :
    InksAt text x y px py ↔ ∃ dx dy, px = x + dx ∧ py = y + dy ∧ Inks text dx dy := by
  constructor
  · rintro ⟨i, c, glyph, column, row, hc, hglyph, hx, hcolumn, hy, hrow, hink⟩
    refine ⟨Font.glyphSize * i + column, row, by omega, by omega, i, c, glyph, column, hc, hglyph,
      rfl, ?_⟩
    exact Font.mem_ink.mpr ⟨hcolumn, hrow, hink⟩
  · rintro ⟨dx, dy, rfl, rfl, i, c, glyph, column, hc, hglyph, rfl, hink⟩
    obtain ⟨hcolumn, hrow, hink⟩ := Font.mem_ink.mp hink
    exact ⟨i, c, glyph, column, dy, hc, hglyph, by omega, hcolumn, by omega, hrow, hink⟩

/-- Nothing has ink outside the box of the text. -/
theorem InksAt.mem_box {text : List Char} {x y px py : Int} (h : InksAt text x y px py) :
    x ≤ px ∧ px < x + Font.glyphSize * text.length ∧ y ≤ py ∧ py < y + Font.glyphSize := by
  obtain ⟨i, c, glyph, column, row, hc, -, hx, hcolumn, hy, hrow, -⟩ := h
  obtain ⟨hi, -⟩ := List.getElem?_eq_some_iff.mp hc
  have hbox := Nat.mul_le_mul_left Font.glyphSize (Nat.succ_le_of_lt hi)
  rw [Nat.mul_succ] at hbox
  omega

/-- Inside a canvas, drawing sets the pixels that have ink and no others. -/
theorem get?_draw {canvas : Raster α} (hwidth : canvas.width < UInt32.size) (x y : Nat)
    (text : String) (ink : α) (px py : Nat) :
    (InksAt text.toList x y px py →
        (draw canvas x y text ink).get? px py = (canvas.get? px py).map fun _ => ink)
      ∧ (¬InksAt text.toList x y px py →
        (draw canvas x y text ink).get? px py = canvas.get? px py) := by
  by_cases hin : px < canvas.width
  · have hcolumn : px < lastColumn := by
      unfold lastColumn
      omega
    rw [draw, get?_foldl_set, inksAt_iff, ← mem_points_iff hcolumn]
    exact ⟨fun hinks => if_pos hinks, fun hblank => if_neg hblank⟩
  · have hnone : canvas.get? px py = none := Raster.get?_eq_none fun h => hin h.1
    have hnone' : (draw canvas x y text ink).get? px py = none :=
      Raster.get?_eq_none fun h => hin (by simpa [draw] using h.1)
    rw [hnone, hnone']
    exact ⟨fun _ => rfl, fun _ => rfl⟩

/-! ### With a pen -/

/-- A row of a glyph, its left end at the pen; columns past the canvas are skipped. -/
def penRow (canvas : Raster α) (pen y glyph row : Nat) (ink : α) : Raster α :=
  (List.range Font.glyphSize).foldl
    (fun r column =>
      if Font.isInked glyph column row ∧ columnAfter pen column < r.width then
        r.set (columnAfter pen column) (y + row) ink
      else r)
    canvas

/-- Rows of a glyph from the top; the first that is below the canvas ends the glyph. -/
def penRows (canvas : Raster α) (pen y glyph : Nat) (ink : α) : List Nat → Raster α
  | [] => canvas
  | row :: rows =>
      if canvas.height ≤ y + row then canvas
      else penRows (penRow canvas pen y glyph row ink) pen y glyph ink rows

/-- A glyph, if the character has one. -/
def penGlyph (canvas : Raster α) (pen y : Nat) (c : Char) (ink : α) : Raster α :=
  match Font.glyph? c with
  | some glyph => penRows canvas pen y glyph ink (List.range Font.glyphSize)
  | none => canvas

/-- A text, the pen moving on by a glyph after each character. -/
def penDraw (canvas : Raster α) (pen y : Nat) (ink : α) : List Char → Raster α
  | [] => canvas
  | c :: text =>
      penDraw (penGlyph canvas pen y c ink) (columnAfter pen Font.glyphSize) y ink text

/-- The positions that a row of a glyph inks. -/
def rowPoints (pen y glyph row : Nat) : List (Nat × Nat) :=
  (List.range Font.glyphSize).filterMap fun column =>
    if Font.isInked glyph column row then some (columnAfter pen column, y + row) else none

/-- The positions that a character inks. -/
def glyphPoints (pen y : Nat) (c : Char) : List (Nat × Nat) :=
  match Font.glyph? c with
  | some glyph => (List.range Font.glyphSize).flatMap (rowPoints pen y glyph)
  | none => []

theorem foldl_set_of_height_le {ps : List (Nat × Nat)} {r : Raster α} (ink : α)
    (h : ∀ p ∈ ps, r.height ≤ p.2) : ps.foldl (fun r p => r.set p.1 p.2 ink) r = r := by
  induction ps with
  | nil => rfl
  | cons p ps ih =>
      have hout : ¬(p.1 < r.width ∧ p.2 < r.height) := fun hin =>
        Nat.not_lt.mpr (h p List.mem_cons_self) hin.2
      rw [List.foldl_cons, Raster.set_of_not_lt hout]
      exact ih fun q hq => h q (List.mem_cons_of_mem p hq)

theorem penRow_eq (canvas : Raster α) (pen y glyph row : Nat) (ink : α) :
    penRow canvas pen y glyph row ink
      = (rowPoints pen y glyph row).foldl (fun r p => r.set p.1 p.2 ink) canvas := by
  rw [penRow, rowPoints, List.foldl_filterMap]
  refine List.foldl_ext _ _ _ fun r column _ => ?_
  by_cases hink : Font.isInked glyph column row = true
  · by_cases hin : columnAfter pen column < r.width
    · simp [hink, hin]
    · simp [hink, hin, Raster.set_of_not_lt fun h => hin h.1]
  · simp [hink]

theorem le_of_mem_rowPoints {pen y glyph row : Nat} {p : Nat × Nat}
    (hp : p ∈ rowPoints pen y glyph row) : y + row ≤ p.2 := by
  obtain ⟨column, -, hcolumn⟩ := List.mem_filterMap.mp hp
  obtain ⟨-, hp⟩ := Option.ite_none_right_eq_some.mp hcolumn
  exact Nat.le_of_eq (congrArg Prod.snd (Option.some.inj hp))

/-- The rows after the first that is below the canvas are below it too. -/
theorem penRows_eq (canvas : Raster α) (pen y glyph : Nat) (ink : α) {rows : List Nat}
    (hrows : rows.Pairwise (· < ·)) :
    penRows canvas pen y glyph ink rows
      = (rows.flatMap (rowPoints pen y glyph)).foldl (fun r p => r.set p.1 p.2 ink) canvas := by
  induction rows generalizing canvas with
  | nil => rfl
  | cons row rows ih =>
      obtain ⟨hlater, hrows⟩ := List.pairwise_cons.mp hrows
      rw [penRows]
      split
      · rename_i hbelow
        refine (foldl_set_of_height_le ink fun p hp => ?_).symm
        obtain ⟨row', hrow', hp⟩ := List.mem_flatMap.mp hp
        have hle : row ≤ row' := by
          rcases List.mem_cons.mp hrow' with rfl | hmem
          · exact Nat.le_refl _
          · exact Nat.le_of_lt (hlater row' hmem)
        have := le_of_mem_rowPoints hp
        omega
      · rw [ih _ hrows, penRow_eq, List.flatMap_cons, List.foldl_append]

theorem penGlyph_eq (canvas : Raster α) (pen y : Nat) (c : Char) (ink : α) :
    penGlyph canvas pen y c ink
      = (glyphPoints pen y c).foldl (fun r p => r.set p.1 p.2 ink) canvas := by
  unfold penGlyph glyphPoints
  split
  · exact penRows_eq canvas pen y _ ink List.pairwise_lt_range
  · rfl

/-- A pen that has stopped stays where it is. -/
theorem columnAfter_columnAfter (x a b : Nat) :
    columnAfter (columnAfter x a) b = columnAfter x (a + b) := by
  unfold columnAfter
  omega

theorem map_ink (pen y glyph : Nat) :
    (Font.ink glyph).map (fun (column, row) => (columnAfter pen column, y + row))
      = (List.range Font.glyphSize).flatMap (rowPoints pen y glyph) := by
  rw [Font.ink, List.map_flatMap]
  refine congrArg (List.flatMap · _) (funext fun row => ?_)
  rw [rowPoints, List.map_filterMap]
  refine congrArg (List.filterMap · _) (funext fun column => ?_)
  split <;> rfl

theorem points_eq (x y : Nat) (text : List Char) :
    points x y text
      = text.zipIdx.flatMap fun p => glyphPoints (columnAfter x (Font.glyphSize * p.2)) y p.1 := by
  rw [points]
  refine congrArg (List.flatMap · _) (funext fun p => ?_)
  obtain ⟨c, i⟩ := p
  dsimp only [glyphPoints]
  cases Font.glyph? c with
  | none => rfl
  | some glyph => exact map_ink _ y glyph

theorem glyphPoints_columnAfter_zero (x y : Nat) (c : Char) :
    glyphPoints (columnAfter x 0) y c = glyphPoints x y c := by
  have hrow : rowPoints (columnAfter x 0) y = rowPoints x y := by
    funext glyph row
    simp only [rowPoints, columnAfter_columnAfter, Nat.zero_add]
  rw [glyphPoints, hrow, glyphPoints]

/-- The rest of a text is drawn from where the pen is after the first character. -/
theorem points_cons (x y : Nat) (c : Char) (text : List Char) :
    points x y (c :: text) = glyphPoints x y c ++ points (columnAfter x Font.glyphSize) y text := by
  rw [points_eq, points_eq, List.zipIdx_cons, List.flatMap_cons, List.zipIdx_succ,
    List.flatMap_map]
  refine congrArg₂ (· ++ ·) (glyphPoints_columnAfter_zero x y c) ?_
  refine congrArg (List.flatMap · _) (funext fun p => ?_)
  show glyphPoints (columnAfter x (Font.glyphSize * (p.2 + 1))) y p.1
    = glyphPoints (columnAfter (columnAfter x Font.glyphSize) (Font.glyphSize * p.2)) y p.1
  rw [columnAfter_columnAfter, Nat.mul_succ, Nat.add_comm]

/-- **Drawing with a pen leaves the same canvas.** -/
theorem penDraw_eq (canvas : Raster α) (x y : Nat) (ink : α) (text : List Char) :
    penDraw canvas x y ink text
      = (points x y text).foldl (fun r p => r.set p.1 p.2 ink) canvas := by
  induction text generalizing canvas x with
  | nil => rfl
  | cons c text ih => rw [penDraw, ih, points_cons, List.foldl_append, penGlyph_eq]

theorem lt_of_mem_points {x y : Nat} {text : List Char} {p : Nat × Nat}
    (hp : p ∈ points x y text) : p.1 ≤ lastColumn ∧ p.2 < y + Font.glyphSize := by
  obtain ⟨i, c, glyph, column, row, -, -, hink, hcolumn, hrow⟩ := mem_points.mp hp
  have := (Font.mem_ink.mp hink).2.1
  unfold columnAfter at hcolumn
  omega

/--
**A text is drawn as on a canvas without edges, and cropped.**

The canvas keeps its size.  A pixel of it is set exactly if the text has ink there, and every
other pixel is as it was; so is all that lies outside the box of the text.  The same text on a
larger canvas looks the same where the two canvases overlap.  Drawing with a pen that stops at the
last column, and leaving out what is beside or below the canvas, makes no difference.

Any place will do for the corner of the text, also outside the canvas.  The width of the canvas is
a word, and as long as the last row of the text is one, no position that is drawn leaves its word.
-/
theorem drawn_as_cropped {canvas : Raster α} (hwidth : canvas.width < UInt32.size) (x y : Nat)
    (text : String) (ink : α) :
    (draw canvas x y text ink).width = canvas.width
      ∧ (draw canvas x y text ink).height = canvas.height
      ∧ (∀ px py, px < canvas.width → py < canvas.height →
          (InksAt text.toList x y px py → (draw canvas x y text ink).get? px py = some ink)
          ∧ (¬InksAt text.toList x y px py →
            (draw canvas x y text ink).get? px py = canvas.get? px py))
      ∧ (∀ px py,
          px < x ∨ x + Font.glyphSize * text.length ≤ px ∨ py < y ∨ y + Font.glyphSize ≤ py →
          (draw canvas x y text ink).get? px py = canvas.get? px py)
      ∧ (∀ large : Raster α, large.width < UInt32.size →
          (∀ px < canvas.width, ∀ py < canvas.height, large.get? px py = canvas.get? px py) →
          ∀ px < canvas.width, ∀ py < canvas.height,
            (draw large x y text ink).get? px py = (draw canvas x y text ink).get? px py)
      ∧ penDraw canvas x y ink text.toList = draw canvas x y text ink
      ∧ (y + 7 < UInt32.size →
          ∀ p ∈ points x y text.toList, p.1 < UInt32.size ∧ p.2 < UInt32.size) := by
  refine ⟨width_foldl_set _ _ _, height_foldl_set _ _ _, ?_, ?_, ?_, penDraw_eq _ _ _ _ _, ?_⟩
  · intro px py hpx hpy
    obtain ⟨hset, hkept⟩ := get?_draw hwidth x y text ink px py
    refine ⟨fun hinks => ?_, hkept⟩
    rw [hset hinks, Raster.get?_of_lt hpx hpy, Option.map_some]
  · intro px py hout
    refine (get?_draw hwidth x y text ink px py).2 fun hinks => ?_
    have hbox := hinks.mem_box
    rw [String.length_toList] at hbox
    omega
  · intro large hlarge hsame px hpx py hpy
    obtain ⟨hset, hkept⟩ := get?_draw hwidth x y text ink px py
    obtain ⟨hset', hkept'⟩ := get?_draw hlarge x y text ink px py
    by_cases hinks : InksAt text.toList x y px py
    · rw [hset hinks, hset' hinks, hsame px hpx py hpy]
    · rw [hkept hinks, hkept' hinks, hsame px hpx py hpy]
  · intro hy p hp
    obtain ⟨hcolumn, hrow⟩ := lt_of_mem_points hp
    unfold lastColumn at hcolumn
    unfold Font.glyphSize at hrow
    have hsize : 0 < UInt32.size := by decide
    omega

/-- Two letters that stick out on the right and below leave ink at the third column of the first.
From just before the last column they leave none, not even at the left edge. -/
theorem drawn_as_cropped_corner :
    (Raster.filled 12 5 false).width < UInt32.size
      ∧ (draw (Raster.filled 12 5 false) 6 2 "AZ" true).get? 8 2 = some true
      ∧ (draw (Raster.filled 12 5 false) 0xfffffffe 2 "AZ" true).get? 0 2 = some false := by
  have hwidth : (Raster.filled 12 5 false).width < UInt32.size := by decide
  obtain ⟨-, -, hpixels, -⟩ := drawn_as_cropped hwidth 6 2 "AZ" true
  obtain ⟨-, -, -, hbox, -⟩ := drawn_as_cropped hwidth 0xfffffffe 2 "AZ" true
  have hinks : InksAt "AZ".toList (6 : Nat) (2 : Nat) (8 : Nat) (2 : Nat) :=
    ⟨0, 'A', 0x0c1e33333f333300, 2, 0, rfl, rfl, rfl, by decide, rfl, by decide, by decide⟩
  have hkept := hbox 0 2 (.inl (by decide))
  rw [Raster.get?_filled (by decide) (by decide)] at hkept
  exact ⟨hwidth, (hpixels 8 2 (by decide) (by decide)).1 hinks, hkept⟩

end HeapReel.Lettering
