/-
The text under the grid, and the room for it.

Each of the three lines holds one or two numbers, and each number has a bound: the position of an
event is a word, a share is a hundred per cent at the most, an offset is a word with a sign, and a
size that is not negative ends within the range of the replay.  So no line takes more than
thirty-eight characters.  That is a fact about words and the longest range; no list of events
could be made to try it.

Where the canvas is wide enough for a line, nothing of the line is lost: its ink lies on the
canvas and below the grid, and whatever is drawn later there is ink as well.
-/
import HeapReel.Proofs.Canvas
import HeapReel.Proofs.Cropping
import HeapReel.Proofs.Decimal

namespace HeapReel

/-! ### How long a line is -/

namespace Numeral

theorem length_decimal_le {i : Int} {places : Nat} (hpos : 0 < places) (hnonneg : 0 ≤ i)
    (hlt : i < 10 ^ places) : (decimal i).length ≤ places := by
  have hnat : i.natAbs < 10 ^ places := by
    rw [← Int.ofNat_lt, Int.natAbs_of_nonneg hnonneg, Int.natCast_pow]
    exact hlt
  rw [decimal, if_neg (Int.not_lt.mpr hnonneg)]
  exact Nat.toDigits_length 10 i.natAbs places hpos hnat

theorem length_hexadecimal_le {n least most : Nat} (hle : least ≤ most) (hpos : 0 < most)
    (hlt : n < 16 ^ most) : (hexadecimal least n).length ≤ most := by
  rw [hexadecimal, List.length_leftpad]
  exact Nat.max_le.mpr ⟨hle, Nat.toDigits_length 16 n most hpos hlt⟩

end Numeral

/-- No line under a grid is longer than this. -/
def longestLine : Nat := 38

theorem Action.length_name_le (a : Action) : a.name.toList.length ≤ 5 := by
  cases a <;> decide

/-- Sixteen digits hold every offset, and ten every size that a replay can have. -/
theorem Event.length_label_le {e : Event} (hoffset : Numeral.FitsWord e.offset)
    (hnonneg : 0 ≤ e.size) (hsize : e.size < 10 ^ 10) : e.label.length ≤ longestLine := by
  have hname := e.action.length_name_le
  have hsign : (if e.offset < 0 then ['-'] else []).length ≤ 1 := by
    split <;> decide
  have hhex : (Numeral.hexadecimal 8 e.offset.natAbs).length ≤ 16 := by
    obtain ⟨hlo, hhi⟩ := hoffset
    refine Numeral.length_hexadecimal_le (by decide) (by decide) ?_
    have hword : 16 ^ 16 = 2 * 0x8000000000000000 := by decide
    omega
  have hdecimal := Numeral.length_decimal_le (by decide) hnonneg hsize
  simp only [label, String.length_ofList, List.length_append, List.length_cons, List.length_nil,
    List.length_rightpad, longestLine]
  omega

theorem length_number_le {index : Nat} (hindex : index < UInt64.size) :
    (s!"Event ID: {index}").length ≤ longestLine := by
  have hdigits : index.repr.length ≤ 20 :=
    Nat.repr_length index 20 (by decide) (Nat.lt_trans hindex (by decide))
  have hlength : (s!"Event ID: {index}").length = 10 + index.repr.length := by
    show ("Event ID: " ++ index.repr).length = _
    rw [String.length_append]
    rfl
  rw [hlength, longestLine]
  omega

theorem length_share_le {part whole : Nat} (hle : part ≤ whole) (hwhole : whole < UInt64.size) :
    ("Free: " ++ Decimal.percent (.share part whole)).length ≤ longestLine := by
  have hpercent := Decimal.length_percent_share_le hle hwhole
  have hname : "Free: ".length = 6 := rfl
  rw [String.length_append, hname, longestLine]
  omega

/-- **No line is longer than the longest.** -/
theorem length_le_of_mem_caption {u : Usage} {e : Event} {index : Nat}
    (hindex : index < UInt64.size) (husage : u.size < UInt64.size)
    (hoffset : Numeral.FitsWord e.offset) (hnonneg : 0 ≤ e.size) (hsize : e.size < 10 ^ 10)
    {line : String} (hline : line ∈ caption index u.freeShare e) : line.length ≤ longestLine := by
  have hfree : u.freeCount ≤ u.size := Array.countP_le_size
  simp only [caption, List.mem_cons, List.not_mem_nil, or_false] at hline
  rcases hline with rfl | rfl | rfl
  · exact length_number_le hindex
  · exact length_share_le hfree husage
  · exact Event.length_label_le hoffset hnonneg hsize

/-! ### What there is room for -/

namespace Scene

/-- The corner of line `l`. -/
def lineCorner (s : Scene) (l : Nat) : Nat × Nat :=
  s.textCorner s.grid.imageSize.2 l

/-- Line `l` lies inside the canvas, clear of the margins. -/
structure Holds (s : Scene) (l : Nat) (line : String) : Prop where
  width_le : (s.lineCorner l).1 + Lettering.width line + s.settings.margin ≤ s.size.1
  height_le : (s.lineCorner l).2 + Font.glyphSize + s.settings.margin ≤ s.size.2

variable {s : Scene}

/-- Below the grid there is room for the glyphs of all lines. -/
theorem height_le_of_lt (hglyph : Font.glyphSize ≤ s.settings.lineHeight) {l : Nat}
    (hl : l < Settings.textLines) :
    (s.lineCorner l).2 + Font.glyphSize + s.settings.margin ≤ s.size.2 := by
  have hstep : s.settings.lineStep * l ≤ s.settings.lineStep * 2 :=
    Nat.mul_le_mul_left _ (Nat.le_of_lt_succ hl)
  have hheight : s.size.2 = s.grid.imageSize.2 + s.settings.margin * 3
      + s.settings.lineHeight * 3 + s.settings.lineGap * 2 := rfl
  have hcorner : (s.lineCorner l).2
      = s.settings.margin * 2 + s.grid.imageSize.2 + s.settings.lineStep * l := rfl
  have hlines : s.settings.lineStep = s.settings.lineHeight + s.settings.lineGap := rfl
  omega

end Scene

/-- Everything that line `l` has ink for is on the frame, in the colour of the text. -/
def Frame.Writes (f : Frame) (s : Scene) (l : Nat) (line : String) : Prop :=
  ∀ px py : Int, Lettering.InksAt line.toList (s.lineCorner l).1 (s.lineCorner l).2 px py →
    ∃ x y : Nat, px = x ∧ py = y ∧ x < f.image.width ∧ y < f.image.height
      ∧ f.image.color x y = .ok s.scheme.text

namespace Scene

variable {s : Scene}

theorem caption_render (u : Usage) (e : Event) (index : Nat) :
    (s.render u e index).caption = caption index u.freeShare e := rfl

/-- **A frame shows the whole of each line that it has room for.** -/
theorem writes_render (hfits : s.grid.FitsWords) (hside : 0 < s.grid.cellSide)
    (hwidth : s.size.1 < UInt32.size) {u : Usage} {e : Event} {index l : Nat} {line : String}
    (hline : (caption index u.freeShare e)[l]? = some line) (hholds : s.Holds l line) :
    (s.render u e index).Writes s l line := by
  intro px py hinks
  obtain ⟨hleft, hright, habove, hbelow⟩ := hinks.mem_box
  obtain ⟨hroom, hlow⟩ := hholds
  rw [String.length_toList] at hright
  have hcornerLeft : (s.lineCorner l).1 = s.settings.margin := rfl
  have hcornerAbove : (s.lineCorner l).2
      = s.settings.margin * 2 + s.grid.imageSize.2 + s.settings.lineStep * l := rfl
  have htext : Lettering.width line = Font.glyphSize * line.length := Nat.mul_comm _ _
  obtain ⟨x, rfl⟩ := Int.eq_ofNat_of_zero_le (a := px) (by omega)
  obtain ⟨y, rfl⟩ := Int.eq_ofNat_of_zero_le (a := py) (by omega)
  have hx : x < s.size.1 := by omega
  have hy : y < s.size.2 := by omega
  have hgrid : s.grid.imageSize.2 = s.grid.rows * s.grid.cellSide :=
    congrArg Prod.snd hfits.imageSize_eq
  have hout : ¬s.InGrid x y := by
    rintro ⟨-, -, -, hcells⟩
    omega
  have hink : s.Inks (caption index u.freeShare e) x y := by
    obtain ⟨dx, dy, hdx, hdy, hat⟩ := Lettering.inksAt_iff.mp hinks
    refine ⟨l, line, dx, dy, hline, hdx, ?_, hat⟩
    rw [hdy, hcornerAbove, hgrid, Settings.lineStep, Nat.mul_comm l]
  have hcanvas := (get?_canvas_of_not_inGrid u _ hfits hside hwidth hx hy hout).1 hink
  exact ⟨x, y, rfl, rfl, size_render.1.symm ▸ hx, size_render.2.symm ▸ hy,
    Indexed.color_ofRaster hcanvas s.scheme.text_mem_palette⟩

end Scene

end HeapReel
