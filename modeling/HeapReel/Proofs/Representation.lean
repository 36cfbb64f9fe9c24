/-
What an image is on its palette.

The entry that represents a pixel is given here without a search and without a memory: no other
entry is less distant from the colour of the pixel, and every earlier one is more distant.  Only
one entry is so, whatever the palette repeats and whatever colours lie half way between two of
its own.

A colour of the palette is represented by its first occurrence, which has the same colour.  The
entry of a pixel is then the entry of its own colour too, and an image that has been brought onto
a palette stays as it is when it is brought there again.
-/
import HeapReel.Proofs.Indexed

namespace HeapReel

/-- The square of the distance of two colours: the sum of the squares of their differences in
red, green and blue. -/
def Color.squaredDistance (a b : Color) : Int :=
  let red : Int := a.red.toNat - b.red.toNat
  let green : Int := a.green.toNat - b.green.toNat
  let blue : Int := a.blue.toNat - b.blue.toNat
  red * red + green * green + blue * blue

theorem Color.natCast_distance (a b : Color) : (a.distance b : Int) = a.squaredDistance b := by
  simp only [distance, channelDistance, squaredDistance, Int.natCast_add, Int.natAbs_mul_self]

namespace Palette

variable {p : Palette} {c : Color} {i j : p.Index}

/-- Entry `i` is the first of those that are least distant from the colour. -/
structure Represents (p : Palette) (i : p.Index) (c : Color) : Prop where
  least : ∀ j : p.Index, c.squaredDistance (p.colorAt i) ≤ c.squaredDistance (p.colorAt j)
  first : ∀ j : p.Index, j < i →
    c.squaredDistance (p.colorAt i) < c.squaredDistance (p.colorAt j)

theorem represents_iff : p.Represents i c ↔ p.nearest c = i := by
  rw [nearest_eq_iff]
  constructor
  · intro h
    refine ⟨fun j => ?_, fun j hj => ?_⟩
    · exact Int.ofNat_le.mp (by simpa only [Color.natCast_distance] using h.least j)
    · exact Int.ofNat_lt.mp (by simpa only [Color.natCast_distance] using h.first j hj)
  · rintro ⟨hleast, hfirst⟩
    refine ⟨fun j => ?_, fun j hj => ?_⟩
    · simpa only [Color.natCast_distance] using Int.ofNat_le.mpr (hleast j)
    · simpa only [Color.natCast_distance] using Int.ofNat_lt.mpr (hfirst j hj)

namespace Represents

/-- No earlier entry has the colour of the entry that represents a colour. -/
theorem colorAt_ne (h : p.Represents i c) (hj : j < i) : p.colorAt j ≠ p.colorAt i := by
  intro heq
  have hlt := h.first j hj
  rw [heq] at hlt
  exact absurd hlt (Int.lt_irrefl _)

/-- It represents its own colour as well. -/
theorem nearest_colorAt (h : p.Represents i c) : p.nearest (p.colorAt i) = i :=
  nearest_eq_of_first rfl fun _ => h.colorAt_ne

/-- A colour of the palette is represented by itself. -/
theorem colorAt_eq (h : p.Represents i c) (hc : c ∈ p.colors) : p.colorAt i = c := by
  rw [← represents_iff.mp h]
  exact colorAt_nearest hc

end Represents

theorem represents_nearest (p : Palette) (c : Color) : p.Represents (p.nearest c) c :=
  represents_iff.mpr rfl

theorem nearest_colorAt_nearest (p : Palette) (c : Color) :
    p.nearest (p.colorAt (p.nearest c)) = p.nearest c :=
  (p.represents_nearest c).nearest_colorAt

/-- Colours whose number is allowed are a palette. -/
theorem ofColors?_eq {colors : Array Color} (hpos : 0 < colors.size) (hle : colors.size ≤ 256) :
    ofColors? colors = some ⟨colors, hpos, hle⟩ :=
  dif_pos ⟨hpos, hle⟩

end Palette

namespace Indexed

variable {image : Raster Color} {p : Palette} {x y : Nat} {c : Color}

/-! ### One pixel -/

theorem get?_ofRaster (h : image.get? x y = some c) :
    (ofRaster image p).pixels.get? x y = some (p.nearest c) := by
  have hnearest : (image.map p.nearest).get? x y = some (p.nearest c) := by
    rw [Raster.get?_map, h, Option.map_some]
  exact (congrArg (fun r : Raster p.Index => r.get? x y) (pixels_ofRaster image p)).trans hnearest

theorem color_eq_of_get? {image : Indexed} {i : image.palette.Index}
    (h : image.pixels.get? x y = some i) : image.color x y = .ok (image.colorOf i) := by
  rw [color, h]

theorem get?_painted {image : Indexed} {i : image.palette.Index}
    (h : image.pixels.get? x y = some i) :
    image.painted.get? x y = some (image.colorOf i).solid := by
  rw [painted, expand, Raster.get?_map, Raster.get?_map, h, Option.map_some, Option.map_some]

theorem color_eq_error (image : Indexed) (h : ¬(x < image.width ∧ y < image.height)) :
    image.color x y = .error (.outside x y) := by
  rw [color, Raster.get?_eq_none h]

/-! ### The whole image -/

/-- Paint shows the colours of the image. -/
theorem map_color_painted (image : Indexed) : image.painted.map Paint.color = image.expand := by
  have hcolor : Paint.color ∘ Color.solid = id := rfl
  rw [painted, Raster.map_map, hcolor, Raster.map_id]

theorem expand_ofRaster (image : Raster Color) (p : Palette) :
    (ofRaster image p).expand = image.map (p.colorAt ∘ p.nearest) := by
  have hcolors : (ofRaster image p).expand = (ofRaster image p).pixels.map p.colorAt := rfl
  rw [hcolors, pixels_ofRaster, Raster.map_map]

theorem ofRaster_expand (image : Raster Color) (p : Palette) :
    ofRaster (ofRaster image p).expand p = ofRaster image p := by
  have hnearest : p.nearest ∘ p.colorAt ∘ p.nearest = p.nearest :=
    funext p.nearest_colorAt_nearest
  rw [expand_ofRaster, ofRaster_eq, ofRaster_eq, Raster.map_map, hnearest]

/--
**Each pixel is represented by the first of the entries that are least distant from it.**

Any number of colours from 1 to 256 is a palette, and repeated colours make no difference.  An
image of any size keeps its size on it, and the entry of a pixel depends on the colour of the
pixel alone.  It is an entry of the palette, so every position inside has a colour and its solid
paint; positions outside have none.  A pixel in a colour of the palette keeps that colour through
its first occurrence.  Once on the palette, the image does not change when it is brought there
again.
-/
theorem pixels_represented {colors : Array Color} (hpos : 0 < colors.size)
    (hle : colors.size ≤ 256) :
    ∃ p : Palette, Palette.ofColors? colors = some p ∧ p.colors = colors
      ∧ ∀ image : Raster Color,
        (ofRaster image p).palette = p
        ∧ (ofRaster image p).width = image.width
        ∧ (ofRaster image p).height = image.height
        ∧ (ofRaster image p).painted.width = image.width
        ∧ (ofRaster image p).painted.height = image.height
        ∧ (∀ x < image.width, ∀ y < image.height, ∃ (c : Color) (i : p.Index),
            image.get? x y = some c
            ∧ (ofRaster image p).pixels.get? x y = some i
            ∧ i.val < colors.size
            ∧ p.Represents i c
            ∧ (∀ j, p.Represents j c → j = i)
            ∧ (c ∈ colors → p.colorAt i = c ∧ ∀ j : p.Index, j < i → p.colorAt j ≠ c)
            ∧ (ofRaster image p).color x y = .ok (p.colorAt i)
            ∧ (ofRaster image p).painted.get? x y = some ⟨p.colorAt i, 255⟩)
        ∧ (∀ x y, ¬(x < image.width ∧ y < image.height) →
            (ofRaster image p).color x y = .error (.outside x y))
        ∧ ofRaster ((ofRaster image p).painted.map Paint.color) p = ofRaster image p := by
  refine ⟨⟨colors, hpos, hle⟩, Palette.ofColors?_eq hpos hle, rfl, fun image =>
    ⟨rfl, rfl, rfl, rfl, rfl, ?_, fun _ _ h => color_eq_error (ofRaster image _) h, ?_⟩⟩
  · intro x hx y hy
    have hc := Raster.get?_of_lt hx hy
    have hi := get?_ofRaster (p := ⟨colors, hpos, hle⟩) hc
    have hrepresents := Palette.represents_nearest ⟨colors, hpos, hle⟩ (image.get ⟨x, hx⟩ ⟨y, hy⟩)
    refine ⟨_, _, hc, hi, Fin.isLt _, hrepresents, fun j hj => ?_, fun hmem => ?_,
      color_eq_of_get? hi, get?_painted hi⟩
    · exact (Palette.represents_iff.mp hj).symm
    · have hcolor := hrepresents.colorAt_eq hmem
      exact ⟨hcolor, fun j hj => hcolor ▸ hrepresents.colorAt_ne hj⟩
  · rw [map_color_painted, ofRaster_expand]

/-- A palette with black at both ends. -/
def blackTwice : Palette where
  colors := #[⟨0, 0, 0⟩, ⟨10, 0, 0⟩, ⟨0, 0, 0⟩]
  size_pos := by decide
  size_le := by decide

/-- A pixel half way between two entries, and one in the colour that occurs twice. -/
def halfway : Raster Color :=
  ⟨2, 1, #[⟨5, 0, 0⟩, ⟨0, 0, 0⟩], rfl⟩

/-- Both pixels are represented by the first entry. -/
theorem pixels_represented_halfway :
    0 < blackTwice.colors.size ∧ blackTwice.colors.size ≤ 256
      ∧ (ofRaster halfway blackTwice).pixels.get? 0 0 = some ⟨0, by decide⟩
      ∧ (ofRaster halfway blackTwice).pixels.get? 1 0 = some ⟨0, by decide⟩
      ∧ (ofRaster halfway blackTwice).painted.get? 0 0 = some ⟨.black, 255⟩
      ∧ ofRaster ((ofRaster halfway blackTwice).painted.map Paint.color) blackTwice
        = ofRaster halfway blackTwice := by
  have hpos : 0 < blackTwice.colors.size := by decide
  have hle : blackTwice.colors.size ≤ 256 := by decide
  obtain ⟨p, hp, -, hpixels⟩ := pixels_represented hpos hle
  obtain rfl : blackTwice = p := Option.some.inj ((Palette.ofColors?_eq hpos hle).symm.trans hp)
  obtain ⟨-, -, -, -, -, hinside, -, hagain⟩ := hpixels halfway
  obtain ⟨c, i, hc, hi, -, -, hunique, -, -, hpaint⟩ := hinside 0 (by decide) 0 (by decide)
  obtain ⟨c', i', hc', hi', -, -, hunique', -⟩ := hinside 1 (by decide) 0 (by decide)
  obtain rfl : ⟨5, 0, 0⟩ = c := Option.some.inj hc
  obtain rfl : ⟨0, 0, 0⟩ = c' := Option.some.inj hc'
  obtain rfl := hunique ⟨0, by decide⟩ ⟨by decide, by decide⟩
  obtain rfl := hunique' ⟨0, by decide⟩ ⟨by decide, by decide⟩
  exact ⟨hpos, hle, hi, hi', hpaint, hagain⟩

end Indexed

end HeapReel
