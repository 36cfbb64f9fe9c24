/-
Palettes and the nearest colour in one.

A palette holds between 1 and 256 colours, in an order, and may hold one more than once.
A colour is represented by the first entry that is nearest to it; an entry equal to it is
at distance zero, so a colour of the palette is represented by its first occurrence.
-/
import HeapReel.Color

namespace HeapReel

/-- The colours that indices stand for. -/
structure Palette where
  colors : Array Color
  size_pos : 0 < colors.size
  size_le : colors.size ≤ 256
  deriving DecidableEq

namespace Palette

/-- The position of an entry. -/
abbrev Index (p : Palette) : Type :=
  Fin p.colors.size

/-- The colour of an entry. -/
def colorAt (p : Palette) (i : p.Index) : Color :=
  p.colors[i]

/-- The palette of these colours, if their number is allowed. -/
def ofColors? (colors : Array Color) : Option Palette :=
  if h : 0 < colors.size ∧ colors.size ≤ 256 then some ⟨colors, h.1, h.2⟩ else none

theorem toList_ne_nil (p : Palette) : p.colors.toList ≠ [] := by
  have := p.size_pos
  intro h
  simp [Array.toList_eq_nil_iff.mp h] at this

/-- The first of the entries that are nearest to the colour. -/
def nearest (p : Palette) (c : Color) : p.Index :=
  ⟨p.colors.toList.minIdxOn c.distance p.toList_ne_nil,
    by simpa using List.minIdxOn_lt_length p.toList_ne_nil⟩

end Palette

end HeapReel
