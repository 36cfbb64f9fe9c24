/-
What a text inks.

A text is drawn glyph by glyph, at pens that stop at the last column that a word can name.  On a
canvas that ends before that column the stop is never seen: what is inked there is what a pen
without bounds would ink.  `Inks` says which places those are, counted from the corner of the
text, and it knows no pen: the character whose box holds the place has a glyph, and the glyph
has its pixel set.
-/
import HeapReel.Lettering

namespace HeapReel.Lettering

/-- The text has ink `dx` to the right of its corner and `dy` below it. -/
def Inks (text : List Char) (dx dy : Nat) : Prop :=
  ∃ (i : Nat) (c : Char) (glyph column : Nat),
    text[i]? = some c
    ∧ Font.glyph? c = some glyph
    ∧ dx = Font.glyphSize * i + column
    ∧ (column, dy) ∈ Font.ink glyph

theorem mem_points {x y px py : Nat} {text : List Char} :
    (px, py) ∈ points x y text
      ↔ ∃ (i : Nat) (c : Char) (glyph column row : Nat),
        text[i]? = some c
        ∧ Font.glyph? c = some glyph
        ∧ (column, row) ∈ Font.ink glyph
        ∧ columnAfter (columnAfter x (Font.glyphSize * i)) column = px
        ∧ y + row = py := by
  simp only [points, List.mem_flatMap, Prod.exists, List.mem_zipIdx_iff_getElem?]
  constructor
  · rintro ⟨c, i, hc, hp⟩
    split at hp
    · rename_i glyph hglyph
      obtain ⟨⟨column, row⟩, hink, heq⟩ := List.mem_map.mp hp
      obtain ⟨hpx, hpy⟩ := Prod.mk.inj heq
      exact ⟨i, c, glyph, column, row, hc, hglyph, hink, hpx, hpy⟩
    · simp at hp
  · rintro ⟨i, c, glyph, column, row, hc, hglyph, hink, rfl, rfl⟩
    refine ⟨c, i, hc, ?_⟩
    rw [hglyph]
    exact List.mem_map_of_mem hink

/-- Before the last column a text inks what it has ink for. -/
theorem mem_points_iff {x y px py : Nat} {text : List Char} (hpx : px < lastColumn) :
    (px, py) ∈ points x y text ↔ ∃ dx dy, px = x + dx ∧ py = y + dy ∧ Inks text dx dy := by
  rw [mem_points]
  constructor
  · rintro ⟨i, c, glyph, column, row, hc, hglyph, hink, hcolumn, rfl⟩
    refine ⟨Font.glyphSize * i + column, row, ?_, rfl, i, c, glyph, column, hc, hglyph, rfl,
      hink⟩
    unfold columnAfter at hcolumn
    omega
  · rintro ⟨dx, dy, rfl, rfl, i, c, glyph, column, hc, hglyph, rfl, hink⟩
    refine ⟨i, c, glyph, column, dy, hc, hglyph, hink, ?_, rfl⟩
    unfold columnAfter
    omega

end HeapReel.Lettering
