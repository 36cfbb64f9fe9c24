/-
The colours of a replay.
-/
import HeapReel.Color
import HeapReel.Palette
import HeapReel.Usage

namespace HeapReel

/-- One colour for each thing that a frame shows. -/
structure Scheme where
  background : Color := ⟨190, 190, 190⟩
  used : Color := ⟨25, 25, 127⟩
  free : Color := ⟨24, 190, 24⟩
  invalid : Color := ⟨255, 0, 0⟩
  text : Color := ⟨0, 0, 0⟩
  deriving Repr, DecidableEq

namespace Scheme

/-- The colour of a cell.  Padding looks like the canvas behind it. -/
def colorOf (s : Scheme) : CellState → Color
  | .free => s.free
  | .used => s.used
  | .invalid => s.invalid
  | .padding => s.background

/-- Every colour that a frame can hold, the background first. -/
def palette (s : Scheme) : Palette where
  colors := #[s.background, s.used, s.free, s.invalid, s.text]
  size_pos := by simp
  size_le := by simp

end Scheme

end HeapReel
