/-
Colours of red, green and blue, eight bits each.

Where images are laid over each other, a colour is put on as paint, and the paint says how much
of what lies beneath it hides.
-/

namespace HeapReel

/-- An opaque colour. -/
structure Color where
  red : UInt8
  green : UInt8
  blue : UInt8
  deriving Repr, DecidableEq, Hashable

namespace Color

/-- The square of the difference of two channels. -/
def channelDistance (a b : UInt8) : Nat :=
  let difference := ((a.toNat : Int) - b.toNat).natAbs
  difference * difference

/-- The squared distance of two colours in the cube of their channels. -/
def distance (a b : Color) : Nat :=
  channelDistance a.red b.red + channelDistance a.green b.green
    + channelDistance a.blue b.blue

/-- The position of a colour when red counts most and blue least. -/
def rank (c : Color) : Nat :=
  (c.red.toNat * 256 + c.green.toNat) * 256 + c.blue.toNat

/-- Black fills up colour tables. -/
def black : Color := ⟨0, 0, 0⟩

end Color

/-- A colour and how much it hides, from nothing at 0 to everything at 255. -/
structure Paint where
  color : Color
  cover : UInt8
  deriving Repr, DecidableEq

/-- The colour as paint that hides everything beneath. -/
def Color.solid (c : Color) : Paint := ⟨c, 255⟩

end HeapReel
