/-
The bytes of an animation.

A stream opens with a header that gives the size of the screen and says that the animation
repeats for ever.  Each image follows with a palette of its own: the colours that occur in
it, each once, in the order of their channels.  A single byte ends the stream.
-/
import HeapReel.Gif.Lzw
import HeapReel.Indexed

namespace HeapReel.Gif

/-- A number in two bytes, the low one first. -/
def word (n : Nat) : List UInt8 :=
  [UInt8.ofNat n, UInt8.ofNat (n / 256)]

/-- The largest number in two bytes. -/
def maxWord : Nat := UInt16.size - 1

/-! ### Pieces of a stream -/

/-- Data cut into blocks of at most 255 bytes, each after its length, and an empty block. -/
def blocks : List UInt8 → List UInt8
  | [] => [0]
  | b :: rest =>
      let block := b :: rest.take 254
      UInt8.ofNat block.length :: block ++ blocks (rest.drop 254)
termination_by data => data.length
decreasing_by
  simp only [List.length_drop, List.length_cons]
  omega

/-- The letters `GIF89a`, which a stream starts with. -/
def signature : List UInt8 := [0x47, 0x49, 0x46, 0x38, 0x39, 0x61]

/-- The letters `NETSCAPE2.0`, which announce how often an animation repeats. -/
def loopName : List UInt8 :=
  [0x4e, 0x45, 0x54, 0x53, 0x43, 0x41, 0x50, 0x45, 0x32, 0x2e, 0x30]

/-- The start of a stream with a screen of this size, which repeats for ever.  The screen
has a palette of two black entries, and no image uses it. -/
def header (width height : Nat) : List UInt8 :=
  signature ++ word width ++ word height ++ [0x80, 0, 0] ++ [0, 0, 0, 0, 0, 0]
    ++ [0x21, 0xff, 11] ++ loopName ++ [3, 1] ++ word 0 ++ [0]

/-- The end of a stream. -/
def trailer : List UInt8 := [0x3b]

/-- How long an image is shown, in hundredths of a second, for a delay in milliseconds. -/
def hundredths (delay : Nat) : Nat :=
  min (delay / 10) maxWord

/-! ### Palettes of single images -/

/-- The colours that occur in an image, each once, by red, then green, then blue. -/
def usedColors (image : Indexed) : List Color :=
  (image.pixels.cells.toList.map image.colorOf).eraseDups.mergeSort fun a b => a.rank ≤ b.rank

/-- The least `n` such that a table of `2 <<< n` entries holds `count` colours, up to
the 256 that a table can hold. -/
def sizeField (count : Nat) : Nat :=
  ((List.range 8).find? fun n => count ≤ 2 <<< n).getD 7

/-- The bytes of a colour. -/
def colorBytes (c : Color) : List UInt8 :=
  [c.red, c.green, c.blue]

/-- A table of colours, filled up with black to a size that the format knows. -/
def colorTable (colors : List Color) : List UInt8 :=
  (colors.rightpad (2 <<< sizeField colors.length) .black).flatMap colorBytes

/-- How many bits the indices of a table of `count` colours need, at least two. -/
def pixelBits (count : Nat) : Nat :=
  ((List.range' 2 7).find? fun n => count ≤ 1 <<< n).getD 8

/-- The pixels of an image as positions in a table of colours. -/
def tableIndices (image : Indexed) (colors : List Color) : List Nat :=
  let position := image.palette.colors.map fun c => colors.idxOf c
  image.pixels.cells.toList.map fun i : image.palette.Index =>
    have : i.val < position.size := by simp [position]
    position[i.val]

/-! ### Images -/

/-- The bytes of one image, shown for `delay` milliseconds. -/
def imageBytes (delay : Nat) (image : Indexed) : List UInt8 :=
  let colors := usedColors image
  [0x21, 0xf9, 4, 8] ++ word (hundredths delay) ++ [0, 0]
    ++ 0x2c :: word 0 ++ word 0 ++ word image.width ++ word image.height
    ++ [UInt8.ofNat (0x80 + sizeField colors.length)]
    ++ colorTable colors
    ++ UInt8.ofNat (pixelBits colors.length)
      :: blocks (Lzw.encode (pixelBits colors.length) (tableIndices image colors))

/-- The image has a size that the format can express. -/
def Fits (image : Indexed) : Prop :=
  image.width ≤ maxWord ∧ image.height ≤ maxWord

instance (image : Indexed) : Decidable (Fits image) :=
  inferInstanceAs (Decidable (_ ∧ _))

end HeapReel.Gif
