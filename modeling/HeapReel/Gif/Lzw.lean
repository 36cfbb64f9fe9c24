/-
Compressing pixels into codes.

Every string of pixels that has been met gets a code.  The strings of one pixel have theirs
from the start, two more codes mean "forget everything" and "the end", and then the codes
are given out in order.  The compressor holds the code of the longest string it can match;
at the first pixel that leads out of the table it writes that code, gives the longer string
the next one, and starts again from the pixel.

Codes are written with as many bits as the largest one given out needs, twelve at most.  One
more string than twelve bits can name makes the compressor forget everything.
-/
import HeapReel.Gif.Bits
import Std.Data.HashMap

namespace HeapReel.Gif.Lzw

/-- A code and the number of bits that it is written with. -/
structure Code where
  value : Nat
  width : Nat
  deriving Repr, DecidableEq

/-- The bits that a code is written as. -/
def Code.bits (c : Code) : List Bool :=
  Bits.ofNat c.width c.value

/-- No code is wider. -/
def maxWidth : Nat := 12

/-- The code to forget everything, when single pixels have codes of `pixelBits` bits. -/
def clearCode (pixelBits : Nat) : Nat :=
  1 <<< pixelBits

/-- The code for the end. -/
def endCode (pixelBits : Nat) : Nat :=
  clearCode pixelBits + 1

/-- The strings that have a code.  A string of two or more pixels is known by the code of
all but its last pixel, and that pixel. -/
structure Table where
  codes : Std.HashMap (Nat × Nat) Nat
  /-- The code of the string that is added next. -/
  next : Nat
  /-- The width of the codes that are written. -/
  width : Nat

namespace Table

/-- No strings of two pixels or more. -/
def fresh (pixelBits : Nat) : Table :=
  { codes := ∅, next := endCode pixelBits + 1, width := pixelBits + 1 }

/-- The width, one larger where codes below `bound` need it and it may grow. -/
def widthFor (t : Table) (bound : Nat) : Nat :=
  if 1 <<< t.width < bound ∧ t.width < maxWidth then t.width + 1 else t.width

/-- The table with one more string. -/
def add (t : Table) (code pixel : Nat) : Table :=
  { codes := t.codes.insert (code, pixel) t.next
    next := t.next + 1
    width := t.widthFor (t.next + 1) }

/-- More strings than codes of the largest width. -/
def isFull (t : Table) : Bool :=
  1 <<< maxWidth < t.next

end Table

/-- A compressor between two pixels. -/
structure Compressor where
  pixelBits : Nat
  table : Table
  /-- The code of the longest string matched so far; none before the first pixel. -/
  current : Option Nat
  written : Array Code

namespace Compressor

/-- Before the first pixel the table is declared empty. -/
def start (pixelBits : Nat) : Compressor :=
  let table := Table.fresh pixelBits
  { pixelBits, table, current := none, written := #[⟨clearCode pixelBits, table.width⟩] }

/-- Takes one more pixel. -/
def feed (c : Compressor) (pixel : Nat) : Compressor :=
  match c with
  | { pixelBits, table, current, written } =>
      match current with
      | none => { pixelBits, table, current := some pixel, written }
      | some code =>
          match table.codes[(code, pixel)]? with
          | some longer => { pixelBits, table, current := some longer, written }
          | none =>
              let written := written.push ⟨code, table.width⟩
              let table := table.add code pixel
              if table.isFull then
                { pixelBits, table := .fresh pixelBits, current := some pixel
                  written := written.push ⟨clearCode pixelBits, table.width⟩ }
              else { pixelBits, table, current := some pixel, written }

/-- All codes, after the last pixel.  A reader gives out one more code after every code it
reads but the first, so the end is as wide as if the last match had added a string. -/
def finish (c : Compressor) : Array Code :=
  match c.current with
  | none => c.written.push ⟨endCode c.pixelBits, c.table.width⟩
  | some code =>
      (c.written.push ⟨code, c.table.width⟩).push
        ⟨endCode c.pixelBits, c.table.widthFor (c.table.next + 1)⟩

end Compressor

/-- The codes of some pixels, each below `2 ^ pixelBits`. -/
def compress (pixelBits : Nat) (pixels : List Nat) : List Code :=
  (pixels.foldl Compressor.feed (Compressor.start pixelBits)).finish.toList

/-- The bytes of some pixels, each below `2 ^ pixelBits`. -/
def encode (pixelBits : Nat) (pixels : List Nat) : List UInt8 :=
  Bits.toBytes ((compress pixelBits pixels).flatMap Code.bits)

end HeapReel.Gif.Lzw
