/-
Bits and bytes, low bit first.

Codes of different widths follow each other without gaps.  The view of both sides is a list
of bits: a number is written with its lowest bit first, and a byte takes the next eight
bits, the first of them lowest.  The last byte is filled up with zeros.
-/

namespace HeapReel.Gif.Bits

/-- The `width` lowest bits of a number, the lowest first. -/
def ofNat (width n : Nat) : List Bool :=
  (List.range width).map n.testBit

/-- The number with these bits, the lowest first. -/
def toNat : List Bool → Nat
  | [] => 0
  | b :: bits => b.toNat + 2 * toNat bits

/-- The byte with these bits, eight at most. -/
def toByte (bits : List Bool) : UInt8 :=
  UInt8.ofNat (toNat bits)

/-- The bytes that `bits` fill, after those that are there already. -/
def pack (done : Array UInt8) : List Bool → Array UInt8
  | b0 :: b1 :: b2 :: b3 :: b4 :: b5 :: b6 :: b7 :: rest =>
      pack (done.push (toByte [b0, b1, b2, b3, b4, b5, b6, b7])) rest
  | [] => done
  | last => done.push (toByte last)

/-- The bytes that `bits` fill. -/
def toBytes (bits : List Bool) : List UInt8 :=
  (pack #[] bits).toList

/-- The bits of some bytes. -/
def ofBytes (bytes : List UInt8) : List Bool :=
  bytes.flatMap fun b => ofNat 8 b.toNat

end HeapReel.Gif.Bits
