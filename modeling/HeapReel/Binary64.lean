/-
Doubles as exact numbers.

Every finite double is an integer multiple of the smallest positive one, so its size is a
natural number, and arithmetic on doubles is arithmetic on natural numbers with one rounding
at the end: to the nearest double, of two equally near to the one whose last digit is even.
A square root needs no more: it is the root of the size in smaller units.

The bit pattern counts doubles from zero upwards.  A size of at most 53 binary digits is its
own pattern; from there on each further digit begins a new group of patterns.
-/
import HeapReel.Rounding

namespace HeapReel

/-- A number of the IEEE 754 format of 64 bits. -/
inductive Binary64 where
  | nan
  | infinite (negative : Bool)
  /-- The number with this sign and this multiple of the smallest positive double. -/
  | finite (negative : Bool) (size : Nat)
  deriving Repr, DecidableEq

namespace Binary64

/-- How many binary digits of a number a double keeps. -/
def digits : Nat := 53

/-- The size of one. -/
def unit : Nat := 1 <<< 1074

/-- The sizes from here on are infinite. -/
def sizeLimit : Nat := 1 <<< 2098

/-- One. -/
def one : Binary64 :=
  .finite false unit

/-! ### Bit patterns -/

/-- The double with a bit pattern. -/
def ofBits (bits : Nat) : Binary64 :=
  let negative := bits.testBit 63
  let group := bits >>> 52 % 0x800
  let fraction := bits % 1 <<< 52
  if group = 0x7ff then
    if fraction = 0 then .infinite negative else .nan
  else if group = 0 then .finite negative fraction
  else .finite negative ((1 <<< 52 + fraction) <<< (group - 1))

/-- The bit pattern of a double; that of a number which is none has only its first fraction
bit set. -/
def toBits : Binary64 → Nat
  | .nan => 0xfff <<< 51
  | .infinite negative => negative.toNat <<< 63 + 0x7ff <<< 52
  | .finite negative size =>
      let dropped := size.log2 + 1 - digits
      negative.toNat <<< 63 + dropped <<< 52 + size >>> dropped

/-! ### Arithmetic -/

/-- The double nearest to `num / den` times the smallest positive double. -/
def nearest (negative : Bool) (num den : Nat) : Binary64 :=
  let size := Rounding.significant digits num den
  if size < sizeLimit then .finite negative size else .infinite negative

/-- The double times `k`. -/
def times : Binary64 → Nat → Binary64
  | .nan, _ => .nan
  | .infinite negative, k => if k = 0 then .nan else .infinite negative
  | .finite negative size, k => nearest negative (size * k) 1

/-- The double nearest to `n`. -/
def ofNat (n : Nat) : Binary64 :=
  nearest false (unit * n) 1

/-- The double nearest to the square root.  Below zero there is none, but a zero keeps its
sign. -/
def sqrt : Binary64 → Binary64
  | .nan => .nan
  | .infinite negative => if negative then .nan else .infinite false
  | .finite negative size =>
      if size = 0 then .finite negative 0
      else if negative then .nan
      else .finite false (Rounding.significantRoot digits (unit * size))

/-- The whole part as a 64-bit word.  The nearest word stands for what no word can hold, and
zero for what is no number. -/
def toWord : Binary64 → Nat
  | .nan => 0
  | .infinite negative => if negative then 0 else UInt64.size - 1
  | .finite negative size => if negative then 0 else min (size / unit) (UInt64.size - 1)

/-- The share that `part` is of `whole`, which become doubles before they are divided.
Nothing has its full share of nothing. -/
def share (part whole : Nat) : Binary64 :=
  if whole = 0 then one
  else
    nearest false (Rounding.significant digits part 1 * unit)
      (Rounding.significant digits whole 1)

end Binary64

end HeapReel
