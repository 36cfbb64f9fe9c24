/-
Expanding codes into pixels.

The expander knows the strings that have been given codes.  Every code but the first adds
one: the string before it, and the first pixel of its own.  That string may be the very one
that the code names, which is then known but for its last pixel, and that pixel is the
first one.

A code is as wide as the code that would be given out next needs, so widths grow one code
later than where strings are added while they are written.
-/
import HeapReel.Gif.Lzw

namespace HeapReel.Gif

/-- The number in the first `width` bits, the lowest first, and the bits after them. -/
def Bits.read? : Nat → List Bool → Option (Nat × List Bool)
  | 0, bits => some (0, bits)
  | _ + 1, [] => none
  | width + 1, b :: bits => (read? width bits).map fun (n, rest) => (b.toNat + 2 * n, rest)

theorem Bits.length_of_read? {width n : Nat} {bits rest : List Bool}
    (h : read? width bits = some (n, rest)) : rest.length + width = bits.length := by
  induction width generalizing n bits with
  | zero => simp_all [read?]
  | succ width ih =>
      cases bits with
      | nil => simp [read?] at h
      | cons b bits =>
          obtain ⟨⟨m, tail⟩, hm, heq⟩ := Option.map_eq_some_iff.mp h
          obtain ⟨-, rfl⟩ := Prod.mk.inj heq
          simp [← ih hm, Nat.add_assoc]

namespace Lzw

/-- An expander between two codes. -/
structure Expander where
  pixelBits : Nat
  /-- The strings with codes after the one for the end, in the order of their codes. -/
  strings : Array (List Nat)
  /-- The width of the next code. -/
  width : Nat
  /-- The string of the code before; none at the start. -/
  previous : Option (List Nat)

namespace Expander

/-- Single pixels have codes, and nothing has been read. -/
def start (pixelBits : Nat) : Expander :=
  { pixelBits, strings := #[], width := pixelBits + 1, previous := none }

/-- The code of the string that is added next. -/
def next (x : Expander) : Nat :=
  endCode x.pixelBits + 1 + x.strings.size

/-- The string that a code names, if it has been given to one. -/
def string? (x : Expander) (code : Nat) : Option (List Nat) :=
  if code < clearCode x.pixelBits then some [code]
  else if code ≤ endCode x.pixelBits then none
  else x.strings[code - (endCode x.pixelBits + 1)]?

/-- The expander with one more string, unless all codes are in use. -/
def add (x : Expander) (s : List Nat) : Expander :=
  if x.next < 1 <<< maxWidth then
    { x with
      strings := x.strings.push s
      width := if 1 <<< x.width ≤ x.next + 1 ∧ x.width < maxWidth then x.width + 1 else x.width }
  else x

/-- Takes a code other than the end: the pixels that it stands for, and the expander
afterwards. -/
def take? (x : Expander) (code : Nat) : Option (List Nat × Expander) :=
  if code = clearCode x.pixelBits then some ([], start x.pixelBits)
  else
    match x.previous with
    | none => (x.string? code).map fun s => (s, { x with previous := some s })
    | some p => do
        let s ← if code = x.next then some (p ++ p.take 1) else x.string? code
        return (s, { x.add (p ++ s.take 1) with previous := some s })

end Expander

/-- The pixels of the codes up to the end. -/
def expandFrom? (x : Expander) (bits : List Bool) : Option (List Nat) :=
  if _hwidth : x.width = 0 then none
  else
    match _hread : Bits.read? x.width bits with
    | none => none
    | some (code, rest) =>
        if code = endCode x.pixelBits then some []
        else
          match x.take? code with
          | none => none
          | some (s, x) => (expandFrom? x rest).map (s ++ ·)
termination_by bits.length
decreasing_by
  have := Bits.length_of_read? _hread
  omega

/-- The pixels that some bytes stand for. -/
def decode? (pixelBits : Nat) (bytes : List UInt8) : Option (List Nat) :=
  expandFrom? (.start pixelBits) (Bits.ofBytes bytes)

end HeapReel.Gif.Lzw
