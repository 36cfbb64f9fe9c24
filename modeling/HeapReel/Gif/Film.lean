/-
What a viewer sees of an animation.

A film is a screen, how often it repeats, and pictures that are laid on the screen one
after the other.  It is read from the bytes of a stream: a header, then parts, each known
by its first byte, then the byte that ends the stream.  Nothing may follow that byte.

A picture has a palette of its own or uses the one of the screen.  What tells how long a
picture is shown, and which of its indices is transparent, stands before it and concerns it
alone.
-/
import HeapReel.Gif.Lzw.Expansion
import HeapReel.Gif.Stream

namespace HeapReel.Gif

/-- An image at its place on the screen. -/
structure Picture where
  left : Nat
  above : Nat
  /-- The colour of each pixel; transparent ones have none. -/
  image : Raster (Option Color)
  /-- How long it is shown, in hundredths of a second. -/
  delay : Nat

/-- An animation. -/
structure Film where
  width : Nat
  height : Nat
  /-- How often the film repeats; zero is for ever, and it does not repeat if the number is
  absent. -/
  times : Option Nat
  pictures : List Picture

/-! ### Pieces of a stream -/

/-- The first `n` bytes, and those after them. -/
def take? (n : Nat) (bytes : List UInt8) : Option (List UInt8 × List UInt8) :=
  if n ≤ bytes.length then some (bytes.take n, bytes.drop n) else none

/-- A number in one byte. -/
def readByte? : List UInt8 → Option (Nat × List UInt8)
  | b :: rest => some (b.toNat, rest)
  | [] => none

/-- A number in two bytes, the low one first. -/
def readWord? : List UInt8 → Option (Nat × List UInt8)
  | low :: high :: rest => some (low.toNat + 256 * high.toNat, rest)
  | _ => none

/-- Data in blocks, each after its length, up to an empty one. -/
def readBlocks? : List UInt8 → Option (List UInt8 × List UInt8)
  | [] => none
  | size :: rest =>
      if size = 0 then some ([], rest)
      else if rest.length < size.toNat then none
      else
        (readBlocks? (rest.drop size.toNat)).map fun (data, tail) =>
          (rest.take size.toNat ++ data, tail)
termination_by bytes => bytes.length
decreasing_by
  simp only [List.length_drop, List.length_cons]
  omega

/-- Colours of three bytes each. -/
def colorsOf : List UInt8 → List Color
  | red :: green :: blue :: rest => ⟨red, green, blue⟩ :: colorsOf rest
  | _ => []

/-- The table of colours that `flags` announces, if they do. -/
def readTable? (flags : Nat) (bytes : List UInt8) : Option (Option (List Color) × List UInt8) :=
  if flags.testBit 7 then
    (take? (3 * 2 <<< (flags % 8)) bytes).map fun (data, rest) => (some (colorsOf data), rest)
  else some (none, bytes)

/-! ### Parts -/

/-- A part of a stream between its header and its end. -/
inductive Part where
  /-- How the next image is shown. -/
  | control (delay : Nat) (transparent : Option Nat)
  /-- How often the film repeats. -/
  | times (n : Nat)
  /-- Something that a viewer may ignore. -/
  | remark
  /-- An image as indices into its table of colours, if it has one. -/
  | image (left above width height : Nat) (colors : Option (List Color)) (indices : List Nat)
  deriving Repr, DecidableEq

/-- The part that an extension with this label holds. -/
def Part.ofExtension? (label : Nat) (data : List UInt8) : Option Part :=
  if label = 0xf9 then
    match data with
    | [flags, low, high, index] =>
        some (.control (low.toNat + 256 * high.toNat)
          (if flags.toNat.testBit 0 then some index.toNat else none))
    | _ => none
  else if label = 0xff ∧ data.take loopName.length = loopName then
    match data.drop loopName.length with
    | [1, low, high] => some (.times (low.toNat + 256 * high.toNat))
    | _ => none
  else some .remark

/-- An extension, after the byte that announces it. -/
def readExtension? (bytes : List UInt8) : Option (Part × List UInt8) := do
  let (label, bytes) ← readByte? bytes
  let (data, bytes) ← readBlocks? bytes
  let part ← Part.ofExtension? label data
  return (part, bytes)

/-- An image, after the byte that announces it.  Its rows stand in order; the flag for
another order is refused. -/
def readImage? (bytes : List UInt8) : Option (Part × List UInt8) := do
  let (left, bytes) ← readWord? bytes
  let (above, bytes) ← readWord? bytes
  let (width, bytes) ← readWord? bytes
  let (height, bytes) ← readWord? bytes
  let (flags, bytes) ← readByte? bytes
  if flags.testBit 6 then none
  else
    let (colors, bytes) ← readTable? flags bytes
    let (pixelBits, bytes) ← readByte? bytes
    let (data, bytes) ← readBlocks? bytes
    let indices ← Lzw.decode? pixelBits data
    return (.image left above width height colors indices, bytes)

/-- The part that the byte `kind` announces. -/
def readPart? (kind : UInt8) (bytes : List UInt8) : Option (Part × List UInt8) :=
  if kind = 0x21 then readExtension? bytes
  else if kind = 0x2c then readImage? bytes
  else none

theorem length_of_readBlocks? {bytes data rest : List UInt8}
    (h : readBlocks? bytes = some (data, rest)) : rest.length ≤ bytes.length := by
  fun_induction readBlocks? bytes generalizing data rest with
  | case1 => simp at h
  | case2 => simp_all
  | case3 => simp at h
  | case4 size tail _ _ ih =>
      obtain ⟨⟨_, after⟩, hafter, heq⟩ := Option.map_eq_some_iff.mp h
      obtain ⟨-, rfl⟩ := Prod.mk.inj heq
      have := ih hafter
      simp only [List.length_drop, List.length_cons] at this ⊢
      omega

theorem length_of_readByte? {bytes rest : List UInt8} {n : Nat}
    (h : readByte? bytes = some (n, rest)) : rest.length ≤ bytes.length := by
  unfold readByte? at h
  split at h <;> simp_all

theorem length_of_readWord? {bytes rest : List UInt8} {n : Nat}
    (h : readWord? bytes = some (n, rest)) : rest.length ≤ bytes.length := by
  unfold readWord? at h
  split at h
  · simp only [Option.some.injEq, Prod.mk.injEq] at h
    simp only [← h.2, List.length_cons]
    omega
  · simp at h

theorem length_of_readTable? {flags : Nat} {bytes rest : List UInt8}
    {colors : Option (List Color)} (h : readTable? flags bytes = some (colors, rest)) :
    rest.length ≤ bytes.length := by
  unfold readTable? take? at h
  split at h
  · split at h
    · obtain ⟨⟨_, tail⟩, htail, heq⟩ := Option.map_eq_some_iff.mp h
      obtain ⟨-, rfl⟩ := Prod.mk.inj heq
      obtain ⟨-, rfl⟩ := Prod.mk.inj (Option.some.inj htail)
      simp
    · simp at h
  · simp_all

theorem length_of_readPart? {kind : UInt8} {bytes rest : List UInt8} {part : Part}
    (h : readPart? kind bytes = some (part, rest)) : rest.length ≤ bytes.length := by
  unfold readPart? at h
  split at h
  · simp only [readExtension?, bind, Option.bind_eq_some_iff, pure, Option.some.injEq,
      Prod.mk.injEq, Prod.exists] at h
    obtain ⟨_, _, hlabel, _, _, hdata, _, _, -, rfl⟩ := h
    have := length_of_readByte? hlabel
    have := length_of_readBlocks? hdata
    omega
  · split at h
    · simp only [readImage?, bind, Option.bind_eq_some_iff, pure, Option.ite_none_left_eq_some,
        Option.some.injEq, Prod.mk.injEq, Prod.exists] at h
      obtain ⟨_, _, h1, _, _, h2, _, _, h3, _, _, h4, _, _, h5, -, _, _, h6, _, _, h7,
        _, _, h8, _, -, -, rfl⟩ := h
      have := length_of_readWord? h1
      have := length_of_readWord? h2
      have := length_of_readWord? h3
      have := length_of_readWord? h4
      have := length_of_readByte? h5
      have := length_of_readTable? h6
      have := length_of_readByte? h7
      have := length_of_readBlocks? h8
      omega
    · simp at h

/-- The parts up to the end of the stream. -/
def readParts? : List UInt8 → Option (List Part)
  | [] => none
  | kind :: bytes =>
      if kind = 0x3b then if bytes.isEmpty then some [] else none
      else
        match _hread : readPart? kind bytes with
        | none => none
        | some (part, rest) => (readParts? rest).map (part :: ·)
termination_by bytes => bytes.length
decreasing_by
  have := length_of_readPart? _hread
  simp only [List.length_cons]
  omega

/-! ### The film -/

/-- The picture that an image shows, if it has a colour for each of its pixels. -/
def Picture.ofIndices? (left above width height delay : Nat) (transparent : Option Nat)
    (colors : List Color) (indices : List Nat) : Option Picture := do
  let pixels ← indices.mapM fun i =>
    if transparent = some i then some none else colors[i]?.map some
  if hsize : pixels.toArray.size = width * height then
    return { left, above, delay, image := ⟨width, height, pixels.toArray, hsize⟩ }
  else none

/-- The film with the parts that come after those that have been taken.  `colors` is the
palette of the screen, and `delay` and `transparent` concern the next image. -/
def Film.ofParts? (f : Film) (colors : List Color) (delay : Nat) (transparent : Option Nat) :
    List Part → Option Film
  | [] => some f
  | .control delay transparent :: parts => f.ofParts? colors delay transparent parts
  | .times n :: parts => ({ f with times := some n } : Film).ofParts? colors delay transparent parts
  | .remark :: parts => f.ofParts? colors delay transparent parts
  | .image left above width height own indices :: parts => do
      let picture ← Picture.ofIndices? left above width height delay transparent
        (own.getD colors) indices
      ({ f with pictures := f.pictures ++ [picture] } : Film).ofParts? colors 0 none parts

/-- The film of a stream. -/
def Film.ofBytes? (bytes : List UInt8) : Option Film := do
  let (mark, bytes) ← take? signature.length bytes
  if mark = signature then
    let (width, bytes) ← readWord? bytes
    let (height, bytes) ← readWord? bytes
    let (flags, bytes) ← readByte? bytes
    let (_, bytes) ← take? 2 bytes
    let (colors, bytes) ← readTable? flags bytes
    let parts ← readParts? bytes
    Film.ofParts? { width, height, times := none, pictures := [] } (colors.getD []) 0 none parts
  else none

end HeapReel.Gif
