/-
Each piece of a stream is read back as what it was written from.

A piece is followed by others, so every lemma has a rest that the reader leaves alone.  The
table of an image needs the most care.  It holds the colours that occur in the image, each
once, and there are at most 256 of them because they come from a palette; so there is a
table that holds them all, each pixel has a position in it, and the positions fit the
number of bits that the compressor is told.
-/
import HeapReel.Gif.Film
import HeapReel.Proofs.Gif.Lzw
import Mathlib.Data.List.Basic
import Mathlib.Data.List.Perm.Subperm

namespace HeapReel.Gif

variable {n : Nat} {rest : List UInt8}

/-! ### Numbers and blocks -/

theorem take?_append {a : List UInt8} (h : a.length = n) :
    take? n (a ++ rest) = some (a, rest) := by
  rw [take?, if_pos (by simp [h]), List.take_left' h, List.drop_left' h]

/-- A number of two bytes is read back. -/
theorem readWord?_word (h : n ≤ maxWord) : readWord? (word n ++ rest) = some (n, rest) := by
  have hlt : n < 2 ^ 16 := Nat.lt_succ_of_le h
  have hvalue : (UInt8.ofNat n).toNat + 256 * (UInt8.ofNat (n / 256)).toNat = n := by
    rw [UInt8.toNat_ofNat', UInt8.toNat_ofNat']
    omega
  show some ((UInt8.ofNat n).toNat + 256 * (UInt8.ofNat (n / 256)).toNat, rest) = _
  rw [hvalue]

/-- A block that is not empty comes before the data after it. -/
theorem readBlocks?_block {size : UInt8} {block data tail : List UInt8}
    (hsize : size.toNat = block.length) (hne : block ≠ [])
    (hrest : readBlocks? rest = some (data, tail)) :
    readBlocks? (size :: (block ++ rest)) = some (block ++ data, tail) := by
  have hpos : size ≠ 0 := by
    intro h
    rw [h] at hsize
    exact hne (List.eq_nil_of_length_eq_zero hsize.symm)
  rw [readBlocks?, if_neg hpos, if_neg (by rw [hsize]; simp), hsize, List.drop_left,
    List.take_left, hrest, Option.map_some]

/-- An empty block ends the data. -/
theorem readBlocks?_zero : readBlocks? (0 :: rest) = some ([], rest) := by
  rw [readBlocks?, if_pos rfl]

/-- A single block is read back. -/
theorem readBlocks?_single {size : UInt8} {block : List UInt8}
    (hsize : size.toNat = block.length) (hne : block ≠ []) :
    readBlocks? (size :: (block ++ 0 :: rest)) = some (block, rest) := by
  rw [readBlocks?_block hsize hne readBlocks?_zero, List.append_nil]

/-- **Data in blocks is read back.** -/
theorem readBlocks?_blocks (data : List UInt8) :
    readBlocks? (blocks data ++ rest) = some (data, rest) := by
  fun_induction blocks data with
  | case1 => exact readBlocks?_zero
  | case2 b tail block ih =>
      have hsize : (UInt8.ofNat block.length).toNat = block.length := by
        have hle := List.length_take_le 254 tail
        have hlength : block.length = (tail.take 254).length + 1 := rfl
        rw [UInt8.toNat_ofNat']
        omega
      rw [List.append_assoc, List.cons_append, readBlocks?_block hsize (List.cons_ne_nil _ _) ih]
      show some (b :: (tail.take 254 ++ tail.drop 254), rest) = _
      rw [List.take_append_drop]

/-! ### Tables of colours -/

theorem colorsOf_flatMap (colors : List Color) : colorsOf (colors.flatMap colorBytes) = colors := by
  induction colors with
  | nil => rfl
  | cons c colors ih =>
      show c :: colorsOf (colors.flatMap colorBytes) = c :: colors
      rw [ih]

theorem length_flatMap_colorBytes (colors : List Color) :
    (colors.flatMap colorBytes).length = 3 * colors.length := by
  simp [List.length_flatMap, colorBytes, Nat.mul_comm]

/-- The colours of a table are those that it was made of, filled up with black. -/
def entries (colors : List Color) : List Color :=
  colors.rightpad (2 <<< sizeField colors.length) .black

/-- What is found, or else taken, has a property that both have. -/
theorem getD_find? {α : Type} {P : α → Prop} {l : List α} {p : α → Bool} {d : α} (hd : P d)
    (hfound : ∀ a ∈ l, p a = true → P a) : P ((l.find? p).getD d) := by
  cases hfind : l.find? p with
  | none => exact hd
  | some a => exact hfound a (List.mem_of_find?_eq_some hfind) (List.find?_some hfind)

theorem sizeField_le (count : Nat) : sizeField count ≤ 7 := by
  unfold sizeField
  refine getD_find? (P := fun n => n ≤ 7) (Nat.le_refl 7) fun n hn _ => ?_
  exact Nat.le_of_lt_succ (List.mem_range.mp hn)

/-- The table has an entry for every colour. -/
theorem le_sizeField {count : Nat} (h : count ≤ 256) : count ≤ 2 <<< sizeField count := by
  unfold sizeField
  refine getD_find? (P := fun n => count ≤ 2 <<< n) h fun n _ hn => ?_
  exact of_decide_eq_true hn

theorem le_pixelBits (count : Nat) : 2 ≤ pixelBits count ∧ pixelBits count ≤ 8 := by
  unfold pixelBits
  refine getD_find? (P := fun n => 2 ≤ n ∧ n ≤ 8) (by decide) fun n hn _ => ?_
  have hrange := List.mem_range'_1.mp hn
  omega

/-- The bits of a pixel reach every colour. -/
theorem le_two_pow_pixelBits {count : Nat} (h : count ≤ 256) : count ≤ 2 ^ pixelBits count := by
  rw [← Nat.one_shiftLeft, pixelBits]
  refine getD_find? (P := fun n => count ≤ 1 <<< n) h fun n _ hn => ?_
  exact of_decide_eq_true hn

theorem length_entries {colors : List Color} (h : colors.length ≤ 256) :
    (entries colors).length = 2 <<< sizeField colors.length := by
  rw [entries, List.length_rightpad]
  exact Nat.max_eq_left (le_sizeField h)

/-- The flags of an image fit a byte. -/
theorem toNat_flags (count : Nat) :
    (UInt8.ofNat (0x80 + sizeField count)).toNat = 0x80 + sizeField count := by
  have := sizeField_le count
  rw [UInt8.toNat_ofNat']
  omega

/-- The table of an image is read back. -/
theorem readTable?_colorTable {colors : List Color} (h : colors.length ≤ 256) :
    readTable? (0x80 + sizeField colors.length) (colorTable colors ++ rest)
      = some (some (entries colors), rest) := by
  have hfield := sizeField_le colors.length
  have hset : (0x80 + sizeField colors.length).testBit 7 = true := by
    rw [Nat.testBit_eq_decide_div_mod_eq]
    exact decide_eq_true (by omega)
  have hsize : (0x80 + sizeField colors.length) % 8 = sizeField colors.length := by omega
  have hlength : (colorTable colors).length = 3 * 2 <<< sizeField colors.length := by
    rw [← length_entries h, colorTable, length_flatMap_colorBytes, entries]
  rw [readTable?, if_pos hset, hsize, take?_append hlength, Option.map_some]
  show some (some (colorsOf (colorTable colors)), rest) = _
  rw [colorTable, colorsOf_flatMap, entries]

/-! ### The colours of an image -/

theorem nodup_eraseDups {α : Type} [BEq α] [LawfulBEq α] :
    ∀ l : List α, l.eraseDups.Nodup
  | [] => List.nodup_nil
  | a :: l => by
      rw [List.eraseDups_cons, List.nodup_cons]
      refine ⟨fun h => ?_, nodup_eraseDups _⟩
      have hmem := List.mem_eraseDups.mp h
      simp at hmem
termination_by l => l.length
decreasing_by exact Nat.lt_succ_of_le (List.length_filter_le _ _)

variable {image : Indexed}

theorem mem_usedColors {c : Color} :
    c ∈ usedColors image ↔ ∃ i ∈ image.pixels.cells, image.colorOf i = c := by
  simp [usedColors]

/-- There are no more colours in an image than in its palette. -/
theorem length_usedColors_le (image : Indexed) : (usedColors image).length ≤ 256 := by
  have hnodup : (usedColors image).Nodup :=
    (List.mergeSort_perm _ _).nodup_iff.mpr (nodup_eraseDups _)
  have hsubset : usedColors image ⊆ image.palette.colors.toList := by
    intro c hc
    obtain ⟨i, -, rfl⟩ := mem_usedColors.mp hc
    exact Array.getElem_mem_toList i.isLt
  have hle := (hnodup.subperm hsubset).length_le
  rw [Array.length_toList] at hle
  exact Nat.le_trans hle image.palette.size_le

/-- Each pixel gets the position of its colour. -/
theorem tableIndices_eq (image : Indexed) (colors : List Color) :
    tableIndices image colors
      = image.pixels.cells.toList.map fun i => colors.idxOf (image.colorOf i) := by
  simp [tableIndices, Indexed.colorOf, Palette.colorAt]

/-- The position of a colour leads back to it. -/
theorem getElem?_entries {colors : List Color} {c : Color} (h : c ∈ colors) :
    (entries colors)[colors.idxOf c]? = some c := by
  rw [entries, List.rightpad, List.getElem?_append_left (List.idxOf_lt_length_of_mem h),
    List.getElem?_idxOf h]

theorem colorOf_mem_usedColors {i : image.palette.Index} (hi : i ∈ image.pixels.cells.toList) :
    image.colorOf i ∈ usedColors image :=
  mem_usedColors.mpr ⟨i, Array.mem_toList_iff.mp hi, rfl⟩

/-- **The pixels of an image are read back as positions in its table.** -/
theorem decode?_tableIndices (image : Indexed) :
    Lzw.decode? (pixelBits (usedColors image).length)
        (Lzw.encode (pixelBits (usedColors image).length)
          (tableIndices image (usedColors image)))
      = some (tableIndices image (usedColors image)) := by
  obtain ⟨hge, hle⟩ := le_pixelBits (usedColors image).length
  refine Lzw.decode?_encode hge (Nat.lt_of_le_of_lt hle (by decide)) fun n hn => ?_
  rw [tableIndices_eq] at hn
  obtain ⟨i, hi, rfl⟩ := List.mem_map.mp hn
  exact Nat.lt_of_lt_of_le (List.idxOf_lt_length_of_mem (colorOf_mem_usedColors hi))
    (le_two_pow_pixelBits (length_usedColors_le image))

end HeapReel.Gif
