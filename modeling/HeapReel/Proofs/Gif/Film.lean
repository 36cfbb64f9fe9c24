/-
A stream that a writer has written is read as the film of its images.

The parts of a stream are read one by one: the announcement that the film repeats for ever,
then two parts for each image, how it is shown and the image itself, then the end.  What a
viewer makes of the two parts is a picture of the size of the image, with its delay and its
colours.  A film of many images follows by induction on them.
-/
import HeapReel.Proofs.Gif.Stream

namespace HeapReel.Gif

variable {rest : List UInt8} {image : Indexed} {delay : Nat}

/-! ### Parts -/

/-- A part is read where it begins, and the other parts after it. -/
theorem readParts?_cons {kind : UInt8} {bytes : List UInt8} {part : Part} (hkind : kind ≠ 0x3b)
    (hread : readPart? kind bytes = some (part, rest)) :
    readParts? (kind :: bytes) = (readParts? rest).map (part :: ·) := by
  rw [readParts?, if_neg hkind]
  split
  · rename_i hnone
    rw [hread] at hnone
    cases hnone
  · rename_i hsome
    rw [hread] at hsome
    obtain ⟨rfl, rfl⟩ := Prod.mk.inj (Option.some.inj hsome)
    rfl

theorem readParts?_trailer : readParts? trailer = some [] := by
  rw [trailer, readParts?, if_pos rfl]
  rfl

/-- How an image is shown is read back. -/
theorem readPart?_control {n : Nat} (h : n ≤ maxWord) :
    readPart? 0x21 ([0xf9, 4, 8] ++ word n ++ [0, 0] ++ rest)
      = some (.control n none, rest) := by
  let data : List UInt8 := [8, UInt8.ofNat n, UInt8.ofNat (n / 256), 0]
  have hdata : readBlocks? (4 :: (data ++ 0 :: rest)) = some (data, rest) :=
    readBlocks?_single rfl (List.cons_ne_nil _ _)
  have hpart : Part.ofExtension? 0xf9 data = some (.control n none) := by
    have hword : ((UInt8.ofNat n).toNat + 256 * (UInt8.ofNat (n / 256)).toNat, [])
        = (n, ([] : List UInt8)) :=
      Option.some.inj (readWord?_word h)
    rw [← (Prod.mk.inj hword).1]
    rfl
  show readExtension? (0xf9 :: 4 :: (data ++ 0 :: rest)) = _
  simp only [readExtension?, readByte?, bind, Option.bind_some, hdata]
  show (Part.ofExtension? 0xf9 data).bind (fun part => some (part, rest)) = _
  rw [hpart, Option.bind_some]

/-- The announcement that the film repeats for ever is read back. -/
theorem readPart?_times :
    readPart? 0x21 ([0xff, 11] ++ loopName ++ [3, 1] ++ word 0 ++ [0] ++ rest)
      = some (.times 0, rest) := by
  have htimes : readBlocks? (3 :: ([1, 0, 0] ++ 0 :: rest)) = some ([1, 0, 0], rest) :=
    readBlocks?_single rfl (List.cons_ne_nil _ _)
  have hdata : readBlocks? (11 :: (loopName ++ 3 :: ([1, 0, 0] ++ 0 :: rest)))
      = some (loopName ++ [1, 0, 0], rest) :=
    readBlocks?_block rfl (List.cons_ne_nil _ _) htimes
  show readExtension? (0xff :: 11 :: (loopName ++ 3 :: ([1, 0, 0] ++ 0 :: rest))) = _
  simp only [readExtension?, readByte?, bind, Option.bind_some, hdata]
  rfl

/-- The bytes of an image after the byte that announces it. -/
def imageBody (image : Indexed) : List UInt8 :=
  word 0 ++ word 0 ++ word image.width ++ word image.height
    ++ [UInt8.ofNat (0x80 + sizeField (usedColors image).length)]
    ++ colorTable (usedColors image)
    ++ UInt8.ofNat (pixelBits (usedColors image).length)
      :: blocks (Lzw.encode (pixelBits (usedColors image).length)
          (tableIndices image (usedColors image)))

/-- An image is read back as the positions of its pixels in its table. -/
theorem readPart?_image (hfits : Fits image) :
    readPart? 0x2c (imageBody image ++ rest)
      = some (.image 0 0 image.width image.height (some (entries (usedColors image)))
          (tableIndices image (usedColors image)), rest) := by
  obtain ⟨hwidth, hheight⟩ := hfits
  have hflags := toNat_flags (usedColors image).length
  have hbits : (UInt8.ofNat (pixelBits (usedColors image).length)).toNat
      = pixelBits (usedColors image).length := by
    have := (le_pixelBits (usedColors image).length).2
    rw [UInt8.toNat_ofNat']
    omega
  have horder : (0x80 + sizeField (usedColors image).length).testBit 6 = false := by
    have := sizeField_le (usedColors image).length
    rw [Nat.testBit_eq_decide_div_mod_eq]
    exact decide_eq_false (by omega)
  show readImage? (imageBody image ++ rest) = _
  simp only [readImage?, imageBody, List.append_assoc, bind,
    readWord?_word (Nat.zero_le maxWord), readWord?_word hwidth, readWord?_word hheight,
    Option.bind_some, List.cons_append, List.nil_append, readByte?, hflags, horder, hbits,
    readTable?_colorTable (length_usedColors_le image), readBlocks?_blocks,
    decode?_tableIndices]
  rfl

/-- The parts that an image is written as. -/
def imageParts (delay : Nat) (image : Indexed) : List Part :=
  [.control (hundredths delay) none,
    .image 0 0 image.width image.height (some (entries (usedColors image)))
      (tableIndices image (usedColors image))]

theorem hundredths_le (delay : Nat) : hundredths delay ≤ maxWord :=
  Nat.min_le_right _ _

theorem readParts?_imageBytes (hfits : Fits image) :
    readParts? (imageBytes delay image ++ rest)
      = (readParts? rest).map (imageParts delay image ++ ·) := by
  have hbytes : imageBytes delay image ++ rest
      = 0x21 :: ([0xf9, 4, 8] ++ word (hundredths delay) ++ [0, 0]
        ++ 0x2c :: (imageBody image ++ rest)) := by
    simp only [imageBytes, imageBody, List.append_assoc, List.cons_append, List.nil_append]
  rw [hbytes, readParts?_cons (by decide) (readPart?_control (hundredths_le delay)),
    readParts?_cons (by decide) (readPart?_image hfits), Option.map_map]
  rfl

/-- The images of a stream are read up to its end. -/
theorem readParts?_images {images : List Indexed} (hfits : ∀ image ∈ images, Fits image) :
    readParts? ((images.map (imageBytes delay)).flatten ++ trailer)
      = some (images.flatMap (imageParts delay)) := by
  induction images with
  | nil => exact readParts?_trailer
  | cons image images ih =>
      rw [List.map_cons, List.flatten_cons, List.append_assoc,
        readParts?_imageBytes (hfits image List.mem_cons_self),
        ih fun other h => hfits other (List.mem_cons_of_mem image h), Option.map_some,
        List.flatMap_cons]

/-! ### Pictures -/

/-- The picture that shows an image. -/
def Picture.ofImage (delay : Nat) (image : Indexed) : Picture where
  left := 0
  above := 0
  image := image.expand.map some
  delay := hundredths delay

theorem mapM_eq_some {α β : Type} {f : α → Option β} {g : α → β} {l : List α}
    (h : ∀ a ∈ l, f a = some (g a)) : l.mapM f = some (l.map g) := by
  induction l with
  | nil => rfl
  | cons a l ih =>
      rw [List.mapM_cons, h a List.mem_cons_self, ih fun b hb => h b (List.mem_cons_of_mem a hb)]
      rfl

/-- The positions of the pixels lead back to their colours. -/
theorem Picture.ofIndices?_tableIndices (delay : Nat) (image : Indexed) :
    Picture.ofIndices? 0 0 image.width image.height (hundredths delay) none
        (entries (usedColors image)) (tableIndices image (usedColors image))
      = some (.ofImage delay image) := by
  have hpixels : (tableIndices image (usedColors image)).mapM (fun i : Nat =>
        if (none : Option Nat) = some i then some none
        else (entries (usedColors image))[i]?.map some)
      = some (image.pixels.cells.toList.map fun i => some (image.colorOf i)) := by
    rw [tableIndices_eq, List.mapM_map]
    refine mapM_eq_some fun i hi => ?_
    show (entries (usedColors image))[(usedColors image).idxOf (image.colorOf i)]?.map some = _
    rw [getElem?_entries (colorOf_mem_usedColors hi), Option.map_some]
  have hsize : (image.pixels.cells.toList.map fun i => some (image.colorOf i)).toArray.size
      = image.width * image.height := by
    rw [List.size_toArray, List.length_map, Array.length_toList]
    exact image.pixels.size_cells
  refine (congrArg (Option.bind · _) hpixels).trans ?_
  rw [Option.bind_some, dif_pos hsize]
  have hcells : (image.pixels.cells.toList.map fun i => some (image.colorOf i)).toArray
      = (image.pixels.cells.map image.colorOf).map some := by
    simp [← Array.toList_inj]
  simp only [ofImage, Indexed.expand, Raster.map, hcells]
  rfl

/-! ### The film -/

/-- Each image adds its picture. -/
theorem Film.ofParts?_images (f : Film) (colors : List Color) (images : List Indexed) :
    f.ofParts? colors 0 none (images.flatMap (imageParts delay))
      = some { f with pictures := f.pictures ++ images.map (Picture.ofImage delay) } := by
  induction images generalizing f with
  | nil => simp [ofParts?]
  | cons image images ih =>
      rw [List.flatMap_cons, imageParts, List.cons_append, List.cons_append, List.nil_append,
        ofParts?, ofParts?, Option.getD_some, Picture.ofIndices?_tableIndices]
      refine (ih _).trans ?_
      simp only [List.map_cons, List.append_assoc, List.singleton_append]

/-- **A stream is read as the film of its images.** -/
theorem Film.ofBytes?_stream {width height : Nat} {images : List Indexed}
    (hwidth : width ≤ maxWord) (hheight : height ≤ maxWord)
    (hfits : ∀ image ∈ images, Fits image) :
    Film.ofBytes? (header width height ++ (images.map (imageBytes delay)).flatten ++ trailer)
      = some
          { width, height, times := some 0, pictures := images.map (Picture.ofImage delay) } := by
  generalize htail : (0x21 : UInt8) :: ([0xff, 11] ++ loopName ++ [3, 1] ++ word 0 ++ [0]
    ++ ((images.map (imageBytes delay)).flatten ++ trailer)) = tail
  have hparts : readParts? tail = some (.times 0 :: images.flatMap (imageParts delay)) := by
    rw [← htail, readParts?_cons (by decide) readPart?_times, readParts?_images hfits,
      Option.map_some]
  have hbytes : header width height ++ (images.map (imageBytes delay)).flatten ++ trailer
      = signature ++ (word width ++ (word height
        ++ (0x80 :: ([0, 0] ++ ([0, 0, 0, 0, 0, 0] ++ tail))))) := by
    simp only [← htail, header, List.append_assoc, List.cons_append, List.nil_append]
  have hskip : take? 2 ([0, 0] ++ ([0, 0, 0, 0, 0, 0] ++ tail))
      = some ([0, 0], [0, 0, 0, 0, 0, 0] ++ tail) :=
    take?_append rfl
  have htable : readTable? (0x80 : UInt8).toNat ([0, 0, 0, 0, 0, 0] ++ tail)
      = some (some [.black, .black], tail) :=
    @readTable?_colorTable tail [.black, .black] (by decide)
  rw [hbytes, ofBytes?, take?_append rfl]
  simp only [bind, Option.bind_some, if_true, readWord?_word hwidth, readWord?_word hheight,
    readByte?, hskip, htable, hparts]
  exact ofParts?_images _ _ images

end HeapReel.Gif
