/-
Bringing an image onto a palette, without the memory.

The entry for a pixel may come from the table of the palette's own colours, from an earlier
pixel, or from a search.  The answer is the same each time: whatever is remembered for a
colour is what a search for it would find.  That is what `Sound` says, the table starts so,
and a pixel keeps it so.

A colour of the palette has distance zero to its own entries and to no others.  The nearest
entry is therefore its first occurrence, and nothing is lost.
-/
import HeapReel.Indexed
import HeapReel.Proofs.Raster

namespace HeapReel

/-! ### Distances -/

theorem Color.channelDistance_eq_zero_iff {a b : UInt8} : channelDistance a b = 0 ↔ a = b := by
  rw [channelDistance, Nat.mul_eq_zero, or_self, ← UInt8.toNat_inj]
  omega

theorem Color.distance_eq_zero_iff {a b : Color} : distance a b = 0 ↔ a = b := by
  have hsum : distance a b = 0 ↔ channelDistance a.red b.red = 0
      ∧ channelDistance a.green b.green = 0 ∧ channelDistance a.blue b.blue = 0 := by
    unfold distance
    omega
  rw [hsum]
  simp only [channelDistance_eq_zero_iff]
  cases a
  cases b
  simp

namespace Palette

variable {p : Palette}

/-! ### The nearest entry -/

/-- The nearest entry is the first one that no other beats. -/
theorem nearest_eq_iff {c : Color} {i : p.Index} :
    p.nearest c = i ↔ (∀ j : p.Index, c.distance (p.colorAt i) ≤ c.distance (p.colorAt j))
      ∧ ∀ j : p.Index, j < i → c.distance (p.colorAt i) < c.distance (p.colorAt j) := by
  rw [Fin.ext_iff, nearest, List.minIdxOn_eq_iff]
  constructor
  · rintro ⟨_, hmin, hfirst⟩
    exact ⟨fun j => hmin j (by simp), fun j hj => hfirst j hj⟩
  · rintro ⟨hmin, hfirst⟩
    refine ⟨by simp, fun j hj => hmin ⟨j, by simpa using hj⟩, fun j hj => ?_⟩
    exact hfirst ⟨j, Nat.lt_trans hj i.isLt⟩ hj

/-- The first occurrence of a colour is nearest to it. -/
theorem nearest_eq_of_first {c : Color} {i : p.Index} (hi : p.colorAt i = c)
    (hfirst : ∀ j : p.Index, j < i → p.colorAt j ≠ c) : p.nearest c = i := by
  have hzero : c.distance (p.colorAt i) = 0 := Color.distance_eq_zero_iff.mpr hi.symm
  refine nearest_eq_iff.mpr ⟨fun j => ?_, fun j hj => ?_⟩
  · rw [hzero]
    exact Nat.zero_le _
  · rw [hzero]
    exact Nat.pos_of_ne_zero fun h => hfirst j hj (Color.distance_eq_zero_iff.mp h).symm

/-- **A colour of the palette is represented by itself.** -/
theorem colorAt_nearest {c : Color} (h : c ∈ p.colors) : p.colorAt (p.nearest c) = c := by
  obtain ⟨i, hi, hic⟩ := Array.getElem_of_mem h
  obtain ⟨hmin, -⟩ := nearest_eq_iff.mp (rfl : p.nearest c = p.nearest c)
  have hzero : c.distance p.colors[i] = 0 := Color.distance_eq_zero_iff.mpr hic.symm
  have hle : c.distance (p.colorAt (p.nearest c)) ≤ c.distance p.colors[i] := hmin ⟨i, hi⟩
  exact (Color.distance_eq_zero_iff.mp (Nat.le_zero.mp (hzero ▸ hle))).symm

/-! ### What is remembered -/

/-- Every remembered answer is the one that a search would give. -/
def Memo.Sound (memo : p.Memo) : Prop :=
  ∀ c i, memo[c]? = some i → p.nearest c = i

/-- Entering positions from the last to the first leaves each colour at its first one. -/
private theorem getElem?_foldr_insert (is : List p.Index) (c : Color) :
    (is.foldr (fun i (memo : p.Memo) => memo.insert (p.colorAt i) i) ∅)[c]?
      = is.find? fun i => p.colorAt i = c := by
  induction is with
  | nil => simp
  | cons i is ih =>
      rw [List.foldr_cons, Std.HashMap.getElem?_insert, List.find?_cons]
      by_cases h : p.colorAt i = c
      · simp [h]
      · simp only [h, decide_false]
        rw [if_neg (by simpa using h)]
        exact ih

theorem sound_ownColors (p : Palette) : p.ownColors.Sound := by
  intro c i h
  rw [ownColors, getElem?_foldr_insert, List.find?_eq_some_iff_getElem] at h
  obtain ⟨hi, n, hn, hnth, hbefore⟩ := h
  refine nearest_eq_of_first (by simpa using hi) fun j hj => ?_
  have hlt : j.val < n := by
    rw [← hnth] at hj
    simpa [Fin.lt_def] using hj
  simpa using hbefore j hlt

theorem Memo.Sound.insert {memo : p.Memo} (h : memo.Sound) (c : Color) :
    Memo.Sound (memo.insert c (p.nearest c)) := by
  intro d i hd
  rw [Std.HashMap.getElem?_insert] at hd
  split at hd
  · rename_i heq
    rw [← beq_iff_eq.mp heq]
    exact Option.some.inj hd
  · exact h d i hd

/-- A sound memory answers like a search, and stays sound. -/
theorem recall_of_sound {memo : p.Memo} (h : memo.Sound) (c : Color) :
    (p.recall memo c).1 = p.nearest c ∧ Memo.Sound (p.recall memo c).2 := by
  unfold Palette.recall
  split
  · exact ⟨(h c _ ‹_›).symm, h⟩
  · exact ⟨rfl, h.insert c⟩

/-- So every pixel is represented as if it were the first. -/
theorem toList_foldl_represent (cs : List Color) {done : Array p.Index × p.Memo}
    (h : Memo.Sound done.2) :
    (cs.foldl p.represent done).1.toList = done.1.toList ++ cs.map p.nearest := by
  induction cs generalizing done with
  | nil => simp
  | cons c cs ih =>
      obtain ⟨hnearest, hsound⟩ := recall_of_sound h c
      have hrepresent : Memo.Sound (p.represent done c).2 := hsound
      rw [List.foldl_cons, ih hrepresent]
      simp [represent, hnearest]

end Palette

/-! ### Images -/

namespace Indexed

variable {image : Raster Color} {p : Palette}

@[simp] theorem width_ofRaster : (ofRaster image p).width = image.width := rfl

@[simp] theorem height_ofRaster : (ofRaster image p).height = image.height := rfl

/-- **Every pixel holds the nearest entry, whatever came before it.** -/
theorem pixels_ofRaster (image : Raster Color) (p : Palette) :
    (ofRaster image p).pixels = image.map p.nearest := by
  have hcells : (image.cells.foldl p.represent
      (Array.emptyWithCapacity image.cells.size, p.ownColors)).1 = image.cells.map p.nearest := by
    rw [← Array.toList_inj, ← Array.foldl_toList,
      Palette.toList_foldl_represent _ p.sound_ownColors]
    simp
  simp only [ofRaster, Raster.map, hcells]

theorem ofRaster_eq (image : Raster Color) (p : Palette) :
    ofRaster image p = { palette := p, pixels := image.map p.nearest } :=
  congrArg (Indexed.mk p) (pixels_ofRaster image p)

/-- What a pixel becomes depends on nothing but the pixel. -/
theorem color_ofRaster_congr {image' : Raster Color} {x y : Nat}
    (h : image'.get? x y = image.get? x y) :
    (ofRaster image' p).color x y = (ofRaster image p).color x y := by
  rw [ofRaster_eq, ofRaster_eq, color, color, Raster.get?_map, Raster.get?_map, h]
  cases image.get? x y <;> rfl

/-- A pixel whose colour is in the palette keeps it. -/
theorem color_ofRaster {x y : Nat} {c : Color} (hc : image.get? x y = some c)
    (hmem : c ∈ p.colors) : (ofRaster image p).color x y = .ok c := by
  rw [ofRaster_eq, color, Raster.get?_map, hc]
  exact congrArg _ (Palette.colorAt_nearest hmem)

end Indexed

end HeapReel
