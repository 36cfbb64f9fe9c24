/-
The view of the operations that put images together.

Filling, scaling and laying one image over another are described by the value at a
position, like the operations beside the type.  A scaled image shows at a position what the
image shows at the position divided by the factor; an overlaid one shows what is on top
where something is on top.
-/
import HeapReel.Raster

namespace HeapReel.Raster

variable {α β γ : Type}

theorem get?_eq_none {r : Raster α} {x y : Nat} (h : ¬(x < r.width ∧ y < r.height)) :
    r.get? x y = none :=
  dif_neg h

theorem get?_of_lt {r : Raster α} {x y : Nat} (hx : x < r.width) (hy : y < r.height) :
    r.get? x y = some (r.get ⟨x, hx⟩ ⟨y, hy⟩) :=
  dif_pos ⟨hx, hy⟩

/-- A position outside changes nothing. -/
theorem set_of_not_lt {r : Raster α} {x y : Nat} {a : α} (h : ¬(x < r.width ∧ y < r.height)) :
    r.set x y a = r := by
  cases r
  exact if_neg h

theorem get?_filled {w h x y : Nat} {a : α} (hx : x < w) (hy : y < h) :
    (filled w h a).get? x y = some a := by
  have hcell : y * w + x < w * h := cell_lt hx hy
  rw [get?_eq_getElem? hx hy]
  simp [filled, hcell]

theorem map_map {r : Raster α} {f : α → β} {g : β → γ} : (r.map f).map g = r.map (g ∘ f) := by
  simp only [map, Array.map_map]

theorem map_id {r : Raster α} : r.map id = r := by
  simp only [map, Array.map_id]

/-! ### Scaling -/

/-- With a factor that is not zero, scaling is one rule also where it changes nothing. -/
theorem get?_scale {r : Raster α} {factor : Nat} (hpos : 0 < factor) (x y : Nat) :
    (r.scale factor).get? x y = r.get? (x / factor) (y / factor) := by
  unfold scale
  by_cases hone : factor ≤ 1
  · have h : factor = 1 := Nat.le_antisymm hone hpos
    rw [if_pos hone, h, Nat.div_one, Nat.div_one]
  · rw [if_neg hone, get?_ofFn]
    by_cases hin : x < r.width * factor ∧ y < r.height * factor
    · rw [dif_pos hin, get?_of_lt]
    · have hout : ¬(x / factor < r.width ∧ y / factor < r.height) := by
        rwa [Nat.div_lt_iff_lt_mul hpos, Nat.div_lt_iff_lt_mul hpos]
      rw [dif_neg hin, get?_eq_none hout]

theorem width_scale {r : Raster α} {factor : Nat} (hpos : 0 < factor) :
    (r.scale factor).width = r.width * factor := by
  unfold scale
  split
  · rw [Nat.le_antisymm ‹factor ≤ 1› hpos, Nat.mul_one]
  · rfl

theorem height_scale {r : Raster α} {factor : Nat} (hpos : 0 < factor) :
    (r.scale factor).height = r.height * factor := by
  unfold scale
  split
  · rw [Nat.le_antisymm ‹factor ≤ 1› hpos, Nat.mul_one]
  · rfl

/-! ### Laying one image over another -/

/-- Where the upper image has a value, that value is seen. -/
theorem get?_overlay_of_some {r top : Raster α} {left above x y : Nat} {a : α}
    (hx : left + x < r.width) (hy : above + y < r.height) (htop : top.get? x y = some a) :
    (r.overlay top left above).get? (left + x) (above + y) = some a := by
  have hcorner : left ≤ left + x ∧ above ≤ above + y :=
    ⟨Nat.le_add_right _ _, Nat.le_add_right _ _⟩
  rw [overlay, get?_ofFn, dif_pos ⟨hx, hy⟩, if_pos hcorner, Nat.add_sub_cancel_left,
    Nat.add_sub_cancel_left, htop, Option.getD_some]

/-- Where the upper image has none, the lower one is seen. -/
theorem get?_overlay_of_none {r top : Raster α} {left above x y : Nat}
    (htop : left ≤ x → above ≤ y → top.get? (x - left) (y - above) = none) :
    (r.overlay top left above).get? x y = r.get? x y := by
  rw [overlay, get?_ofFn]
  by_cases hin : x < r.width ∧ y < r.height
  · rw [dif_pos hin, get?_of_lt hin.1 hin.2]
    split
    · rename_i hcorner
      rw [htop hcorner.1 hcorner.2, Option.getD_none]
    · rfl
  · rw [dif_neg hin, get?_eq_none hin]

end HeapReel.Raster
