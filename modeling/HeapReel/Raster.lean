/-
Rectangular images.

A raster holds one value for each pixel, row by row from the top, each row from the left.
Its view is `get?`: every operation is described by what it does to the value at a
position, and positions outside hold nothing.
-/

namespace HeapReel

/-- A `width` by `height` image. -/
structure Raster (α : Type) where
  width : Nat
  height : Nat
  cells : Array α
  size_cells : cells.size = width * height

namespace Raster

variable {α β : Type}

/-- A position inside has its cell. -/
theorem cell_lt {w h x y : Nat} (hx : x < w) (hy : y < h) : y * w + x < w * h := by
  have : (y + 1) * w ≤ h * w := Nat.mul_le_mul_right w hy
  rw [Nat.add_mul, Nat.one_mul] at this
  rw [Nat.mul_comm w h]
  omega

/-- The value at a position inside. -/
def get (r : Raster α) (x : Fin r.width) (y : Fin r.height) : α :=
  have hcell : y.val * r.width + x.val < r.cells.size := by
    rw [r.size_cells]
    exact cell_lt x.isLt y.isLt
  r.cells[y.val * r.width + x.val]

/-- The value at a position, if it is inside. -/
def get? (r : Raster α) (x y : Nat) : Option α :=
  if h : x < r.width ∧ y < r.height then some (r.get ⟨x, h.1⟩ ⟨y, h.2⟩) else none

/-- The image whose value at each position is given by `f`. -/
def ofFn (width height : Nat) (f : Fin width → Fin height → α) : Raster α where
  width := width
  height := height
  cells := Array.ofFn fun i : Fin (width * height) =>
    have hw : 0 < width := Nat.pos_of_mul_pos_right (Nat.lt_of_le_of_lt (Nat.zero_le _) i.isLt)
    f ⟨i.val % width, Nat.mod_lt _ hw⟩
      ⟨i.val / width, Nat.div_lt_of_lt_mul i.isLt⟩
  size_cells := Array.size_ofFn

/-- An image of one value. -/
def filled (width height : Nat) (a : α) : Raster α where
  width := width
  height := height
  cells := Array.replicate (width * height) a
  size_cells := Array.size_replicate

/-- The image with `a` at a position; a position outside changes nothing. -/
def set (r : Raster α) (x y : Nat) (a : α) : Raster α :=
  match r with
  | ⟨w, h, cells, hsize⟩ =>
      if x < w ∧ y < h then
        ⟨w, h, cells.setIfInBounds (y * w + x) a, by rw [Array.size_setIfInBounds]; exact hsize⟩
      else ⟨w, h, cells, hsize⟩

/-- The image with `f` applied to every value. -/
def map (f : α → β) (r : Raster α) : Raster β where
  width := r.width
  height := r.height
  cells := r.cells.map f
  size_cells := by rw [Array.size_map]; exact r.size_cells

/-- Every pixel becomes a square of `factor` by `factor` pixels.  A factor of zero leaves
the image as it is. -/
def scale (r : Raster α) (factor : Nat) : Raster α :=
  if factor ≤ 1 then r
  else
    ofFn (r.width * factor) (r.height * factor) fun x y =>
      r.get ⟨x.val / factor, Nat.div_lt_of_lt_mul (Nat.lt_of_lt_of_eq x.isLt (Nat.mul_comm ..))⟩
        ⟨y.val / factor, Nat.div_lt_of_lt_mul (Nat.lt_of_lt_of_eq y.isLt (Nat.mul_comm ..))⟩

/-- `r` with `top` laid over it, the corner of `top` at `(left, above)`.  What sticks out is
cropped. -/
def overlay (r top : Raster α) (left above : Nat) : Raster α :=
  ofFn r.width r.height fun x y =>
    if left ≤ x.val ∧ above ≤ y.val then
      (top.get? (x.val - left) (y.val - above)).getD (r.get x y)
    else r.get x y

/-- The rows from the top, each from the left. -/
def rows (r : Raster α) : List (List α) :=
  (List.finRange r.height).map fun y => (List.finRange r.width).map fun x => r.get x y

/-! ### The view of each operation -/

@[simp] theorem width_ofFn {w h : Nat} {f : Fin w → Fin h → α} : (ofFn w h f).width = w := rfl

@[simp] theorem height_ofFn {w h : Nat} {f : Fin w → Fin h → α} : (ofFn w h f).height = h := rfl

@[simp] theorem width_filled {w h : Nat} {a : α} : (filled w h a).width = w := rfl

@[simp] theorem height_filled {w h : Nat} {a : α} : (filled w h a).height = h := rfl

@[simp] theorem width_map {f : α → β} {r : Raster α} : (r.map f).width = r.width := rfl

@[simp] theorem height_map {f : α → β} {r : Raster α} : (r.map f).height = r.height := rfl

@[simp] theorem width_overlay {r top : Raster α} {x y : Nat} :
    (r.overlay top x y).width = r.width := rfl

@[simp] theorem height_overlay {r top : Raster α} {x y : Nat} :
    (r.overlay top x y).height = r.height := rfl

@[simp] theorem width_set {r : Raster α} {x y : Nat} {a : α} :
    (r.set x y a).width = r.width := by
  unfold set; split; split <;> rfl

@[simp] theorem height_set {r : Raster α} {x y : Nat} {a : α} :
    (r.set x y a).height = r.height := by
  unfold set; split; split <;> rfl

theorem get?_eq_getElem? {r : Raster α} {x y : Nat} (hx : x < r.width) (hy : y < r.height) :
    r.get? x y = r.cells[y * r.width + x]? := by
  simp [get?, get, hx, hy, r.size_cells, cell_lt hx hy]

@[simp] theorem get?_ofFn {w h : Nat} {f : Fin w → Fin h → α} {x y : Nat} :
    (ofFn w h f).get? x y
      = if hxy : x < w ∧ y < h then some (f ⟨x, hxy.1⟩ ⟨y, hxy.2⟩) else none := by
  by_cases hxy : x < w ∧ y < h
  · have hw : 0 < w := Nat.lt_of_le_of_lt (Nat.zero_le x) hxy.1
    simp [get?, get, hxy, ofFn, Nat.mul_comm y w, Nat.mod_eq_of_lt hxy.1,
      Nat.mul_add_div hw, Nat.div_eq_of_lt hxy.1]
  · simp [get?, hxy]

theorem get?_set {r : Raster α} {x y px py : Nat} {a : α} :
    (r.set x y a).get? px py
      = if px = x ∧ py = y then (r.get? x y).map fun _ => a else r.get? px py := by
  by_cases hin : px < r.width ∧ py < r.height
  · rw [get?_eq_getElem? (by simpa using hin.1) (by simpa using hin.2), width_set]
    by_cases hxy : x < r.width ∧ y < r.height
    · have hcell := cell_lt hxy.1 hxy.2
      have hcells : (r.set x y a).cells = r.cells.setIfInBounds (y * r.width + x) a := by
        cases r; simp_all [set]
      rw [hcells, Array.getElem?_setIfInBounds]
      by_cases hp : px = x ∧ py = y
      · simp [hp, get?, hxy, r.size_cells, hcell]
      · have hne : y * r.width + x ≠ py * r.width + px := by
          intro heq
          have hw : 0 < r.width := Nat.lt_of_le_of_lt (Nat.zero_le x) hxy.1
          have hdiv := congrArg (· / r.width) heq
          have hmod := congrArg (· % r.width) heq
          simp only [Nat.mul_comm _ r.width, Nat.mul_add_div hw, Nat.mul_add_mod,
            Nat.div_eq_of_lt hxy.1, Nat.div_eq_of_lt hin.1, Nat.mod_eq_of_lt hxy.1,
            Nat.mod_eq_of_lt hin.1] at hdiv hmod
          exact hp ⟨hmod.symm, by omega⟩
        rw [if_neg hne, if_neg hp, get?_eq_getElem? hin.1 hin.2]
    · have hset : r.set x y a = r := by cases r; exact if_neg hxy
      have hp : ¬(px = x ∧ py = y) := by rintro ⟨rfl, rfl⟩; exact hxy hin
      rw [hset, if_neg hp, get?_eq_getElem? hin.1 hin.2]
  · have hnone : ∀ q : Raster α, q.width = r.width → q.height = r.height →
        q.get? px py = none := by
      intro q hw hh
      simp [get?, hw, hh, hin]
    rw [hnone _ width_set height_set, hnone r rfl rfl]
    split
    · rename_i hp
      obtain ⟨rfl, rfl⟩ := hp
      simp [get?, hin]
    · rfl

@[simp] theorem get?_map {r : Raster α} {f : α → β} {x y : Nat} :
    (r.map f).get? x y = (r.get? x y).map f := by
  by_cases h : x < r.width ∧ y < r.height
  · simp [get?, get, h, map]
  · simp [get?, h]

end Raster

end HeapReel
