/-
How far a rounding goes.

Rounding to an integer moves a number by half a unit at the most, and never across another integer.
Both carry over to numbers with a limited count of digits, because such a rounding is one to an
integer in units of the last digit that is kept.  What it moves a number by is then small compared
with the number itself, unless the number has fewer digits than may be kept; and what it does not
cross are the numbers that need no rounding.
-/
import HeapReel.Rounding
import Mathlib.Data.Nat.Sqrt
import Mathlib.Tactic.Ring

namespace HeapReel.Rounding

/-! ### To an integer -/

/-- The rounded quotient is within half a unit. -/
theorem halfEven_near (num : Nat) {den : Nat} (h : 0 < den) :
    2 * (den * halfEven num den) ≤ 2 * num + den
      ∧ 2 * num ≤ 2 * (den * halfEven num den) + den := by
  have hdiv := Nat.div_add_mod num den
  have hmod := Nat.mod_lt num h
  unfold halfEven
  generalize num / den = q at hdiv ⊢
  dsimp only
  split
  · rw [Nat.mul_add, Nat.mul_one]
    omega
  · omega

/-- Rounding never crosses an integer. -/
theorem halfEven_le {num den k : Nat} (hden : 0 < den) (h : num ≤ den * k) :
    halfEven num den ≤ k := by
  have hdiv := Nat.div_add_mod num den
  by_cases hq : num / den < k
  · unfold halfEven
    dsimp only
    split <;> omega
  · have hk : k ≤ num / den := Nat.le_of_not_lt hq
    have hle : den * k ≤ den * (num / den) := Nat.mul_le_mul_left den hk
    have heq : num / den = k := Nat.div_eq_of_lt_le (by rw [Nat.mul_comm]; omega)
      (by rw [Nat.mul_comm, Nat.mul_succ]; omega)
    have hzero : num % den = 0 := by omega
    simp [halfEven, hzero, heq, Nat.ne_of_gt hden, eq_comm]

/-- A number that `k` reaches when squared has no larger root. -/
theorem sqrt_le_of_le {n k : Nat} (h : n ≤ k * k) : n.sqrt ≤ k := by
  have hle := Nat.sqrt_le_sqrt h
  rwa [Nat.sqrt_eq] at hle

/-- Rounding a root does not cross an integer either. -/
theorem halfEvenRoot_le {num den k : Nat} (hden : 0 < den) (h : num ≤ den * (k * k)) :
    halfEvenRoot num den ≤ k := by
  have hq : (num / den).sqrt ≤ k := sqrt_le_of_le (Nat.div_le_of_le_mul h)
  unfold halfEvenRoot
  generalize (num / den).sqrt = q at hq ⊢
  dsimp only
  split
  · rename_i hup
    rcases Nat.lt_or_eq_of_le hq with hlt | rfl
    · exact hlt
    · -- From `k` itself there is no way up: the middle is above the number.
      have hmiddle : 4 * (den * (q * q)) < den * ((2 * q + 1) * (2 * q + 1)) := by
        calc 4 * (den * (q * q)) = den * (2 * q * (2 * q)) := by ring
          _ < den * ((2 * q + 1) * (2 * q + 1)) :=
            Nat.mul_lt_mul_of_pos_left (Nat.mul_self_lt_mul_self (Nat.lt_succ_self _)) hden
      omega
  · exact hq

/-! ### To some digits -/

/-- What is dropped of a number below `m <<< e` are digits that `m <<< e` does not have. -/
theorem dropped_le {digits n m e : Nat} (hdigits : 0 < digits) (hm : m < 2 ^ digits)
    (h : n ≤ m <<< e) : n.log2 + 1 - digits ≤ e := by
  rcases Nat.eq_zero_or_pos n with rfl | hpos
  · have hzero : Nat.log2 0 = 0 := rfl
    omega
  · have hlt : n < 2 ^ (digits + e) := by
      rw [Nat.shiftLeft_eq] at h
      rw [Nat.pow_add]
      exact Nat.lt_of_le_of_lt h (Nat.mul_lt_mul_of_pos_right hm (Nat.two_pow_pos e))
    have hlog := (Nat.log2_lt (Nat.ne_of_gt hpos)).mpr hlt
    omega

theorem shiftLeft_pos {n : Nat} (h : 0 < n) (k : Nat) : 0 < n <<< k := by
  rw [Nat.shiftLeft_eq]
  exact Nat.mul_pos h (Nat.two_pow_pos k)

theorem shiftLeft_add_eq_mul (m kept dropped : Nat) :
    m <<< (kept + dropped) = m <<< kept * 2 ^ dropped := by
  rw [Nat.shiftLeft_add, Nat.shiftLeft_eq]

/-- **Rounding to some digits never crosses a number that has no more of them.** -/
theorem significant_le {digits num den m e : Nat} (hdigits : 0 < digits) (hden : 0 < den)
    (hm : m < 2 ^ digits) (h : num ≤ den * (m <<< e)) : significant digits num den ≤ m <<< e := by
  have hdropped := dropped_le hdigits hm (Nat.div_le_of_le_mul h)
  unfold significant
  generalize (num / den).log2 + 1 - digits = dropped at hdropped ⊢
  obtain ⟨kept, rfl⟩ := Nat.exists_eq_add_of_le' hdropped
  have hscaled : num ≤ den <<< dropped * (m <<< kept) := by
    calc num ≤ den * (m <<< kept * 2 ^ dropped) := shiftLeft_add_eq_mul m kept dropped ▸ h
      _ = den * 2 ^ dropped * (m <<< kept) := by ring
      _ = den <<< dropped * (m <<< kept) := by rw [Nat.shiftLeft_eq den]
  dsimp only
  rw [shiftLeft_add_eq_mul, Nat.shiftLeft_eq]
  exact Nat.mul_le_mul_right _ (halfEven_le (shiftLeft_pos hden dropped) hscaled)

/-- **Neither does rounding a root.** -/
theorem significantRoot_le {digits n m e : Nat} (hdigits : 0 < digits) (hm : m < 2 ^ digits)
    (h : n ≤ m <<< e * m <<< e) : significantRoot digits n ≤ m <<< e := by
  have hdropped := dropped_le hdigits hm (sqrt_le_of_le h)
  unfold significantRoot
  generalize n.sqrt.log2 + 1 - digits = dropped at hdropped ⊢
  obtain ⟨kept, rfl⟩ := Nat.exists_eq_add_of_le' hdropped
  have hunit : 1 <<< (2 * dropped) = 2 ^ dropped * 2 ^ dropped := by
    rw [Nat.shiftLeft_eq, Nat.one_mul, Nat.two_mul, Nat.pow_add]
  have hscaled : n ≤ 1 <<< (2 * dropped) * (m <<< kept * m <<< kept) := by
    rw [hunit]
    calc n ≤ m <<< kept * 2 ^ dropped * (m <<< kept * 2 ^ dropped) :=
          shiftLeft_add_eq_mul m kept dropped ▸ h
      _ = 2 ^ dropped * 2 ^ dropped * (m <<< kept * m <<< kept) := by ring
  dsimp only
  rw [shiftLeft_add_eq_mul, Nat.shiftLeft_eq]
  exact Nat.mul_le_mul_right _ (halfEvenRoot_le (shiftLeft_pos Nat.one_pos _) hscaled)

/-! ### How far -/

/-- The number `x` is off from `y` by no more than the part `1 / 2 ^ digits` of it. -/
def Near (digits x y : Nat) : Prop :=
  2 ^ digits * x ≤ 2 ^ digits * y + y ∧ 2 ^ digits * y ≤ 2 ^ digits * x + y

theorem Near.refl (digits x : Nat) : Near digits x x :=
  ⟨Nat.le_add_right _ _, Nat.le_add_right _ _⟩

theorem Near.mul_right {digits x y : Nat} (h : Near digits x y) (k : Nat) :
    Near digits (x * k) (y * k) := by
  have hover := Nat.mul_le_mul_right k h.1
  have hunder := Nat.mul_le_mul_right k h.2
  rw [Nat.add_mul, Nat.mul_assoc, Nat.mul_assoc] at hover hunder
  exact ⟨hover, hunder⟩

/-- A number that has no more digits is its own rounding. -/
theorem significant_of_lt {digits n : Nat} (hdigits : 0 < digits) (h : n < 2 ^ digits) :
    significant digits n 1 = n := by
  have hdropped : (n / 1).log2 + 1 - digits = 0 := by
    have hle := dropped_le (n := n) (e := 0) hdigits h (Nat.le_refl _)
    rw [Nat.div_one]
    omega
  unfold significant
  rw [hdropped]
  simp [halfEven, Nat.mod_one]

/-- The last digit that is kept counts no more than the first one allows. -/
theorem unit_le {digits num den : Nat} (hdigits : 0 < digits) (hden : 0 < den)
    (h : 2 ^ (digits - 1) * den ≤ num) :
    2 ^ (digits - 1) * (den <<< ((num / den).log2 + 1 - digits)) ≤ num := by
  have hq : 2 ^ (digits - 1) ≤ num / den := (Nat.le_div_iff_mul_le hden).mpr h
  have hne : num / den ≠ 0 := Nat.ne_of_gt (Nat.lt_of_lt_of_le (Nat.two_pow_pos _) hq)
  have hlog : digits - 1 ≤ (num / den).log2 := (Nat.le_log2 hne).mpr hq
  have hexponent : digits - 1 + ((num / den).log2 + 1 - digits) = (num / den).log2 := by omega
  calc 2 ^ (digits - 1) * (den <<< ((num / den).log2 + 1 - digits))
      = 2 ^ (digits - 1 + ((num / den).log2 + 1 - digits)) * den := by
        rw [Nat.shiftLeft_eq, Nat.pow_add]
        ring
    _ = 2 ^ (num / den).log2 * den := by rw [hexponent]
    _ ≤ num / den * den := Nat.mul_le_mul_right den (Nat.log2_self_le hne)
    _ ≤ num := Nat.div_mul_le_self num den

/-- **A quotient that is not too small for its digits is near to its rounding.** -/
theorem significant_near {digits num den : Nat} (hdigits : 0 < digits) (hden : 0 < den)
    (h : 2 ^ (digits - 1) * den ≤ num) : Near digits (den * significant digits num den) num := by
  have hunit := unit_le hdigits hden h
  unfold significant
  generalize (num / den).log2 + 1 - digits = dropped at hunit ⊢
  obtain ⟨hover, hunder⟩ := halfEven_near num (shiftLeft_pos hden dropped)
  have hsize : den * (halfEven num (den <<< dropped) <<< dropped)
      = den <<< dropped * halfEven num (den <<< dropped) := by
    rw [Nat.shiftLeft_eq, Nat.shiftLeft_eq]
    ring
  have htwice : 2 ^ digits = 2 ^ (digits - 1) * 2 := by
    rw [← Nat.pow_succ, Nat.succ_eq_add_one, Nat.sub_add_cancel hdigits]
  have hover' := Nat.mul_le_mul_left (2 ^ (digits - 1)) hover
  have hunder' := Nat.mul_le_mul_left (2 ^ (digits - 1)) hunder
  dsimp only
  rw [hsize, Near, htwice]
  simp only [Nat.mul_add, ← Nat.mul_assoc] at hover' hunder' hunit ⊢
  omega

/-- A number is near to its rounding. -/
theorem significant_one_near {digits : Nat} (hdigits : 0 < digits) (n : Nat) :
    Near digits (significant digits n 1) n := by
  by_cases h : n < 2 ^ digits
  · rw [significant_of_lt hdigits h]
    exact Near.refl digits n
  · have hle : 2 ^ (digits - 1) * 1 ≤ n := by
      rw [Nat.mul_one]
      exact Nat.le_trans (Nat.pow_le_pow_right (by decide) (Nat.sub_le digits 1))
        (Nat.le_of_not_lt h)
    simpa only [Nat.one_mul] using significant_near hdigits Nat.one_pos hle

end HeapReel.Rounding
