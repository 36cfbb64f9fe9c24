/-
The ceiling of a square root, from an estimate.

Two loops correct the estimate.  Going down ends at a root whose square is not above the number, or
at an estimate that was low already; going up from there stops at the first root whose square
reaches the number.  So the answer is the least such root, and the estimate leaves no trace in it.

That is so if the estimate can be squared.  One that cannot is left as it is, and `2 ^ 32` is the
only one that may be.  The estimate in double precision is never above that, and it is that only if
the least root is.  Rounding does not cross a double, and so `2 ^ 32` bounds all estimates.  The
square of the largest half word is no double, but the root of the next double above it still rounds
to less than `2 ^ 32`.
-/
import HeapReel.Grid.Root
import HeapReel.Proofs.Rounding
import Mathlib.Data.Nat.Find
import Mathlib.Order.Bounds.Basic

namespace HeapReel

/-! ### Bounds on doubles -/

namespace Binary64

variable {n size m e : Nat}

/-- A number below a double does not become a larger one. -/
theorem ofNat_le (hm : m < 2 ^ digits) (hfinite : m <<< e < sizeLimit) (h : unit * n ≤ m <<< e) :
    ∃ size ≤ m <<< e, ofNat n = .finite false size := by
  have hsize : Rounding.significant digits (unit * n) 1 ≤ m <<< e := by
    refine Rounding.significant_le (by decide) Nat.one_pos hm ?_
    rwa [Nat.one_mul]
  exact ⟨_, hsize, if_pos (Nat.lt_of_le_of_lt hsize hfinite)⟩

/-- Neither does a root below a double. -/
theorem sqrt_le (hm : m < 2 ^ digits) (h : unit * size ≤ m <<< e * m <<< e) :
    ∃ root ≤ m <<< e, (Binary64.finite false size).sqrt = .finite false root := by
  by_cases hzero : size = 0
  · exact ⟨0, Nat.zero_le _, by simp [sqrt, hzero]⟩
  · exact ⟨_, Rounding.significantRoot_le (by decide) hm h, by simp [sqrt, hzero]⟩

theorem toWord_le {k : Nat} (h : size < (k + 1) * unit) :
    (Binary64.finite false size).toWord ≤ k := by
  have hwhole : size / unit ≤ k := Nat.le_of_lt_succ (Nat.div_lt_of_lt_mul (Nat.mul_comm _ _ ▸ h))
  exact Nat.le_trans (Nat.min_le_left _ _) hwhole

end Binary64

namespace Root

variable {n r start : Nat}

/-! ### The least root -/

theorem exists_isLeast (n : Nat) : ∃ root, IsLeast {r | n ≤ r * r} root := by
  have hreach : ∃ r, n ≤ r * r := ⟨n, Nat.le_mul_self n⟩
  exact ⟨Nat.find hreach, Nat.find_spec hreach, fun r hr => Nat.find_min' hreach hr⟩

/-- The least root that reaches a word is no longer than half a word. -/
theorem le_of_isLeast {root : Nat} (hroot : IsLeast {r | n ≤ r * r} root)
    (hn : n ≤ UInt64.size) : root ≤ UInt32.size :=
  hroot.2 hn

/-- A root is the least that reaches `n` if the root before it does not. -/
theorem isLeast_succ_iff :
    IsLeast {r | n ≤ r * r} (r + 1) ↔ r * r < n ∧ n ≤ (r + 1) * (r + 1) := by
  constructor
  · rintro ⟨hreach, hleast⟩
    refine ⟨?_, hreach⟩
    by_contra hshort
    exact Nat.not_succ_le_self r (hleast (Nat.le_of_not_lt hshort))
  · rintro ⟨hshort, hreach⟩
    refine ⟨hreach, ?_⟩
    intro s hs
    by_contra hlt
    have hle : s ≤ r := Nat.le_of_lt_succ (Nat.lt_of_not_le hlt)
    exact Nat.not_le_of_lt hshort (Nat.le_trans hs (Nat.mul_le_mul hle hle))

/-- Above the square of the largest half word the root is no half word. -/
theorem isLeast_size_iff (hn : n ≤ UInt64.size) :
    IsLeast {r | n ≤ r * r} UInt32.size ↔ (UInt32.size - 1) * (UInt32.size - 1) < n := by
  have hsize : UInt32.size = UInt32.size - 1 + 1 := rfl
  rw [hsize, isLeast_succ_iff]
  exact and_iff_left hn

/-! ### The loops -/

theorem square?_of_lt (h : r < UInt32.size) : square? r = some (r * r) :=
  square?_eq_some_iff.mpr ⟨h, rfl⟩

theorem square?_of_not_lt (h : ¬r < UInt32.size) : square? r = none := by
  rw [Option.eq_none_iff_forall_ne_some]
  intro q hq
  exact h (square?_eq_some_iff.mp hq).1

/-- Going down ends at or below the start, at a root that is not too large. -/
theorem descend_spec (n : Nat) (h : start < UInt32.size) :
    descend n start ≤ start ∧ descend n start * descend n start ≤ n := by
  induction start with
  | zero => simp [descend]
  | succ r ih =>
      have hr := ih (Nat.lt_of_succ_lt h)
      simp only [descend, square?_of_lt h]
      split
      · exact ⟨Nat.le_succ_of_le hr.1, hr.2⟩
      · rename_i hle
        exact ⟨Nat.le_refl _, Nat.le_of_not_lt hle⟩

theorem descend_of_square?_eq_none (h : square? r = none) : descend n r = r := by
  cases r with
  | zero => rfl
  | succ r => simp only [descend, h]

theorem ascend_of_square? {q : Nat} (h : square? r = some q) :
    ascend n r = if q < n then ascend n (r + 1) else r := by
  rw [ascend]
  split
  · rename_i q' hq'
    rw [h, Option.some.injEq] at hq'
    rw [hq']
  · rename_i hnone
    rw [h] at hnone
    cases hnone

theorem ascend_of_square?_eq_none (h : square? r = none) : ascend n r = r := by
  rw [ascend]
  split
  · rename_i q hq
    rw [h] at hq
    cases hq
  · rfl

/-- Going up from below the least root that reaches `n` ends at that root. -/
theorem ascend_eq {root : Nat} (hroot : IsLeast {r | n ≤ r * r} root) (hlt : root ≤ UInt32.size)
    (h : r ≤ root) : ascend n r = root := by
  induction hd : root - r generalizing r with
  | zero =>
      have hr : r = root := by omega
      subst hr
      have hreach : n ≤ r * r := hroot.1
      cases hq : square? r with
      | none => exact ascend_of_square?_eq_none hq
      | some q =>
          rw [ascend_of_square? hq, (square?_eq_some_iff.mp hq).2,
            if_neg (Nat.not_lt.mpr hreach)]
  | succ d ih =>
      have hshort : r * r < n := by
        by_contra hc
        have : root ≤ r := hroot.2 (Nat.le_of_not_lt hc)
        omega
      rw [ascend_of_square? (square?_of_lt (by omega)), if_pos hshort]
      exact ih (by omega) (by omega)

/-! ### The correction -/

/-- **Any estimate that can be squared is corrected to the least root that reaches `n`.** -/
theorem settle_eq {root : Nat} (hroot : IsLeast {r | n ≤ r * r} root)
    (hlt : root ≤ UInt32.size) (hstart : start < UInt32.size) : settle n start = root := by
  obtain ⟨-, hle⟩ := descend_spec n hstart
  have hreach : n ≤ root * root := hroot.1
  refine ascend_eq hroot hlt ?_
  by_contra hc
  have := Nat.mul_self_lt_mul_self (Nat.lt_of_not_le hc)
  omega

/-- An estimate that cannot be squared is left as it is. -/
theorem settle_of_not_lt (h : ¬start < UInt32.size) : settle n start = start := by
  have hnone := square?_of_not_lt h
  rw [settle, descend_of_square?_eq_none hnone, ascend_of_square?_eq_none hnone]

/-- **The estimates that lead to the least root are those that can be squared, and `2 ^ 32` if it
is that root.** -/
theorem isLeast_settle_iff (hn : n ≤ UInt64.size) :
    IsLeast {r | n ≤ r * r} (settle n start)
      ↔ start ≤ UInt32.size
        ∧ (start = UInt32.size → (UInt32.size - 1) * (UInt32.size - 1) < n) := by
  obtain ⟨root, hroot⟩ := exists_isLeast n
  by_cases hstart : start < UInt32.size
  · rw [settle_eq hroot (le_of_isLeast hroot hn) hstart]
    exact iff_of_true hroot ⟨Nat.le_of_lt hstart, fun htop => absurd htop (Nat.ne_of_lt hstart)⟩
  · rw [settle_of_not_lt hstart]
    constructor
    · intro hleast
      refine ⟨le_of_isLeast hleast hn, ?_⟩
      rintro rfl
      exact (isLeast_size_iff hn).mp hleast
    · rintro ⟨hle, htop⟩
      have hsize : start = UInt32.size := Nat.le_antisymm hle (Nat.le_of_not_lt hstart)
      rw [hsize]
      exact (isLeast_size_iff hn).mpr (htop hsize)

/-! ### The estimate -/

/-- A double above the number, and one above the root of that, bound the estimate. -/
theorem estimate_le {k m e p f : Nat} (hm : m < 2 ^ Binary64.digits)
    (hfinite : m <<< e < Binary64.sizeLimit) (hn : Binary64.unit * n ≤ m <<< e)
    (hp : p < 2 ^ Binary64.digits) (hroot : Binary64.unit * m <<< e ≤ p <<< f * p <<< f)
    (hk : p <<< f < (k + 1) * Binary64.unit) : estimate n ≤ k := by
  obtain ⟨size, hsize, hofNat⟩ := Binary64.ofNat_le hm hfinite hn
  obtain ⟨root, hle, hsqrt⟩ :=
    Binary64.sqrt_le hp (Nat.le_trans (Nat.mul_le_mul_left Binary64.unit hsize) hroot)
  rw [estimate, hofNat, hsqrt]
  exact Binary64.toWord_le (Nat.lt_of_le_of_lt hle hk)

theorem estimate_le_size (hn : n ≤ UInt64.size) : estimate n ≤ UInt32.size := by
  have hword : Binary64.unit * UInt64.size = 1 <<< 1138 := by decide +kernel
  refine estimate_le (m := 1) (e := 1138) (p := 1) (f := 1106) (by decide) (by decide +kernel)
    ?_ (by decide) (by decide +kernel) (by decide +kernel)
  rw [← hword]
  exact Nat.mul_le_mul_left Binary64.unit hn

/-- The largest word becomes the double `2 ^ 64`, and the square of its root is no word. -/
example : estimate (UInt64.size - 1) = UInt32.size := by decide +kernel

/-- The first double from the square of the largest half word on has a root that rounds below
`2 ^ 32`. -/
theorem estimate_lt_size (hn : n ≤ (UInt32.size - 1) * (UInt32.size - 1)) :
    estimate n < UInt32.size := by
  have hsquare : Binary64.unit * ((UInt32.size - 1) * (UInt32.size - 1))
      ≤ (2 ^ 53 - 2 ^ 22 + 1) <<< 1085 := by decide +kernel
  have hle : estimate n ≤ UInt32.size - 1 :=
    estimate_le (m := 2 ^ 53 - 2 ^ 22 + 1) (e := 1085) (p := 2 ^ 53 - 1) (f := 1053)
      (by decide) (by decide +kernel)
      (Nat.le_trans (Nat.mul_le_mul_left Binary64.unit hn) hsquare)
      (by decide) (by decide +kernel) (by decide +kernel)
  exact Nat.lt_of_le_of_lt hle (by decide)

/-- **The estimate in double precision leads to the least root.** -/
theorem isLeast_ceil (hn : n ≤ UInt64.size) : IsLeast {r | n ≤ r * r} (ceil n) := by
  refine (isLeast_settle_iff hn).mpr ⟨estimate_le_size hn, ?_⟩
  intro htop
  by_contra hshort
  exact absurd htop (Nat.ne_of_lt (estimate_lt_size (Nat.le_of_not_lt hshort)))

theorem ceil_eq {root : Nat} (hroot : IsLeast {r | n ≤ r * r} root) (hlt : root ≤ UInt32.size) :
    ceil n = root := by
  have hreach : n ≤ root * root := hroot.1
  have hn : n ≤ UInt64.size := Nat.le_trans hreach (Nat.mul_le_mul hlt hlt)
  exact (isLeast_ceil hn).unique hroot

end Root

end HeapReel
