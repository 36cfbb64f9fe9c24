/-
What the text of a share says, and how long it is.

A share goes through five roundings: both counts become doubles, and so do their quotient and a
hundred times that; then it is written with two places.  The first four keep fifty-three digits
each, so even together they are far below the last place, and only the fifth can be seen.  What is
written is never a whole hundredth of a per cent off.  Everything is therefore written as a hundred
per cent exactly, since no other number of hundredths is that near, and no part of it as more.  So a
percentage takes three digits at the most before the point.
-/
import HeapReel.Decimal
import HeapReel.Proofs.Numeral
import HeapReel.Proofs.Rounding
import Mathlib.Data.Nat.Digits.Defs

namespace HeapReel

open Rounding (Near)

/-! ### Shares as doubles -/

namespace Binary64

/-- A number of units divided by not much more than a word is near to what that is rounded to. -/
theorem quotient_near (part : Nat) {whole : Nat} (hpos : 0 < whole)
    (hwhole : whole ≤ 2 * UInt64.size) :
    Near digits (whole * Rounding.significant digits (part * unit) whole) (part * unit) := by
  have hdigits : 0 < digits := by decide
  rcases Nat.eq_zero_or_pos part with rfl | hpart
  · have hzero : Rounding.significant digits 0 whole = 0 :=
      Nat.le_zero.mp (Rounding.significant_le (m := 0) (e := 0) hdigits hpos (by decide)
        (Nat.zero_le _))
    rw [Nat.zero_mul, hzero]
    exact Near.refl digits 0
  · refine Rounding.significant_near hdigits hpos ?_
    calc 2 ^ (digits - 1) * whole ≤ 2 ^ (digits - 1) * (2 * UInt64.size) :=
          Nat.mul_le_mul_left _ hwhole
      _ ≤ unit := by decide +kernel
      _ ≤ part * unit := Nat.le_mul_of_pos_left unit hpart

/-- Three roundings together lose two digits at the most. -/
theorem near_of_near {a b size part whole : Nat} (hpart : Near digits a part)
    (hwhole : Near digits b whole) (hquotient : Near digits (b * size) (a * unit)) :
    Near 51 (whole * size) (part * unit) := by
  obtain ⟨hpartOver, hpartUnder⟩ := hpart.mul_right unit
  obtain ⟨hwholeOver, hwholeUnder⟩ := hwhole.mul_right size
  obtain ⟨hquotientOver, hquotientUnder⟩ := hquotient
  rw [digits] at *
  constructor
  · omega
  · omega

/-- **A share is near to the quotient of its counts.** -/
theorem share_near {part whole : Nat} (hle : part ≤ whole) (hpos : 0 < whole)
    (hwhole : whole < UInt64.size) :
    ∃ size ≤ 2 * unit, share part whole = .finite false size
      ∧ Near 51 (whole * size) (part * unit) := by
  have hdigits : 0 < digits := by decide
  have hpart := Rounding.significant_one_near hdigits part
  have hcount := Rounding.significant_one_near hdigits whole
  rw [share, if_neg (Nat.ne_of_gt hpos)]
  generalize Rounding.significant digits part 1 = a at hpart ⊢
  generalize Rounding.significant digits whole 1 = b at hcount ⊢
  have hb : 0 < b ∧ b ≤ 2 * UInt64.size := by
    obtain ⟨hover, hunder⟩ := hcount
    rw [digits] at hover hunder
    omega
  have hnear := near_of_near hpart hcount (quotient_near a hb.1 hb.2)
  unfold nearest
  generalize Rounding.significant digits (a * unit) b = size at hnear ⊢
  have hsize : size ≤ 2 * unit := by
    have htwice : whole * size ≤ whole * (2 * unit) := by
      have hparts := Nat.mul_le_mul_right unit hle
      have hover := hnear.1
      rw [Nat.mul_left_comm]
      omega
    exact Nat.le_of_mul_le_mul_left htwice hpos
  have hfinite : 2 * unit < sizeLimit := by decide +kernel
  exact ⟨size, hsize, if_pos (Nat.lt_of_le_of_lt hsize hfinite), hnear⟩

/-- A hundred times a share is near to what it is rounded to. -/
theorem times_hundred_near {size : Nat} (hle : size ≤ 2 * unit) :
    ∃ scaled, (Binary64.finite false size).times 100 = .finite false scaled
      ∧ Near digits scaled (size * 100) := by
  have hdigits : 0 < digits := by decide
  have hnear := Rounding.significant_one_near hdigits (size * 100)
  have hfinite : Rounding.significant digits (size * 100) 1 < sizeLimit := by
    have hlimit : 400 * unit < sizeLimit := by decide +kernel
    have hover := hnear.1
    rw [digits] at *
    omega
  exact ⟨_, if_pos hfinite, hnear⟩

end Binary64

/-! ### Shares as text -/

namespace Decimal

/-- As many hundredths of a per cent as `part` is of `whole`, to within one of them; nothing has
its full share of nothing. -/
structure IsShare (hundredths part whole : Nat) : Prop where
  nothing : whole = 0 → hundredths = 10000
  above : 0 < whole → hundredths * whole < 10000 * part + whole
  below : 0 < whole → 10000 * part < hundredths * whole + whole

/-- A part is a hundred per cent at the most. -/
theorem IsShare.le {hundredths part whole : Nat} (h : IsShare hundredths part whole)
    (hle : part ≤ whole) : hundredths ≤ 10000 := by
  rcases Nat.eq_zero_or_pos whole with hzero | hpos
  · exact Nat.le_of_eq (h.nothing hzero)
  · have hlt : hundredths * whole < 10001 * whole := by
      have := h.above hpos
      omega
    exact Nat.le_of_lt_succ (Nat.lt_of_mul_lt_mul_right hlt)

/-- The whole is a hundred per cent exactly. -/
theorem IsShare.eq_of_self {hundredths whole : Nat} (h : IsShare hundredths whole whole) :
    hundredths = 10000 := by
  refine Nat.le_antisymm (h.le (Nat.le_refl whole)) ?_
  rcases Nat.eq_zero_or_pos whole with hzero | hpos
  · exact Nat.le_of_eq (h.nothing hzero).symm
  · have hlt : 10000 * whole < (hundredths + 1) * whole := by
      rw [Nat.add_mul, Nat.one_mul]
      exact h.below hpos
    exact Nat.le_of_lt_succ (Nat.lt_of_mul_lt_mul_right hlt)

/-- What is within half a hundredth of a share that was rounded twice is within one of the share. -/
theorem isShare_of_near {n scaled size part whole : Nat} (hle : part ≤ whole) (hpos : 0 < whole)
    (hsize : Near 51 (whole * size) (part * Binary64.unit))
    (hscaled : Near Binary64.digits scaled (size * 100))
    (hover : 2 * (Binary64.unit * n) ≤ 2 * (scaled * 100) + Binary64.unit)
    (hunder : 2 * (scaled * 100) ≤ 2 * (Binary64.unit * n) + Binary64.unit) :
    IsShare n part whole := by
  have hunit : 0 < Binary64.unit := by decide +kernel
  generalize Binary64.unit = unit at *
  -- All of it is compared at the scale of `whole * unit`, where no quotients are left.
  have hparts : part * unit ≤ whole * unit := Nat.mul_le_mul_right unit hle
  have hwhole : 0 < whole * unit := Nat.mul_pos hpos hunit
  obtain ⟨hsizeOver, hsizeUnder⟩ := hsize
  obtain ⟨hscaledOver, hscaledUnder⟩ := hscaled.mul_right whole
  have hhundred : size * 100 * whole = 100 * (whole * size) := by ring
  rw [Binary64.digits, hhundred] at hscaledOver hscaledUnder
  have hover' : 2 * (n * whole * unit) ≤ 200 * (scaled * whole) + whole * unit := by
    calc 2 * (n * whole * unit) = whole * (2 * (unit * n)) := by ring
      _ ≤ whole * (2 * (scaled * 100) + unit) := Nat.mul_le_mul_left whole hover
      _ = 200 * (scaled * whole) + whole * unit := by ring
  have hunder' : 200 * (scaled * whole) ≤ 2 * (n * whole * unit) + whole * unit := by
    calc 200 * (scaled * whole) = whole * (2 * (scaled * 100)) := by ring
      _ ≤ whole * (2 * (unit * n) + unit) := Nat.mul_le_mul_left whole hunder
      _ = 2 * (n * whole * unit) + whole * unit := by ring
  refine ⟨fun hzero => absurd hzero (Nat.ne_of_gt hpos), fun _ => ?_, fun _ => ?_⟩
  · refine Nat.lt_of_mul_lt_mul_right (a := unit) ?_
    rw [Nat.add_mul, Nat.mul_assoc 10000]
    omega
  · refine Nat.lt_of_mul_lt_mul_right (a := unit) ?_
    rw [Nat.add_mul, Nat.mul_assoc 10000]
    omega

/-- **The text of a share is less than a hundredth of a per cent off.** -/
theorem percent_share {part whole : Nat} (hle : part ≤ whole) (hwhole : whole < UInt64.size) :
    ∃ hundredths, IsShare hundredths part whole
      ∧ percent (.share part whole) = String.ofList (pointed 2 hundredths ++ ['%']) := by
  rcases Nat.eq_zero_or_pos whole with rfl | hpos
  · have hone : percent (.share part 0) = String.ofList (pointed 2 10000 ++ ['%']) := by
      change percent .one = _
      decide +kernel
    exact ⟨10000, ⟨fun _ => rfl, fun h => absurd h (Nat.lt_irrefl 0),
      fun h => absurd h (Nat.lt_irrefl 0)⟩, hone⟩
  · obtain ⟨size, hsize, hshare, hnear⟩ := Binary64.share_near hle hpos hwhole
    obtain ⟨scaled, htimes, hscaled⟩ := Binary64.times_hundred_near hsize
    have hunit : 0 < Binary64.unit := by decide +kernel
    obtain ⟨hover, hunder⟩ := Rounding.halfEven_near (scaled * Nat.pow 10 2) hunit
    refine ⟨_, isShare_of_near hle hpos hnear hscaled hover hunder, ?_⟩
    rw [percent, hshare, htimes]
    rfl

/-- A number with places is a numeral before the point and one of so many digits behind it. -/
theorem pointed_eq {places : Nat} (hplaces : 0 < places) (n : Nat) :
    ∃ whole rest, pointed places n = whole ++ '.' :: rest
      ∧ rest.length = places
      ∧ Numeral.Counts whole (n / 10 ^ places)
      ∧ Numeral.Counts rest (n % 10 ^ places) := by
  refine ⟨_, _, rfl, ?_, .toDigits _, (Numeral.Counts.toDigits _).leftpad places⟩
  rw [List.length_leftpad]
  exact Nat.max_eq_left (Nat.toDigits_length 10 _ places hplaces
    (Nat.mod_lt n (Nat.pow_pos (by decide))))

/-- A number with two places below a thousand takes six characters at the most. -/
theorem length_pointed_le {n : Nat} (h : n < 100000) : (pointed 2 n).length ≤ 6 := by
  have hpow : Nat.pow 10 2 = 100 := rfl
  have hwhole := Nat.toDigits_length 10 (n / 100) 3 (by decide) (by omega)
  have hplaces := Nat.toDigits_length 10 (n % 100) 2 (by decide) (by omega)
  simp only [pointed, hpow, List.length_append, List.length_cons, List.length_leftpad]
  omega

/-- **The text of a share is seven characters long at the most.** -/
theorem length_percent_share_le {part whole : Nat} (hle : part ≤ whole)
    (hwhole : whole < UInt64.size) : (percent (.share part whole)).length ≤ 7 := by
  obtain ⟨hundredths, hshare, htext⟩ := percent_share hle hwhole
  have hlength := length_pointed_le (Nat.lt_of_le_of_lt (hshare.le hle) (by decide))
  rw [htext, String.length_ofList, List.length_append]
  exact Nat.succ_le_succ hlength

end Decimal

end HeapReel
