/-
How the estimate of a root is corrected.

Two loops correct it, and both are followed turn by turn.  A loop goes on while a condition holds.
A turn that leaves its word has no next number, so a loop that goes below zero has no end, and
neither has one that never stops.  These two end, whatever the estimate: going down stops at zero
at the latest, since its square is above nothing, and going up where no word holds the square.

What they end with depends on the estimate, but only on whether it can be squared.  If it can, they
end with the least root that reaches the number.  If it cannot, there is no turn at all, and the
estimate is the result.  That is right for one such estimate: `2 ^ 32`, if the number is above the
square of the root before.
-/
import HeapReel.Proofs.Words

namespace HeapReel

/-! ### A loop and its turns -/

/-- The loop takes `r` to `last` in so many turns: while it goes on, a turn gives the next number,
and it rests where it goes on no more. -/
inductive Loop (goesOn : Nat → Prop) (turn? : Nat → Option Nat) : Nat → Nat → Nat → Prop
  | rest {r : Nat} (hrest : ¬goesOn r) : Loop goesOn turn? r 0 r
  | turn {r next turns last : Nat} (hgoesOn : goesOn r) (hnext : turn? r = some next)
      (hlater : Loop goesOn turn? next turns last) : Loop goesOn turn? r (turns + 1) last

/-- A loop has one end and one number of turns. -/
theorem Loop.unique {goesOn : Nat → Prop} {turn? : Nat → Option Nat}
    {r turns last turns' last' : Nat} (h : Loop goesOn turn? r turns last)
    (h' : Loop goesOn turn? r turns' last') : turns' = turns ∧ last' = last := by
  induction h generalizing turns' last' with
  | rest hrest =>
      cases h' with
      | rest _ => exact ⟨rfl, rfl⟩
      | turn hgoesOn _ _ => exact absurd hgoesOn hrest
  | turn hgoesOn hnext _ ih =>
      cases h' with
      | rest hrest => exact absurd hgoesOn hrest
      | turn _ hnext' hlater =>
          rw [hnext] at hnext'
          obtain rfl := Option.some.inj hnext'
          obtain ⟨rfl, rfl⟩ := ih hlater
          exact ⟨rfl, rfl⟩

namespace Root

/-! ### The two loops -/

/-- The square of `r` is a word, and above `n`. -/
def IsAbove (n r : Nat) : Prop :=
  ∃ q, square? r = some q ∧ n < q

/-- The square of `r` is a word, and below `n`. -/
def IsBelow (n r : Nat) : Prop :=
  ∃ q, square? r = some q ∧ q < n

/-- The loop down; zero has no next number. -/
def Lowers (n : Nat) : Nat → Nat → Nat → Prop :=
  Loop (IsAbove n) fun r => Word.sub? r 1

/-- The loop up; the largest word has no next number. -/
def Raises (n : Nat) : Nat → Nat → Nat → Prop :=
  Loop (IsBelow n) fun r => Word.fit? (r + 1)

/-- Both loops, one after the other, take `start` to `last` in so many turns. -/
def Settles (n start turns last : Nat) : Prop :=
  ∃ down low up, Lowers n start down low ∧ Raises n low up last ∧ turns = down + up

variable {n r start : Nat}

theorem exists_square?_iff {p : Nat → Prop} :
    (∃ q, square? r = some q ∧ p q) ↔ r < UInt32.size ∧ p (r * r) := by
  simp only [square?_eq_some_iff]
  constructor
  · rintro ⟨_, ⟨hr, rfl⟩, hp⟩
    exact ⟨hr, hp⟩
  · rintro ⟨hr, hp⟩
    exact ⟨_, ⟨hr, rfl⟩, hp⟩

theorem isAbove_iff : IsAbove n r ↔ r < UInt32.size ∧ n < r * r :=
  exists_square?_iff

theorem isBelow_iff : IsBelow n r ↔ r < UInt32.size ∧ r * r < n :=
  exists_square?_iff

theorem descend_of_isAbove (h : IsAbove n (r + 1)) : descend n (r + 1) = descend n r := by
  obtain ⟨q, hq, hlt⟩ := h
  simp only [descend, hq, if_pos hlt]

theorem descend_of_not_isAbove (h : ¬IsAbove n r) : descend n r = r := by
  cases r with
  | zero => rfl
  | succ r =>
      cases hq : square? (r + 1) with
      | none => simp only [descend, hq]
      | some q =>
          have hle : ¬n < q := fun hlt => h ⟨q, hq, hlt⟩
          simp only [descend, hq, if_neg hle]

/-- **The loop down ends, whatever the estimate.** -/
theorem lowers_descend (n start : Nat) :
    ∃ down, start = descend n start + down ∧ Lowers n start down (descend n start) := by
  induction start with
  | zero =>
      have hrest : ¬IsAbove n 0 := fun h => Nat.not_lt_zero n (isAbove_iff.mp h).2
      exact ⟨0, rfl, .rest hrest⟩
  | succ r ih =>
      by_cases habove : IsAbove n (r + 1)
      · obtain ⟨down, hdown, hloop⟩ := ih
        rw [descend_of_isAbove habove]
        exact ⟨down + 1, by omega, .turn habove (Word.sub?_of_le (Nat.le_add_left 1 r)) hloop⟩
      · rw [descend_of_not_isAbove habove]
        exact ⟨0, rfl, .rest habove⟩

/-- The loop down makes no turn, or it ends right below a root that is too large. -/
theorem descend_eq_or_lt (n start : Nat) :
    descend n start = start ∨ n < (descend n start + 1) * (descend n start + 1) := by
  induction start with
  | zero => exact .inl rfl
  | succ r ih =>
      by_cases habove : IsAbove n (r + 1)
      · rw [descend_of_isAbove habove]
        rcases ih with hnone | hlt
        · rw [hnone]
          exact .inr (isAbove_iff.mp habove).2
        · exact .inr hlt
      · exact .inl (descend_of_not_isAbove habove)

/-- **The loop up ends, wherever it starts.** -/
theorem raises_ascend (n r : Nat) :
    ∃ up, ascend n r = r + up ∧ Raises n r up (ascend n r) := by
  fun_induction ascend n r with
  | case1 r q hq hlt ih =>
      have hfits : r + 1 < UInt64.size :=
        Nat.lt_of_le_of_lt (square?_eq_some_iff.mp hq).1 (by decide)
      obtain ⟨up, hup, hloop⟩ := ih
      exact ⟨up + 1, by omega, .turn ⟨q, hq, hlt⟩ (Word.fit?_of_lt hfits) hloop⟩
  | case2 r q hq hle =>
      obtain ⟨-, rfl⟩ := square?_eq_some_iff.mp hq
      exact ⟨0, rfl, .rest fun hbelow => hle (isBelow_iff.mp hbelow).2⟩
  | case3 r hq =>
      have hrest : ¬IsBelow n r := by simp [IsBelow, hq]
      exact ⟨0, rfl, .rest hrest⟩

theorem Settles.unique {turns last turns' last' : Nat} (h : Settles n start turns last)
    (h' : Settles n start turns' last') : turns' = turns ∧ last' = last := by
  obtain ⟨down, low, up, hlowers, hraises, rfl⟩ := h
  obtain ⟨down', low', up', hlowers', hraises', rfl⟩ := h'
  obtain ⟨rfl, rfl⟩ := Loop.unique hlowers hlowers'
  obtain ⟨rfl, rfl⟩ := Loop.unique hraises hraises'
  exact ⟨rfl, rfl⟩

/-! ### What they end with -/

/-- **The loops take at most two turns more than the estimate is off.** -/
theorem settles_settle (hleast : IsLeast {r | n ≤ r * r} (settle n start)) :
    ∃ turns ≤ (start - settle n start) + (settle n start - start) + 2,
      Settles n start turns (settle n start) := by
  obtain ⟨down, hdown, hlowers⟩ := lowers_descend n start
  obtain ⟨up, hup, hraises⟩ := raises_ascend n (descend n start)
  rw [← settle] at hup hraises
  refine ⟨down + up, ?_, down, descend n start, up, hlowers, hraises, rfl⟩
  rcases descend_eq_or_lt n start with hnone | hlt
  · omega
  · -- A turn down was one too many at the most, and then one turn up makes up for it.
    have hnear : settle n start ≤ descend n start + 1 := hleast.2 (Nat.le_of_lt hlt)
    omega

/--
**The correction of an estimate is exact.**

The estimate may be anything up to `2 ^ 32`, but `2 ^ 32` itself only where the number is above the
square of the root before.  Then both loops end, without leaving their words and after at most two
turns more than the estimate is off.  There is nothing else that they could end with.  It is the
least root that reaches the number, so it is the same for all such estimates, and it is what the
estimate in double precision is corrected to.  Above the square of the largest half word it is
`2 ^ 32`, whose square no word holds.
-/
theorem settled_whatever_estimate {n start : Nat} (hn : n < UInt64.size)
    (hstart : start ≤ UInt32.size)
    (htop : start = UInt32.size → (UInt32.size - 1) * (UInt32.size - 1) < n) :
    IsLeast {r | n ≤ r * r} (settle n start)
      ∧ (∃ turns ≤ (start - settle n start) + (settle n start - start) + 2,
          Settles n start turns (settle n start)
            ∧ ∀ turns' last, Settles n start turns' last →
                turns' = turns ∧ last = settle n start)
      ∧ ((UInt32.size - 1) * (UInt32.size - 1) < n →
          settle n start = UInt32.size ∧ square? (settle n start) = none)
      ∧ ceil n = settle n start := by
  have hleast := (isLeast_settle_iff (Nat.le_of_lt hn)).mpr ⟨hstart, htop⟩
  obtain ⟨turns, hturns, hsettles⟩ := settles_settle hleast
  refine ⟨hleast, ⟨turns, hturns, hsettles, fun _ _ h => hsettles.unique h⟩, ?_, ?_⟩
  · intro hlarge
    have hsize := hleast.unique ((isLeast_size_iff (Nat.le_of_lt hn)).mpr hlarge)
    rw [hsize]
    exact ⟨rfl, rfl⟩
  · exact (isLeast_ceil (Nat.le_of_lt hn)).unique hleast

/-- The largest word has the largest root, and an estimate of `2 ^ 32` is left alone. -/
theorem settled_at_top :
    UInt64.size - 1 < UInt64.size ∧ UInt32.size ≤ UInt32.size
      ∧ (UInt32.size = UInt32.size → (UInt32.size - 1) * (UInt32.size - 1) < UInt64.size - 1)
      ∧ settle (UInt64.size - 1) UInt32.size = 0x100000000
      ∧ square? 0x100000000 = none
      ∧ ceil (UInt64.size - 1) = 0x100000000 := by
  have hn : UInt64.size - 1 < UInt64.size := by decide
  have htop : UInt32.size = UInt32.size →
      (UInt32.size - 1) * (UInt32.size - 1) < UInt64.size - 1 := by decide
  obtain ⟨-, -, hlarge, hceil⟩ := settled_whatever_estimate hn (Nat.le_refl _) htop
  obtain ⟨hsize, hnone⟩ := hlarge (by decide)
  rw [hsize] at hnone hceil
  exact ⟨hn, Nat.le_refl _, htop, hsize, hnone, hceil⟩

end Root

end HeapReel
