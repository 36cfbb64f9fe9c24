/-
What numerals say.

A numeral can be described without reading it.  A digit says its own value, one more digit
behind a numeral says ten times as much and that digit, and a minus sign in front of all digits
turns the value around.  `Says` is that description; it has no bound on the length or on the
value, and it gives leading zeros and `-0` a value like any other numeral.

The reader finds exactly the value that is said.  It refuses a text that says nothing, and a
value that is too large for a word it refuses afterwards and for no other reason.
-/
import HeapReel.Numeral
import Mathlib.Data.List.Induction

namespace HeapReel.Numeral

/-- The digits, in the scale of ten, say the number. -/
inductive Counts : List Char → Nat → Prop
  | digit {d : Nat} (hd : d < 10) : Counts [d.digitChar] d
  | concat {cs : List Char} {n d : Nat} (h : Counts cs n) (hd : d < 10) :
      Counts (cs ++ [d.digitChar]) (10 * n + d)

/-- The text is a numeral and says the integer. -/
inductive Says : List Char → Int → Prop
  | plain {cs : List Char} {n : Nat} (h : Counts cs n) : Says cs n
  | negated {cs : List Char} {n : Nat} (h : Counts cs n) : Says ('-' :: cs) (-n)

/-! ### Digits -/

theorem exists_digitChar {c : Char} (h : c.isDigit) : ∃ d < 10, d.digitChar = c := by
  obtain ⟨hlo, hhi⟩ := Char.isDigit_iff_toNat.mp h
  have h48 : '0'.toNat = 48 := rfl
  have h57 : '9'.toNat = 57 := rfl
  have hd : c.toNat - 48 < 10 := by omega
  refine ⟨c.toNat - 48, hd, Char.toNat_inj.mp ?_⟩
  rw [Nat.toNat_digitChar_of_lt_ten hd]
  omega

theorem ofDigitChars_concat (cs : List Char) {d : Nat} (hd : d < 10) :
    Nat.ofDigitChars 10 (cs ++ [d.digitChar]) 0 = 10 * Nat.ofDigitChars 10 cs 0 + d := by
  rw [Nat.ofDigitChars_append, Nat.ofDigitChars_cons_digitChar_of_lt_ten hd, Nat.ofDigitChars_nil]

namespace Counts

variable {cs : List Char} {n : Nat}

theorem ne_nil (h : Counts cs n) : cs ≠ [] := by
  cases h <;> simp

theorem isDigit (h : Counts cs n) : ∀ c ∈ cs, c.isDigit := by
  induction h with
  | digit hd => simp [hd]
  | concat _ hd ih => simpa [or_imp, forall_and, hd] using ih

theorem ofDigitChars_eq (h : Counts cs n) : Nat.ofDigitChars 10 cs 0 = n := by
  induction h with
  | digit hd => simpa using ofDigitChars_concat [] hd
  | concat _ hd ih => rw [ofDigitChars_concat _ hd, ih]

/-- One or more digits always say something. -/
theorem of_isDigit (hne : cs ≠ []) (hdigits : ∀ c ∈ cs, c.isDigit) :
    Counts cs (Nat.ofDigitChars 10 cs 0) := by
  -- From the end, where a numeral grows; the first digit is the one with nothing before it.
  induction cs using List.reverseRecOn with
  | nil => exact absurd rfl hne
  | append_singleton cs c ih =>
      obtain ⟨d, hd, rfl⟩ := exists_digitChar (hdigits c (by simp))
      rw [ofDigitChars_concat cs hd]
      rcases eq_or_ne cs [] with rfl | hcs
      · simpa using Counts.digit hd
      · exact .concat (ih hcs fun c hc => hdigits c (by simp [hc])) hd

end Counts

/-! ### Reading -/

theorem readNat?_eq_some_iff {cs : List Char} {n : Nat} : readNat? cs = some n ↔ Counts cs n := by
  unfold readNat?
  rw [Option.ite_none_right_eq_some, List.all_eq_true, Option.some.injEq]
  constructor
  · rintro ⟨⟨hne, hdigits⟩, rfl⟩
    exact .of_isDigit hne hdigits
  · intro h
    exact ⟨⟨h.ne_nil, h.isDigit⟩, h.ofDigitChars_eq⟩

theorem readInt?_minus (cs : List Char) :
    readInt? ('-' :: cs) = (readNat? cs).map fun n : Nat => -(n : Int) := by
  rw [readInt?]
  cases readNat? cs <;> rfl

theorem readInt?_of_ne_minus {cs : List Char} (h : cs.head? ≠ some '-') :
    readInt? cs = (readNat? cs).map fun n : Nat => (n : Int) := by
  rw [readInt?]
  · cases readNat? cs <;> rfl
  · rintro rest rfl
    exact h rfl

theorem readInt?_eq_some_iff {cs : List Char} {i : Int} : readInt? cs = some i ↔ Says cs i := by
  constructor
  · intro h
    by_cases hminus : cs.head? = some '-'
    · obtain ⟨rest, rfl⟩ := List.head?_eq_some_iff.mp hminus
      rw [readInt?_minus] at h
      obtain ⟨n, hn, rfl⟩ := Option.map_eq_some_iff.mp h
      exact .negated (readNat?_eq_some_iff.mp hn)
    · rw [readInt?_of_ne_minus hminus] at h
      obtain ⟨n, hn, rfl⟩ := Option.map_eq_some_iff.mp h
      exact .plain (readNat?_eq_some_iff.mp hn)
  · rintro (⟨h⟩ | ⟨h⟩)
    · have hhead : cs.head? ≠ some '-' := fun hhead => by
        simpa using h.isDigit '-' (List.mem_of_mem_head? hhead)
      rw [readInt?_of_ne_minus hhead, readNat?_eq_some_iff.mpr h, Option.map_some]
    · rw [readInt?_minus, readNat?_eq_some_iff.mpr h, Option.map_some]

/-- The reader of words finds what is said, if it fits one. -/
theorem readWord?_eq_some_iff {cs : List Char} {i : Int} :
    readWord? cs = some i ↔ Says cs i ∧ FitsWord i := by
  rw [readWord?, Option.filter_eq_some_iff, readInt?_eq_some_iff, decide_eq_true_iff]

namespace Says

variable {cs : List Char} {i j : Int}

/-- A text says one integer at the most. -/
theorem unique (hi : Says cs i) (hj : Says cs j) : i = j :=
  Option.some.inj ((readInt?_eq_some_iff.mpr hi).symm.trans (readInt?_eq_some_iff.mpr hj))

theorem ne_nil (h : Says cs i) : cs ≠ [] := by
  cases h with
  | plain h => exact h.ne_nil
  | negated _ => exact List.cons_ne_nil _ _

/-- A numeral holds nothing but ASCII digits and minus signs. -/
theorem isDigit_or_eq_minus (h : Says cs i) {c : Char} (hc : c ∈ cs) : c.isDigit ∨ c = '-' := by
  cases h with
  | plain h => exact .inl (h.isDigit c hc)
  | negated h =>
      rcases List.mem_cons.mp hc with rfl | hc
      · exact .inr rfl
      · exact .inl (h.isDigit c hc)

theorem not_mem (h : Says cs i) {c : Char} (hdigit : c.isDigit = false) (hminus : c ≠ '-') :
    c ∉ cs := by
  intro hc
  rcases h.isDigit_or_eq_minus hc with hd | hd
  · simp [hd] at hdigit
  · exact hminus hd

end Says

/-! ### Writing -/

theorem Counts.toDigits (n : Nat) : Counts (Nat.toDigits 10 n) n := by
  have h := Counts.of_isDigit (Nat.toDigits_ne_nil (n := n) (b := 10)) fun c hc =>
    Nat.isDigit_of_mem_toDigits (by decide) (by decide) hc
  rwa [Nat.ofDigitChars_ten_toDigits] at h

/-- A zero in front changes nothing. -/
theorem Counts.zero_cons {cs : List Char} {n : Nat} (h : Counts cs n) : Counts ('0' :: cs) n := by
  induction h with
  | digit hd =>
      have hfirst : Counts [Nat.digitChar 0] 0 := .digit (Nat.zero_lt_succ 9)
      have hboth := hfirst.concat hd
      rwa [Nat.mul_zero, Nat.zero_add] at hboth
  | concat _ hd ih => exact ih.concat hd

theorem Counts.leftpad {cs : List Char} {n : Nat} (h : Counts cs n) (places : Nat) :
    Counts (cs.leftpad places '0') n := by
  rw [List.leftpad]
  induction places - cs.length with
  | zero => exact h
  | succ zeros ih => exact ih.zero_cons

/-- What is written says what was to be written. -/
theorem says_decimal (i : Int) : Says (decimal i) i := by
  have hcounts := Counts.toDigits i.natAbs
  unfold decimal
  split
  · have hvalue := Says.negated hcounts
    rwa [Int.ofNat_natAbs_of_nonpos (by omega), Int.neg_neg] at hvalue
  · have hvalue := Says.plain hcounts
    rwa [Int.natAbs_of_nonneg (by omega)] at hvalue

end HeapReel.Numeral
