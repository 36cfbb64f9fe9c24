/-
What lines say.

A line of a log has one form, and `SpelledBy` states it without reading: a sign, one space, a
numeral, one space, a numeral, and nothing before or after.  Numerals hold no space, so a line
has no more than one such reading, and the reader finds it by cutting at the spaces.  Where a
line has this form, the only thing left to fail is a number too large for its word.
-/
import HeapReel.Log
import HeapReel.Proofs.Numeral

namespace HeapReel

theorem Action.ofSign?_eq_some_iff {text : List Char} {a : Action} :
    ofSign? text = some a ↔ text = [a.sign] := by
  constructor
  · intro h
    unfold ofSign? at h
    split at h
    · rw [← Option.some.inj h]
      assumption
    · obtain ⟨heq, hsome⟩ := Option.ite_none_right_eq_some.mp h
      rw [← Option.some.inj hsome]
      exact heq
  · rintro rfl
    exact ofSign?_sign a

namespace Event

/-- The line is the sign of the event, a space, a numeral for its offset, a space and a numeral
for its size. -/
def SpelledBy (e : Event) (line : List Char) : Prop :=
  ∃ offset size, line = e.action.sign :: ' ' :: (offset ++ ' ' :: size)
    ∧ Numeral.Says offset e.offset ∧ Numeral.Says size e.size

theorem spelledBy_line (e : Event) : e.SpelledBy e.line :=
  ⟨_, _, rfl, Numeral.says_decimal _, Numeral.says_decimal _⟩

namespace SpelledBy

variable {e f : Event} {line : List Char}

/-- Cut at its spaces, the line falls into its three parts. -/
theorem splitOn_space (h : e.SpelledBy line) :
    ∃ offset size, line.splitOn ' ' = [[e.action.sign], offset, size]
      ∧ Numeral.Says offset e.offset ∧ Numeral.Says size e.size := by
  obtain ⟨offset, size, rfl, hoffset, hsize⟩ := h
  have hspace : ' ' ∉ [e.action.sign] := by cases e.action <;> decide
  refine ⟨offset, size, ?_, hoffset, hsize⟩
  rw [← List.singleton_append, List.splitOn_append_cons_self_of_not_mem hspace,
    List.splitOn_append_cons_self_of_not_mem (hoffset.not_mem rfl (by decide)),
    List.splitOn_eq_singleton (hsize.not_mem rfl (by decide))]

/-- A line spells one event at the most. -/
theorem unique (he : e.SpelledBy line) (hf : f.SpelledBy line) : f = e := by
  obtain ⟨offset, size, hline, hoffset, hsize⟩ := he.splitOn_space
  obtain ⟨offset', size', hline', hoffset', hsize'⟩ := hf.splitOn_space
  -- The cut depends on the line alone, so both spellings have the same three parts.
  rw [hline] at hline'
  obtain ⟨hsign, rfl, rfl⟩ : [e.action.sign] = [f.action.sign] ∧ offset = offset' ∧ size = size' := by
    simpa using hline'
  have haction : f.action = e.action :=
    Option.some.inj ((Action.ofSign?_eq_some_iff.mpr hsign).symm.trans (Action.ofSign?_sign _))
  have hoffsets : f.offset = e.offset := hoffset'.unique hoffset
  have hsizes : f.size = e.size := hsize'.unique hsize
  cases e
  cases f
  simp_all

/-- The line holds nothing but signs, digits and spaces. -/
theorem mem (h : e.SpelledBy line) {c : Char} (hc : c ∈ line) :
    c.isDigit ∨ c ∈ ['+', '-', ' '] := by
  obtain ⟨offset, size, rfl, hoffset, hsize⟩ := h
  have hsign : e.action.sign ∈ ['+', '-', ' '] := by cases e.action <;> decide
  have hnumeral : ∀ {cs i}, Numeral.Says cs i → c ∈ cs → c.isDigit ∨ c ∈ ['+', '-', ' '] :=
    fun hvalue hmem => (hvalue.isDigit_or_eq_minus hmem).imp_right fun hminus => by simp [hminus]
  simp only [List.mem_cons, List.mem_append] at hc
  rcases hc with rfl | rfl | hc | rfl | hc
  · exact .inr hsign
  · exact .inr (by simp)
  · exact hnumeral hoffset hc
  · exact .inr (by simp)
  · exact hnumeral hsize hc

theorem count_space (h : e.SpelledBy line) : line.count ' ' = 2 := by
  obtain ⟨offset, size, rfl, hoffset, hsize⟩ := h
  have hsign : e.action.sign ≠ ' ' := by cases e.action <;> decide
  have hnone : ∀ {cs i}, Numeral.Says cs i → cs.count ' ' = 0 := fun hvalue =>
    List.count_eq_zero.mpr (hvalue.not_mem rfl (by decide))
  simp [List.count_append, hnone hoffset, hnone hsize, hsign]

end SpelledBy

/-- The reader finds the event that the line spells, if its numbers fit words. -/
theorem read?_eq_some_iff {line : List Char} {e : Event} :
    read? line = some e ↔ e.SpelledBy line ∧ e.FitsWords := by
  constructor
  · intro h
    unfold read? at h
    split at h
    · rename_i sign offset size hparts
      simp only [Option.bind_eq_bind, Option.bind_eq_some_iff, Option.pure_def] at h
      obtain ⟨action, haction, i, hi, j, hj, heq⟩ := h
      obtain ⟨hoffset, hoffsetFits⟩ := Numeral.readWord?_eq_some_iff.mp hi
      obtain ⟨hsize, hsizeFits⟩ := Numeral.readWord?_eq_some_iff.mp hj
      -- Nothing is lost between the parts but the spaces.
      have hline : [' '].intercalate (line.splitOn ' ') = line := List.intercalate_splitOn ' '
      rw [hparts, Action.ofSign?_eq_some_iff.mp haction] at hline
      rw [← Option.some.inj heq]
      exact ⟨⟨offset, size, by simpa using hline.symm, hoffset, hsize⟩, hoffsetFits, hsizeFits⟩
    · exact absurd h (by simp)
  · rintro ⟨hspelled, hoffsetFits, hsizeFits⟩
    obtain ⟨offset, size, hparts, hoffset, hsize⟩ := hspelled.splitOn_space
    rw [read?, hparts]
    simp only [Action.ofSign?_sign, Numeral.readWord?_eq_some_iff.mpr ⟨hoffset, hoffsetFits⟩,
      Numeral.readWord?_eq_some_iff.mpr ⟨hsize, hsizeFits⟩]
    rfl

theorem read?_eq_none_of {line : List Char} (h : ∀ e : Event, e.SpelledBy line → ¬e.FitsWords) :
    read? line = none := by
  refine Option.eq_none_iff_forall_ne_some.mpr fun e he => ?_
  obtain ⟨hspelled, hfits⟩ := read?_eq_some_iff.mp he
  exact h e hspelled hfits

/--
**A line is read as an event exactly if it spells the event and the numbers fit words.**

A line spells one event at the most.  It is refused, then, if a number of the event is too large,
and also if any character is not a sign, a digit or a space, or if there are not two spaces.  A
line feed or carriage return at the end, another blank or a mark in front are such characters,
and so is a digit of another script.
-/
theorem reads_iff_spelled (line : List Char) :
    (∀ e : Event, read? line = some e ↔ e.SpelledBy line ∧ e.FitsWords)
      ∧ (∀ e f : Event, e.SpelledBy line → f.SpelledBy line → f = e)
      ∧ (∀ e : Event, e.SpelledBy line → ¬e.FitsWords → read? line = none)
      ∧ (∀ c ∈ line, c.isDigit = false → c ∉ ['+', '-', ' '] → read? line = none)
      ∧ (line.count ' ' ≠ 2 → read? line = none) := by
  refine ⟨fun e => read?_eq_some_iff, fun e f he hf => he.unique hf, ?_, ?_, ?_⟩
  · intro e he hfits
    exact read?_eq_none_of fun f hf => he.unique hf ▸ hfits
  · intro c hc hdigit hother
    refine read?_eq_none_of fun e he => ?_
    rcases he.mem hc with hd | hm
    · simp [hd] at hdigit
    · exact absurd hm hother
  · intro hcount
    exact read?_eq_none_of fun e he => absurd he.count_space hcount

/-- Leading zeros and a negative zero are numerals; the least word fits, and a larger number
does not. -/
example : read? "- -000 -9223372036854775808".toList = some ⟨.free, 0, -0x8000000000000000⟩
    ∧ read? "- -000 9223372036854775808".toList = none := by
  decide

end Event

end HeapReel
