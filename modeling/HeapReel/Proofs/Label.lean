/-
What the label of an event tells.

A label is read back word by word.  The blanks that fill up a name are no words, so every label
has four: the name, the offset, a colon and the size.  None is empty and none holds a blank, and
that is why cutting at the blanks finds all four, however long they are.

In the second word a minus sign turns the value around, and zeros in front of the digits add
nothing to it, so it does not matter how many digits there are.  The event can therefore be had
from its label, and no two events share one.

A machine takes the absolute value of an offset within a word.  The negative of the least word is
no signed word: what comes out is the least word again.  Read without a sign it is the number that
is wanted, so this label is no exception.
-/
import HeapReel.Event
import HeapReel.Proofs.Numeral

namespace HeapReel

/-! ### Hexadecimal digits -/

namespace Numeral

/-- The value of a hexadecimal digit. -/
def hexDigit? (c : Char) : Option Nat :=
  (List.range 16).find? fun d => d.digitChar = c

/-- The value of hexadecimal digits. -/
def readHex? (cs : List Char) : Option Nat :=
  cs.foldlM (fun n c => (hexDigit? c).map (16 * n + ·)) 0

variable {cs : List Char} {n : Nat}

theorem hexDigit?_digitChar {d : Nat} (hd : d < 16) : hexDigit? d.digitChar = some d := by
  have hall : ∀ d ∈ List.range 16, hexDigit? d.digitChar = some d := by decide
  exact hall d (List.mem_range.mpr hd)

theorem readHex?_concat (h : readHex? cs = some n) {d : Nat} (hd : d < 16) :
    readHex? (cs ++ [d.digitChar]) = some (16 * n + d) := by
  rw [readHex?, List.foldlM_append, ← readHex?, h]
  simp [hexDigit?_digitChar hd]

theorem readHex?_toDigits (n : Nat) : readHex? (Nat.toDigits 16 n) = some n := by
  -- The last digit is split off, as writing adds it; what is before it writes the quotient.
  induction n using Nat.strongRecOn with
  | _ n ih =>
      rw [Nat.toDigits_eq_if (by decide)]
      by_cases hlt : n < 16
      · have hnil : readHex? [] = some 0 := rfl
        rw [if_pos hlt]
        simpa using readHex?_concat hnil hlt
      · rw [if_neg hlt]
        have hquotient := ih (n / 16) (Nat.div_lt_self (by omega) (by decide))
        rw [readHex?_concat hquotient (Nat.mod_lt n (by decide)), Nat.div_add_mod]

/-- Zeros in front add nothing to the value. -/
theorem readHex?_replicate_append (count : Nat) (cs : List Char) :
    readHex? (List.replicate count '0' ++ cs) = readHex? cs := by
  induction count with
  | zero => rfl
  | succ count ih =>
      have hzero : hexDigit? '0' = some 0 := by decide
      rw [List.replicate_succ, List.cons_append, readHex?, List.foldlM_cons, hzero]
      exact ih

/-- What is written reads as what was to be written, with any number of places. -/
theorem readHex?_hexadecimal (places n : Nat) : readHex? (hexadecimal places n) = some n := by
  rw [hexadecimal, List.leftpad, readHex?_replicate_append, readHex?_toDigits]

theorem not_mem_of_readHex? (h : readHex? cs = some n) {c : Char} (hc : hexDigit? c = none) :
    c ∉ cs := by
  intro hmem
  obtain ⟨before, after, rfl⟩ := List.append_of_mem hmem
  simp [readHex?, List.foldlM_append, hc] at h

end Numeral

/-! ### Words between blanks -/

/-- The words of a text, with any number of blanks between them. -/
def words (text : List Char) : List (List Char) :=
  (text.splitOn ' ').filter (· ≠ [])

theorem words_blank_cons (rest : List Char) : words (' ' :: rest) = words rest := by
  have hsplit := List.splitOn_append_cons_self_of_not_mem (List.not_mem_nil (a := ' ')) rest
  rw [List.nil_append] at hsplit
  rw [words, hsplit]
  simp [words]

theorem words_replicate_append (count : Nat) (rest : List Char) :
    words (List.replicate count ' ' ++ rest) = words rest := by
  induction count with
  | zero => rfl
  | succ count ih => rw [List.replicate_succ, List.cons_append, words_blank_cons, ih]

section

variable {word : List Char} (hne : word ≠ []) (hblank : ' ' ∉ word)

include hne hblank

theorem words_append_cons (rest : List Char) :
    words (word ++ ' ' :: rest) = word :: words rest := by
  rw [words, List.splitOn_append_cons_self_of_not_mem hblank, List.filter_cons_of_pos (by simpa)]
  rfl

theorem words_eq_singleton : words word = [word] := by
  rw [words, List.splitOn_eq_singleton hblank, List.filter_cons_of_pos (by simpa)]
  rfl

/-- A word is the same word however far it is filled up. -/
theorem words_rightpad_append_cons (columns : Nat) (rest : List Char) :
    words (word.rightpad columns ' ' ++ ' ' :: rest) = word :: words rest := by
  rw [List.rightpad]
  cases columns - word.length with
  | zero => simpa using words_append_cons hne hblank rest
  | succ count =>
      rw [List.replicate_succ, List.append_assoc, List.cons_append,
        words_append_cons hne hblank, words_replicate_append, words_blank_cons]

end

/-! ### Labels -/

/-- The action of this name. -/
def Action.ofName? (name : List Char) : Option Action :=
  [Action.alloc, .free].find? fun a => a.name.toList = name

theorem Action.ofName?_name (a : Action) : ofName? a.name.toList = some a := by
  cases a <;> decide

namespace Event

/-- The offset on a label, its sign apart from its absolute value. -/
def offsetWord (negative : Bool) (n : Nat) : List Char :=
  (if negative then ['-'] else []) ++ '0' :: 'x' :: Numeral.hexadecimal 8 n

/-- A label from its parts. -/
def labelOf (a : Action) (negative : Bool) (n : Nat) (size : Int) : String :=
  String.ofList <|
    a.name.toList.rightpad 5 ' '
      ++ ' ' :: (offsetWord negative n ++ ' ' :: ([':'] ++ ' ' :: Numeral.decimal size))

/-- The value of the offset on a label. -/
def readOffset? : List Char → Option Int
  | '-' :: '0' :: 'x' :: digits => (Numeral.readHex? digits).map fun n => -(n : Int)
  | '0' :: 'x' :: digits => (Numeral.readHex? digits).map fun n => (n : Int)
  | _ => none

/-- The event that a label names. -/
def ofLabel? (label : String) : Option Event :=
  match words label.toList with
  | [name, offset, [':'], size] => do
      let action ← Action.ofName? name
      let offset ← readOffset? offset
      let size ← Numeral.readInt? size
      return { action, offset, size }
  | _ => none

theorem label_eq (e : Event) :
    e.label = labelOf e.action (e.offset < 0) e.offset.natAbs e.size := by
  simp [label, labelOf, offsetWord]

theorem blank_not_mem_offsetWord (negative : Bool) (n : Nat) : ' ' ∉ offsetWord negative n := by
  have hblank : Numeral.hexDigit? ' ' = none := by decide
  have hdigits := Numeral.not_mem_of_readHex? (Numeral.readHex?_hexadecimal 8 n) hblank
  cases negative <;> simp [offsetWord, hdigits]

/-- **A label has four words, whatever fills it up.** -/
theorem words_labelOf (a : Action) (negative : Bool) (n : Nat) (size : Int) :
    words (labelOf a negative n size).toList
      = [a.name.toList, offsetWord negative n, [':'], Numeral.decimal size] := by
  have hname : a.name.toList ≠ [] ∧ ' ' ∉ a.name.toList := by cases a <;> decide
  have hoffset : offsetWord negative n ≠ [] := by cases negative <;> simp [offsetWord]
  have hsize := Numeral.says_decimal size
  rw [labelOf, String.toList_ofList, words_rightpad_append_cons hname.1 hname.2,
    words_append_cons hoffset (blank_not_mem_offsetWord negative n),
    words_append_cons (by decide) (by decide),
    words_eq_singleton hsize.ne_nil (hsize.not_mem rfl (by decide))]

theorem readOffset?_offsetWord (negative : Bool) (n : Nat) :
    readOffset? (offsetWord negative n) = some (if negative then -(n : Int) else n) := by
  cases negative <;> simp [readOffset?, offsetWord, Numeral.readHex?_hexadecimal]

theorem ofLabel?_labelOf (a : Action) (negative : Bool) (n : Nat) (size : Int) :
    ofLabel? (labelOf a negative n size)
      = some ⟨a, if negative then -(n : Int) else n, size⟩ := by
  have hsize := Numeral.readInt?_eq_some_iff.mpr (Numeral.says_decimal size)
  rw [ofLabel?, words_labelOf]
  simp [Action.ofName?_name, readOffset?_offsetWord, hsize]

theorem ofLabel?_label (e : Event) : ofLabel? e.label = some e := by
  have hoffset : (if e.offset < 0 then -(e.offset.natAbs : Int) else e.offset.natAbs)
      = e.offset := by
    split <;> omega
  rw [label_eq, ofLabel?_labelOf]
  simp only [decide_eq_true_eq, hoffset]

/-! ### Labels from words -/

/-- The label as a machine makes it from signed words: the absolute value is taken in the word of
the offset and then read without a sign. -/
def labelInWords (a : Action) (offset size : Int64) : String :=
  labelOf a (offset < 0) offset.abs.toUInt64.toNat size.toInt

theorem toNat_abs (w : Int64) : w.abs.toUInt64.toNat = w.toInt.natAbs := by
  show w.toBitVec.abs.toNat = w.toBitVec.toInt.natAbs
  rw [BitVec.toNat_abs, BitVec.toInt_eq_msb_cond]
  have hlt := w.toBitVec.isLt
  split <;> omega

theorem labelInWords_eq (a : Action) (offset size : Int64) :
    labelInWords a offset size = label ⟨a, offset.toInt, size.toInt⟩ := by
  rw [label_eq, labelInWords, toNat_abs]
  simp [Int64.lt_iff_toInt_lt]

/--
**An event is known by its label.**

There is a reader that has the action, the offset and the size back from any label, whatever the
signs and the lengths of the numbers.  So two events with one label are the same event.

The numbers are integers of any size here.  Words of 64 bits give the same labels, the least word
included.
-/
theorem known_by_label :
    (∀ e : Event, ofLabel? e.label = some e)
      ∧ (∀ e f : Event, e.label = f.label → e = f)
      ∧ ∀ (a : Action) (offset size : Int64),
          labelInWords a offset size = label ⟨a, offset.toInt, size.toInt⟩ := by
  refine ⟨ofLabel?_label, ?_, labelInWords_eq⟩
  intro e f heq
  have he := ofLabel?_label e
  rw [heq, ofLabel?_label f] at he
  exact (Option.some.inj he).symm

/-- The least offset takes sixteen digits. -/
example : labelInWords .free Int64.minValue (-1) = "free  -0x8000000000000000 : -1" := by
  decide +kernel

end Event

end HeapReel
