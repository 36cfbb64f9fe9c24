/-
Expanding the codes of some pixels gives the pixels.

Both sides give codes to strings, and the expander is one string behind: a string that the
compressor has just added ends in a pixel that the expander sees only with the next code.
`ahead` is the list of strings that the expander will know once it sees that pixel.  The
invariant is that this is the list that the compressor's table stands for.  It has three
consequences.

* The code that is written next names the same string on both sides, also when that string
  is the one that the expander does not know yet.
* The codes have the same width on both sides, although the expander compares one code
  earlier: it has given out one code less.
* The code that empties the table is written when the codes of the largest width are used
  up, and both sides start again from the same tables.

So what has been written so far reads back as the pixels so far, but for the string that is
being matched; the last code adds that string, and the end is read where it is written.
-/
import HeapReel.Proofs.Gif.Bits

namespace HeapReel.Gif.Lzw

variable {m code : Nat} {strings : List (List Nat)} {s : List Nat}

/-! ### Codes -/

theorem clearCode_eq (m : Nat) : clearCode m = 2 ^ m :=
  Nat.one_shiftLeft m

theorem clearCode_lt {width : Nat} (hwidth : m < width) : clearCode m < 2 ^ width := by
  rw [clearCode_eq]
  exact Nat.pow_lt_pow_right Nat.one_lt_two hwidth

/-- The code for the end fits every width that is used. -/
theorem endCode_lt {width : Nat} (hm : 0 < m) (hwidth : m < width) : endCode m < 2 ^ width := by
  have hpow : 2 ^ (m + 1) ≤ 2 ^ width := Nat.pow_le_pow_right Nat.two_pos hwidth
  have hone : 1 < 2 ^ m := Nat.one_lt_two_pow (Nat.ne_of_gt hm)
  rw [Nat.pow_succ] at hpow
  rw [endCode, clearCode_eq]
  omega

/-! ### Strings and their codes -/

/-- The string that a code names when `strings` have the codes after the one for the end. -/
def stringOf? (m : Nat) (strings : List (List Nat)) (code : Nat) : Option (List Nat) :=
  if code < clearCode m then some [code]
  else if code ≤ endCode m then none
  else strings[code - (endCode m + 1)]?

theorem Expander.string?_eq (x : Expander) (code : Nat) :
    x.string? code = stringOf? x.pixelBits x.strings.toList code := by
  simp [string?, stringOf?]

theorem stringOf?_pixel (h : code < clearCode m) : stringOf? m strings code = some [code] :=
  if_pos h

/-- Codes before the next one keep their strings when one more is added. -/
theorem stringOf?_concat (h : code ≠ endCode m + 1 + strings.length) :
    stringOf? m (strings ++ [s]) code = stringOf? m strings code := by
  unfold stringOf?
  split
  · rfl
  · split
    · rfl
    · rw [List.getElem?_append]
      split
      · rfl
      · rw [List.getElem?_eq_none (by simp; omega), List.getElem?_eq_none (by omega)]

/-- The next code names the string that is added. -/
theorem stringOf?_next :
    stringOf? m (strings ++ [s]) (endCode m + 1 + strings.length) = some s := by
  unfold stringOf?
  rw [if_neg (by unfold endCode; omega), if_neg (by omega), Nat.add_sub_cancel_left,
    List.getElem?_concat_length]

/-- Only the codes given out so far name strings, and the two special ones do not. -/
theorem code_of_stringOf? (h : stringOf? m strings code = some s) :
    code < endCode m + 1 + strings.length ∧ code ≠ clearCode m ∧ code ≠ endCode m := by
  unfold stringOf? at h
  split at h
  · unfold endCode
    omega
  · split at h
    · cases h
    · have := (List.getElem?_eq_some_iff.mp h).1
      unfold endCode at *
      omega

theorem stringOf?_concat_of_some (h : stringOf? m strings code = some s) (t : List Nat) :
    stringOf? m (strings ++ [t]) code = some s := by
  rw [stringOf?_concat (Nat.ne_of_lt (code_of_stringOf? h).1), h]

/-! ### The table of the compressor -/

namespace Table

variable {t : Table} {pixel : Nat}

/-- The table gives the codes after the one for the end to `strings`, and its codes fit the
width that they are written with. -/
structure Holds (t : Table) (m : Nat) (strings : List (List Nat)) : Prop where
  next_eq : t.next = endCode m + 1 + strings.length
  next_le : t.next ≤ 2 ^ t.width
  lt_width : m < t.width
  width_le : t.width ≤ maxWidth
  longer : ∀ code pixel c, t.codes[(code, pixel)]? = some c →
    ∃ s, stringOf? m strings code = some s ∧ stringOf? m strings c = some (s ++ [pixel])

theorem holds_fresh (hm : 2 ≤ m) (hmax : m < maxWidth) : (fresh m).Holds m [] where
  next_eq := rfl
  next_le := by
    have : 2 ^ 2 ≤ 2 ^ m := Nat.pow_le_pow_right Nat.two_pos hm
    show endCode m + 1 ≤ 2 ^ (m + 1)
    rw [endCode, clearCode_eq, Nat.pow_succ]
    omega
  lt_width := Nat.lt_succ_self m
  width_le := hmax
  longer := by
    intro code pixel c h
    rw [fresh, Std.HashMap.getElem?_empty] at h
    cases h

theorem widthFor_eq (t : Table) (bound : Nat) :
    t.widthFor bound
      = if 2 ^ t.width < bound ∧ t.width < maxWidth then t.width + 1 else t.width := by
  rw [Table.widthFor, Nat.one_shiftLeft]

theorem isFull_add : (t.add code pixel).isFull = decide (2 ^ maxWidth ≤ t.next) := by
  rw [isFull, Nat.one_shiftLeft, decide_eq_decide]
  exact Nat.lt_succ_iff

/-- The width after one more string: as large as before, or one larger if it has to be. -/
theorem Holds.widthFor (h : t.Holds m strings) :
    m < t.widthFor (t.next + 1) ∧ t.widthFor (t.next + 1) ≤ maxWidth
      ∧ (t.next < 2 ^ maxWidth → t.next + 1 ≤ 2 ^ t.widthFor (t.next + 1)) := by
  have hnext := h.next_le
  have hlt := h.lt_width
  have hle := h.width_le
  rw [widthFor_eq]
  split
  · rename_i hgrow
    refine ⟨by omega, hgrow.2, fun _ => ?_⟩
    have : 0 < 2 ^ t.width := Nat.two_pow_pos _
    rw [Nat.pow_succ]
    omega
  · rename_i hgrow
    refine ⟨hlt, hle, fun hroom => ?_⟩
    rcases Nat.lt_or_ge t.width maxWidth with hw | hw
    · have := fun h => hgrow ⟨h, hw⟩
      omega
    · rw [Nat.le_antisymm hle hw]
      exact hroom

/-- A table with room for one more string keeps its promise. -/
theorem Holds.add (h : t.Holds m strings) (hs : stringOf? m strings code = some s)
    (hroom : t.next < 2 ^ maxWidth) :
    (t.add code pixel).Holds m (strings ++ [s ++ [pixel]]) where
  next_eq := by
    show t.next + 1 = _
    rw [h.next_eq, List.length_append, List.length_singleton, Nat.add_assoc]
  next_le := h.widthFor.2.2 hroom
  lt_width := h.widthFor.1
  width_le := h.widthFor.2.1
  longer := by
    intro a p c hc
    rw [Table.add, Std.HashMap.getElem?_insert] at hc
    split at hc
    · rename_i heq
      obtain ⟨rfl, rfl⟩ := Prod.mk.inj (beq_iff_eq.mp heq)
      refine ⟨s, stringOf?_concat_of_some hs _, ?_⟩
      rw [← Option.some.inj hc, h.next_eq]
      exact stringOf?_next
    · obtain ⟨u, hu, hc⟩ := h.longer a p c hc
      exact ⟨u, stringOf?_concat_of_some hu _, stringOf?_concat_of_some hc _⟩

end Table

/-! ### Reading codes -/

namespace Expander

variable {x y z : Expander} {a b : List Code} {pixels more : List Nat}

/-- Reading some codes gives some pixels and leaves the expander `y`, whatever follows. -/
def Reads (x : Expander) (codes : List Code) (pixels : List Nat) (y : Expander) : Prop :=
  ∀ rest, expandFrom? x (codes.flatMap Code.bits ++ rest) = (expandFrom? y rest).map (pixels ++ ·)

theorem Reads.append (hx : x.Reads a pixels y) (hy : y.Reads b more z) :
    x.Reads (a ++ b) (pixels ++ more) z := by
  intro rest
  rw [List.flatMap_append, List.append_assoc, hx, hy, Option.map_map]
  refine congrArg (Option.map · _) (funext fun tail => ?_)
  exact (List.append_assoc pixels more tail).symm

/-- A code that fits its width is read first. -/
theorem expandFrom?_code (hwidth : 0 < x.width) (hlt : code < 2 ^ x.width) (rest : List Bool) :
    expandFrom? x (Code.bits ⟨code, x.width⟩ ++ rest)
      = if code = endCode x.pixelBits then some []
        else (x.take? code).bind fun (s, y) => (expandFrom? y rest).map (s ++ ·) := by
  have hbits : Bits.read? x.width (Code.bits ⟨code, x.width⟩ ++ rest) = some (code, rest) :=
    Bits.read?_ofNat_append hlt rest
  rw [expandFrom?, dif_neg (Nat.ne_of_gt hwidth)]
  split
  · rename_i hread
    rw [hbits] at hread
    cases hread
  · rename_i hread
    rw [hbits] at hread
    obtain ⟨rfl, rfl⟩ := Prod.mk.inj (Option.some.inj hread)
    split
    · rfl
    · split <;> rename_i htake <;> rw [htake] <;> rfl

theorem Reads.of_take? (hwidth : 0 < x.width) (hlt : code < 2 ^ x.width)
    (hend : code ≠ endCode x.pixelBits) (htake : x.take? code = some (s, y)) :
    x.Reads [⟨code, x.width⟩] s y := by
  intro rest
  rw [List.flatMap_singleton, expandFrom?_code hwidth hlt, if_neg hend, htake, Option.bind_some]

/-- Nothing is read after the end. -/
theorem expandFrom?_endCode (hwidth : 0 < x.width) (hlt : endCode x.pixelBits < 2 ^ x.width)
    (rest : List Bool) :
    expandFrom? x (Code.bits ⟨endCode x.pixelBits, x.width⟩ ++ rest) = some [] := by
  rw [expandFrom?_code hwidth hlt, if_pos rfl]

/-- The code that empties the table stands for no pixels. -/
theorem reads_clearCode (hwidth : 0 < x.width) (hlt : clearCode x.pixelBits < 2 ^ x.width) :
    x.Reads [⟨clearCode x.pixelBits, x.width⟩] [] (start x.pixelBits) :=
  Reads.of_take? hwidth hlt (Nat.ne_of_lt (Nat.lt_succ_self _)) (if_pos rfl)

/-- The strings that are known once the first pixel of the next string is. -/
def ahead (x : Expander) (current : List Nat) : List (List Nat) :=
  match x.previous with
  | none => []
  | some p => x.strings.toList ++ [p ++ current.take 1]

theorem add_of_lt (hroom : x.next < 2 ^ maxWidth) (s : List Nat) :
    x.add s
      = { x with
          strings := x.strings.push s
          width := if 2 ^ x.width ≤ x.next + 1 ∧ x.width < maxWidth then x.width + 1
            else x.width } := by
  rw [add, Nat.one_shiftLeft, Nat.one_shiftLeft, if_pos hroom]

/-- A code after another one adds a string. -/
theorem take?_of_previous {p : List Nat} (hclear : code ≠ clearCode x.pixelBits)
    (hprevious : x.previous = some p)
    (hs : (if code = x.next then some (p ++ p.take 1) else x.string? code) = some s) :
    x.take? code = some (s, { x.add (p ++ s.take 1) with previous := some s }) := by
  rw [take?, if_neg hclear, hprevious]
  by_cases hnew : code = x.next
  · rw [if_pos hnew] at hs
    simp only [if_pos hnew, ← Option.some.inj hs]
    rfl
  · rw [if_neg hnew] at hs
    simp only [if_neg hnew, hs]
    rfl

/-- The expander after a code for `current`, at the width `width`. -/
def advance (x : Expander) (current : List Nat) (width : Nat) : Expander :=
  { pixelBits := x.pixelBits
    strings := (x.ahead current).toArray
    width
    previous := some current }

end Expander

/-! ### Both sides together -/

/-- A table and an expander that have seen the same codes, when the string `current` has
been matched and its code is still to be written. -/
structure Lockstep (t : Table) (x : Expander) (code : Nat) (current : List Nat) : Prop where
  pixelBits_ge : 2 ≤ x.pixelBits
  width_eq : x.width = t.width
  holds : t.Holds x.pixelBits (x.ahead current)
  string_eq : stringOf? x.pixelBits (x.ahead current) code = some current
  current_ne : current ≠ []
  previous_ne : x.previous ≠ some []
  strings_eq : x.previous = none → x.strings = #[]

namespace Lockstep

variable {t : Table} {x : Expander} {current : List Nat} {pixel : Nat}

/-- The code for the string is in the range of its width. -/
theorem code_lt (h : Lockstep t x code current) : code < 2 ^ x.width := by
  have hcode := (code_of_stringOf? h.string_eq).1
  rw [← h.holds.next_eq] at hcode
  rw [h.width_eq]
  exact Nat.lt_of_lt_of_le hcode h.holds.next_le

/-- The first code after an empty table adds no string, and the next one needs no more
bits. -/
theorem take?_of_first (h : Lockstep t x code current) (hprevious : x.previous = none) :
    x.take? code = some (current, x.advance current (t.widthFor (t.next + 1))) := by
  have hahead : x.ahead current = [] := by rw [Expander.ahead, hprevious]
  have hstrings := h.strings_eq hprevious
  have hwidth : t.widthFor (t.next + 1) = x.width := by
    have hnext := h.holds.next_eq
    have hpow : 2 ^ (x.pixelBits + 1) ≤ 2 ^ t.width :=
      Nat.pow_le_pow_right Nat.two_pos h.holds.lt_width
    have hfour : 2 ^ 2 ≤ 2 ^ x.pixelBits := Nat.pow_le_pow_right Nat.two_pos h.pixelBits_ge
    rw [hahead, List.length_nil, endCode, clearCode_eq] at hnext
    rw [Nat.pow_succ] at hpow
    rw [Table.widthFor_eq, if_neg (by omega), h.width_eq]
  have hfound : x.string? code = some current := by
    rw [Expander.string?_eq, hstrings, ← h.string_eq, hahead]
  have hclear := (code_of_stringOf? h.string_eq).2.1
  simp only [Expander.take?, if_neg hclear, hprevious, hfound, Option.map_some,
    Expander.advance, hwidth, hahead, ← hstrings]

/-- A later code finds the string, also if the expander does not know it yet. -/
theorem found_of_previous (h : Lockstep t x code current) {p : List Nat}
    (hprevious : x.previous = some p) :
    (if code = x.next then some (p ++ p.take 1) else x.string? code) = some current := by
  have hstring := h.string_eq
  rw [Expander.ahead, hprevious] at hstring
  by_cases hnew : code = x.next
  · -- the string is the one before it and its own first pixel, which is also the first
    -- pixel of the one before
    rw [hnew, Expander.next, ← Array.length_toList, stringOf?_next] at hstring
    obtain ⟨q, p, rfl⟩ : ∃ q rest, p = q :: rest :=
      List.exists_cons_of_ne_nil fun hp => h.previous_ne (hp ▸ hprevious)
    have hcurrent := Option.some.inj hstring
    have hfirst : current.take 1 = [q] := by
      rw [← hcurrent]
      rfl
    rw [if_pos hnew, ← hcurrent, hfirst]
    rfl
  · rw [stringOf?_concat (by rwa [Array.length_toList])] at hstring
    rw [if_neg hnew, Expander.string?_eq, hstring]

/-- After its first code the expander has given out one code less. -/
theorem next_of_previous (h : Lockstep t x code current) {p : List Nat}
    (hprevious : x.previous = some p) : x.next + 1 = t.next ∧ x.next < 2 ^ maxWidth := by
  have hnext := h.holds.next_eq
  rw [Expander.ahead, hprevious, List.length_append, List.length_singleton,
    Array.length_toList, ← Nat.add_assoc] at hnext
  have hle := h.holds.next_le
  have hpow : 2 ^ t.width ≤ 2 ^ maxWidth := Nat.pow_le_pow_right Nat.two_pos h.holds.width_le
  refine ⟨hnext.symm, ?_⟩
  rw [Expander.next]
  omega

/-- The expander finds the string and has the width that the compressor writes next. -/
theorem take?_eq (h : Lockstep t x code current) :
    x.take? code = some (current, x.advance current (t.widthFor (t.next + 1))) := by
  cases hprevious : x.previous with
  | none => exact h.take?_of_first hprevious
  | some p =>
      obtain ⟨hnext, hroom⟩ := h.next_of_previous hprevious
      have hwidth : t.widthFor (t.next + 1)
          = if 2 ^ x.width ≤ x.next + 1 ∧ x.width < maxWidth then x.width + 1 else x.width := by
        simp only [Table.widthFor_eq, h.width_eq, hnext, Nat.lt_succ_iff]
      have hahead : x.ahead current = x.strings.toList ++ [p ++ current.take 1] := by
        rw [Expander.ahead, hprevious]
      have hclear := (code_of_stringOf? h.string_eq).2.1
      rw [Expander.take?_of_previous hclear hprevious (h.found_of_previous hprevious),
        Expander.add_of_lt hroom, Expander.advance, hahead, hwidth, ← Array.toList_push,
        Array.toArray_toList]

/-- The code for the string is read as the string. -/
theorem reads (h : Lockstep t x code current) :
    x.Reads [⟨code, t.width⟩] current (x.advance current (t.widthFor (t.next + 1))) := by
  have hpos : 0 < x.width := by
    rw [h.width_eq]
    exact Nat.zero_lt_of_lt h.holds.lt_width
  rw [← h.width_eq]
  exact .of_take? hpos h.code_lt (code_of_stringOf? h.string_eq).2.2 h.take?_eq

/-- After an empty table both sides wait for the code of the first pixel. -/
theorem start (hm : 2 ≤ m) (hmax : m < maxWidth) (hpixel : pixel < 2 ^ m) :
    Lockstep (.fresh m) (.start m) pixel [pixel] where
  pixelBits_ge := hm
  width_eq := rfl
  holds := Table.holds_fresh hm hmax
  string_eq := stringOf?_pixel (clearCode_eq _ ▸ hpixel)
  current_ne := List.cons_ne_nil _ _
  previous_ne := by
    intro h
    cases h
  strings_eq _ := rfl

/-- A string in the table that is one pixel longer is matched instead. -/
theorem longer (h : Lockstep t x code current) {c : Nat}
    (hc : t.codes[(code, pixel)]? = some c) : Lockstep t x c (current ++ [pixel]) := by
  have hahead : x.ahead (current ++ [pixel]) = x.ahead current := by
    obtain ⟨first, rest, rfl⟩ := List.exists_cons_of_ne_nil h.current_ne
    rfl
  obtain ⟨s, hs, hc⟩ := h.holds.longer _ _ _ hc
  rw [h.string_eq] at hs
  rw [← Option.some.inj hs] at hc
  exact
    { h with
      holds := hahead ▸ h.holds
      string_eq := hahead ▸ hc
      current_ne := List.append_ne_nil_of_right_ne_nil _ (List.cons_ne_nil _ _) }

/-- A string that is not in the table is added on both sides if there is a code for it. -/
theorem add (h : Lockstep t x code current) (hroom : t.next < 2 ^ maxWidth)
    (hpixel : pixel < 2 ^ x.pixelBits) :
    Lockstep (t.add code pixel) (x.advance current (t.widthFor (t.next + 1))) pixel [pixel] where
  pixelBits_ge := h.pixelBits_ge
  width_eq := rfl
  holds := h.holds.add h.string_eq hroom
  string_eq := stringOf?_pixel (clearCode_eq _ ▸ hpixel)
  current_ne := List.cons_ne_nil _ _
  previous_ne := fun hnil => h.current_ne (Option.some.inj hnil)
  strings_eq hnone := by cases hnone

end Lockstep

/-! ### A whole run -/

namespace Compressor

variable {c : Compressor} {pixel : Nat} {pixels : List Nat}

theorem feed_of_longer (hcurrent : c.current = some code) {longer : Nat}
    (hlonger : c.table.codes[(code, pixel)]? = some longer) :
    c.feed pixel = { c with current := some longer } := by
  obtain ⟨_, _, _, _⟩ := c
  subst hcurrent
  simp only [feed, hlonger]

theorem feed_of_room (hcurrent : c.current = some code)
    (hnew : c.table.codes[(code, pixel)]? = none) (hroom : c.table.next < 2 ^ maxWidth) :
    c.feed pixel
      = { c with
          table := c.table.add code pixel
          current := some pixel
          written := c.written.push ⟨code, c.table.width⟩ } := by
  obtain ⟨_, table, _, _⟩ := c
  subst hcurrent
  have hfull : (table.add code pixel).isFull = false :=
    Table.isFull_add.trans (decide_eq_false (Nat.not_le.mpr hroom))
  simp only [feed, hnew, hfull, Bool.false_eq_true, if_false]

theorem feed_of_full (hcurrent : c.current = some code)
    (hnew : c.table.codes[(code, pixel)]? = none) (hle : 2 ^ maxWidth ≤ c.table.next) :
    c.feed pixel
      = { c with
          table := .fresh c.pixelBits
          current := some pixel
          written := (c.written.push ⟨code, c.table.width⟩).push
            ⟨clearCode c.pixelBits, c.table.widthFor (c.table.next + 1)⟩ } := by
  obtain ⟨_, table, _, _⟩ := c
  subst hcurrent
  have hfull : (table.add code pixel).isFull = true :=
    Table.isFull_add.trans (decide_eq_true hle)
  simp only [feed, hnew, hfull, if_true]
  rfl

/-- What has been written reads back as all pixels but those of the string that is being
matched, and leaves an expander in lockstep with the table. -/
structure Follows (c : Compressor) (x : Expander) (done : List Nat) (code : Nat)
    (current : List Nat) : Prop where
  pixelBits_eq : x.pixelBits = c.pixelBits
  pixelBits_lt : c.pixelBits < maxWidth
  current_eq : c.current = some code
  reads : (Expander.start c.pixelBits).Reads c.written.toList done x
  lockstep : Lockstep c.table x code current

/-- The expander follows, and the pixels so far are those it has and those being matched. -/
def Tracks (c : Compressor) (pixels : List Nat) : Prop :=
  ∃ x done code current, c.Follows x done code current ∧ done ++ current = pixels

/-- The first code says that the table is empty. -/
theorem reads_start (m : Nat) :
    (Expander.start m).Reads (start m).written.toList [] (Expander.start m) :=
  Expander.reads_clearCode (x := .start m) (Nat.succ_pos m)
    (clearCode_lt (Nat.lt_succ_self m))

theorem tracks_first (hm : 2 ≤ m) (hmax : m < maxWidth) (hpixel : pixel < 2 ^ m) :
    ((start m).feed pixel).Tracks [pixel] := by
  refine ⟨.start m, [], pixel, [pixel], ?_, rfl⟩
  exact
    { pixelBits_eq := rfl
      pixelBits_lt := hmax
      current_eq := rfl
      reads := reads_start m
      lockstep := .start hm hmax hpixel }

theorem Follows.longer {x : Expander} {done current : List Nat}
    (h : c.Follows x done code current) {c' : Nat}
    (hlonger : c.table.codes[(code, pixel)]? = some c') :
    (c.feed pixel).Follows x done c' (current ++ [pixel]) := by
  rw [feed_of_longer h.current_eq hlonger]
  exact { h with current_eq := rfl, lockstep := h.lockstep.longer hlonger }

theorem Follows.room {x : Expander} {done current : List Nat}
    (h : c.Follows x done code current) (hnew : c.table.codes[(code, pixel)]? = none)
    (hroom : c.table.next < 2 ^ maxWidth) (hpixel : pixel < 2 ^ c.pixelBits) :
    (c.feed pixel).Follows (x.advance current (c.table.widthFor (c.table.next + 1)))
      (done ++ current) pixel [pixel] := by
  have hreads := h.reads.append h.lockstep.reads
  rw [feed_of_room h.current_eq hnew hroom]
  exact
    { h with
      current_eq := rfl
      reads := by rwa [Array.toList_push]
      lockstep := h.lockstep.add hroom (h.pixelBits_eq ▸ hpixel) }

/-- The code that empties the table is read by an expander of the same width. -/
theorem Follows.full {x : Expander} {done current : List Nat}
    (h : c.Follows x done code current) (hnew : c.table.codes[(code, pixel)]? = none)
    (hfull : 2 ^ maxWidth ≤ c.table.next) (hpixel : pixel < 2 ^ c.pixelBits) :
    (c.feed pixel).Follows (.start c.pixelBits) (done ++ current) pixel [pixel] := by
  have hbits := h.pixelBits_eq
  have hwidth := h.lockstep.holds.widthFor.1
  have hclear := Expander.reads_clearCode
    (x := x.advance current (c.table.widthFor (c.table.next + 1))) (Nat.zero_lt_of_lt hwidth)
    (clearCode_lt hwidth)
  have hreads := (h.reads.append h.lockstep.reads).append hclear
  rw [feed_of_full h.current_eq hnew hfull]
  exact
    { pixelBits_eq := rfl
      pixelBits_lt := h.pixelBits_lt
      current_eq := rfl
      reads := by
        rw [List.append_nil] at hreads
        simpa only [Array.toList_push, Expander.advance, hbits] using hreads
      lockstep := .start (hbits ▸ h.lockstep.pixelBits_ge) h.pixelBits_lt hpixel }

/-- One more pixel is tracked. -/
theorem Tracks.feed (h : c.Tracks pixels) (hpixel : pixel < 2 ^ c.pixelBits) :
    (c.feed pixel).Tracks (pixels ++ [pixel]) := by
  obtain ⟨x, done, code, current, hfollows, rfl⟩ := h
  cases hcode : c.table.codes[(code, pixel)]? with
  | some longer => exact ⟨_, _, _, _, hfollows.longer hcode, (List.append_assoc ..).symm⟩
  | none =>
      rcases Nat.lt_or_ge c.table.next (2 ^ maxWidth) with hroom | hfull
      · exact ⟨_, _, _, _, hfollows.room hcode hroom hpixel, rfl⟩
      · exact ⟨_, _, _, _, hfollows.full hcode hfull hpixel, rfl⟩

@[simp] theorem pixelBits_feed : (c.feed pixel).pixelBits = c.pixelBits := by
  obtain ⟨_, _, _ | _, _⟩ := c
  · rfl
  · simp only [Compressor.feed]
    split
    · rfl
    · split <;> rfl

theorem pixelBits_foldl_feed (pixels : List Nat) :
    (pixels.foldl Compressor.feed c).pixelBits = c.pixelBits :=
  List.foldlRecOn pixels Compressor.feed (motive := fun d => d.pixelBits = c.pixelBits) rfl
    fun _ hd _ _ => pixelBits_feed.trans hd

theorem Tracks.foldl_feed (h : c.Tracks pixels) {more : List Nat}
    (hmore : ∀ pixel ∈ more, pixel < 2 ^ c.pixelBits) :
    (more.foldl Compressor.feed c).Tracks (pixels ++ more) := by
  induction more generalizing c pixels with
  | nil => rwa [List.append_nil]
  | cons pixel more ih =>
      have hfirst := h.feed (hmore pixel List.mem_cons_self)
      have hrest := ih hfirst fun p hp => by
        rw [pixelBits_feed]
        exact hmore p (List.mem_cons_of_mem pixel hp)
      rwa [List.append_assoc] at hrest

/-- The last code brings the string that is being matched, and the end comes after it. -/
theorem Tracks.expandFrom?_finish (h : c.Tracks pixels) (rest : List Bool) :
    expandFrom? (.start c.pixelBits) (c.finish.toList.flatMap Code.bits ++ rest)
      = some pixels := by
  obtain ⟨x, done, code, current, hfollows, hpixels⟩ := h
  have hread := hfollows.reads.append hfollows.lockstep.reads
  have hwidth := hfollows.lockstep.holds.widthFor.1
  have hend := Expander.expandFrom?_endCode
    (x := x.advance current (c.table.widthFor (c.table.next + 1))) (Nat.zero_lt_of_lt hwidth)
    (endCode_lt (Nat.zero_lt_of_lt hfollows.lockstep.pixelBits_ge) hwidth) rest
  have hcodes : c.finish.toList = c.written.toList ++ [⟨code, c.table.width⟩]
      ++ [⟨endCode x.pixelBits, c.table.widthFor (c.table.next + 1)⟩] := by
    rw [finish, hfollows.current_eq, hfollows.pixelBits_eq]
    simp only [Array.toList_push]
  rw [hcodes, List.flatMap_append, List.flatMap_singleton, List.append_assoc, hread]
  exact (congrArg (Option.map _) hend).trans (by rw [Option.map_some, List.append_nil, hpixels])

end Compressor

/-- **Expanding the codes of some pixels gives the pixels.** -/
theorem decode?_encode {pixels : List Nat} (hm : 2 ≤ m) (hmax : m < maxWidth)
    (hpixels : ∀ pixel ∈ pixels, pixel < 2 ^ m) : decode? m (encode m pixels) = some pixels := by
  obtain ⟨zeros, hbits⟩ := Bits.ofBytes_toBytes ((compress m pixels).flatMap Code.bits)
  rw [decode?, encode, hbits]
  cases pixels with
  | nil =>
      have hend := Expander.expandFrom?_endCode (x := .start m) (Nat.succ_pos m)
        (endCode_lt (Nat.zero_lt_of_lt hm) (Nat.lt_succ_self m)) (List.replicate zeros false)
      have hcodes : compress m [] = (Compressor.start m).written.toList
          ++ [⟨endCode (Expander.start m).pixelBits, (Expander.start m).width⟩] := rfl
      rw [hcodes, List.flatMap_append, List.flatMap_singleton, List.append_assoc,
        Compressor.reads_start m, hend]
      rfl
  | cons pixel pixels =>
      have hfirst := Compressor.tracks_first hm hmax (hpixels pixel List.mem_cons_self)
      have hall := hfirst.foldl_feed fun p hp => hpixels p (List.mem_cons_of_mem pixel hp)
      have hexpand := hall.expandFrom?_finish (List.replicate zeros false)
      rwa [Compressor.pixelBits_foldl_feed] at hexpand

end HeapReel.Gif.Lzw
