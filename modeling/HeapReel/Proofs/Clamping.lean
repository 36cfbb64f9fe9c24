/-
What the cut does to any event in any buffer.

A buffer need not have been made for its events.  A range may start before it, end behind it, lie
outside or be inverted, and each of these takes another way through the cut: the start goes to
the nearest edge, and the end to the nearest place that is not before that start.  The result is
the same each time.  The cut range lies in the buffer, and it holds the units of the event that
are there, no others.

So the cut cannot be seen in the counters.  Which unit counts an event is a matter of offsets
alone, and an allocation is undone by a later free of the same range, wherever its edges are.
-/
import HeapReel.Proofs.Admission

namespace HeapReel

/-- The integers of a signed word of 32 bits. -/
def FitsHalfWord (i : Int) : Prop :=
  -0x80000000 ≤ i ∧ i < 0x80000000

/-- A free undoes an allocation of the same range, whatever happened between. -/
theorem netCount_cancel (before between after : List Event) (offset size p : Int) :
    netCount (before ++ ⟨.alloc, offset, size⟩ :: between ++ ⟨.free, offset, size⟩ :: after) p
      = netCount (before ++ between ++ after) p := by
  have hsame : (⟨.free, offset, size⟩ : Event).Covers p
      ↔ (⟨.alloc, offset, size⟩ : Event).Covers p := Iff.rfl
  simp only [netCount_append, netCount_cons, hsame, Action.change]
  split <;> omega

namespace Usage

/-! ### Words -/

variable {u : Usage} {e : Event}

/-- Applying the event takes no number out of its word: double words for the two ends before the
cut, half words for the counters. -/
structure StaysInWords (u : Usage) (e : Event) : Prop where
  stop : FitsDoubleWord e.stop
  relativeStart : FitsDoubleWord (u.relativeStart e)
  relativeStop : FitsDoubleWord (u.relativeStop e)
  size : FitsDoubleWord u.size
  counts : ∀ c ∈ (u.apply e).counts, FitsHalfWord c

theorem staysInWords_of_counts (horigin : Numeral.FitsWord u.origin) (hsize : u.size < UInt64.size)
    (he : e.FitsWords) (hcounts : ∀ c ∈ (u.apply e).counts, FitsHalfWord c) : u.StaysInWords e := by
  have hwidth : UInt64.size = 0x10000000000000000 := rfl
  refine ⟨he.stop, ?_, ?_, ?_, hcounts⟩
  all_goals
    simp only [Event.FitsWords, Numeral.FitsWord] at he horigin
    simp only [FitsDoubleWord, Usage.relativeStart, Usage.relativeStop, Event.stop]
    omega

/-! ### Events in any order -/

variable {origin : Int} {n : Nat} {es : List Event}

/--
**Every unit counts the events that cover its offset, whatever the buffer and the events.**

The buffer keeps its place and its length.  Its counters are the net counts of the offsets, so
that an allocation and a later free of one range leave no trace, its free units are those where
the net count is zero, and behind it there is padding only.

Each event on the way is cut to a range of the buffer with the units that it covers there.  The
caller is told exactly if the event has a size and reaches out of the buffer or is inverted.  No
number leaves its word.

The origin and the numbers of the events are words of 64 bits, and so is the length of the
buffer; there are fewer than `2 ^ 31` events.
-/
theorem applied_pointwise (horigin : Numeral.FitsWord origin) (hn : n < UInt64.size)
    (hwords : ∀ e ∈ es, e.FitsWords) (hlength : es.length < 0x80000000) :
    ((empty origin n).applyAll es).origin = origin
      ∧ ((empty origin n).applyAll es).size = n
      ∧ (∀ i < n, ((empty origin n).applyAll es).count? i = some (netCount es (origin + i)))
      ∧ ((empty origin n).applyAll es).freeCount
          = (List.range n).countP (fun i : Nat => netCount es (origin + i) = 0)
      ∧ (∀ i, ((empty origin n).applyAll es).state i = .padding ↔ n ≤ i)
      ∧ (∀ before between after offset size,
          es = before ++ ⟨.alloc, offset, size⟩ :: between ++ ⟨.free, offset, size⟩ :: after →
          (empty origin n).applyAll es = (empty origin n).applyAll (before ++ between ++ after))
      ∧ ∀ k e, es[k]? = some e → ∃ u : Usage,
          u = (empty origin n).applyAll (es.take k)
          ∧ u.apply e = (empty origin n).applyAll (es.take (k + 1))
          ∧ u.origin = origin
          ∧ u.size = n
          ∧ (u.span e).start ≤ (u.span e).stop
          ∧ (u.span e).stop ≤ n
          ∧ (∀ i, (u.span e).Covers i
              ↔ i < n ∧ e.offset ≤ origin + i ∧ origin + i < e.offset + e.size)
          ∧ u.notices e
            = (if e.size ≠ 0 ∧ ¬(0 ≤ e.offset - origin
                  ∧ e.offset - origin ≤ e.offset + e.size - origin
                  ∧ e.offset + e.size - origin ≤ n) then
                [.clamped e (e.offset - origin) (e.offset + e.size - origin) n]
              else [])
          ∧ u.StaysInWords e := by
  refine ⟨origin_applyAll _ _, (size_applyAll _ _).trans size_empty,
    fun i hi => count?_applyAll_empty hi es, freeCount_applyAll_empty origin n es, ?_, ?_, ?_⟩
  · intro i
    rw [state_eq_padding_iff, size_applyAll, size_empty]
  · rintro before between after offset size rfl
    exact applyAll_congr _ (netCount_cancel before between after offset size)
  · intro k e he
    have hnext := (empty origin n).applyAll_take_succ he
    have horigin' : ((empty origin n).applyAll (es.take k)).origin = origin := origin_applyAll _ _
    have hsize : ((empty origin n).applyAll (es.take k)).size = n :=
      (size_applyAll _ _).trans size_empty
    have hcounts : ∀ c ∈ ((empty origin n).applyAll (es.take (k + 1))).counts, FitsHalfWord c := by
      intro c hc
      have hle := (natAbs_le_of_mem_counts hc).trans (List.length_take_le' _ _)
      unfold FitsHalfWord
      omega
    -- From here on the earlier events matter only for where the buffer is and how long.
    generalize (empty origin n).applyAll (es.take k) = u at hnext horigin' hsize ⊢
    obtain ⟨hstart, hstop⟩ := span_le u e
    refine ⟨u, rfl, hnext, horigin', hsize, hstart, hsize ▸ hstop, fun i => ?_, ?_, ?_⟩
    · rw [covers_span_iff, hsize, horigin']
      rfl
    · simp only [notices, clamps_iff, relativeStart, relativeStop, Event.stop, horigin', hsize]
    · exact staysInWords_of_counts (horigin' ▸ horigin) (hsize ▸ hn)
        (hwords e (List.mem_of_getElem? he)) (hnext ▸ hcounts)

/-- Around a buffer of four units from `10`: across its start, across its end, inverted across
the whole of it, and the first once more, freed. -/
def straggling : List Event :=
  [⟨.alloc, 5, 7⟩, ⟨.alloc, 13, 0x7fffffffffffffff⟩, ⟨.free, 20, -15⟩, ⟨.free, 5, 7⟩]

/-- Only the last unit remains in use, and the inverted event was cut to nothing at the end. -/
theorem applied_pointwise_straggling :
    Numeral.FitsWord 10 ∧ 4 < UInt64.size ∧ (∀ e ∈ straggling, e.FitsWords)
      ∧ straggling.length < 0x80000000
      ∧ ((empty 10 4).applyAll straggling).freeCount = 3
      ∧ ((empty 10 4).applyAll straggling).count? 3 = some 1
      ∧ (empty 10 4).applyAll straggling = (empty 10 4).applyAll
          [⟨.alloc, 13, 0x7fffffffffffffff⟩, ⟨.free, 20, -15⟩]
      ∧ ∃ u : Usage, u = (empty 10 4).applyAll (straggling.take 2)
        ∧ (∀ i, ¬(u.span ⟨.free, 20, -15⟩).Covers i)
        ∧ u.notices ⟨.free, 20, -15⟩ = [.clamped ⟨.free, 20, -15⟩ 10 (-5) 4] := by
  have horigin : Numeral.FitsWord 10 := by decide
  have hn : 4 < UInt64.size := by decide
  have hwords : ∀ e ∈ straggling, e.FitsWords := by
    simp [straggling, Event.FitsWords, Numeral.FitsWord]
  have hlength : straggling.length < 0x80000000 := by decide
  obtain ⟨-, -, hcount, hfree, -, hcancel, hevents⟩ :=
    applied_pointwise horigin hn hwords hlength
  obtain ⟨u, hu, -, -, -, -, -, hcovers, hnotices, -⟩ := hevents 2 ⟨.free, 20, -15⟩ rfl
  refine ⟨horigin, hn, hwords, hlength, hfree.trans (by decide),
    (hcount 3 (by decide)).trans (by decide), hcancel [] [_, _] [] 5 7 rfl, u, hu, fun i => ?_,
    hnotices.trans (by decide)⟩
  rw [hcovers]
  rintro ⟨-, hfrom, hto⟩
  exact Int.not_le.mpr hto (Int.le_trans (by decide) hfrom)

end Usage

end HeapReel
