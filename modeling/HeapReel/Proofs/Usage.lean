/-
What the counters count.

A buffer is changed range by range, and every range is cut to the buffer first.  None of
that shows in the counter of a single unit: it is the number of allocations that cover the
unit's offset, less the number of frees that do, over all events so far and in whatever
order they came.  `netCount` is that number, and it mentions neither a buffer nor a cut.

The cut is harmless because it moves both ends of a range by the same rule.  An index
inside the buffer lies between the cut ends exactly when its offset lies between the true
ones, also where the range is inverted or lies outside altogether.
-/
import HeapReel.Usage
import Mathlib.Data.List.Basic

namespace HeapReel

/-- The offset lies in the range of the event. -/
def Event.Covers (e : Event) (p : Int) : Prop :=
  e.offset ≤ p ∧ p < e.stop

instance (e : Event) (p : Int) : Decidable (e.Covers p) :=
  inferInstanceAs (Decidable (_ ∧ _))

/-- How many allocations cover the offset, less how many frees do. -/
def netCount (es : List Event) (p : Int) : Int :=
  (es.countP fun e => e.action = .alloc ∧ e.Covers p : Nat)
    - (es.countP fun e => e.action = .free ∧ e.Covers p : Nat)

@[simp] theorem netCount_nil (p : Int) : netCount [] p = 0 := rfl

theorem netCount_cons (e : Event) (es : List Event) (p : Int) :
    netCount (e :: es) p = (if e.Covers p then e.action.change else 0) + netCount es p := by
  simp only [netCount, List.countP_cons]
  by_cases hp : e.Covers p
  · cases ha : e.action <;> simp [hp, Action.change] <;> omega
  · simp [hp]

theorem netCount_append (es fs : List Event) (p : Int) :
    netCount (es ++ fs) p = netCount es p + netCount fs p := by
  simp only [netCount, List.countP_append, Int.natCast_add]
  omega

/-- One more event adds what it changes, where it covers the offset. -/
theorem netCount_concat (es : List Event) (e : Event) (p : Int) :
    netCount (es ++ [e]) p = netCount es p + (if e.Covers p then e.action.change else 0) := by
  rw [netCount_append, netCount_cons, netCount_nil, Int.add_zero]

/-- A net count is no further from zero than there are events. -/
theorem natAbs_netCount_le (es : List Event) (p : Int) : (netCount es p).natAbs ≤ es.length := by
  have halloc := List.countP_le_length (p := fun e => e.action = .alloc ∧ e.Covers p) (l := es)
  have hfree := List.countP_le_length (p := fun e => e.action = .free ∧ e.Covers p) (l := es)
  unfold netCount
  omega

/-- A counter is that of a unit, so it never stands for padding. -/
theorem CellState.ofCount_ne_padding (count : Int) : ofCount count ≠ .padding := by
  unfold ofCount
  split
  · simp
  · split <;> simp

namespace Usage

/-! ### One event -/

/-- Inside the buffer the cut range covers what the event covers. -/
theorem covers_span {u : Usage} {i : Nat} (hi : i < u.size) (e : Event) :
    (u.span e).Covers i ↔ e.Covers (u.origin + i) := by
  simp only [Span.Covers, Event.Covers, span, clamp, relativeStart, relativeStop]
  omega

/-- The cut range lies in the buffer, and it does not end before it starts. -/
theorem span_le (u : Usage) (e : Event) :
    (u.span e).start ≤ (u.span e).stop ∧ (u.span e).stop ≤ u.size := by
  simp only [span, clamp]
  omega

/-- The cut range holds the units of the event that are in the buffer. -/
theorem covers_span_iff {u : Usage} {e : Event} {i : Nat} :
    (u.span e).Covers i ↔ i < u.size ∧ e.Covers (u.origin + i) := by
  constructor
  · intro h
    have hi : i < u.size := Nat.lt_of_lt_of_le h.2 (span_le u e).2
    exact ⟨hi, (covers_span hi e).mp h⟩
  · rintro ⟨hi, h⟩
    exact (covers_span hi e).mpr h

/-- The caller is told unless the event has no size or lies in the buffer from its start to its
end. -/
theorem clamps_iff {u : Usage} {e : Event} : u.Clamps e ↔ e.size ≠ 0
    ∧ ¬(0 ≤ e.offset - u.origin ∧ e.offset - u.origin ≤ e.offset + e.size - u.origin
      ∧ e.offset + e.size - u.origin ≤ u.size) := by
  simp only [Clamps, span, clamp, relativeStart, relativeStop, Event.stop]
  omega

theorem lt_size_of_count? {u : Usage} {i : Nat} {c : Int} (h : u.count? i = some c) :
    i < u.size := by
  unfold count? at h
  obtain ⟨hi, -⟩ := Array.getElem?_eq_some_iff.mp h
  exact hi

/-- Past the buffer there is padding, and nowhere else. -/
theorem state_eq_padding_iff {u : Usage} {i : Nat} : u.state i = .padding ↔ u.size ≤ i := by
  rw [size, ← Array.getElem?_eq_none_iff, ← count?, state]
  cases u.count? i with
  | none => simp
  | some c => simp [CellState.ofCount_ne_padding]

/-! ### All events -/

/-- The buffer after some events, one after the other. -/
def applyAll (u : Usage) (es : List Event) : Usage :=
  es.foldl apply u

@[simp] theorem applyAll_nil (u : Usage) : u.applyAll [] = u := rfl

@[simp] theorem applyAll_cons (u : Usage) (e : Event) (es : List Event) :
    u.applyAll (e :: es) = (u.apply e).applyAll es := rfl

theorem applyAll_append (u : Usage) (es fs : List Event) :
    u.applyAll (es ++ fs) = (u.applyAll es).applyAll fs :=
  List.foldl_append

/-- One more of the events of a list. -/
theorem applyAll_take_succ (u : Usage) {es : List Event} {k : Nat} {e : Event}
    (he : es[k]? = some e) :
    (u.applyAll (es.take k)).apply e = u.applyAll (es.take (k + 1)) := by
  rw [List.take_add_one, he, applyAll_append]
  rfl

@[simp] theorem origin_applyAll (u : Usage) (es : List Event) :
    (u.applyAll es).origin = u.origin := by
  induction es generalizing u with
  | nil => rfl
  | cons e es ih => rw [applyAll_cons, ih, origin_apply]

@[simp] theorem size_applyAll (u : Usage) (es : List Event) :
    (u.applyAll es).size = u.size := by
  induction es generalizing u with
  | nil => rfl
  | cons e es ih => rw [applyAll_cons, ih, size_apply]

/-- **Every counter grows by the net count of the offset that it stands for.** -/
theorem count?_applyAll (u : Usage) (es : List Event) (i : Nat) :
    (u.applyAll es).count? i = (u.count? i).map fun c => c + netCount es (u.origin + i) := by
  induction es generalizing u with
  | nil => simp
  | cons e es ih =>
      rw [applyAll_cons, ih, count?_apply, origin_apply, Option.map_map]
      refine Option.map_congr fun c hc => ?_
      have hcov := covers_span (lt_size_of_count? hc) e
      rw [Function.comp_apply, netCount_cons, ← Int.add_assoc]
      by_cases h : (u.span e).Covers i
      · rw [if_pos h, if_pos (hcov.mp h)]
      · rw [if_neg h, if_neg (mt hcov.mpr h), Int.add_zero]

/-- Events with the same net counts lead to one buffer. -/
theorem applyAll_congr (u : Usage) {es fs : List Event}
    (h : ∀ p, netCount fs p = netCount es p) : u.applyAll fs = u.applyAll es := by
  have hcounts : (u.applyAll fs).counts = (u.applyAll es).counts := by
    refine Array.ext_getElem? fun i => ?_
    have hcount : (u.applyAll fs).count? i = (u.applyAll es).count? i := by
      rw [count?_applyAll, count?_applyAll, h]
    exact hcount
  have horigin : (u.applyAll fs).origin = (u.applyAll es).origin := by
    rw [origin_applyAll, origin_applyAll]
  exact congrArg₂ Usage.mk horigin hcounts

/-! ### Starting from an untouched buffer -/

theorem count?_empty {origin : Int} {n i : Nat} :
    (empty origin n).count? i = if i < n then some 0 else none := by
  simp [count?, empty, Array.getElem?_replicate]

theorem count?_applyAll_empty {origin : Int} {n i : Nat} (hi : i < n) (es : List Event) :
    ((empty origin n).applyAll es).count? i = some (netCount es (origin + i)) := by
  rw [count?_applyAll, count?_empty, if_pos hi]
  simp

theorem state_applyAll_empty {origin : Int} {n i : Nat} (hi : i < n) (es : List Event) :
    ((empty origin n).applyAll es).state i = .ofCount (netCount es (origin + i)) := by
  rw [state, count?_applyAll_empty hi]

/-- The counters, all at once. -/
theorem counts_applyAll_empty (origin : Int) (n : Nat) (es : List Event) :
    ((empty origin n).applyAll es).counts.toList
      = (List.range n).map fun i : Nat => netCount es (origin + i) := by
  refine List.ext_getElem? fun i => ?_
  have hcount : ((empty origin n).applyAll es).counts.toList[i]?
      = ((empty origin n).applyAll es).count? i := by
    rw [Array.getElem?_toList, count?]
  rw [hcount, List.getElem?_map]
  rcases Nat.lt_or_ge i n with hi | hi
  · rw [count?_applyAll_empty hi, List.getElem?_range hi, Option.map_some]
  · rw [count?_applyAll, count?_empty, if_neg (Nat.not_lt.mpr hi),
      List.getElem?_eq_none (by simpa using hi)]
    rfl

/-- No counter is further from zero than the number of events. -/
theorem natAbs_le_of_mem_counts {origin : Int} {n : Nat} {es : List Event} {c : Int}
    (hc : c ∈ ((empty origin n).applyAll es).counts) : c.natAbs ≤ es.length := by
  have hmem := Array.mem_toList_iff.mpr hc
  rw [counts_applyAll_empty] at hmem
  obtain ⟨i, -, rfl⟩ := List.mem_map.mp hmem
  exact natAbs_netCount_le _ _

/-- The free units are those whose offsets allocations and frees balance. -/
theorem freeCount_applyAll_empty (origin : Int) (n : Nat) (es : List Event) :
    ((empty origin n).applyAll es).freeCount
      = (List.range n).countP fun i : Nat => netCount es (origin + i) = 0 := by
  rw [freeCount, ← Array.countP_toList, counts_applyAll_empty, List.countP_map]
  rfl

/-- The share of free units is that of the offsets where allocations and frees balance. -/
theorem freeShare_applyAll_empty (origin : Int) (n : Nat) (es : List Event) :
    ((empty origin n).applyAll es).freeShare
      = .share ((List.range n).countP fun i : Nat => netCount es (origin + i) = 0) n := by
  rw [freeShare, freeCount_applyAll_empty, size_applyAll, size_empty]

end Usage

end HeapReel
