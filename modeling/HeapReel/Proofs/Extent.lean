/-
What the extent of a list measures.

The extent is a fold that starts from the first event, so its shape depends on the order of
the list.  Its value does not: it is the least offset and the greatest end that occur, and
those are properties of the members alone.  `Spans` says so without the fold, and the fold
keeps it, one event at a time.
-/
import HeapReel.Extent
import Mathlib.Order.Bounds.Basic

namespace HeapReel.Extent

/-- The extent runs from the least offset of the events to their greatest end. -/
structure Spans (x : Extent) (es : List Event) : Prop where
  lo : IsLeast {o | ∃ e ∈ es, e.offset = o} x.lo
  hi : IsGreatest {s | ∃ e ∈ es, e.stop = s} x.hi

theorem spans_ofEvent (e : Event) : (ofEvent e).Spans [e] := by
  refine ⟨⟨⟨e, by simp, rfl⟩, ?_⟩, ⟨⟨e, by simp, rfl⟩, ?_⟩⟩
  · rintro o ⟨e', he', rfl⟩
    rw [List.mem_singleton.mp he']
    exact Int.le_refl _
  · rintro s ⟨e', he', rfl⟩
    rw [List.mem_singleton.mp he']
    exact Int.le_refl _

/-- Widening by an event is what one more member asks for. -/
theorem Spans.widen {x : Extent} {es : List Event} (h : x.Spans es) (e : Event) :
    (x.widen e).Spans (es ++ [e]) := by
  have hlo : {o | ∃ e' ∈ es ++ [e], e'.offset = o}
      = insert e.offset {o | ∃ e' ∈ es, e'.offset = o} := by
    ext o
    simp [or_and_right, exists_or, or_comm, eq_comm]
  have hhi : {s | ∃ e' ∈ es ++ [e], e'.stop = s}
      = insert e.stop {s | ∃ e' ∈ es, e'.stop = s} := by
    ext s
    simp [or_and_right, exists_or, or_comm, eq_comm]
  refine ⟨?_, ?_⟩
  · rw [hlo, Extent.widen, min_comm]
    exact h.lo.insert e.offset
  · rw [hhi, Extent.widen, max_comm]
    exact h.hi.insert e.stop

theorem Spans.foldl_widen {x : Extent} {done : List Event} (h : x.Spans done)
    (es : List Event) : (es.foldl Extent.widen x).Spans (done ++ es) := by
  induction es generalizing x done with
  | nil => simpa using h
  | cons e es ih => simpa using ih (h.widen e)

/-- **The fold finds the least offset and the greatest end, whatever the order.** -/
theorem ofEvents?_eq_some_iff {es : List Event} {x : Extent} :
    ofEvents? es = some x ↔ x.Spans es := by
  have hspans : ∀ y, ofEvents? es = some y → y.Spans es := by
    intro y hy
    cases es with
    | nil => simp [ofEvents?] at hy
    | cons e es =>
        rw [← Option.some.inj hy]
        exact (spans_ofEvent e).foldl_widen es
  refine ⟨hspans x, fun hx => ?_⟩
  obtain ⟨⟨e, he, -⟩, -⟩ := hx.lo
  obtain ⟨y, hy⟩ := Option.ne_none_iff_exists'.mp
    (mt ofEvents?_eq_none_iff.mp (List.ne_nil_of_mem he))
  have hlo : y.lo = x.lo := (hspans y hy).lo.unique hx.lo
  have hhi : y.hi = x.hi := (hspans y hy).hi.unique hx.hi
  rw [hy, Option.some.injEq]
  cases x
  cases y
  simp_all

namespace Spans

variable {x : Extent} {es : List Event}

theorem lo_le (h : x.Spans es) {e : Event} (he : e ∈ es) : x.lo ≤ e.offset :=
  h.lo.2 ⟨e, he, rfl⟩

theorem stop_le (h : x.Spans es) {e : Event} (he : e ∈ es) : e.stop ≤ x.hi :=
  h.hi.2 ⟨e, he, rfl⟩

/-- No event is longer than the extent. -/
theorem size_le (h : x.Spans es) {e : Event} (he : e ∈ es) : e.size ≤ x.units := by
  have hlo := h.lo_le he
  have hhi : e.offset + e.size ≤ x.hi := h.stop_le he
  unfold Extent.units
  omega

end Spans

end HeapReel.Extent
