/-
How far a list of events reaches.

The extent runs from the smallest offset to the largest end.  Both are taken over the whole
list and may come from different events.  A negative size puts the end of an event below
its offset, so the largest end can lie below the smallest offset; such an extent holds
no units.
-/
import HeapReel.Event

namespace HeapReel

/-- The smallest offset and the largest end of some events. -/
structure Extent where
  lo : Int
  hi : Int
  deriving Repr, DecidableEq

namespace Extent

/-- The extent of one event. -/
def ofEvent (e : Event) : Extent :=
  ⟨e.offset, e.stop⟩

/-- The extent widened to hold one more event. -/
def widen (x : Extent) (e : Event) : Extent :=
  ⟨min x.lo e.offset, max x.hi e.stop⟩

/-- The extent of a list of events; no events have no extent. -/
def ofEvents? : List Event → Option Extent
  | [] => none
  | e :: es => some (es.foldl widen (ofEvent e))

/-- How many address units lie inside. -/
def units (x : Extent) : Nat :=
  (x.hi - x.lo).toNat

@[simp] theorem ofEvents?_eq_none_iff {es : List Event} : ofEvents? es = none ↔ es = [] := by
  cases es <;> simp [ofEvents?]

end Extent

end HeapReel
