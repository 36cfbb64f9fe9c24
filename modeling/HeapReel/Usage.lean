/-
How often each address unit is in use.

A counter for every unit adds up the events that cover it, `+1` for each allocation and
`-1` for each free.  Counters are never held at zero, so that a second free shows as `-1`
and a second allocation as `2`.  Only zero and one are sound: the unit is free or in use.

Events may reach past the buffer or end before they start.  Each range is cut to the buffer
before it is counted, first its start and then its end, which never comes before the start.
Where the cut changed a range whose size is not zero, the caller is told.
-/
import HeapReel.Binary64
import HeapReel.Extent

namespace HeapReel

/-- What a cell of the grid stands for. -/
inductive CellState where
  | free
  | used
  | invalid
  /-- Past the end of the address range. -/
  | padding
  deriving Repr, DecidableEq

/-- The state of a unit with the given counter. -/
def CellState.ofCount (count : Int) : CellState :=
  if count = 0 then .free else if count = 1 then .used else .invalid

/-- The unit indices from `start` up to `stop`. -/
structure Span where
  start : Nat
  stop : Nat
  deriving Repr, DecidableEq

namespace Span

/-- The index lies in the span. -/
def Covers (s : Span) (i : Nat) : Prop :=
  s.start ≤ i ∧ i < s.stop

instance (s : Span) (i : Nat) : Decidable (s.Covers i) :=
  inferInstanceAs (Decidable (_ ∧ _))

end Span

/-- The value nearest to `i` that is at least `lo` and at most `hi`. -/
def clamp (i lo hi : Int) : Int :=
  max lo (min i hi)

/-- The counters of a row of units whose first one is at the offset `origin`. -/
structure Usage where
  origin : Int
  counts : Array Int
  deriving Repr, DecidableEq

namespace Usage

/-- A buffer of `size` units that nothing has touched. -/
def empty (origin : Int) (size : Nat) : Usage :=
  ⟨origin, Array.replicate size 0⟩

/-- How many units the buffer has. -/
def size (u : Usage) : Nat :=
  u.counts.size

/-- The counter of unit `i`, if there is one. -/
def count? (u : Usage) (i : Nat) : Option Int :=
  u.counts[i]?

/-- The state of unit `i`; an index past the buffer is padding. -/
def state (u : Usage) (i : Nat) : CellState :=
  match u.count? i with
  | some c => .ofCount c
  | none => .padding

/-! ### Applying events -/

/-- Where the event starts, counted from the first unit. -/
def relativeStart (u : Usage) (e : Event) : Int :=
  e.offset - u.origin

/-- Where the event ends, counted from the first unit. -/
def relativeStop (u : Usage) (e : Event) : Int :=
  e.stop - u.origin

/-- The units that the event covers, cut to the buffer. -/
def span (u : Usage) (e : Event) : Span :=
  let start := clamp (u.relativeStart e) 0 u.size
  let stop := clamp (u.relativeStop e) start u.size
  ⟨start.toNat, stop.toNat⟩

/-- Cutting changed the range, and the event has a size. -/
def Clamps (u : Usage) (e : Event) : Prop :=
  ¬(((u.span e).start : Int) = u.relativeStart e ∧ ((u.span e).stop : Int) = u.relativeStop e)
    ∧ u.relativeStart e ≠ u.relativeStop e

instance (u : Usage) (e : Event) : Decidable (u.Clamps e) :=
  inferInstanceAs (Decidable (_ ∧ _))

/-- Adds the event to every unit that it covers. -/
def apply (u : Usage) (e : Event) : Usage :=
  let span := u.span e
  { u with
    counts := u.counts.mapIdx fun i c => if span.Covers i then c + e.action.change else c }

/-! ### Free units -/

/-- How many units have the counter zero. -/
def freeCount (u : Usage) : Nat :=
  u.counts.countP (· = 0)

/-- The share of the units that are free; a buffer without units is all free. -/
def freeShare (u : Usage) : Binary64 :=
  .share u.freeCount u.size

/-! ### The view of each operation -/

@[simp] theorem size_empty {origin : Int} {n : Nat} : (empty origin n).size = n := by
  simp [empty, size]

@[simp] theorem origin_empty {origin : Int} {n : Nat} : (empty origin n).origin = origin := rfl

@[simp] theorem origin_apply {u : Usage} {e : Event} : (u.apply e).origin = u.origin := rfl

@[simp] theorem size_apply {u : Usage} {e : Event} : (u.apply e).size = u.size := by
  simp [apply, size]

theorem count?_apply {u : Usage} {e : Event} {i : Nat} :
    (u.apply e).count? i
      = (u.count? i).map fun c => if (u.span e).Covers i then c + e.action.change else c := by
  simp [apply, count?]

end Usage

end HeapReel
