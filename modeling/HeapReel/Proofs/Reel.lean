/-
Where a reel stands after some pulls.

A reel that was started from a replay has few states.  It stands before event `k` for some
`k` up to the number of events, and then everything in it is known: the buffer has taken
the first `k` events, the others are pending, and `k` frames have been drawn.  `reelAt` is
that state written down from the replay alone, so a pull is a step from `reelAt k` to
`reelAt (k + 1)` and a run of pulls needs no induction but the one in `after_reelAt`.

What starts a replay is the extent of its events.  The three ways a start can go are
`start_of_nil`, `start_of_extent` and `start_of_lt`; `start_cases` says that there are no more.
-/
import HeapReel.Reel
import HeapReel.Proofs.Extent
import HeapReel.Proofs.Usage

namespace HeapReel

/-- The reel after `k` pulls. -/
def Reel.after (reel : Reel) : Nat → Reel
  | 0 => reel
  | k + 1 => (reel.after k).pull.reel

namespace Replay

/-! ### The states of a replay under way -/

/-- What the frames share when the events reach over `x`. -/
def scene (r : Replay) (x : Extent) : Scene where
  grid := Grid.ofUnits x.units r.settings
  settings := r.settings
  scheme := r.scheme

/-- The buffer when the first `k` events have been applied. -/
def usageAt (r : Replay) (x : Extent) (k : Nat) : Usage :=
  (Usage.empty x.lo x.units).applyAll (r.events.take k)

/-- The reel before event `k`. -/
def reelAt (r : Replay) (x : Extent) (k : Nat) : Reel where
  pending := r.events.drop k
  run := some { usage := r.usageAt x k, scene := r.scene x }
  total := r.events.length
  drawn := k

/-- The frame after event `k`, which is `e`. -/
def frameAt (r : Replay) (x : Extent) (k : Nat) (e : Event) : Frame :=
  (r.scene x).render (r.usageAt x (k + 1)) e k

variable {r : Replay} {x : Extent}

@[simp] theorem origin_usageAt (k : Nat) : (r.usageAt x k).origin = x.lo :=
  Usage.origin_applyAll _ _

@[simp] theorem size_usageAt (k : Nat) : (r.usageAt x k).size = x.units :=
  (Usage.size_applyAll _ _).trans Usage.size_empty

theorem usageAt_succ {k : Nat} {e : Event} (he : r.events[k]? = some e) :
    (r.usageAt x k).apply e = r.usageAt x (k + 1) :=
  Usage.applyAll_take_succ _ he

theorem drop_of_getElem? {k : Nat} {e : Event} (he : r.events[k]? = some e) :
    r.events.drop k = e :: r.events.drop (k + 1) := by
  obtain ⟨hk, rfl⟩ := List.getElem?_eq_some_iff.mp he
  exact List.drop_eq_getElem_cons hk

/-! ### Pulling -/

/-- A pull before an event brings the frame after it. -/
theorem pull_reelAt {k : Nat} {e : Event} (he : r.events[k]? = some e) :
    (r.reelAt x k).pull
      = { frame := some (r.frameAt x k e)
          reports := [.frame (k + 1) r.events.length]
          notices := (r.usageAt x k).notices e
          reel := r.reelAt x (k + 1) } := by
  simp only [reelAt, Reel.pull, drop_of_getElem? he, usageAt_succ he, frameAt]

/-- A pull after the last event reports the end and gives the buffer back. -/
theorem pull_reelAt_length :
    (r.reelAt x r.events.length).pull
      = { reports := [.complete r.events.length]
          reel := { r.reelAt x r.events.length with run := none } } := by
  simp only [reelAt, Reel.pull, List.drop_length]

theorem after_reelAt {k : Nat} (hk : k ≤ r.events.length) :
    (r.reelAt x 0).after k = r.reelAt x k := by
  induction k with
  | zero => rfl
  | succ k ih =>
      rw [Reel.after, ih (Nat.le_of_succ_le hk), pull_reelAt (List.getElem?_eq_getElem hk)]

/-! ### Starting -/

theorem start_of_nil (h : r.events = []) :
    r.start = .ok ({ pending := [], run := none, total := 0, drawn := 0 }, []) := by
  simp [start, extent?, Extent.ofEvents?, h]

theorem start_of_extent (hx : r.extent? = some x) (hle : x.units ≤ r.settings.unitLimit) :
    r.start
      = .ok (r.reelAt x 0, [.started r.events.length x.lo (Grid.ofUnits x.units r.settings)]) := by
  simp only [start, hx, buffer, if_neg (Nat.not_lt.mpr hle), bind, Except.bind, pure,
    Except.pure, Usage.size_empty]
  rfl

theorem start_of_lt (hx : r.extent? = some x) (hlt : r.settings.unitLimit < x.units) :
    r.start = .error (.tooLarge x.units r.settings.unitLimit) := by
  simp only [start, hx, buffer, if_pos hlt]
  rfl

/-- No other way is left. -/
theorem start_cases (r : Replay) :
    (r.events = []
        ∧ r.start = .ok ({ pending := [], run := none, total := 0, drawn := 0 }, []))
      ∨ (∃ x, r.extent? = some x ∧ r.settings.unitLimit < x.units
        ∧ r.start = .error (.tooLarge x.units r.settings.unitLimit))
      ∨ ∃ x, r.extent? = some x ∧ x.units ≤ r.settings.unitLimit
        ∧ r.start = .ok (r.reelAt x 0,
            [.started r.events.length x.lo (Grid.ofUnits x.units r.settings)]) := by
  by_cases hnil : r.events = []
  · exact Or.inl ⟨hnil, start_of_nil hnil⟩
  · obtain ⟨x, hx⟩ := Option.ne_none_iff_exists'.mp (mt Extent.ofEvents?_eq_none_iff.mp hnil)
    rcases Nat.lt_or_ge r.settings.unitLimit x.units with hlt | hle
    · exact Or.inr (Or.inl ⟨x, hx, hlt, start_of_lt hx hlt⟩)
    · exact Or.inr (Or.inr ⟨x, hx, hle, start_of_extent hx hle⟩)

/-- A replay with events that starts does so before its first event. -/
theorem reelAt_of_start {reel : Reel} {notices : List Notice}
    (h : r.start = .ok (reel, notices)) (hne : r.events ≠ []) :
    ∃ x, x.Spans r.events ∧ reel = r.reelAt x 0 := by
  rcases r.start_cases with ⟨hnil, -⟩ | ⟨x, -, -, hr⟩ | ⟨x, hx, -, hr⟩
  · exact absurd hnil hne
  · rw [hr] at h
    cases h
  · rw [hr] at h
    cases h
    exact ⟨x, Extent.ofEvents?_eq_some_iff.mp hx, rfl⟩

/-- A replay that starts is no longer than its settings allow. -/
theorem units_le_of_start {reel : Reel} {notices : List Notice}
    (h : r.start = .ok (reel, notices)) (hx : r.extent? = some x) :
    x.units ≤ r.settings.unitLimit := by
  by_contra hlong
  rw [start_of_lt hx (Nat.lt_of_not_le hlong)] at h
  cases h

end Replay

end HeapReel
