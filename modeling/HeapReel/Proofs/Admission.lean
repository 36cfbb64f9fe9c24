/-
Which replays are admitted.

Everything that decides whether a replay starts is the number of units between the least offset
and the greatest end of its events.  Both are integers of any size here, and so is their
distance.  A log holds signed words of 64 bits, though, and a machine would keep the offset in
such a word, the end and the distance in signed words of twice the length, and the number of
units in an unsigned one.  `InWords` says that this is exact: whatever a log may hold, and
after however many of its events, none of these numbers leaves its word.  The distance takes
66 bits at the most, so the smaller words would not do.

The extent is that of the members of a list, so their order has no part in it.
-/
import HeapReel.Proofs.Animation

namespace HeapReel

/-- The integers of a signed word of 128 bits. -/
def FitsDoubleWord (i : Int) : Prop :=
  -0x80000000000000000000000000000000 ≤ i ∧ i < 0x80000000000000000000000000000000

theorem Event.FitsWords.stop {e : Event} (h : e.FitsWords) : FitsDoubleWord e.stop := by
  obtain ⟨⟨hoffset, hoffset'⟩, ⟨hsize, hsize'⟩⟩ := h
  unfold FitsDoubleWord Event.stop
  omega

namespace Extent

variable {x : Extent} {es : List Event}

/-! ### The numbers that an extent is made of -/

/-- Every number of the extent fits the word that it is kept in. -/
structure InWords (x : Extent) : Prop where
  lo : Numeral.FitsWord x.lo
  hi : FitsDoubleWord x.hi
  distance : FitsDoubleWord (x.hi - x.lo)
  units : x.units < 0x100000000000000000000000000000000

theorem Spans.inWords (h : x.Spans es) (hwords : ∀ e ∈ es, e.FitsWords) : x.InWords := by
  obtain ⟨a, ha, hlo⟩ := h.lo.1
  obtain ⟨b, hb, hhi⟩ := h.hi.1
  have hoffset : Numeral.FitsWord x.lo := hlo ▸ (hwords a ha).1
  have hstop : FitsDoubleWord x.hi := hhi ▸ (hwords b hb).stop
  obtain ⟨⟨hb₁, hb₂⟩, ⟨hb₃, hb₄⟩⟩ := hwords b hb
  unfold Event.stop at hhi
  have hdistance : FitsDoubleWord (x.hi - x.lo) := by
    unfold Numeral.FitsWord FitsDoubleWord at *
    omega
  refine ⟨hoffset, hstop, hdistance, ?_⟩
  unfold FitsDoubleWord at hdistance
  unfold Extent.units
  omega

/-- Negative distances count as none. -/
theorem units_eq_max (x : Extent) : (x.units : Int) = max 0 (x.hi - x.lo) := by
  unfold units
  omega

/-- An extent spans any list with the same members. -/
theorem Spans.of_perm {fs : List Event} (h : x.Spans es) (hperm : fs.Perm es) : x.Spans fs := by
  have hmem : ∀ e, e ∈ fs ↔ e ∈ es := fun e => hperm.mem_iff
  refine ⟨?_, ?_⟩
  · simp only [hmem]
    exact h.lo
  · simp only [hmem]
    exact h.hi

theorem ofEvents?_perm {fs : List Event} (hperm : fs.Perm es) : ofEvents? fs = ofEvents? es := by
  cases hes : ofEvents? es with
  | none =>
      rw [ofEvents?_eq_none_iff] at hes ⊢
      rw [hes] at hperm
      exact hperm.eq_nil
  | some x => exact ofEvents?_eq_some_iff.mpr ((ofEvents?_eq_some_iff.mp hes).of_perm hperm)

end Extent

namespace Replay

variable {r : Replay} {x : Extent}

/-! ### Starting or refusing -/

theorem start_eq_error_iff {failure : Failure} :
    r.start = .error failure
      ↔ ∃ x : Extent, x.Spans r.events ∧ r.settings.unitLimit < x.units
        ∧ failure = .tooLarge x.units r.settings.unitLimit := by
  constructor
  · intro h
    rcases r.start_cases with ⟨-, hr⟩ | ⟨x, hx, hlt, hr⟩ | ⟨x, -, -, hr⟩
    · rw [hr] at h
      cases h
    · rw [hr] at h
      cases h
      exact ⟨x, Extent.ofEvents?_eq_some_iff.mp hx, hlt, rfl⟩
    · rw [hr] at h
      cases h
  · rintro ⟨x, hx, hlt, rfl⟩
    exact start_of_lt (Extent.ofEvents?_eq_some_iff.mpr hx) hlt

/--
**A replay is refused exactly if its events reach over more units than the limit.**

The units are those between the least offset and the greatest end, none if the end comes first.
A refusal names their number and the limit, and it is all that happens: nothing has been
reported or noticed or written.  Otherwise the replay starts with a buffer of that many
untouched units, the first of which is at the least offset, and a word can count them.  No
number on the way there leaves its word, and the events may come in any order.

The numbers of the events and the limit are words of 64 bits; nothing else is asked of them.
-/
theorem refused_iff_limit_lt (hwords : ∀ e ∈ r.events, e.FitsWords)
    (hlimit : r.settings.unitLimit < UInt64.size) :
    ((∃ failure, r.start = .error failure)
        ↔ ∃ x : Extent, x.Spans r.events
            ∧ (r.settings.unitLimit : Int) < max 0 (x.hi - x.lo))
      ∧ (∀ x : Extent, x.Spans r.events → (r.settings.unitLimit : Int) < max 0 (x.hi - x.lo) →
          ∃ units : Nat, (units : Int) = max 0 (x.hi - x.lo)
            ∧ r.start = .error (.tooLarge units r.settings.unitLimit)
            ∧ ∀ sink, r.animate sink
                = { result := .error (.tooLarge units r.settings.unitLimit), sink
                    reports := [], notices := [] })
      ∧ (∀ x : Extent, x.Spans r.events → max 0 (x.hi - x.lo) ≤ (r.settings.unitLimit : Int) →
          ∃ reel notices run, r.start = .ok (reel, notices)
            ∧ reel.run = some run
            ∧ run.usage.origin = x.lo
            ∧ (run.usage.size : Int) = max 0 (x.hi - x.lo)
            ∧ run.usage.size < UInt64.size
            ∧ ∀ i < run.usage.size, run.usage.count? i = some 0)
      ∧ (r.events = [] → ∃ reel, r.start = .ok (reel, []) ∧ reel.run = none)
      ∧ (∀ e ∈ r.events, FitsDoubleWord e.stop)
      ∧ (∀ k x, Extent.ofEvents? (r.events.take k) = some x → x.InWords)
      ∧ ∀ es, es.Perm r.events → Extent.ofEvents? es = r.extent? := by
  refine ⟨?_, ?_, ?_, ?_, fun e he => (hwords e he).stop, ?_, fun es => Extent.ofEvents?_perm⟩
  · constructor
    · rintro ⟨failure, hfailure⟩
      obtain ⟨x, hx, hlt, -⟩ := start_eq_error_iff.mp hfailure
      exact ⟨x, hx, by rw [← x.units_eq_max]; omega⟩
    · rintro ⟨x, hx, hlt⟩
      rw [← x.units_eq_max] at hlt
      exact ⟨_, start_eq_error_iff.mpr ⟨x, hx, by omega, rfl⟩⟩
  · intro x hx hlt
    rw [← x.units_eq_max] at hlt
    have hextent := Extent.ofEvents?_eq_some_iff.mpr hx
    exact ⟨x.units, x.units_eq_max, start_of_lt hextent (by omega),
      animate_of_lt hextent (by omega)⟩
  · intro x hx hle
    rw [← x.units_eq_max] at hle
    have hextent := Extent.ofEvents?_eq_some_iff.mpr hx
    refine ⟨_, _, { usage := r.usageAt x 0, scene := r.scene x },
      start_of_extent hextent (by omega), rfl, origin_usageAt (r := r) 0, ?_, ?_, ?_⟩
    · rw [size_usageAt, x.units_eq_max]
    · rw [size_usageAt]
      omega
    · intro i hi
      rw [size_usageAt] at hi
      exact Usage.count?_applyAll_empty hi []
  · intro hnil
    exact ⟨_, start_of_nil hnil, rfl⟩
  · intro k x hx
    refine (Extent.ofEvents?_eq_some_iff.mp hx).inWords fun e he => ?_
    exact hwords e (List.mem_of_mem_take he)

/-- Two events as far apart as a log can hold, the second of the greatest size. -/
def extreme : Replay where
  events := [⟨.free, -0x8000000000000000, 0⟩,
    ⟨.alloc, 0x7fffffffffffffff, 0x7fffffffffffffff⟩]

/-- They are refused with the true distance, which is more than a word can count. -/
theorem extreme_refused :
    (∀ e ∈ extreme.events, e.FitsWords)
      ∧ extreme.settings.unitLimit < UInt64.size
      ∧ extreme.start = .error (.tooLarge 0x17ffffffffffffffe 0x100000000)
      ∧ ¬0x17ffffffffffffffe < UInt64.size := by
  have hwords : ∀ e ∈ extreme.events, e.FitsWords := by
    simp [extreme, Event.FitsWords, Numeral.FitsWord]
  have hlimit : extreme.settings.unitLimit < UInt64.size := by decide
  have hextent : extreme.extent? = some ⟨-0x8000000000000000, 0xfffffffffffffffe⟩ := rfl
  obtain ⟨-, hrefused, -⟩ := refused_iff_limit_lt hwords hlimit
  obtain ⟨units, hunits, hstart, -⟩ :=
    hrefused _ (Extent.ofEvents?_eq_some_iff.mp hextent) (by decide)
  have hdistance : (units : Int) = 0x17ffffffffffffffe := hunits
  have hcount : units = 0x17ffffffffffffffe := by omega
  rw [hcount] at hstart
  exact ⟨hwords, hlimit, hstart, by decide⟩

end Replay

end HeapReel
