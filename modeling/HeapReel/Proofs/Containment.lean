/-
What the cut does to the events of a replay.

The buffer is made for the extent of all events, and each event is cut to the buffer when its
turn comes.  These are two computations, and this file says how they meet.  Every event starts
and ends inside the extent, unless its size is negative, so the cut finds nothing to take away.
An event of negative size ends before it starts, and its end may even lie before the buffer;
whatever the cut makes of it, no unit is counted, and the caller is told.

So the counters of a replay add up.  Each event contributes its size, or nothing if that is
negative, and no part of a contribution is lost at an edge.
-/
import HeapReel.Proofs.Reel
import Mathlib.Algebra.BigOperators.Group.List.Basic
import Mathlib.Algebra.Ring.Int.Defs

namespace HeapReel

/-! ### The sum of the net counts -/

/-- What an event adds to the first `n` units from `lo`, if it does not start before them. -/
theorem sum_covers {e : Event} {lo : Int} (hlo : lo ≤ e.offset) (n : Nat) :
    ((List.range n).map fun i : Nat => if e.Covers (lo + i) then e.action.change else 0).sum
      = e.action.change * max (min e.stop (lo + n) - e.offset) 0 := by
  induction n with
  | zero =>
      have hnone : max (min e.stop (lo + (0 : Nat)) - e.offset) 0 = 0 := by omega
      rw [hnone, Int.mul_zero]
      rfl
  | succ n ih =>
      -- Unit `n` is new, and it counts if the event reaches it.
      have hlast : max (min e.stop (lo + (n + 1 : Nat)) - e.offset) 0
          = max (min e.stop (lo + n) - e.offset) 0 + if e.Covers (lo + n) then 1 else 0 := by
        by_cases hcovers : e.Covers (lo + n)
        · obtain ⟨hfrom, hto⟩ := hcovers
          rw [if_pos ⟨hfrom, hto⟩]
          omega
        · have hout : lo + n < e.offset ∨ e.stop ≤ lo + n := by
            unfold Event.Covers at hcovers
            omega
          rw [if_neg hcovers]
          omega
      rw [List.range_succ, List.map_append, List.sum_append, ih, hlast, Int.mul_add]
      by_cases hcovers : e.Covers (lo + n) <;> simp [hcovers]

/-- Over units that the events stay among, the net counts add up to the sizes. -/
theorem sum_netCount {es : List Event} {lo : Int} {n : Nat}
    (hin : ∀ e ∈ es, lo ≤ e.offset ∧ e.stop ≤ lo + n) :
    ((List.range n).map fun i : Nat => netCount es (lo + i)).sum
      = (es.map fun e => e.action.change * max e.size 0).sum := by
  induction es with
  | nil => simp
  | cons e es ih =>
      obtain ⟨hlo, hstop⟩ := hin e List.mem_cons_self
      have hsize : min e.stop (lo + n) - e.offset = e.size := by
        rw [Int.min_eq_left hstop]
        unfold Event.stop
        omega
      have hfirst := sum_covers hlo n
      have hrest := ih fun e' he' => hin e' (List.mem_cons_of_mem e he')
      rw [hsize] at hfirst
      simp only [netCount_cons, List.sum_map_add, List.map_cons, List.sum_cons]
      rw [hfirst, hrest]

namespace Usage

variable {u : Usage} {e : Event}

/-! ### An event inside the buffer -/

/-- The event starts and ends among the units of the buffer. -/
structure Encloses (u : Usage) (e : Event) : Prop where
  start : u.origin ≤ e.offset
  stop : e.stop ≤ u.origin + u.size

/-- An enclosed range is not cut. -/
theorem Encloses.span (h : u.Encloses e) (hsize : 0 ≤ e.size) :
    ((u.span e).start : Int) = e.offset - u.origin
      ∧ ((u.span e).stop : Int) = e.offset - u.origin + e.size
      ∧ (u.span e).stop ≤ u.size := by
  have hstart := h.start
  have hstop := h.stop
  simp only [Usage.span, clamp, relativeStart, relativeStop]
  unfold Event.stop at hstop ⊢
  omega

theorem Encloses.count?_apply (h : u.Encloses e) (hsize : 0 ≤ e.size) (i : Nat) :
    (u.apply e).count? i = (u.count? i).map fun c =>
      if e.offset - u.origin ≤ i ∧ i < e.offset - u.origin + e.size then c + e.action.change
      else c := by
  obtain ⟨hfrom, hto, -⟩ := h.span hsize
  have hiff : (u.span e).Covers i
      ↔ e.offset - u.origin ≤ i ∧ (i : Int) < e.offset - u.origin + e.size := by
    unfold Span.Covers
    omega
  rw [Usage.count?_apply]
  simp only [hiff]

theorem Encloses.notices (h : u.Encloses e) (hsize : 0 ≤ e.size) : u.notices e = [] := by
  have hstart := h.start
  have hstop := h.stop
  unfold Event.stop at hstop
  have hnot : ¬u.Clamps e := by
    rw [clamps_iff]
    omega
  rw [Usage.notices, if_neg hnot]

/-! ### An event that ends before it starts -/

/-- Wherever it lies, nothing is left of it. -/
theorem span_of_neg (hsize : e.size < 0) :
    (u.span e).start = (u.span e).stop ∧ (u.span e).stop ≤ u.size := by
  refine ⟨?_, (span_le u e).2⟩
  simp only [span, clamp, relativeStart, relativeStop, Event.stop]
  omega

theorem apply_of_neg (hsize : e.size < 0) : u.apply e = u := by
  obtain ⟨hempty, -⟩ := span_of_neg (u := u) hsize
  have hnone : ∀ i, ¬(u.span e).Covers i := by
    rintro i ⟨hfrom, hto⟩
    omega
  have hcounts : (u.apply e).counts = u.counts := by
    refine Array.ext_getElem? fun i => ?_
    have hview : (u.apply e).counts[i]? = _ := count?_apply
    rw [hview]
    simp only [if_neg (hnone i), Option.map_id']
    rfl
  exact congrArg (Usage.mk u.origin) hcounts

theorem notices_of_neg (hsize : e.size < 0) :
    u.notices e
      = [.clamped e (e.offset - u.origin) (e.offset - u.origin + e.size) u.size] := by
  have hclamps : u.Clamps e := by
    rw [clamps_iff]
    omega
  have hstop : u.relativeStop e = e.offset - u.origin + e.size := by
    unfold relativeStop Event.stop
    omega
  rw [notices, if_pos hclamps, hstop]
  rfl

end Usage

namespace Replay

variable {r : Replay} {x : Extent}

/-! ### Events in the buffer of their own replay -/

/-- The buffer of a replay encloses each of its events, in any order and of either sign. -/
theorem encloses_usageAt (hx : x.Spans r.events) {e : Event} (he : e ∈ r.events) (k : Nat) :
    (r.usageAt x k).Encloses e := by
  have hlo := hx.lo_le he
  have hhi := hx.stop_le he
  refine ⟨?_, ?_⟩
  · rw [origin_usageAt]
    exact hlo
  · rw [origin_usageAt, size_usageAt, Extent.units]
    omega

/-- The counters are the net counts of the units. -/
theorem counts_usageAt (k : Nat) :
    (r.usageAt x k).counts.toList
      = (List.range x.units).map fun i : Nat => netCount (r.events.take k) (x.lo + i) :=
  Usage.counts_applyAll_empty _ _ _

theorem sum_counts_usageAt (hx : x.Spans r.events) (k : Nat) :
    (r.usageAt x k).counts.sum
      = ((r.events.take k).map fun e => e.action.change * max e.size 0).sum := by
  rw [← Array.sum_toList, counts_usageAt]
  refine sum_netCount fun e he => ?_
  have hin := encloses_usageAt hx (List.mem_of_mem_take he) k
  have hstart := hin.start
  have hstop := hin.stop
  rw [origin_usageAt] at hstart hstop
  rw [size_usageAt] at hstop
  exact ⟨hstart, hstop⟩

theorem natAbs_le_of_mem_counts {k : Nat} {c : Int} (hc : c ∈ (r.usageAt x k).counts) :
    c.natAbs ≤ k :=
  (Usage.natAbs_le_of_mem_counts hc).trans (List.length_take_le _ _)

/--
**In a replay the cut takes nothing away from an event that has units to count.**

Take event `k` of a replay that started, with the buffer before and after it.  If its size is
not negative, it counts exactly its own units, all inside the buffer, and there is no notice.
If it is negative, no counter changes, and there is one notice, with the range as it was before
the cut.  Either way the counters then add up to the sizes of the events so far, and none of
them is further from zero than the number of those events.
-/
theorem counted_by_event {reel : Reel} {notices : List Notice}
    (hstart : r.start = .ok (reel, notices)) {k : Nat} {e : Event}
    (he : r.events[k]? = some e) :
    ∃ (x : Extent) (run next : Run),
      x.Spans r.events
      ∧ (reel.after k).run = some run
      ∧ (reel.after (k + 1)).run = some next
      ∧ run.usage.size = x.units
      ∧ next.usage = run.usage.apply e
      ∧ (0 ≤ e.size →
          ((run.usage.span e).start : Int) = e.offset - x.lo
          ∧ ((run.usage.span e).stop : Int) = e.offset - x.lo + e.size
          ∧ (run.usage.span e).stop ≤ x.units
          ∧ (∀ i : Nat, next.usage.count? i = (run.usage.count? i).map fun c =>
              if e.offset - x.lo ≤ i ∧ i < e.offset - x.lo + e.size then c + e.action.change
              else c)
          ∧ (reel.after k).pull.notices = [])
      ∧ (e.size < 0 →
          (run.usage.span e).start = (run.usage.span e).stop
          ∧ (run.usage.span e).stop ≤ x.units
          ∧ next.usage = run.usage
          ∧ (reel.after k).pull.notices
              = [.clamped e (e.offset - x.lo) (e.offset - x.lo + e.size) x.units])
      ∧ next.usage.counts.sum
          = ((r.events.take (k + 1)).map fun e => e.action.change * max e.size 0).sum
      ∧ ∀ c ∈ next.usage.counts, c.natAbs ≤ k + 1 := by
  have hmem : e ∈ r.events := List.mem_of_getElem? he
  obtain ⟨x, hx, rfl⟩ := reelAt_of_start hstart (List.ne_nil_of_mem hmem)
  obtain ⟨hlt, -⟩ := List.getElem?_eq_some_iff.mp he
  have hbefore : (r.reelAt x 0).after k = r.reelAt x k := after_reelAt (Nat.le_of_lt hlt)
  have hafter : (r.reelAt x 0).after (k + 1) = r.reelAt x (k + 1) := after_reelAt hlt
  have hnext : r.usageAt x (k + 1) = (r.usageAt x k).apply e := (usageAt_succ he).symm
  have hnotices : (r.reelAt x k).pull.notices = (r.usageAt x k).notices e := by
    rw [pull_reelAt he]
  have hencloses := encloses_usageAt hx hmem k
  rw [hbefore, hafter]
  refine ⟨x, { usage := r.usageAt x k, scene := r.scene x },
    { usage := r.usageAt x (k + 1), scene := r.scene x }, hx, rfl, rfl, size_usageAt k, hnext,
    ?_, ?_, sum_counts_usageAt hx (k + 1), fun c => natAbs_le_of_mem_counts⟩
  · intro hsize
    obtain ⟨hfrom, hto, hle⟩ := hencloses.span hsize
    have hcounts := hencloses.count?_apply hsize
    rw [← hnext] at hcounts
    rw [origin_usageAt] at hfrom hto hcounts
    rw [size_usageAt] at hle
    exact ⟨hfrom, hto, hle, hcounts, hnotices.trans (hencloses.notices hsize)⟩
  · intro hsize
    obtain ⟨hempty, hle⟩ := Usage.span_of_neg (u := r.usageAt x k) hsize
    have htold := Usage.notices_of_neg (u := r.usageAt x k) hsize
    rw [size_usageAt] at hle
    rw [origin_usageAt, size_usageAt] at htold
    exact ⟨hempty, hle, hnext.trans (Usage.apply_of_neg hsize), hnotices.trans htold⟩

/-- An allocation, and a free of negative size that starts after the buffer and ends in front
of its own start. -/
def inverted : Replay where
  events := [⟨.alloc, 10, 4⟩, ⟨.free, 30, -7⟩]

/-- The allocation counts its four units; the free counts nothing, and is told of. -/
theorem counted_by_inverted :
    inverted.start = .ok (inverted.reelAt ⟨10, 23⟩ 0,
        [.started 2 10 (Grid.ofUnits 13 inverted.settings)])
      ∧ inverted.events[0]? = some ⟨.alloc, 10, 4⟩
      ∧ inverted.events[1]? = some ⟨.free, 30, -7⟩
      ∧ ((inverted.reelAt ⟨10, 23⟩ 0).after 0).pull.notices = []
      ∧ ((inverted.reelAt ⟨10, 23⟩ 0).after 1).pull.notices
          = [.clamped ⟨.free, 30, -7⟩ 20 13 13]
      ∧ ∃ next : Run, ((inverted.reelAt ⟨10, 23⟩ 0).after 2).run = some next
          ∧ next.usage.counts.sum = 4 := by
  have hstart := start_of_extent (r := inverted) (x := ⟨10, 23⟩) rfl (by decide)
  have hfirst : inverted.events[0]? = some ⟨.alloc, 10, 4⟩ := rfl
  have hsecond : inverted.events[1]? = some ⟨.free, 30, -7⟩ := rfl
  have hextent : ∀ x : Extent, x.Spans inverted.events → x = ⟨10, 23⟩ := fun x hx =>
    Option.some.inj (Extent.ofEvents?_eq_some_iff.mpr hx).symm
  obtain ⟨_, _, _, -, -, -, -, -, hcounts, -⟩ := counted_by_event hstart hfirst
  obtain ⟨y, _, next, hy, -, hnext, -, -, -, hcut, hsum, -⟩ := counted_by_event hstart hsecond
  obtain ⟨-, -, -, -, hquiet⟩ := hcounts (by decide)
  obtain ⟨-, -, -, htold⟩ := hcut (by decide)
  rw [hextent y hy] at htold
  exact ⟨hstart, hfirst, hsecond, hquiet, htold, next, hnext, hsum⟩

end Replay

end HeapReel
