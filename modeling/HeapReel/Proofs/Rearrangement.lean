/-
The order of events.

An extent is that of the members of a list, and a counter is a count over them, so neither knows
in which order they came.  Two replays of the same events start alike: with the same range, the
same grid and the same untouched buffer, or with the same refusal.  Under way they part, and they
meet again whenever they have applied the same events, at the latest after the last one.  There
they have one buffer between them, whatever was cut or overlapped on the way.

The frames at such a place come from the same counters.  They may be about different events, and
show it in their labels alone.
-/
import HeapReel.Proofs.Admission
import HeapReel.Proofs.Translation

namespace HeapReel

/-! ### Counting in another order -/

theorem netCount_perm {es fs : List Event} (hperm : fs.Perm es) (p : Int) :
    netCount fs p = netCount es p := by
  rw [netCount, netCount, hperm.countP_eq, hperm.countP_eq]

/-- Events of any ranges, applied in any order, lead to one buffer. -/
theorem Usage.applyAll_perm (u : Usage) {es fs : List Event} (hperm : fs.Perm es) :
    u.applyAll fs = u.applyAll es :=
  u.applyAll_congr fun p => netCount_perm hperm p

/-- After the pull for frame `k` both reels are at one place, with the same counters.  Their
frames `k` say and show the same, except in the eight rows of their labels. -/
def Reel.MeetsAfter (reel other : Reel) (k : Nat) : Prop :=
  ∃ run f g,
    (reel.after (k + 1)).run = some run
    ∧ (other.after (k + 1)).run = some run
    ∧ (reel.after k).pull.frame = some f
    ∧ (other.after k).pull.frame = some g
    ∧ f.AgreesOutside g
        (run.scene.settings.margin * 2 + run.scene.grid.imageSize.2
          + (run.scene.settings.lineHeight + run.scene.settings.lineGap) * 2)

namespace Replay

/-- The replay of other events, shown in the same way. -/
def withEvents (r : Replay) (es : List Event) : Replay :=
  { r with events := es }

variable {r : Replay} {x : Extent} {es : List Event}

/-! ### The same events in another order -/

theorem extent?_withEvents (hperm : es.Perm r.events) : (r.withEvents es).extent? = r.extent? :=
  Extent.ofEvents?_perm hperm

theorem grid?_withEvents (hperm : es.Perm r.events) : (r.withEvents es).grid? = r.grid? := by
  rw [grid?, extent?_withEvents hperm, grid?]
  rfl

theorem usageAt_withEvents {m : Nat} (hfirst : (es.take m).Perm (r.events.take m)) :
    (r.withEvents es).usageAt x m = r.usageAt x m :=
  Usage.applyAll_perm _ hfirst

theorem start_withEvents_eq_error_iff (hperm : es.Perm r.events) (failure : Failure) :
    (r.withEvents es).start = .error failure ↔ r.start = .error failure := by
  have hspans : ∀ x : Extent, x.Spans es ↔ x.Spans r.events := fun x =>
    ⟨fun h => h.of_perm hperm.symm, fun h => h.of_perm hperm⟩
  rw [start_eq_error_iff, start_eq_error_iff]
  simp only [withEvents, hspans]

/-- Reels meet after the same events, whatever the order of those. -/
theorem meetsAfter_withEvents {k : Nat} (hk : k < r.events.length)
    (hlength : es.length = r.events.length)
    (hfirst : (es.take (k + 1)).Perm (r.events.take (k + 1))) :
    (r.reelAt x 0).MeetsAfter ((r.withEvents es).reelAt x 0) k := by
  have hk' : k < (r.withEvents es).events.length := Nat.lt_of_lt_of_eq hk hlength.symm
  have husage := usageAt_withEvents (x := x) hfirst
  have hside : 0 < (r.scene x).grid.cellSide := Grid.cellSide_pos _ _
  have hagrees := Scene.agreesOutside_render hside (congrArg Usage.counts husage) r.events[k]
    (r.withEvents es).events[k] k
  refine ⟨{ usage := r.usageAt x (k + 1), scene := r.scene x },
    r.frameAt x k r.events[k], (r.withEvents es).frameAt x k (r.withEvents es).events[k],
    ?_, ?_, ?_, ?_, hagrees⟩
  · rw [after_reelAt hk]
    rfl
  · rw [after_reelAt hk', reelAt, husage]
    rfl
  · rw [after_reelAt (Nat.le_of_lt hk), pull_reelAt (List.getElem?_eq_getElem hk)]
  · rw [after_reelAt (Nat.le_of_lt hk'), pull_reelAt (List.getElem?_eq_getElem hk')]

/-- A replay that starts does so in any order of its events, and gives the same notice of it. -/
theorem start_withEvents (hperm : es.Perm r.events) {reel : Reel} {notices : List Notice}
    (hstart : r.start = .ok (reel, notices)) :
    (r.events = [] ∧ (r.withEvents es).start = .ok (reel, notices))
      ∨ ∃ x, reel = r.reelAt x 0
          ∧ (r.withEvents es).start = .ok ((r.withEvents es).reelAt x 0, notices) := by
  rcases r.start_cases with ⟨hnil, hr⟩ | ⟨x, -, -, hr⟩ | ⟨x, hx, hle, hr⟩
  · rw [hr] at hstart
    rw [hnil] at hperm
    rw [← hstart]
    exact Or.inl ⟨hnil, start_of_nil hperm.eq_nil⟩
  · rw [hr] at hstart
    cases hstart
  · rw [hr] at hstart
    cases hstart
    have hother := start_of_extent ((extent?_withEvents hperm).trans hx) hle
    have hlength : (r.withEvents es).events.length = r.events.length := hperm.length_eq
    rw [hlength] at hother
    exact Or.inr ⟨x, rfl, hother⟩

/--
**The events of a replay may come in any order: what they lead to is the same.**

Both replays have the same range and the same grid.  One starts exactly if the other does, and is
refused with the same numbers if not; their frames have one size.  After the last event they have
the same counters, and the last frames have the same share of free units and the same pixels
outside the eight rows of the label, so in particular in the grid, which is above them.  That
holds earlier too, after every frame up to which both have shown the same events.
-/
theorem frames_of_perm (hperm : es.Perm r.events) :
    (∀ failure, (r.withEvents es).start = .error failure ↔ r.start = .error failure)
      ∧ (r.withEvents es).extent? = r.extent?
      ∧ (r.withEvents es).grid? = r.grid?
      ∧ ∀ reel notices, r.start = .ok (reel, notices) →
        ∃ other, (r.withEvents es).start = .ok (other, notices)
          ∧ (∀ k, (other.after k).frameSize? = (reel.after k).frameSize?)
          ∧ (∀ k, k + 1 = r.events.length → reel.MeetsAfter other k)
          ∧ ∀ k < r.events.length, (es.take (k + 1)).Perm (r.events.take (k + 1)) →
            reel.MeetsAfter other k := by
  refine ⟨start_withEvents_eq_error_iff hperm, extent?_withEvents hperm, grid?_withEvents hperm,
    fun reel notices hstart => ?_⟩
  rcases start_withEvents hperm hstart with ⟨hnil, hother⟩ | ⟨x, rfl, hother⟩
  · refine ⟨reel, hother, fun _ => rfl, fun k hk => ?_, fun k hk => ?_⟩
    · rw [hnil] at hk
      cases hk
    · rw [hnil] at hk
      cases hk
  · have hlength := hperm.length_eq
    refine ⟨_, hother, fun k => ?_, fun k hk => ?_, fun k hk hfirst => ?_⟩
    · have hnow := ((stands_of_start hstart).after k).frameSize?
      have hthen := ((stands_of_start hother).after k).frameSize?
      rw [hnow, hthen, withEvents, hlength]
      rfl
    · refine meetsAfter_withEvents (by omega) hlength ?_
      rw [hk, List.take_length, ← hlength, List.take_length]
      exact hperm
    · exact meetsAfter_withEvents hk hlength hfirst

/-- Two allocations that overlap, and a free that ends before it starts. -/
def tangled : Replay where
  events := [⟨.alloc, 10, 4⟩, ⟨.alloc, 12, 4⟩, ⟨.free, 30, -7⟩]

/-- With the allocations the other way round, the second frames and the last ones come from the
same counters. -/
theorem frames_of_perm_tangled :
    List.Perm [⟨.alloc, 12, 4⟩, ⟨.alloc, 10, 4⟩, ⟨.free, 30, -7⟩] tangled.events
      ∧ tangled.start = .ok (tangled.reelAt ⟨10, 23⟩ 0,
        [.started 3 10 (Grid.ofUnits 13 tangled.settings)])
      ∧ ∃ other,
        (tangled.withEvents [⟨.alloc, 12, 4⟩, ⟨.alloc, 10, 4⟩, ⟨.free, 30, -7⟩]).start
          = .ok (other, [.started 3 10 (Grid.ofUnits 13 tangled.settings)])
        ∧ (tangled.reelAt ⟨10, 23⟩ 0).MeetsAfter other 1
        ∧ (tangled.reelAt ⟨10, 23⟩ 0).MeetsAfter other 2 := by
  have hperm : List.Perm [⟨.alloc, 12, 4⟩, ⟨.alloc, 10, 4⟩, ⟨.free, 30, -7⟩] tangled.events :=
    List.Perm.swap _ _ _
  have hstart := start_of_extent (r := tangled) (x := ⟨10, 23⟩) rfl (by decide)
  obtain ⟨-, -, -, hframes⟩ := frames_of_perm hperm
  obtain ⟨other, hother, -, hlast, hmeets⟩ := hframes _ _ hstart
  exact ⟨hperm, hstart, other, hother, hmeets 1 (by decide) (List.Perm.swap _ _ _),
    hlast 2 rfl⟩

end Replay

end HeapReel
