/-
What a replay shows, frame by frame.

Frame `k` is drawn from a buffer that has been changed range by range, through a grid, a
scaled image and a palette.  Read back from its pixels it says one thing: for each unit of
the address range, whether the events up to `k` allocated its offset as often as they freed
it, once more, or neither.  The range is that of the whole list from the first frame on.
-/
import HeapReel.Proofs.Frame
import HeapReel.Proofs.Reel
import HeapReel.Proofs.Root

namespace HeapReel

/-- Every pixel of the square of cell `i` has the colour. -/
def Frame.Shows (f : Frame) (s : Scene) (i : Nat) (c : Color) : Prop :=
  ∀ dx < s.grid.cellSide, ∀ dy < s.grid.cellSide,
    f.image.color (s.settings.margin + (i % s.grid.columns * s.grid.cellSide + dx))
      (s.settings.margin + (i / s.grid.columns * s.grid.cellSide + dy)) = .ok c

namespace Replay

variable {r : Replay} {x : Extent}

/-- A frame shows in each cell what the buffer says about it. -/
theorem shows_frameAt (hfits : (r.scene x).grid.FitsWords) (k : Nat) (e : Event) {i : Nat}
    (hi : i < (r.scene x).grid.cellCount) :
    (r.frameAt x k e).Shows (r.scene x) i
      (r.scheme.colorOf ((r.scene x).stateAt (r.usageAt x (k + 1)) i)) := by
  intro dx hdx dy hdy
  have hcolumn : i % (r.scene x).grid.columns < (r.scene x).grid.columns :=
    Nat.mod_lt i (Grid.columns_pos x.units r.settings)
  have hcell := Scene.color_render hfits (r.usageAt x (k + 1)) e k hcolumn
    (Grid.div_columns_lt_rows hi) hdx hdy
  rw [Nat.div_add_mod'] at hcell
  exact hcell

/-- Inside the range a cell shows the net count of its unit. -/
theorem stateAt_of_lt {k i : Nat} (hi : i < x.units) :
    (r.scene x).stateAt (r.usageAt x k) i
      = .ofCount (netCount (r.events.take k) (x.lo + i)) := by
  have hin : (r.scene x).grid.isBeyond i = false := decide_eq_false (Nat.not_le.mpr hi)
  rw [Scene.stateAt, hin, if_neg Bool.false_ne_true]
  exact Usage.state_applyAll_empty hi _

/-- Past the range a cell shows nothing. -/
theorem stateAt_of_le (u : Usage) {i : Nat} (hi : x.units ≤ i) :
    (r.scene x).stateAt u i = .padding := by
  have hbeyond : (r.scene x).grid.isBeyond i = true := decide_eq_true hi
  rw [Scene.stateAt, hbeyond, if_pos rfl]

theorem colorOf_ofCount (s : Scheme) (count : Int) :
    s.colorOf (.ofCount count)
      = if count = 0 then s.free else if count = 1 then s.used else s.invalid := by
  unfold CellState.ofCount
  split
  · rfl
  · split <;> rfl

/--
**The frame after event `k` shows the net counts of the first `k + 1` events.**

The range is that of all events.  Each unit of it has its cell, coloured by how often the
events so far allocated it less how often they freed it; the cells after those are empty;
and the share of free units is that of the units where the two balance.
-/
theorem frame_after_events {reel : Reel} {notices : List Notice}
    (hstart : r.start = .ok (reel, notices))
    (hfits : ∀ run, reel.run = some run → run.scene.grid.FitsWords)
    {k : Nat} (hk : k < r.events.length) :
    ∃ (x : Extent) (f : Frame),
      x.Spans r.events
      ∧ (reel.after k).pull.frame = some f
      ∧ f.index = k
      ∧ r.events[k]? = some f.event
      ∧ (∀ i < x.units, f.Shows (r.scene x) i
          (if netCount (r.events.take (k + 1)) (x.lo + i) = 0 then r.scheme.free
           else if netCount (r.events.take (k + 1)) (x.lo + i) = 1 then r.scheme.used
           else r.scheme.invalid))
      ∧ (∀ i < (r.scene x).grid.cellCount, x.units ≤ i →
          f.Shows (r.scene x) i r.scheme.background)
      ∧ f.freeShare
          = .share ((List.range x.units).countP fun i : Nat =>
              netCount (r.events.take (k + 1)) (x.lo + i) = 0) x.units := by
  have hne : r.events ≠ [] := List.ne_nil_of_length_pos (Nat.lt_of_le_of_lt (Nat.zero_le k) hk)
  obtain ⟨x, hx, rfl⟩ := reelAt_of_start hstart hne
  have hfits : (r.scene x).grid.FitsWords := hfits _ rfl
  have he : r.events[k]? = some r.events[k] := List.getElem?_eq_getElem hk
  refine ⟨x, r.frameAt x k r.events[k], hx, ?_, rfl, he, ?_, ?_, ?_⟩
  · rw [after_reelAt (Nat.le_of_lt hk), pull_reelAt he]
  · intro i hi
    have hcell := Nat.lt_of_lt_of_le hi (Grid.units_le_cellCount x.units r.settings)
    have hshows := shows_frameAt hfits k r.events[k] hcell
    rwa [stateAt_of_lt hi, colorOf_ofCount] at hshows
  · intro i hi hbeyond
    have hshows := shows_frameAt hfits k r.events[k] hi
    rwa [stateAt_of_le _ hbeyond] at hshows
  · exact Usage.freeShare_applyAll_empty x.lo x.units _

/-! ### An overlap -/

/-- Two allocations of four units that share two. -/
def overlapping : Replay where
  events := [⟨.alloc, 10, 4⟩, ⟨.alloc, 12, 4⟩]

/-- The extent of the two allocations. -/
def overlappingExtent : Extent :=
  ⟨10, 16⟩

theorem spans_overlapping : overlappingExtent.Spans overlapping.events :=
  Extent.ofEvents?_eq_some_iff.mp rfl

theorem grid_overlapping : (overlapping.scene overlappingExtent).grid
    = { units := 6, columns := 32, rows := 1, padding := 26, cellSide := 10 } := by
  have hceil : Root.ceil 6 = 3 := by
    refine Root.ceil_eq ⟨by decide, fun r hr => ?_⟩ (by decide)
    have hreach : 6 ≤ r * r := hr
    by_contra hc
    have hsmall : r ≤ 2 := by omega
    have := Nat.mul_le_mul hsmall hsmall
    omega
  show Grid.ofUnits 6 {} = _
  rw [Grid.ofUnits, hceil]
  rfl

theorem fitsWords_overlapping : (overlapping.scene overlappingExtent).grid.FitsWords := by
  rw [grid_overlapping]
  decide

/-- After the second allocation the first unit is in use and the third is invalid. -/
theorem frame_after_overlap :
    overlapping.start = .ok (overlapping.reelAt overlappingExtent 0,
        [.started 2 10 (Grid.ofUnits 6 overlapping.settings)])
      ∧ (overlapping.scene overlappingExtent).grid.FitsWords
      ∧ 1 < overlapping.events.length
      ∧ ∃ f, ((overlapping.reelAt overlappingExtent 0).after 1).pull.frame = some f
        ∧ f.Shows (overlapping.scene overlappingExtent) 0 overlapping.scheme.used
        ∧ f.Shows (overlapping.scene overlappingExtent) 2 overlapping.scheme.invalid := by
  have hstart := start_of_extent (r := overlapping) (x := overlappingExtent) rfl (by decide)
  have hlt : 1 < overlapping.events.length := by decide
  refine ⟨hstart, fitsWords_overlapping, hlt, ?_⟩
  obtain ⟨x, f, hx, hf, -, -, hshows, -⟩ := frame_after_events hstart
    (fun run hrun => by rw [← Option.some.inj hrun]; exact fitsWords_overlapping) hlt
  have hxeq : x = overlappingExtent :=
    Option.some.inj ((Extent.ofEvents?_eq_some_iff.mpr hx).symm.trans rfl)
  subst hxeq
  exact ⟨f, hf, hshows 0 (by decide), hshows 2 (by decide)⟩

end Replay

end HeapReel
