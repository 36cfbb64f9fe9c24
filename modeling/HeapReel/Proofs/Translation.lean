/-
Replays at other addresses.

An address has no meaning of its own.  The buffer begins at the least offset of the events, and
from there on units are counted, so events that are all moved by one distance lead through the
same states.  `shift` moves everything that holds an offset, and each step commutes with it:
widening an extent, counting an event, pulling a frame.

An offset is seen in one place only, the label of the event, and the label is the last line of
text that is drawn.  Its glyphs stay in their own rows.  In all other rows two frames with equal
counters are equal, whatever their events say.
-/
import HeapReel.Proofs.Progress

namespace HeapReel

/-! ### Frames that differ in their label -/

/-- The first pixel row of line `l` of the text. -/
def Scene.lineTop (s : Scene) (l : Nat) : Nat :=
  s.settings.margin * 2 + s.grid.imageSize.2 + s.settings.lineStep * l

/-- The frames say the same and look the same, except in the eight rows from `top`. -/
structure Frame.AgreesOutside (f g : Frame) (top : Nat) : Prop where
  index_eq : g.index = f.index
  freeShare_eq : g.freeShare = f.freeShare
  width_eq : g.image.width = f.image.width
  height_eq : g.image.height = f.image.height
  color_eq : ∀ a b, b < top ∨ top + 8 ≤ b → g.image.color a b = f.image.color a b

theorem Usage.freeShare_congr {u v : Usage} (h : v.counts = u.counts) :
    v.freeShare = u.freeShare := by
  rw [freeShare, freeShare, freeCount, freeCount, size, size, h]

namespace Scene

variable {s : Scene} {u v : Usage}

theorem drawLines_concat (gridHeight : Nat) (lines : List String) (text : String)
    (canvas : Raster Color) :
    s.drawLines gridHeight (lines ++ [text]) canvas
      = Lettering.draw (s.drawLines gridHeight lines canvas)
          (s.textCorner gridHeight lines.length).1 (s.textCorner gridHeight lines.length).2
          text s.scheme.text := by
  simp [drawLines, List.zipIdx_append]

/-- The last line of text is seen in its own rows only. -/
theorem get?_canvas_concat (hside : 0 < s.grid.cellSide) (lines : List String) (text : String)
    {x y : Nat} (h : y < s.lineTop lines.length ∨ s.lineTop lines.length + Font.glyphSize ≤ y) :
    (s.canvas u (lines ++ [text])).get? x y = (s.canvas u lines).get? x y := by
  -- A side of zero would leave the image as it is, but count no rows for it.
  have hheight : ((s.cells u).scale s.grid.cellSide).height = s.grid.imageSize.2 :=
    Raster.height_scale hside
  rw [canvas, canvas, hheight, drawLines_concat]
  exact Lettering.get?_draw_of_row h

/-- A canvas shows the counters and the text, and not where the buffer begins. -/
theorem canvas_congr (h : v.counts = u.counts) (lines : List String) :
    s.canvas v lines = s.canvas u lines := by
  obtain ⟨origin, counts⟩ := u
  obtain ⟨origin', counts'⟩ := v
  have hcounts : counts' = counts := h
  rw [hcounts]
  rfl

/-- Equal counters make frames that differ in the label of their events at most. -/
theorem agreesOutside_render (hside : 0 < s.grid.cellSide) (h : v.counts = u.counts)
    (e e' : Event) (index : Nat) :
    (s.render u e index).AgreesOutside (s.render v e' index) (s.lineTop 2) := by
  refine ⟨rfl, Usage.freeShare_congr h, ?_, ?_, ?_⟩
  · rw [size_render.1, size_render.1]
  · rw [size_render.2, size_render.2]
  · intro a b hrow
    refine Indexed.color_ofRaster_congr ?_
    rw [Usage.freeShare_congr h, canvas_congr h]
    have hlines : ∀ e : Event, caption index u.freeShare e
        = [s!"Event ID: {index}", "Free: " ++ Decimal.percent u.freeShare] ++ [e.label] :=
      fun _ => rfl
    rw [hlines e, hlines e']
    exact (get?_canvas_concat hside _ _ hrow).trans (get?_canvas_concat hside _ _ hrow).symm

end Scene

/-! ### Moving what holds an offset -/

/-- The event at a distance of `d`. -/
def Event.shift (d : Int) (e : Event) : Event :=
  { e with offset := e.offset + d }

/-- The extent at a distance of `d`. -/
def Extent.shift (d : Int) (x : Extent) : Extent :=
  ⟨x.lo + d, x.hi + d⟩

/-- The same counters for the units at a distance of `d`. -/
def Usage.shift (d : Int) (u : Usage) : Usage :=
  { u with origin := u.origin + d }

/-- The replay of the events at a distance of `d`. -/
def Replay.shift (d : Int) (r : Replay) : Replay :=
  { r with events := r.events.map (Event.shift d) }

/-- The reel with its events and its buffer at a distance of `d`. -/
def Reel.shift (d : Int) (reel : Reel) : Reel :=
  { reel with
    pending := reel.pending.map (Event.shift d)
    run := reel.run.map fun run => { run with usage := run.usage.shift d } }

namespace Event

@[simp] theorem offset_shift (d : Int) (e : Event) : (e.shift d).offset = e.offset + d := rfl

@[simp] theorem stop_shift (d : Int) (e : Event) : (e.shift d).stop = e.stop + d := by
  have hstop : (e.shift d).stop = e.offset + d + e.size := rfl
  rw [hstop, stop]
  omega

end Event

namespace Extent

@[simp] theorem units_shift (d : Int) (x : Extent) : (x.shift d).units = x.units := by
  have hdistance : x.hi + d - (x.lo + d) = x.hi - x.lo := by omega
  exact congrArg Int.toNat hdistance

theorem widen_shift (d : Int) (x : Extent) (e : Event) :
    (x.shift d).widen (e.shift d) = (x.widen e).shift d := by
  have hlo : min (x.lo + d) (e.offset + d) = min x.lo e.offset + d := by omega
  have hhi : max (x.hi + d) (e.stop + d) = max x.hi e.stop + d := by omega
  rw [widen, Event.stop_shift]
  exact congrArg₂ Extent.mk hlo hhi

theorem ofEvents?_shift (d : Int) (es : List Event) :
    ofEvents? (es.map (Event.shift d)) = (ofEvents? es).map (shift d) := by
  cases es with
  | nil => rfl
  | cons e es =>
      have hfirst : ofEvent (e.shift d) = (ofEvent e).shift d := by
        rw [ofEvent, Event.stop_shift]
        rfl
      have hfold : (es.map (Event.shift d)).foldl widen ((ofEvent e).shift d)
          = (es.foldl widen (ofEvent e)).shift d := by
        rw [List.foldl_map]
        exact List.foldl_hom (shift d) fun x e' => widen_shift d x e'
      rw [List.map_cons, ofEvents?, hfirst, hfold]
      rfl

end Extent

namespace Usage

@[simp] theorem origin_shift (d : Int) (u : Usage) : (u.shift d).origin = u.origin + d := rfl

theorem span_shift (d : Int) (u : Usage) (e : Event) :
    (u.shift d).span (e.shift d) = u.span e := by
  have hstart : (u.shift d).relativeStart (e.shift d) = u.relativeStart e := by
    rw [relativeStart, relativeStart, origin_shift, Event.offset_shift]
    omega
  have hstop : (u.shift d).relativeStop (e.shift d) = u.relativeStop e := by
    rw [relativeStop, relativeStop, origin_shift, Event.stop_shift]
    omega
  rw [span, hstart, hstop]
  rfl

/-- Counting an event commutes with moving it along with the buffer. -/
theorem apply_shift (d : Int) (u : Usage) (e : Event) :
    (u.shift d).apply (e.shift d) = (u.apply e).shift d := by
  rw [apply, span_shift]
  rfl

end Usage

namespace Reel

/-! ### A moved reel -/

variable {reel : Reel} {run : Run}

theorem run_shift (d : Int) (hrun : reel.run = some run) :
    (reel.shift d).run = some { run with usage := run.usage.shift d } := by
  rw [shift, hrun, Option.map_some]

theorem pull_shift_of_pending (d : Int) {e : Event} {rest : List Event}
    (hrun : reel.run = some run) (hpending : reel.pending = e :: rest) :
    (reel.shift d).pull
      = { frame := some (run.scene.render ((run.usage.apply e).shift d) (e.shift d) reel.drawn)
          reports := [.frame (reel.drawn + 1) reel.total]
          notices := (run.usage.shift d).notices (e.shift d)
          reel := reel.pull.reel.shift d } := by
  have hpending' : (reel.shift d).pending = e.shift d :: rest.map (Event.shift d) := by
    rw [shift, hpending, List.map_cons]
  rw [pull_of_pending hrun hpending, pull_of_pending (run_shift d hrun) hpending',
    Usage.apply_shift]
  rfl

/-- Pulling commutes with moving the reel. -/
theorem reel_pull_shift (d : Int) (reel : Reel) :
    (reel.shift d).pull.reel = reel.pull.reel.shift d := by
  cases hrun : reel.run with
  | none =>
      have hrun' : (reel.shift d).run = none := by rw [shift, hrun, Option.map_none]
      rw [pull_past_end hrun, pull_past_end hrun']
  | some run =>
      cases hpending : reel.pending with
      | nil =>
          have hpending' : (reel.shift d).pending = [] := by rw [shift, hpending, List.map_nil]
          rw [pull_at_end hrun hpending, pull_at_end (run_shift d hrun) hpending']
          rfl
      | cons e rest => rw [pull_shift_of_pending d hrun hpending]

theorem after_shift (d : Int) (reel : Reel) (k : Nat) :
    (reel.shift d).after k = (reel.after k).shift d := by
  induction k with
  | zero => rfl
  | succ k ih => rw [after, ih, reel_pull_shift, after]

theorem frameSize?_shift (d : Int) (reel : Reel) : (reel.shift d).frameSize? = reel.frameSize? := by
  rw [frameSize?, shift, Option.map_map]
  rfl

/-- Where a reel brings a frame, the moved one does too, and only the label may differ. -/
theorem frame_pull_shift (d : Int) (hrun : reel.run = some run)
    (hside : 0 < run.scene.grid.cellSide) {f : Frame} (hf : reel.pull.frame = some f) :
    ∃ g, (reel.shift d).pull.frame = some g ∧ f.AgreesOutside g (run.scene.lineTop 2) := by
  cases hpending : reel.pending with
  | nil =>
      rw [pull_at_end hrun hpending] at hf
      cases hf
  | cons e rest =>
      rw [pull_of_pending hrun hpending] at hf
      cases hf
      rw [pull_shift_of_pending d hrun hpending]
      exact ⟨_, rfl, Scene.agreesOutside_render hside rfl e (e.shift d) reel.drawn⟩

end Reel

namespace Replay

variable {r : Replay} {x : Extent}

/-! ### A moved replay -/

theorem extent?_shift (d : Int) (r : Replay) :
    (r.shift d).extent? = r.extent?.map (Extent.shift d) :=
  Extent.ofEvents?_shift d r.events

theorem grid?_shift (d : Int) (r : Replay) : (r.shift d).grid? = r.grid? := by
  rw [grid?, extent?_shift, Option.map_map, grid?]
  refine Option.map_congr fun x _ => ?_
  rw [Function.comp_apply, Extent.units_shift]
  rfl

theorem scene_shift (d : Int) (r : Replay) (x : Extent) :
    (r.shift d).scene (x.shift d) = r.scene x := by
  rw [scene, Extent.units_shift]
  rfl

theorem reelAt_shift_zero (d : Int) (r : Replay) (x : Extent) :
    (r.shift d).reelAt (x.shift d) 0 = (r.reelAt x 0).shift d := by
  have husage : (r.shift d).usageAt (x.shift d) 0 = (r.usageAt x 0).shift d := by
    rw [usageAt, Extent.units_shift]
    rfl
  have htotal : (r.shift d).events.length = r.events.length := List.length_map _
  rw [reelAt, husage, scene_shift, htotal]
  rfl

/-- A moved replay is refused for the same reason, and otherwise starts as the moved reel. -/
theorem start_shift (d : Int) (r : Replay) :
    (∀ failure, r.start = .error failure → (r.shift d).start = .error failure)
      ∧ ∀ reel notices, r.start = .ok (reel, notices) →
        ∃ notices', (r.shift d).start = .ok (reel.shift d, notices') := by
  rcases r.start_cases with ⟨hnil, hr⟩ | ⟨x, hx, hlt, hr⟩ | ⟨x, hx, hle, hr⟩
  · have hnil' : (r.shift d).events = [] := by
      rw [shift, hnil]
      rfl
    rw [hr, start_of_nil hnil']
    refine ⟨?_, ?_⟩
    · intro failure h
      cases h
    · intro reel notices h
      cases h
      exact ⟨[], rfl⟩
  · have hx' : (r.shift d).extent? = some (x.shift d) := by
      rw [extent?_shift, hx, Option.map_some]
    have hlt' : (r.shift d).settings.unitLimit < (x.shift d).units := by
      rw [Extent.units_shift]
      exact hlt
    rw [hr, start_of_lt hx' hlt', Extent.units_shift]
    refine ⟨?_, ?_⟩
    · intro failure h
      exact h
    · intro reel notices h
      cases h
  · have hx' : (r.shift d).extent? = some (x.shift d) := by
      rw [extent?_shift, hx, Option.map_some]
    have hle' : (x.shift d).units ≤ (r.shift d).settings.unitLimit := by
      rw [Extent.units_shift]
      exact hle
    rw [hr, start_of_extent hx' hle', reelAt_shift_zero]
    refine ⟨?_, ?_⟩
    · intro failure h
      cases h
    · intro reel notices h
      cases h
      exact ⟨_, rfl⟩

/--
**A replay whose events are all moved by one distance looks the same, but for the labels.**

It starts if the other does and is refused with the same numbers if not; it has the same grid,
and its frames have the same size.  It has as many frames, and each has the index and the share
of free units of the other's, and the same pixels outside the eight rows of the label.
-/
theorem frames_of_shift (d : Int) (r : Replay) :
    (∀ failure, (r.shift d).start = .error failure ↔ r.start = .error failure)
      ∧ (r.shift d).grid? = r.grid?
      ∧ ∀ reel notices, r.start = .ok (reel, notices) →
        ∃ moved notices', (r.shift d).start = .ok (moved, notices')
          ∧ (∀ k, (moved.after k).frameSize? = (reel.after k).frameSize?)
          ∧ (∀ k, r.events.length ≤ k →
              (reel.after k).pull.frame = none ∧ (moved.after k).pull.frame = none)
          ∧ ∀ k < r.events.length, ∃ run f g,
              reel.run = some run
              ∧ (reel.after k).pull.frame = some f
              ∧ (moved.after k).pull.frame = some g
              ∧ f.AgreesOutside g
                  (run.scene.settings.margin * 2 + run.scene.grid.imageSize.2
                    + (run.scene.settings.lineHeight + run.scene.settings.lineGap) * 2) := by
  obtain ⟨herror, hok⟩ := start_shift d r
  refine ⟨fun failure => ⟨fun h => ?_, herror failure⟩, grid?_shift d r, ?_⟩
  · cases hstart : r.start with
    | error failure' => rw [← herror failure' hstart, h]
    | ok started =>
        obtain ⟨notices', hmoved⟩ := hok started.1 started.2 hstart
        rw [hmoved] at h
        cases h
  · intro reel notices hstart
    obtain ⟨notices', hmoved⟩ := hok reel notices hstart
    refine ⟨reel.shift d, notices', hmoved, ?_, ?_, ?_⟩
    · intro k
      rw [Reel.after_shift, Reel.frameSize?_shift]
    · intro k hk
      have hlength : (r.shift d).events.length = r.events.length := List.length_map _
      have hend := ((stands_of_start hstart).after k).frame.2 hk
      have hend' := ((stands_of_start hmoved).after k).frame.2 (by rw [hlength]; exact hk)
      exact ⟨hend, hend'⟩
    · intro k hk
      have he := List.getElem?_eq_getElem hk
      obtain ⟨x, -, rfl⟩ := reelAt_of_start hstart (List.ne_nil_of_mem (List.getElem_mem hk))
      have hbefore : (r.reelAt x 0).after k = r.reelAt x k := after_reelAt (Nat.le_of_lt hk)
      have hframe : (r.reelAt x k).pull.frame = some (r.frameAt x k r.events[k]) := by
        rw [pull_reelAt he]
      have hside : 0 < (r.scene x).grid.cellSide :=
        Nat.lt_of_lt_of_le Nat.zero_lt_one (Nat.le_max_right _ _)
      obtain ⟨g, hg, hagrees⟩ := Reel.frame_pull_shift d rfl hside hframe
      rw [Reel.after_shift, hbefore]
      exact ⟨{ usage := r.usageAt x 0, scene := r.scene x }, _, g, rfl, hframe, hg, hagrees⟩

/-- Moved down to the least offset that a word can hold, the two allocations overlap in the same
way, and their labels are in the rows from 54. -/
theorem frames_of_shift_overlapping :
    overlapping.start = .ok (overlapping.reelAt overlappingExtent 0,
        [.started 2 10 (Grid.ofUnits 6 overlapping.settings)])
      ∧ 1 < overlapping.events.length
      ∧ (overlapping.shift (-0x800000000000000a)).events
          = [⟨.alloc, -0x8000000000000000, 4⟩, ⟨.alloc, -0x7ffffffffffffffe, 4⟩]
      ∧ ∃ moved notices f g,
          (overlapping.shift (-0x800000000000000a)).start = .ok (moved, notices)
          ∧ ((overlapping.reelAt overlappingExtent 0).after 1).pull.frame = some f
          ∧ (moved.after 1).pull.frame = some g
          ∧ f.AgreesOutside g 54 := by
  have hstart := start_of_extent (r := overlapping) (x := overlappingExtent) rfl (by decide)
  have hlt : 1 < overlapping.events.length := by decide
  refine ⟨hstart, hlt, rfl, ?_⟩
  obtain ⟨-, -, hmoved⟩ := frames_of_shift (-0x800000000000000a) overlapping
  obtain ⟨moved, notices, hstart', -, -, hframes⟩ := hmoved _ _ hstart
  obtain ⟨run, f, g, hrun, hf, hg, hagrees⟩ := hframes 1 hlt
  have hscene : run.scene = overlapping.scene overlappingExtent := by
    rw [← Option.some.inj hrun]
  have htop : (overlapping.scene overlappingExtent).grid.imageSize.2 = 10 := by
    rw [grid_overlapping]
    rfl
  rw [hscene, htop] at hagrees
  exact ⟨moved, notices, f, g, hstart', hf, hg, hagrees⟩

end Replay

end HeapReel
