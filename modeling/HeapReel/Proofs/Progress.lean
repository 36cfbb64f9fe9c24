/-
How far a reel has come.

A reel goes through three phases.  While events are pending, a pull brings a frame and
reports it.  The first pull after them brings nothing and reports the end.  Later pulls do
nothing at all, and neither does any pull of a reel without events.

What tells the phases apart is the number of pending events and whether there is a run; what
the frames show has no part in it.  `Stands` says how both are after `m` pulls of a reel of
`total` events.  One pull takes it from `m` to `m + 1` in every phase, so it holds after any
number of pulls, also far past the end, and every observation is read off it.
-/
import HeapReel.Proofs.Replay

namespace HeapReel

/-- The reports of the first `done` of `total` frames. -/
def Report.upTo (done total : Nat) : List Report :=
  (List.range done).map fun i => .frame (i + 1) total

theorem Report.upTo_succ (done total : Nat) :
    upTo (done + 1) total = upTo done total ++ [.frame (done + 1) total] := by
  simp [upTo, List.range_succ]

namespace Reel

variable {reel : Reel} {scene? : Option Scene} {total m : Nat}

/-- What the first `m` pulls report, in their order. -/
def reportsUntil (reel : Reel) (m : Nat) : List Report :=
  (List.range m).flatMap fun j => (reel.after j).pull.reports

theorem reportsUntil_succ (reel : Reel) (m : Nat) :
    reel.reportsUntil (m + 1) = reel.reportsUntil m ++ (reel.after m).pull.reports := by
  simp [reportsUntil, List.range_succ]

/-! ### One pull in each phase -/

theorem pull_of_pending {run : Run} {e : Event} {rest : List Event}
    (hrun : reel.run = some run) (hpending : reel.pending = e :: rest) :
    reel.pull
      = { frame := some (run.scene.render (run.usage.apply e) e reel.drawn)
          reports := [.frame (reel.drawn + 1) reel.total]
          notices := run.usage.notices e
          reel :=
            { reel with
              pending := rest
              run := some { run with usage := run.usage.apply e }
              drawn := reel.drawn + 1 } } := by
  simp only [pull, hrun, hpending]

theorem pull_at_end {run : Run} (hrun : reel.run = some run) (hpending : reel.pending = []) :
    reel.pull = { reports := [.complete reel.total], reel := { reel with run := none } } := by
  simp only [pull, hrun, hpending]

theorem pull_past_end (hrun : reel.run = none) : reel.pull = { reel } := by
  simp only [pull, hrun]

/-! ### Where a reel stands -/

/-- The reel is one of `total` events after `m` pulls, and its frames share `scene?`. -/
structure Stands (reel : Reel) (scene? : Option Scene) (total m : Nat) : Prop where
  total_eq : reel.total = total
  drawn_eq : reel.drawn = min m total
  length_pending : reel.pending.length = total - m
  /-- The run lasts until the pull after the last frame. -/
  scene_run : reel.run.map Run.scene = if m ≤ total then scene? else none
  /-- Only events give something to show. -/
  isSome_scene : scene?.isSome ↔ 0 < total

namespace Stands

/-- The phase of a reel is decided by the number of pulls. -/
theorem phase (h : reel.Stands scene? total m) :
    (m < total ∧ ∃ run e rest, reel.run = some run ∧ reel.pending = e :: rest)
      ∨ (m = total ∧ 0 < total ∧ ∃ run, reel.run = some run ∧ reel.pending = [])
      ∨ ((total < m ∨ total = 0) ∧ reel.run = none) := by
  have hrun : reel.run.isSome ↔ 0 < total ∧ m ≤ total := by
    have hmap := congrArg Option.isSome h.scene_run
    rw [Option.isSome_map] at hmap
    rw [hmap, ← h.isSome_scene]
    by_cases hm : m ≤ total <;> simp [hm]
  cases hr : reel.run with
  | none =>
      have hnot : ¬(0 < total ∧ m ≤ total) := by
        rw [← hrun, hr]
        simp
      exact Or.inr (Or.inr ⟨by omega, rfl⟩)
  | some run =>
      have hin : 0 < total ∧ m ≤ total := by
        rw [← hrun, hr]
        rfl
      cases hp : reel.pending with
      | nil =>
          have hlength := h.length_pending
          rw [hp, List.length_nil] at hlength
          exact Or.inr (Or.inl ⟨by omega, hin.1, run, rfl, rfl⟩)
      | cons e rest =>
          have hlength := h.length_pending
          rw [hp, List.length_cons] at hlength
          exact Or.inl ⟨by omega, run, e, rest, rfl, rfl⟩

/-- A pull takes the reel one step on, whatever its phase. -/
theorem pull (h : reel.Stands scene? total m) : reel.pull.reel.Stands scene? total (m + 1) := by
  have hdrawn := h.drawn_eq
  have hlength := h.length_pending
  have hscene := h.scene_run
  rcases h.phase with ⟨hlt, run, e, rest, hrun, hpending⟩ | ⟨heq, hpos, run, hrun, hpending⟩
    | ⟨hpast, hrun⟩
  · rw [pull_of_pending hrun hpending]
    rw [hpending, List.length_cons] at hlength
    rw [hrun, if_pos (by omega)] at hscene
    refine ⟨h.total_eq, ?_, ?_, ?_, h.isSome_scene⟩
    · show reel.drawn + 1 = min (m + 1) total
      omega
    · show rest.length = total - (m + 1)
      omega
    · rw [if_pos (by omega)]
      exact hscene
  · rw [pull_at_end hrun hpending]
    refine ⟨h.total_eq, ?_, ?_, ?_, h.isSome_scene⟩
    · show reel.drawn = min (m + 1) total
      omega
    · show reel.pending.length = total - (m + 1)
      omega
    · rw [if_neg (by omega)]
      rfl
  · rw [pull_past_end hrun]
    refine ⟨h.total_eq, ?_, ?_, ?_, h.isSome_scene⟩
    · show reel.drawn = min (m + 1) total
      omega
    · show reel.pending.length = total - (m + 1)
      omega
    · show reel.run.map Run.scene = _
      by_cases hm : m + 1 ≤ total
      · rw [hscene, if_pos (by omega), if_pos hm]
      · rw [hrun, if_neg hm]
        rfl

/-- **A reel stands where the number of pulls says, however many there were.** -/
theorem after (h : reel.Stands scene? total 0) (m : Nat) :
    (reel.after m).Stands scene? total m := by
  induction m with
  | zero => exact h
  | succ m ih => exact ih.pull

/-! ### What can be observed -/

/-- Pulls bring frames as long as events are pending; the frames count the pulls and have the
size of the scene. -/
theorem frame (h : reel.Stands scene? total m) :
    (m < total → ∃ f, reel.pull.frame = some f ∧ f.index = m
        ∧ scene?.map Scene.size = some (f.image.width, f.image.height))
      ∧ (total ≤ m → reel.pull.frame = none) := by
  have hdrawn := h.drawn_eq
  have hscene := h.scene_run
  rcases h.phase with ⟨hlt, run, e, rest, hrun, hpending⟩ | ⟨heq, hpos, run, hrun, hpending⟩
    | ⟨hpast, hrun⟩
  · rw [pull_of_pending hrun hpending]
    refine ⟨fun _ => ⟨_, rfl, ?_, ?_⟩, fun hle => by omega⟩
    · show reel.drawn = m
      omega
    · rw [hrun, if_pos (by omega)] at hscene
      rw [← hscene, Scene.size_render.1, Scene.size_render.2]
      rfl
  · rw [pull_at_end hrun hpending]
    exact ⟨fun hlt => by omega, fun _ => rfl⟩
  · rw [pull_past_end hrun]
    exact ⟨fun hlt => by omega, fun _ => rfl⟩

theorem isSome_frame (h : reel.Stands scene? total m) : reel.pull.frame.isSome ↔ m < total := by
  by_cases hm : m < total
  · obtain ⟨f, hf, -⟩ := h.frame.1 hm
    simp [hf, hm]
  · have hnone := h.frame.2 (by omega)
    simp [hnone, hm]

theorem reports (h : reel.Stands scene? total m) :
    reel.pull.reports
      = if m < total then [.frame (m + 1) total]
        else if m = total ∧ 0 < total then [.complete total] else [] := by
  have htotal := h.total_eq
  have hdrawn := h.drawn_eq
  rcases h.phase with ⟨hlt, run, e, rest, hrun, hpending⟩ | ⟨heq, hpos, run, hrun, hpending⟩
    | ⟨hpast, hrun⟩
  · have hm : reel.drawn = m := by omega
    rw [pull_of_pending hrun hpending, if_pos hlt, hm, htotal]
  · rw [pull_at_end hrun hpending, if_neg (by omega), if_pos ⟨heq, hpos⟩, htotal]
  · rw [pull_past_end hrun, if_neg (by omega), if_neg (by omega)]

theorem remaining (h : reel.Stands scene? total m) : reel.remaining = total - m := by
  rcases h.phase with ⟨-, run, e, rest, hrun, -⟩ | ⟨-, -, run, hrun, -⟩ | ⟨hpast, hrun⟩
  · rw [Reel.remaining, hrun]
    exact h.length_pending
  · rw [Reel.remaining, hrun]
    exact h.length_pending
  · have hnone : reel.remaining = 0 := by
      rw [Reel.remaining, hrun]
      rfl
    omega

theorem frameSize? (h : reel.Stands scene? total m) :
    reel.frameSize? = if m ≤ total then scene?.map Scene.size else none := by
  have hmap : reel.frameSize? = (reel.run.map Run.scene).map Scene.size := by
    rw [Option.map_map]
    rfl
  rw [hmap, h.scene_run]
  by_cases hm : m ≤ total <;> simp [hm]

/-- The frames are reported one by one, and the end once, if there was anything to show. -/
theorem reportsUntil (h : reel.Stands scene? total 0) (m : Nat) :
    reel.reportsUntil m
      = Report.upTo (min m total) total
        ++ if 0 < total ∧ total < m then [.complete total] else [] := by
  induction m with
  | zero => rw [Nat.zero_min, if_neg (by omega)]; rfl
  | succ m ih =>
      rw [reportsUntil_succ, ih, (h.after m).reports]
      by_cases hlt : m < total
      · have hnow : min m total = m := by omega
        have hnext : min (m + 1) total = m + 1 := by omega
        rw [if_neg (by omega), if_pos hlt, if_neg (by omega), hnow, hnext, Report.upTo_succ]
        simp
      · have hnow : min m total = total := by omega
        have hnext : min (m + 1) total = total := by omega
        rw [if_neg hlt, hnow, hnext, List.append_assoc]
        by_cases hend : m = total ∧ 0 < total
        · rw [if_neg (by omega), if_pos hend, if_pos (by omega), List.nil_append]
        · have hsame : (0 < total ∧ total < m) ↔ (0 < total ∧ total < m + 1) := by omega
          rw [if_neg hend, List.append_nil, if_congr hsame rfl rfl]

end Stands

end Reel

namespace Replay

variable {r : Replay}

/-! ### A replay that starts -/

/-- What the frames share, told from the grid before the replay starts. -/
def scene? (r : Replay) : Option Scene :=
  r.grid?.map fun grid => { grid, settings := r.settings, scheme := r.scheme }

/-- The size of every frame, told from the grid before the replay starts. -/
def frameSize? (r : Replay) : Option (Nat × Nat) :=
  r.scene?.map Scene.size

theorem stands_of_start {reel : Reel} {notices : List Notice}
    (hstart : r.start = .ok (reel, notices)) :
    reel.Stands (reel.run.map Run.scene) r.events.length 0 := by
  rcases r.start_cases with ⟨hnil, hr⟩ | ⟨x, -, -, hr⟩ | ⟨x, hx, -, hr⟩
  · rw [hr] at hstart
    cases hstart
    rw [hnil]
    exact ⟨rfl, rfl, rfl, rfl, by simp⟩
  · rw [hr] at hstart
    cases hstart
  · rw [hr] at hstart
    cases hstart
    have hne : r.events ≠ [] := by
      intro hnil
      rw [extent?, hnil] at hx
      cases hx
    refine ⟨rfl, (Nat.zero_min _).symm, rfl, ?_, fun _ => List.length_pos_of_ne_nil hne,
      fun _ => rfl⟩
    rw [if_pos (Nat.zero_le _)]

/-- A range that was not refused keeps its count of units in the grid. -/
theorem scene_of_start {reel : Reel} {notices : List Notice}
    (hstart : r.start = .ok (reel, notices)) (hlimit : r.settings.unitLimit < UInt64.size) :
    reel.run.map Run.scene = r.scene? := by
  rcases r.start_cases with ⟨hnil, hr⟩ | ⟨x, -, -, hr⟩ | ⟨x, hx, hle, hr⟩
  · rw [hr] at hstart
    cases hstart
    rw [scene?, grid?, extent?, hnil]
    rfl
  · rw [hr] at hstart
    cases hstart
  · rw [hr] at hstart
    cases hstart
    have hmin : min x.units (UInt64.size - 1) = x.units := by omega
    rw [scene?, grid?, hx, Option.map_some, hmin]
    rfl

/--
**What can be observed of a replay of `N` events after any number `m` of pulls.**

The first `min m N` pulls brought the frames in their order and no other pull brought any.
The counts say so, and what is announced as remaining is what later pulls will bring.  The
size that the grid of the replay gives is that of every frame, and the reel tells it until
the pull after the last frame.  The frames have been reported one by one, then the end, once;
a replay without events never reports anything.

The limit of the settings is a word, like the number of units that a grid is made for.
-/
theorem observed_after_pulls {reel : Reel} {notices : List Notice}
    (hstart : r.start = .ok (reel, notices)) (hlimit : r.settings.unitLimit < UInt64.size)
    (m : Nat) :
    (∀ j < m, (reel.after j).pull.frame.map Frame.index
        = if j < r.events.length then some j else none)
      ∧ (reel.after m).drawn = min m r.events.length
      ∧ (reel.after m).total = r.events.length
      ∧ (reel.after m).remaining = r.events.length - min m r.events.length
      ∧ (∀ j, (reel.after (m + j)).pull.frame.isSome ↔ j < (reel.after m).remaining)
      ∧ (r.frameSize?.isSome ↔ 0 < r.events.length)
      ∧ (reel.after m).frameSize? = (if m ≤ r.events.length then r.frameSize? else none)
      ∧ (∀ j < m, ∀ f, (reel.after j).pull.frame = some f →
          r.frameSize? = some (f.image.width, f.image.height))
      ∧ reel.reportsUntil m
          = Report.upTo (min m r.events.length) r.events.length
            ++ (if 0 < r.events.length ∧ r.events.length < m then [.complete r.events.length]
                else []) := by
  have hstands := stands_of_start hstart
  rw [scene_of_start hstart hlimit] at hstands
  have hnow := hstands.after m
  refine ⟨?_, hnow.drawn_eq, hnow.total_eq, ?_, ?_, ?_, hnow.frameSize?, ?_,
    hstands.reportsUntil m⟩
  · intro j _
    by_cases hj : j < r.events.length
    · obtain ⟨f, hf, hindex, -⟩ := (hstands.after j).frame.1 hj
      rw [hf, if_pos hj, Option.map_some, hindex]
    · rw [(hstands.after j).frame.2 (by omega), if_neg hj]
      rfl
  · rw [hnow.remaining]
    omega
  · intro j
    rw [(hstands.after (m + j)).isSome_frame, hnow.remaining]
    omega
  · rw [frameSize?, Option.isSome_map]
    exact hstands.isSome_scene
  · intro j _ f hf
    have hj : j < r.events.length := by
      rw [← (hstands.after j).isSome_frame, hf]
      rfl
    obtain ⟨g, hg, -, hsize⟩ := (hstands.after j).frame.1 hj
    rw [hf, Option.some.injEq] at hg
    rw [hg]
    exact hsize

/-- Five pulls of a replay of two events. -/
theorem observed_after_overlap :
    overlapping.start = .ok (overlapping.reelAt overlappingExtent 0,
        [.started 2 10 (Grid.ofUnits 6 overlapping.settings)])
      ∧ overlapping.settings.unitLimit < UInt64.size
      ∧ ((overlapping.reelAt overlappingExtent 0).after 1).remaining = 1
      ∧ ((overlapping.reelAt overlappingExtent 0).after 2).frameSize? = overlapping.frameSize?
      ∧ ((overlapping.reelAt overlappingExtent 0).after 5).drawn = 2
      ∧ ((overlapping.reelAt overlappingExtent 0).after 5).frameSize? = none
      ∧ (overlapping.reelAt overlappingExtent 0).reportsUntil 5
          = [.frame 1 2, .frame 2 2, .complete 2] := by
  have hstart := start_of_extent (r := overlapping) (x := overlappingExtent) rfl (by decide)
  have hlimit : overlapping.settings.unitLimit < UInt64.size := by decide
  obtain ⟨-, -, -, hremaining, -⟩ := observed_after_pulls hstart hlimit 1
  obtain ⟨-, -, -, -, -, -, hlast, -⟩ := observed_after_pulls hstart hlimit 2
  obtain ⟨-, hdrawn, -, -, -, -, hsize, -, hreports⟩ := observed_after_pulls hstart hlimit 5
  exact ⟨hstart, hlimit, hremaining, hlast, hdrawn, hsize, hreports⟩

end Replay

end HeapReel
