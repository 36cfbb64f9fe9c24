/-
Replaying a list of events, one frame at a time.

A replay looks at all its events before it starts: they decide how long the address range
is and where it begins.  A range that is too long is refused before anything is set up.

A reel is a replay under way.  Each pull applies one event to the counters and draws the
frame after it, so a reel goes forward only and holds one buffer, whatever the number of
frames.  The pull after the last frame gives the buffer back and reports the end; later
ones do nothing.  A reel without events never had a buffer, so it never reports an end.
-/
import HeapReel.Failure
import HeapReel.Frame
import HeapReel.Log
import HeapReel.Notice
import HeapReel.Report

namespace HeapReel

/-! ### Before it starts -/

/-- Events, and how they are to be shown. -/
structure Replay where
  events : List Event
  settings : Settings := {}
  scheme : Scheme := {}

/-- The counters and the look of a replay under way. -/
structure Run where
  usage : Usage
  scene : Scene

/-- A replay under way. -/
structure Reel where
  /-- The events that have not been applied. -/
  pending : List Event
  /-- Absent when there are no events, and after the end. -/
  run : Option Run
  /-- How many frames there are in all. -/
  total : Nat
  /-- How many frames have been drawn. -/
  drawn : Nat

namespace Replay

/-- The address range of the events. -/
def extent? (r : Replay) : Option Extent :=
  Extent.ofEvents? r.events

/-- The grid for the events.  A range of more units than a 64-bit word counts as the largest
word. -/
def grid? (r : Replay) : Option Grid :=
  r.extent?.map fun x => Grid.ofUnits (min x.units (UInt64.size - 1)) r.settings

/-- A buffer for the address range, unless the range is longer than `limit`. -/
def buffer (x : Extent) (limit : Nat) : Except Failure Usage :=
  if limit < x.units then .error (.tooLarge x.units limit) else .ok (.empty x.lo x.units)

/-- Sets the replay going; gives notice of the grid if there is one. -/
def start (r : Replay) : Except Failure (Reel × List Notice) :=
  match r.extent? with
  | none => .ok ({ pending := r.events, run := none, total := r.events.length, drawn := 0 }, [])
  | some x => do
      let usage ← buffer x r.settings.unitLimit
      let grid := Grid.ofUnits usage.size r.settings
      let scene : Scene := { grid, settings := r.settings, scheme := r.scheme }
      return ({ pending := r.events, run := some { usage, scene },
                total := r.events.length, drawn := 0 },
        [.started r.events.length x.lo grid])

end Replay

/-! ### Under way -/

/-- What one pull brings. -/
structure Pull where
  frame : Option Frame := none
  reports : List Report := []
  notices : List Notice := []
  /-- The reel afterwards. -/
  reel : Reel

namespace Reel

/-- The next frame, if there is one. -/
def pull (r : Reel) : Pull :=
  match r.run with
  | none => { reel := r }
  | some run =>
      match r.pending with
      | [] => { reports := [.complete r.total], reel := { r with run := none } }
      | e :: rest =>
          let usage := run.usage.apply e
          { frame := some (run.scene.render usage e r.drawn)
            reports := [.frame (r.drawn + 1) r.total]
            notices := run.usage.notices e
            reel :=
              { r with
                pending := rest
                run := some { run with usage }
                drawn := r.drawn + 1 } }

/-- How many frames are still to come. -/
def remaining (r : Reel) : Nat :=
  if r.run.isSome then r.pending.length else 0

/-- The size of every frame, while there is a buffer. -/
def frameSize? (r : Reel) : Option (Nat × Nat) :=
  r.run.map fun run => run.scene.size

/-- A pull that brings a frame uses up an event. -/
theorem length_pending_pull_lt {r : Reel} {f : Frame} (h : r.pull.frame = some f) :
    r.pull.reel.pending.length < r.pending.length := by
  unfold pull at h ⊢
  split at h
  · simp at h
  · split at h <;> simp_all

end Reel

end HeapReel
