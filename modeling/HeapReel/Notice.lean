/-
Remarks for the person who runs a replay.

A notice says what happened.  It has a level, the part of the program that it concerns, a
summary and named values; those are what a reader sees and what a filter goes by.
-/
import HeapReel.Grid
import HeapReel.Sink
import HeapReel.Usage

namespace HeapReel

/-- How much a notice matters, the most urgent first. -/
inductive Level where
  | error
  | warn
  | info
  | debug
  | trace
  deriving Repr, DecidableEq

namespace Level

/-- How much a reader must want to hear to be told; one for the most urgent level. -/
def verbosity : Level → Nat
  | .error => 1
  | .warn => 2
  | .info => 3
  | .debug => 4
  | .trace => 5

/-- The level as a line shows it. -/
def name : Level → String
  | .error => "ERROR"
  | .warn => "WARN"
  | .info => "INFO"
  | .debug => "DEBUG"
  | .trace => "TRACE"

end Level

/-- Something that happened. -/
inductive Notice where
  /-- A log was read. -/
  | parsed (events skipped : Nat)
  /-- A replay of `events` events starts, on this grid. -/
  | started (events : Nat) (origin : Int) (grid : Grid)
  /-- The range of an event was cut to a buffer of `size` units. -/
  | clamped (event : Event) (start stop : Int) (size : Nat)
  /-- An animation is complete. -/
  | animated (frames : Nat)
  /-- A report could not be shown. -/
  | unreported (error : SinkError)
  /-- The log at `input` holds no events. -/
  | noEvents (input : String)
  deriving Repr, DecidableEq

namespace Notice

/-- How much the notice matters. -/
def level : Notice → Level
  | .parsed .. => .debug
  | .started .. => .info
  | .clamped .. => .warn
  | .animated .. => .info
  | .unreported .. => .debug
  | .noEvents .. => .warn

/-- The part of the program that the notice concerns. -/
def target : Notice → String
  | .parsed .. => "allocreplay::parser::parse"
  | .started .. => "allocreplay::timeline"
  | .clamped .. => "allocreplay::memory::occupancy"
  | .animated .. => "allocreplay::encode"
  | .unreported .. => "allocreplay::timeline::progress"
  | .noEvents .. => "allocreplay"

/-- What happened. -/
def summary : Notice → String
  | .parsed .. => "parsed replay log"
  | .started .. => "replay layout"
  | .clamped .. => "event range outside the address range, clamped"
  | .animated .. => "animation written"
  | .unreported .. => "failed to write progress"
  | .noEvents .. => "no events found, nothing written"

/-- The values that go with it, each with its name. -/
def fields : Notice → List (String × String)
  | .parsed events skipped => [("events", toString events), ("skipped", toString skipped)]
  | .started events origin grid =>
      [("events", toString events), ("min_offset", toString origin),
        ("units", toString grid.units), ("width", toString grid.columns),
        ("height", toString grid.rows), ("padding", toString grid.padding),
        ("cell_size", toString grid.cellSide)]
  | .clamped event start stop size =>
      [("event", event.label), ("start", toString start), ("end", toString stop),
        ("len", toString size)]
  | .animated frames => [("frames", toString frames)]
  | .unreported error => [("err", error.message)]
  | .noEvents input => [("input", input)]

/-- The notice as one line. -/
def line (n : Notice) : String :=
  n.fields.foldl (fun text (name, value) => s!"{text} {name}={value}")
    s!"{n.level.name} {n.target}: {n.summary}"

end Notice

/-- What applying the event to the buffer gives notice of. -/
def Usage.notices (u : Usage) (e : Event) : List Notice :=
  if u.Clamps e then [.clamped e (u.relativeStart e) (u.relativeStop e) u.size] else []

end HeapReel
