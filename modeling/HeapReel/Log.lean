/-
Heap logs as text.

A log holds one event a line: a sign, one space, the offset, one space, the size.  A line
either is exactly that or it is no event.  Lines end at a line feed and at nothing else, so
a carriage return belongs to its line and spoils it.

Lines that are no events are dropped.  They are counted, except for empty ones: a log that
ends in a line feed has an empty last line, and nothing was skipped there.
-/
import HeapReel.Event

namespace HeapReel

/-! ### One line -/

/-- The line that a log holds for the event. -/
def Event.line (e : Event) : List Char :=
  e.action.sign :: ' ' :: (Numeral.decimal e.offset ++ ' ' :: Numeral.decimal e.size)

/-- The event that a line holds, if the whole line is one. -/
def Event.read? (line : List Char) : Option Event :=
  match line.splitOn ' ' with
  | [sign, offset, size] => do
      let action ← Action.ofSign? sign
      let offset ← Numeral.readWord? offset
      let size ← Numeral.readWord? size
      return { action, offset, size }
  | _ => none

/-! ### A whole log -/

/-- What a text holds: its events in order, and how many lines that are not empty were no
events. -/
structure Log where
  events : List Event
  skipped : Nat
  deriving Repr, DecidableEq

namespace Log

/-- Reads the lines between line feeds. -/
def ofLines (lines : List (List Char)) : Log where
  events := lines.filterMap Event.read?
  skipped := lines.countP fun line => !line.isEmpty && (Event.read? line).isNone

/-- Reads a text. -/
def read (text : String) : Log :=
  ofLines (text.toList.splitOn '\n')

theorem ofLines_append (a b : List (List Char)) :
    ofLines (a ++ b)
      = ⟨(ofLines a).events ++ (ofLines b).events,
          (ofLines a).skipped + (ofLines b).skipped⟩ := by
  simp [ofLines]

end Log

end HeapReel
