/-
What a replay tells while it runs.

There is one report for each frame and one at the end.  A terminal shows them on one line:
each frame goes back to the first column, clears the line and writes it anew.
-/
import HeapReel.Decimal

namespace HeapReel

/-- A step of a replay. -/
inductive Report where
  /-- The frame number `done` of `total` is there. -/
  | frame (done total : Nat)
  /-- The last of `total` frames has been taken. -/
  | complete (total : Nat)
  deriving Repr, DecidableEq

namespace Report

/-- The line that shows the progress; no work is all done. -/
def line (done total : Nat) : String :=
  Decimal.percent (.share done total) ++ s!"\t[{done}/{total}]"

/-- To the first column, and clear the line. -/
def clearLine : String := "\x1b[1G\x1b[2K"

/-- What a terminal is sent for a report. -/
def text : Report → String
  | .frame done total => clearLine ++ line done total
  | .complete _ => "\nALL DONE\n"

end Report

end HeapReel
