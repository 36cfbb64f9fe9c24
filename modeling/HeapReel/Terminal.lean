/-
Showing reports on a terminal.

A terminal that cannot be written to must not stop a replay, so a report that fails is only
noted.  The next one is tried all the same.
-/
import HeapReel.Notice
import HeapReel.Report

namespace HeapReel.Terminal

/-- Writes a report and flushes, unless the writing failed. -/
def put (s : Sink) (r : Report) : Option SinkError × Sink :=
  match s.write r.text.toUTF8.data.toList with
  | (some error, s) => (some error, s)
  | (none, s) => s.flush

/-- Shows a report: the sink afterwards, and what there is to note. -/
def display (s : Sink) (r : Report) : Sink × List Notice :=
  match put s r with
  | (some error, s) => (s, [.unreported error])
  | (none, s) => (s, [])

/-- Shows reports one after the other. -/
def showAll (s : Sink) (rs : List Report) : Sink × List Notice :=
  rs.foldl
    (fun (s, notices) r =>
      let (s, more) := display s r
      (s, notices ++ more))
    (s, [])

end HeapReel.Terminal
