/-
What the command does.

The log is read whole before anything else happens, so it may be the same file as the
output.  A log without events is no error: a notice says so, and the output is not touched.
Otherwise the output is emptied before the replay starts, and it stays empty if the replay
is refused.

Notices go to the error stream as they come, those that the person wants to see, and the
outcome comes after them.
-/
import HeapReel.Animation
import HeapReel.CommandLine.Arguments
import HeapReel.CommandLine.Disk
import HeapReel.Notice.Filter

namespace HeapReel.CommandLine

/-- What a command leaves behind, files apart. -/
structure Outcome where
  exit : Nat
  stdout : String := ""
  /-- The lines of the error stream. -/
  stderr : List String := []
  deriving Repr, DecidableEq

/-- A text that bytes do not encode. -/
def notText : String :=
  "stream did not contain valid UTF-8"

/-- The lines that tell what could not be done and why.  Several causes are numbered. -/
def failureLines (context : String) (causes : List String) : List String :=
  let listed :=
    match causes with
    | [cause] => ["    " ++ cause]
    | _ => causes.zipIdx.map fun (cause, i) => s!"    {i}: {cause}"
  [s!"Error: {context}", "", "Caused by:"] ++ listed

namespace Request

variable {m : Type → Type} [Monad m] {ε : Type}

/-- Carries out a request.  `explain` gives the text of a file error. -/
def perform (disk : Disk m ε) (explain : ε → String) (filter : Filter) (r : Request) :
    m Outcome := do
  let heard (notices : List Notice) : List String :=
    (notices.filter filter.admits).map Notice.line
  let failed (notices : List Notice) (context : String) (causes : List String) : Outcome :=
    { exit := 1, stderr := heard notices ++ failureLines context causes }
  let unreadable := s!"failed to read replay log {r.input}"
  match ← disk.read r.input with
  | .error e => return failed [] unreadable [explain e]
  | .ok bytes =>
      match String.fromUTF8? bytes with
      | none => return failed [] unreadable [notText]
      | some text =>
          let log := Log.read text
          let parsed : Notice := .parsed log.events.length log.skipped
          if log.events.isEmpty then
            return { exit := 0, stderr := heard [parsed, .noEvents r.input] }
          else
            match ← disk.create r.output with
            | .error e => return failed [parsed] s!"failed to create {r.output}" [explain e]
            | .ok () =>
                let screening := ({ events := log.events } : Replay).animate {}
                let notices := parsed :: screening.notices
                disk.fill r.output ⟨screening.sink.stored⟩
                let stdout :=
                  if r.quiet then "" else String.join (screening.reports.map Report.text)
                match screening.result with
                | .error failure =>
                    return { failed notices s!"failed to write {r.output}" failure.causes with
                             stdout }
                | .ok frames =>
                    return { exit := 0, stdout
                             stderr := heard notices ++ [s!"Wrote {frames} frames to {r.output}"] }

end Request

/-- Runs the command.  `wanted` is what the person asked to hear, if anything. -/
def run {m : Type → Type} [Monad m] {ε : Type} (disk : Disk m ε) (explain : ε → String)
    (wanted : Option String) (arguments : List String) : m Outcome :=
  match Request.ofArguments arguments with
  | .ok request => request.perform disk explain (.ofRequest wanted)
  | .error .help => return { exit := 0, stdout := help }
  | .error (.misuse error) => return { exit := 2, stderr := [s!"error: {error.message}"] }

end HeapReel.CommandLine
