/-
A replay as an animation.

Frames are drawn and written one by one, so what a sink has taken when something fails is
the start of the whole animation, and exactly the frames up to the one that failed have
been reported.

A replay without events leaves no trace at all.  Otherwise the sink is flushed once, after
the end of the animation, and a failure to flush is the last thing that can go wrong.
-/
import HeapReel.Gif.Writer
import HeapReel.Reel

namespace HeapReel

/-- What making an animation leaves behind. -/
structure Screening where
  /-- How many frames were written, or why not all of them were. -/
  result : Except Failure Nat
  sink : Sink
  reports : List Report := []
  notices : List Notice := []

namespace Screening

/-- The same, after `reports` and `notices`. -/
def after (s : Screening) (reports : List Report) (notices : List Notice) : Screening :=
  { s with reports := reports ++ s.reports, notices := notices ++ s.notices }

end Screening

/-- Adds the image of a frame.  A failure names the frame. -/
def Gif.Writer.addFrame (w : Gif.Writer) (f : Frame) : Option Failure × Gif.Writer :=
  let (error, w) := w.add f.image
  (error.map (.encode f.index), w)

/-- What writing the frames of a reel leaves behind, before the animation is ended. -/
structure Reel.Poured where
  /-- The frame that failed, if one did, and why. -/
  failure : Option (Nat × EncodeError) := none
  writer : Gif.Writer
  reports : List Report := []
  notices : List Notice := []

namespace Reel

/-- Writes the frames that are still to come, and stops at the first that fails. -/
def pour (r : Reel) (w : Gif.Writer) (reports : Array Report) (notices : Array Notice) : Poured :=
  let pulled := r.pull
  let reports := reports ++ pulled.reports
  let notices := notices ++ pulled.notices
  match _drawn : r.pull.frame with
  | none => { writer := w, reports := reports.toList, notices := notices.toList }
  | some frame =>
      match w.add frame.image with
      | (some error, w) =>
          { failure := some (frame.index, error), writer := w
            reports := reports.toList, notices := notices.toList }
      | (none, w) => pulled.reel.pour w reports notices
termination_by r.pending.length
decreasing_by exact length_pending_pull_lt _drawn

/-- Makes an animation of the frames that are still to come, each shown for `delay`
milliseconds. -/
def animate (r : Reel) (sink : Sink) (delay : Nat) : Screening :=
  let poured := r.pour { delay, sink } #[] #[]
  let sink := poured.writer.close
  let (result, sink) :=
    match poured.failure with
    | some (index, error) => (.error (.encode index error), sink)
    | none =>
        match sink.flush with
        | (some error, sink) => (.error (.output error), sink)
        | (none, sink) => (.ok poured.writer.images, sink)
  { result, sink, reports := poured.reports, notices := poured.notices }

end Reel

namespace Replay

/-- Makes an animation of a replay. -/
def animate (r : Replay) (sink : Sink) : Screening :=
  if r.events.isEmpty then { result := .ok 0, sink }
  else
    match r.start with
    | .error failure => { result := .error failure, sink }
    | .ok (reel, notices) =>
        let screening := (reel.animate sink r.settings.frameDelay).after [] notices
        match screening.result with
        | .ok frames => { screening with notices := screening.notices ++ [.animated frames] }
        | .error _ => screening

end Replay

end HeapReel
