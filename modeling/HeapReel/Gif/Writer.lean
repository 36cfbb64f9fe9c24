/-
Writing an animation image by image.

The screen gets the size of the first image that is accepted, so nothing is written before
there is one, and a writer that never had one leaves no trace.  An image that is too large
for the format is refused without any effect.
-/
import HeapReel.Failure
import HeapReel.Gif.Stream

namespace HeapReel.Gif

/-- An animation under way. -/
structure Writer where
  /-- How long each image is shown, in milliseconds. -/
  delay : Nat
  sink : Sink
  /-- The header has been written. -/
  opened : Bool := false
  /-- How many images have been written. -/
  images : Nat := 0

namespace Writer

/-- The bytes that an image adds: its own, after the header if it is the first. -/
def bytesFor (w : Writer) (image : Indexed) : List UInt8 :=
  (if w.opened then [] else header image.width image.height) ++ imageBytes w.delay image

/-- Adds an image. -/
def add (w : Writer) (image : Indexed) : Option EncodeError × Writer :=
  if Fits image then
    match w.sink.write (w.bytesFor image) with
    | (none, sink) => (none, { w with sink, opened := true, images := w.images + 1 })
    | (some error, sink) => (some (.sink error), { w with sink, opened := true })
  else (some .dimensions, w)

/-- Ends the animation.  An end that does not fit any more is not an error. -/
def close (w : Writer) : Sink :=
  if w.opened then (w.sink.write trailer).2 else w.sink

end Writer

end HeapReel.Gif
