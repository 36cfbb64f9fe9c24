/-
What refused frames leave in a stream: nothing.

A writer goes on after a frame that it refused, and many frames may come in a row, some of them
too large for the format.  Refusing is decided by the size of the frame alone and does not touch
the writer, so a run over all frames ends where the run over the accepted ones ends: the same
bytes, the same count, and a header that is still to come if there was none before.

Where the sink takes everything, that run is known.  Without accepted frames nothing was written;
otherwise the sink holds one stream, with a screen of the size of the first accepted frame.
-/
import HeapReel.Animation
import HeapReel.Proofs.Gif.Film
import HeapReel.Proofs.Gif.Writer

namespace HeapReel.Gif.Writer

variable {w : Writer} {f : Frame} {frames : List Frame}

/-- Hands frames to a writer one after the other, whatever becomes of each: what became of
them, and the writer afterwards. -/
def addEach (w : Writer) : List Frame → List (Option Failure) × Writer
  | [] => ([], w)
  | f :: frames =>
      let (failure, w) := w.addFrame f
      let (failures, w) := w.addEach frames
      (failure :: failures, w)

/-- The frames none of whose sides is longer than the format can say. -/
def accepted (frames : List Frame) : List Frame :=
  frames.filter fun f => f.image.width ≤ 65535 ∧ f.image.height ≤ 65535

@[simp] theorem addEach_nil : w.addEach [] = ([], w) := rfl

theorem addEach_cons :
    w.addEach (f :: frames)
      = ((w.addFrame f).1 :: ((w.addFrame f).2.addEach frames).1,
        ((w.addFrame f).2.addEach frames).2) := rfl

theorem addEach_concat :
    (w.addEach (frames ++ [f])).2 = ((w.addEach frames).2.addFrame f).2 := by
  induction frames generalizing w with
  | nil => rfl
  | cons g frames ih => rw [List.cons_append, addEach_cons, ih, addEach_cons]

/-! ### One frame -/

/-- A frame that is too large is named, and the writer stays as it was. -/
theorem addFrame_of_not_fits (h : ¬Fits f.image) :
    w.addFrame f = (some (.encode f.index .dimensions), w) := by
  rw [addFrame, add_of_not_fits h]
  rfl

/-- A sink without a limit takes any other frame. -/
theorem addFrame_of_fits (hlimit : w.sink.limit = none) (h : Fits f.image) :
    w.addFrame f = (none, w.grown (w.bytesFor f.image) 1) := by
  rw [addFrame, add_of_hasRoom h (Sink.hasRoom_of_limit_eq_none hlimit _)]
  rfl

/-! ### All frames -/

/-- **A run over all frames ends where the run over the accepted ones ends.** -/
theorem addEach_accepted (w : Writer) (frames : List Frame) :
    (w.addEach frames).2 = (w.addEach (accepted frames)).2 := by
  induction frames generalizing w with
  | nil => rfl
  | cons f frames ih =>
      by_cases hfits : Fits f.image
      · have hkept : accepted (f :: frames) = f :: accepted frames :=
          List.filter_cons_of_pos (decide_eq_true hfits)
        rw [hkept, addEach_cons, addEach_cons, ih]
      · have hdropped : accepted (f :: frames) = accepted frames :=
          List.filter_cons_of_neg (mt of_decide_eq_true hfits)
        rw [hdropped, addEach_cons, addFrame_of_not_fits hfits, ih]

/-- What becomes of a frame is settled by its own size. -/
theorem failures_addEach (hlimit : w.sink.limit = none) (frames : List Frame) :
    (w.addEach frames).1 = frames.map fun f =>
      if f.image.width ≤ 65535 ∧ f.image.height ≤ 65535 then none
      else some (.encode f.index .dimensions) := by
  induction frames generalizing w with
  | nil => rfl
  | cons f frames ih =>
      rw [addEach_cons, List.map_cons]
      by_cases hfits : f.image.width ≤ 65535 ∧ f.image.height ≤ 65535
      · rw [addFrame_of_fits hlimit hfits, if_pos hfits]
        exact congrArg (none :: ·) (ih hlimit)
      · rw [addFrame_of_not_fits hfits, if_neg hfits]
        exact congrArg (_ :: ·) (ih hlimit)

/-- Frames that all fit are added like their images. -/
theorem addEach_of_fits (hlimit : w.sink.limit = none)
    (hfits : ∀ f ∈ frames, Fits f.image) (hne : frames ≠ []) :
    (w.addEach frames).2
      = w.grown (w.chunks (frames.map Frame.image)).flatten frames.length := by
  induction frames generalizing w with
  | nil => exact absurd rfl hne
  | cons f frames ih =>
      rw [addEach_cons, addFrame_of_fits hlimit (hfits f List.mem_cons_self)]
      cases hframes : frames with
      | nil => simp
      | cons second rest =>
          have hrest := ih (w := w.grown (w.bytesFor f.image) 1) hlimit
            (fun g hg => hfits g (List.mem_cons_of_mem f hg)) (by simp [hframes])
          rw [hframes] at hrest
          rw [hrest, chunks_grown, grown_grown]
          simp only [List.map_cons, chunks_cons, List.flatten_cons, List.length_cons,
            Nat.add_comm]

theorem fits_of_mem_accepted (h : f ∈ accepted frames) : Fits f.image :=
  of_decide_eq_true (List.mem_filter.mp h).2

/-- What a sink without a limit holds after the accepted frames is one stream. -/
theorem stored_close_addEach {delay : Nat} {sink : Sink} (hlimit : sink.limit = none)
    {first : Frame} {rest : List Frame} (hfits : ∀ f ∈ first :: rest, Fits f.image) :
    (({ delay, sink } : Writer).addEach (first :: rest)).2.close.stored.toList
      = sink.stored.toList
        ++ (header first.image.width first.image.height
          ++ (((first :: rest).map Frame.image).map (imageBytes delay)).flatten ++ trailer) := by
  rw [addEach_of_fits hlimit hfits (List.cons_ne_nil _ _), List.map_cons,
    flatten_chunks_cons rfl]
  simp [close, grown, Sink.fitting, hlimit]

/--
**A refused frame leaves a stream as it was.**

Frames of any kind and in any order are handed to a writer whose sink never fails.  A frame is
refused exactly if one of its sides is longer than 65535, and the failure has the index of that
frame; the writer, with its sink and its count, is then the same as before.  At the end the
writer is the one that was given the accepted frames only, and has counted those.  If there were
none, ending it leaves the sink untouched.  Otherwise the sink has got a stream whose screen has
the size of the first accepted frame and whose pictures are those of the accepted frames.
-/
theorem stream_of_accepted (delay : Nat) {sink : Sink} (hlimit : sink.limit = none)
    (frames : List Frame) :
    (({ delay, sink } : Writer).addEach frames).1
        = frames.map (fun f =>
            if f.image.width ≤ 65535 ∧ f.image.height ≤ 65535 then none
            else some (.encode f.index .dimensions))
      ∧ (∀ k f, frames[k]? = some f →
          ¬(f.image.width ≤ 65535 ∧ f.image.height ≤ 65535) →
          (({ delay, sink } : Writer).addEach (frames.take (k + 1))).2
            = (({ delay, sink } : Writer).addEach (frames.take k)).2)
      ∧ (({ delay, sink } : Writer).addEach frames).2
          = (({ delay, sink } : Writer).addEach (accepted frames)).2
      ∧ (({ delay, sink } : Writer).addEach frames).2.images = (accepted frames).length
      ∧ (accepted frames = [] → (({ delay, sink } : Writer).addEach frames).2.close = sink)
      ∧ ∀ first rest, accepted frames = first :: rest →
          ∃ (bytes : List UInt8) (film : Film),
            (({ delay, sink } : Writer).addEach frames).2.close.stored.toList
                = sink.stored.toList ++ bytes
            ∧ Film.ofBytes? bytes = some film
            ∧ film.width = first.image.width
            ∧ film.height = first.image.height
            ∧ film.pictures = (accepted frames).map fun f => Picture.ofImage delay f.image := by
  refine ⟨failures_addEach hlimit frames, fun k f hf hlarge => ?_, addEach_accepted _ frames,
    ?_, fun hnone => ?_, fun first rest haccepted => ?_⟩
  · rw [List.take_add_one, hf, Option.toList_some, addEach_concat, addFrame_of_not_fits hlarge]
  · rw [addEach_accepted]
    by_cases hne : accepted frames = []
    · rw [hne]
      rfl
    · rw [addEach_of_fits hlimit (fun f => fits_of_mem_accepted) hne]
      exact Nat.zero_add _
  · rw [addEach_accepted, hnone]
    rfl
  · have hfits : ∀ f ∈ first :: rest, Fits f.image := fun f hf =>
      fits_of_mem_accepted (haccepted ▸ hf)
    obtain ⟨hwidth, hheight⟩ := hfits first List.mem_cons_self
    have hstored : (({ delay, sink } : Writer).addEach frames).2.close.stored.toList
        = sink.stored.toList
          ++ (header first.image.width first.image.height
            ++ (((first :: rest).map Frame.image).map (imageBytes delay)).flatten ++ trailer) := by
      rw [addEach_accepted, haccepted]
      exact stored_close_addEach hlimit hfits
    refine ⟨_, _, hstored, Film.ofBytes?_stream hwidth hheight ?_, rfl, rfl, ?_⟩
    · rintro image himage
      obtain ⟨f, hf, rfl⟩ := List.mem_map.mp himage
      exact hfits f hf
    · rw [haccepted, List.map_map]
      rfl

/-- A black frame of some size. -/
def blackFrame (index width height : Nat) : Frame where
  index := index
  freeShare := .one
  event := ⟨.alloc, 0, 0⟩
  image := Indexed.ofRaster (Raster.filled width height .black) ({} : Scheme).palette

/-- Two frames that the format can express, each after one that it cannot. -/
def mixedFrames : List Frame :=
  [blackFrame 4 65536 1, blackFrame 5 2 1, blackFrame 6 1 65536, blackFrame 7 3 2]

/-- The first frame is refused, and the screen has the size of the second. -/
theorem stream_of_mixedFrames :
    ({} : Sink).limit = none
      ∧ (({ delay := 10, sink := {} } : Writer).addEach mixedFrames).1
          = [some (.encode 4 .dimensions), none, some (.encode 6 .dimensions), none]
      ∧ (({ delay := 10, sink := {} } : Writer).addEach mixedFrames).2.images = 2
      ∧ ∃ film, Film.ofBytes?
            (({ delay := 10, sink := {} } : Writer).addEach mixedFrames).2.close.stored.toList
          = some film
        ∧ film.width = 2 ∧ film.height = 1 ∧ film.pictures.length = 2 := by
  have haccepted : accepted mixedFrames = [blackFrame 5 2 1, blackFrame 7 3 2] := rfl
  have hlimit : ({} : Sink).limit = none := rfl
  obtain ⟨hfailures, -, -, hcount, -, hstream⟩ := stream_of_accepted 10 hlimit mixedFrames
  obtain ⟨bytes, film, hstored, hfilm, hwidth, hheight, hpictures⟩ := hstream _ _ haccepted
  have hbytes : (({ delay := 10, sink := {} } : Writer).addEach mixedFrames).2.close.stored.toList
      = bytes := hstored
  rw [haccepted] at hcount hpictures
  exact ⟨hlimit, hfailures, hcount, film, hbytes ▸ hfilm, hwidth, hheight,
    congrArg List.length hpictures⟩

end HeapReel.Gif.Writer
