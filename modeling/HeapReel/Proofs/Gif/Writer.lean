/-
Adding images to an animation, up to the first that fails.

What a writer sends to its sink is settled by the images alone: the header and the first
image, then the others.  A sink with room for all of it takes all of it.  A sink with a
limit takes everything before the limit, and the image that fails is the one that the first
missing byte belongs to.
-/
import HeapReel.Gif.Writer
import HeapReel.Proofs.Sink

namespace HeapReel.Gif.Writer

variable {w : Writer} {image : Indexed} {images : List Indexed}

/-- The bytes that each of some images adds. -/
def chunks (w : Writer) : List Indexed → List (List UInt8)
  | [] => []
  | image :: images => w.bytesFor image :: images.map (imageBytes w.delay)

@[simp] theorem chunks_cons :
    w.chunks (image :: images) = w.bytesFor image :: images.map (imageBytes w.delay) := rfl

/-- The chunks of a writer that has not written anything are the start of a stream. -/
theorem flatten_chunks_cons (h : w.opened = false) :
    (w.chunks (image :: images)).flatten
      = header image.width image.height
        ++ ((image :: images).map (imageBytes w.delay)).flatten := by
  simp [chunks, bytesFor, h]

/-- Once the header is written, each image adds its own bytes only. -/
theorem chunks_of_opened (h : w.opened = true) :
    w.chunks images = images.map (imageBytes w.delay) := by
  cases images with
  | nil => rfl
  | cons image images => simp [chunks, bytesFor, h]

/-- The writer when it has been given some images and its sink has kept some bytes. -/
def grown (w : Writer) (bytes : List UInt8) (count : Nat) : Writer :=
  { w with sink := w.sink.keep bytes, opened := true, images := w.images + count }

@[simp] theorem grown_grown {a b : List UInt8} {m n : Nat} :
    (w.grown a m).grown b n = w.grown (a ++ b) (m + n) := by
  simp [grown, Nat.add_assoc]

@[simp] theorem chunks_grown {bytes : List UInt8} {count : Nat} :
    (w.grown bytes count).chunks images = images.map (imageBytes w.delay) :=
  chunks_of_opened rfl

theorem add_of_hasRoom (hfits : Fits image) (hroom : w.sink.HasRoom (w.bytesFor image).length) :
    w.add image = (none, w.grown (w.bytesFor image) 1) := by
  rw [add, if_pos hfits, Sink.write_of_hasRoom hroom]
  rfl

theorem add_of_lt (hfits : Fits image) {limit : Nat} (hlimit : w.sink.limit = some limit)
    (hle : w.sink.stored.size ≤ limit)
    (hlt : limit < w.sink.stored.size + (w.bytesFor image).length) :
    w.add image = (some (.sink .full),
      w.grown ((w.bytesFor image).take (limit - w.sink.stored.size)) 0) := by
  rw [add, if_pos hfits, Sink.write_of_lt hlimit hle hlt]
  rfl

/-- An image that is too large changes nothing. -/
theorem add_of_not_fits (h : ¬Fits image) : w.add image = (some .dimensions, w) :=
  if_neg h

/-! ### Several images -/

/-- Adds images up to the first that fails, and tells its position. -/
def addAll (w : Writer) : List Indexed → Option (Nat × EncodeError) × Writer
  | [] => (none, w)
  | image :: images =>
      match w.add image with
      | (some error, w) => (some (0, error), w)
      | (none, w) =>
          let (failure, w) := w.addAll images
          (failure.map fun (i, error) => (i + 1, error), w)

/-- With room for all bytes every image is added. -/
theorem addAll_of_hasRoom (hfits : ∀ image ∈ images, Fits image)
    (hroom : w.sink.HasRoom (w.chunks images).flatten.length) (hne : images ≠ []) :
    w.addAll images = (none, w.grown (w.chunks images).flatten images.length) := by
  induction images generalizing w with
  | nil => exact absurd rfl hne
  | cons image images ih =>
      have hfirst : w.sink.HasRoom
          ((w.bytesFor image).length + (images.map (imageBytes w.delay)).flatten.length) := by
        simpa using hroom
      have hadd := add_of_hasRoom (hfits image (by simp)) (hfirst.mono (Nat.le_add_right _ _))
      rw [addAll, hadd]
      cases himages : images with
      | nil => simp [addAll]
      | cons second rest =>
          have hrest := ih (w := w.grown (w.bytesFor image) 1)
            (fun i hi => hfits i (by simp [hi]))
            (by rw [chunks_grown]; exact hfirst.keep) (by simp [himages])
          rw [chunks_grown, grown_grown, himages] at hrest
          simp only [hrest, chunks_cons, List.flatten_cons, List.length_cons, Nat.add_comm]
          rfl

/-- The first missing byte belongs to the image that fails, and all bytes before it are
kept. -/
theorem addAll_of_lt (hfits : ∀ image ∈ images, Fits image) {limit : Nat}
    (hlimit : w.sink.limit = some limit) {i : Nat}
    (hbefore : w.sink.stored.size + ((w.chunks images).take i).flatten.length ≤ limit)
    (hcut : limit < w.sink.stored.size + ((w.chunks images).take (i + 1)).flatten.length) :
    w.addAll images = (some (i, .sink .full),
      w.grown ((w.chunks images).flatten.take (limit - w.sink.stored.size)) i) := by
  induction images generalizing w i with
  | nil =>
      simp only [chunks, List.take_nil, List.flatten_nil, List.length_nil] at hbefore hcut
      omega
  | cons image images ih =>
      have hfirst := hfits image (by simp)
      cases i with
      | zero =>
          have hlt : limit < w.sink.stored.size + (w.bytesFor image).length := by
            simpa using hcut
          rw [addAll, add_of_lt hfirst hlimit (Nat.le_trans (Nat.le_add_right _ _) hbefore) hlt]
          simp only [chunks_cons, List.flatten_cons]
          rw [List.take_append_of_le_length (by omega)]
      | succ i =>
          simp only [chunks_cons, List.take_succ_cons, List.flatten_cons, List.length_append]
            at hbefore hcut
          have hroom : w.sink.HasRoom (w.bytesFor image).length := by
            intro l hl
            rw [hlimit, Option.some.injEq] at hl
            omega
          have hsize : (w.grown (w.bytesFor image) 1).sink.stored.size
              = w.sink.stored.size + (w.bytesFor image).length := Sink.size_stored_keep
          rw [addAll, add_of_hasRoom hfirst hroom]
          have hrest := ih (w := w.grown (w.bytesFor image) 1) (i := i)
            (fun i hi => hfits i (by simp [hi])) hlimit
            (by rw [chunks_grown, hsize]; omega) (by rw [chunks_grown, hsize]; omega)
          rw [chunks_grown, grown_grown, hsize] at hrest
          have htake : limit - w.sink.stored.size = (w.bytesFor image).length
              + (limit - (w.sink.stored.size + (w.bytesFor image).length)) := by
            omega
          simp only [hrest, Option.map_some, chunks_cons, List.flatten_cons, htake,
            List.take_length_add_append, Nat.add_comm 1 i]

end HeapReel.Gif.Writer
