/-
What a viewer sees of a replay.

The bytes that an animation leaves in a sink are those of a stream, and the stream is read
as the film of its images.  The images are the frames of the replay, so a viewer gets them
back: as many, in their order, each over the whole screen, with every pixel in the colour
that the frame gives it.  Which colours the scheme has, and whether two of them are equal,
makes no difference.
-/
import HeapReel.Proofs.Animation
import HeapReel.Proofs.Gif.Film

namespace HeapReel

/-- The picture covers a screen of this size with the pixels of the frame, all of them
opaque. -/
structure Gif.Picture.Covers (p : Gif.Picture) (width height : Nat) (f : Frame) : Prop where
  left_eq : p.left = 0
  above_eq : p.above = 0
  width_eq : p.image.width = width
  height_eq : p.image.height = height
  color_eq : ∀ a < width, ∀ b < height,
    ∃ c, f.image.color a b = .ok c ∧ p.image.get? a b = some (some c)

/-- Each pixel of an image has a colour, and its picture shows it. -/
theorem Gif.Picture.covers_ofImage (delay : Nat) (f : Frame) :
    (ofImage delay f.image).Covers f.image.width f.image.height f where
  left_eq := rfl
  above_eq := rfl
  width_eq := rfl
  height_eq := rfl
  color_eq := by
    intro a ha b hb
    have hpixel : f.image.pixels.get? a b = some (f.image.pixels.get ⟨a, ha⟩ ⟨b, hb⟩) :=
      dif_pos ⟨ha, hb⟩
    refine ⟨f.image.colorOf (f.image.pixels.get ⟨a, ha⟩ ⟨b, hb⟩), ?_, ?_⟩
    · rw [Indexed.color, hpixel]
    · rw [ofImage, Indexed.expand, Raster.get?_map, Raster.get?_map, hpixel]
      rfl

namespace Replay

variable {r : Replay} {x : Extent}

/-- The film of a replay. -/
def film (r : Replay) (x : Extent) : Gif.Film where
  width := (r.scene x).size.1
  height := (r.scene x).size.2
  times := some 0
  pictures := (r.images x).map (Gif.Picture.ofImage r.settings.frameDelay)

/-- The chunks are the header of a stream and its images. -/
theorem flatten_chunks (hx : r.extent? = some x) :
    (r.chunks x).flatten = Gif.header (r.scene x).size.1 (r.scene x).size.2
      ++ ((r.images x).map (Gif.imageBytes r.settings.frameDelay)).flatten := by
  obtain ⟨image, images, himages⟩ := List.exists_cons_of_ne_nil (images_ne_nil hx)
  obtain ⟨hwidth, hheight⟩ :=
    size_of_mem_images (r := r) (x := x) (himages ▸ List.mem_cons_self)
  rw [chunks, himages, Gif.Writer.flatten_chunks_cons rfl, hwidth, hheight]

/-- The bytes of a replay are read as its film. -/
theorem ofBytes?_chunks (hx : r.extent? = some x)
    (hwidth : (r.scene x).size.1 ≤ Gif.maxWord) (hheight : (r.scene x).size.2 ≤ Gif.maxWord) :
    Gif.Film.ofBytes? ((r.chunks x).flatten ++ Gif.trailer) = some (r.film x) := by
  rw [flatten_chunks hx]
  exact Gif.Film.ofBytes?_stream hwidth hheight fun _ h => fits_of_mem_images hwidth hheight h

/-- Picture `k` of the film covers the screen with the frame after event `k`. -/
theorem covers_frameAt {k : Nat} {e : Event} (he : r.events[k]? = some e) :
    ∃ p, (r.film x).pictures[k]? = some p ∧ p.delay = Gif.hundredths r.settings.frameDelay
      ∧ p.Covers (r.scene x).size.1 (r.scene x).size.2 (r.frameAt x k e) := by
  refine ⟨.ofImage r.settings.frameDelay (r.frameAt x k e).image, ?_, rfl, ?_⟩
  · rw [film, List.getElem?_map, getElem?_images he, Option.map_some]
  · obtain ⟨hwidth, hheight⟩ : (r.frameAt x k e).image.width = (r.scene x).size.1
        ∧ (r.frameAt x k e).image.height = (r.scene x).size.2 := Scene.size_render
    rw [← hwidth, ← hheight]
    exact Gif.Picture.covers_ofImage r.settings.frameDelay (r.frameAt x k e)

/--
**A viewer of an animation sees the frames of its replay.**

A replay with events whose range is not too long, and whose frames have a size that the
format can express, is written whole to a sink that never fails.  What the sink is given is
read as a film to its last byte.  The film has the size of the frames and repeats for ever.
Its pictures are the frames, in their order; each is shown for the delay of the settings in
hundredths of a second, up to what two bytes hold.
-/
theorem film_of_animate (hx : x.Spans r.events) (hle : x.units ≤ r.settings.unitLimit)
    (hwidth : (r.scene x).size.1 ≤ 65535) (hheight : (r.scene x).size.2 ≤ 65535)
    (sink : Sink) (hlimit : sink.limit = none) (hflush : sink.flushFails = false) :
    (r.animate sink).result = .ok r.events.length
      ∧ ∃ (reel : Reel) (notices : List Notice) (bytes : List UInt8) (film : Gif.Film),
        r.start = .ok (reel, notices)
        ∧ (r.animate sink).sink.stored.toList = sink.stored.toList ++ bytes
        ∧ Gif.Film.ofBytes? bytes = some film
        ∧ film.width = (r.scene x).size.1
        ∧ film.height = (r.scene x).size.2
        ∧ film.times = some 0
        ∧ film.pictures.length = r.events.length
        ∧ ∀ k < r.events.length, ∃ p f, film.pictures[k]? = some p
          ∧ (reel.after k).pull.frame = some f
          ∧ r.events[k]? = some f.event
          ∧ p.delay = min (r.settings.frameDelay / 10) 65535
          ∧ p.Covers (r.scene x).size.1 (r.scene x).size.2 f := by
  have hextent : r.extent? = some x := Extent.ofEvents?_eq_some_iff.mpr hx
  have hroom : sink.HasRoom (r.chunks x).flatten.length := by
    intro limit hsome
    rw [hlimit] at hsome
    cases hsome
  obtain ⟨-, hresult, hsink⟩ := animate_of_hasRoom hextent hle hwidth hheight sink hroom
  refine ⟨by rw [hresult, hflush]; rfl, r.reelAt x 0, _, (r.chunks x).flatten ++ Gif.trailer,
    r.film x, start_of_extent hextent hle, ?_, ofBytes?_chunks hextent hwidth hheight, rfl, rfl,
    rfl, ?_, ?_⟩
  · rw [hsink]
    simp [Sink.flush, Sink.fitting, hlimit]
  · rw [film, List.length_map, length_images]
  · intro k hk
    have he := List.getElem?_eq_getElem hk
    obtain ⟨p, hp, hdelay, hcovers⟩ := covers_frameAt (x := x) he
    refine ⟨p, r.frameAt x k r.events[k], hp, ?_, he, hdelay, hcovers⟩
    rw [after_reelAt (Nat.le_of_lt hk), pull_reelAt he]

/-- The two allocations make a film of two pictures. -/
theorem film_of_overlapping :
    overlappingExtent.Spans overlapping.events
      ∧ overlappingExtent.units ≤ overlapping.settings.unitLimit
      ∧ (overlapping.scene overlappingExtent).size = (340, 74)
      ∧ ∃ film, Gif.Film.ofBytes? (overlapping.animate {}).sink.stored.toList = some film
        ∧ film.width = 340 ∧ film.height = 74 ∧ film.times = some 0
        ∧ film.pictures.length = 2 := by
  have hle : overlappingExtent.units ≤ overlapping.settings.unitLimit := by decide
  refine ⟨spans_overlapping, hle, size_overlapping, ?_⟩
  obtain ⟨-, _, _, bytes, film, -, hstored, hfilm, hwidth, hheight, htimes, hlength, -⟩ :=
    film_of_animate spans_overlapping hle (by rw [size_overlapping]; decide)
      (by rw [size_overlapping]; decide) {} rfl rfl
  rw [size_overlapping] at hwidth hheight
  have hbytes : (overlapping.animate {}).sink.stored.toList = bytes := hstored
  exact ⟨film, hbytes ▸ hfilm, hwidth, hheight, htimes, hlength⟩

end Replay

end HeapReel
