/-
What making an animation leaves behind, whatever the sink does.

A replay that gets as far as its frames sends its sink the bytes of one frame after the
other and the end of the stream.  That sequence, `chunks` and the trailer, is fixed by the
replay; a sink only decides how much of it is kept.  So there are two ways a started
animation can go.  If a frame does not fit, the sink has everything up to its limit, that
frame is named in the failure, and the frames up to it have been reported.  If all frames
fit, the end of the replay has been reported, and the sink is flushed, once.

The reports come before the bytes: a frame has been reported when its bytes are tried.
-/
import HeapReel.Animation
import HeapReel.Proofs.Gif.Writer
import HeapReel.Proofs.Progress

namespace HeapReel

namespace Replay

variable {r : Replay} {x : Extent}

/-! ### The images of a replay -/

/-- The images of all frames, when the events reach over `x`. -/
def images (r : Replay) (x : Extent) : List Indexed :=
  r.events.mapIdx fun k e => (r.frameAt x k e).image

@[simp] theorem length_images : (r.images x).length = r.events.length :=
  List.length_mapIdx

theorem getElem?_images {k : Nat} {e : Event} (he : r.events[k]? = some e) :
    (r.images x)[k]? = some (r.frameAt x k e).image := by
  rw [images, List.getElem?_mapIdx, he, Option.map_some]

theorem drop_images {k : Nat} {e : Event} (he : r.events[k]? = some e) :
    (r.images x).drop k = (r.frameAt x k e).image :: (r.images x).drop (k + 1) := by
  obtain ⟨hk, hget⟩ := List.getElem?_eq_some_iff.mp (getElem?_images (x := x) he)
  rw [List.drop_eq_getElem_cons hk, hget]

/-- All images have the size of the scene. -/
theorem size_of_mem_images {image : Indexed} (h : image ∈ r.images x) :
    image.width = (r.scene x).size.1 ∧ image.height = (r.scene x).size.2 := by
  obtain ⟨k, hk, rfl⟩ := List.mem_mapIdx.mp h
  exact Scene.size_render

/-! ### Pouring the frames into a writer -/

theorem pour_of_frame {reel : Reel} {f : Frame} (h : reel.pull.frame = some f)
    (w : Gif.Writer) (reports : Array Report) (notices : Array Notice) :
    reel.pour w reports notices
      = match w.add f.image with
        | (some error, w) =>
            { failure := some (f.index, error), writer := w
              reports := (reports ++ reel.pull.reports).toList
              notices := (notices ++ reel.pull.notices).toList }
        | (none, w) =>
            reel.pull.reel.pour w (reports ++ reel.pull.reports)
              (notices ++ reel.pull.notices) := by
  rw [Reel.pour]
  split
  · rename_i hnone
    rw [h] at hnone
    cases hnone
  · rename_i f' hsome
    rw [h, Option.some.injEq] at hsome
    subst hsome
    rfl

theorem pour_of_end {reel : Reel} (h : reel.pull.frame = none)
    (w : Gif.Writer) (reports : Array Report) (notices : Array Notice) :
    reel.pour w reports notices
      = { writer := w, reports := (reports ++ reel.pull.reports).toList
          notices := (notices ++ reel.pull.notices).toList } := by
  rw [Reel.pour]
  split
  · rfl
  · rename_i f hsome
    rw [h] at hsome
    cases hsome

/-- What is reported when pouring starts before event `k`: each frame up to the one that
fails, or all frames and the end. -/
def told (r : Replay) (k : Nat) : Option (Nat × EncodeError) → List Report
  | some (i, _) => Report.upTo (k + i + 1) r.events.length
  | none => Report.upTo r.events.length r.events.length ++ [.complete r.events.length]

/-- Pouring adds the images that are left.  It reports each before it is added, and the end
after the last. -/
theorem pour_reelAt {k : Nat} (hk : k ≤ r.events.length) {w w' : Gif.Writer}
    {failure : Option (Nat × EncodeError)}
    (hadded : w.addAll ((r.images x).drop k) = (failure, w')) (reports : Array Report)
    (hreports : reports.toList = Report.upTo k r.events.length) (notices : Array Notice) :
    ∃ notices', (r.reelAt x k).pour w reports notices
      = { failure := failure.map fun (i, error) => (k + i, error), writer := w'
          reports := r.told k failure, notices := notices' } := by
  induction hleft : r.events.length - k generalizing k w failure reports notices with
  | zero =>
      obtain rfl : k = r.events.length := by omega
      have hend := pull_reelAt_length (r := r) (x := x)
      rw [← length_images (x := x), List.drop_length, Gif.Writer.addAll] at hadded
      cases hadded
      rw [pour_of_end (by rw [hend]), hend]
      exact ⟨notices.toList, by simp [told, hreports]⟩
  | succ left ih =>
      have hlt : k < r.events.length := by omega
      have he := List.getElem?_eq_getElem hlt
      have hpull := pull_reelAt (x := x) he
      have hindex : (r.frameAt x k r.events[k]).index = k := rfl
      have hnow : (reports ++ [Report.frame (k + 1) r.events.length]).toList
          = Report.upTo (k + 1) r.events.length := by
        rw [Report.upTo_succ, ← hreports]
        simp
      rw [drop_images he, Gif.Writer.addAll] at hadded
      rw [pour_of_frame (by rw [hpull]), hpull]
      generalize r.frameAt x k r.events[k] = f at hindex hadded ⊢
      rcases hadd : w.add f.image with ⟨_ | error, w₁⟩
      · rw [hadd] at hadded
        rcases hrest : w₁.addAll ((r.images x).drop (k + 1)) with ⟨later, w₂⟩
        simp only [hrest, Prod.mk.injEq] at hadded
        obtain ⟨rfl, rfl⟩ := hadded
        obtain ⟨notices', hpour⟩ := ih (k := k + 1) hlt hrest _ hnow
          (notices ++ (r.usageAt x k).notices r.events[k]) (by omega)
        refine ⟨notices', hpour.trans ?_⟩
        cases later with
        | none => rfl
        | some failed =>
            obtain ⟨i, error⟩ := failed
            have hshift : k + 1 + i = k + (i + 1) := by omega
            simp [told, hshift]
      · rw [hadd] at hadded
        cases hadded
        exact ⟨_, by rw [hnow, hindex]; rfl⟩

/-! ### The ways an animation can go -/

theorem animate_of_nil (h : r.events = []) (sink : Sink) :
    r.animate sink = { result := .ok 0, sink } := by
  rw [animate, h]
  rfl

theorem isEmpty_events (hx : r.extent? = some x) : r.events.isEmpty = false := by
  cases hevents : r.events with
  | nil => simp [extent?, hevents, Extent.ofEvents?] at hx
  | cons e es => rfl

theorem animate_of_lt (hx : r.extent? = some x) (hlt : r.settings.unitLimit < x.units)
    (sink : Sink) :
    r.animate sink = { result := .error (.tooLarge x.units r.settings.unitLimit), sink } := by
  rw [animate, isEmpty_events hx, start_of_lt hx hlt]
  rfl

/-- A replay with frames animates its reel, and only adds notices. -/
theorem animate_eq_reel (hx : r.extent? = some x) (hle : x.units ≤ r.settings.unitLimit)
    (sink : Sink) :
    (r.animate sink).reports = ((r.reelAt x 0).animate sink r.settings.frameDelay).reports
      ∧ (r.animate sink).result = ((r.reelAt x 0).animate sink r.settings.frameDelay).result
      ∧ (r.animate sink).sink = ((r.reelAt x 0).animate sink r.settings.frameDelay).sink := by
  rw [animate, isEmpty_events hx, start_of_extent hx hle, if_neg Bool.false_ne_true]
  cases hresult : ((r.reelAt x 0).animate sink r.settings.frameDelay).result <;>
    simp [Screening.after, hresult]

/-- The frame that fails decides the result, and the sink is not flushed. -/
theorem animate_of_failed (hx : r.extent? = some x) (hle : x.units ≤ r.settings.unitLimit)
    {sink : Sink} {i : Nat} {error : EncodeError} {w : Gif.Writer}
    (hadded : ({ delay := r.settings.frameDelay, sink } : Gif.Writer).addAll (r.images x)
      = (some (i, error), w)) :
    (r.animate sink).reports = Report.upTo (i + 1) r.events.length
      ∧ (r.animate sink).result = .error (.encode i error)
      ∧ (r.animate sink).sink = w.close := by
  obtain ⟨notices, hpour⟩ := pour_reelAt (Nat.zero_le _) hadded #[] rfl #[]
  obtain ⟨hreports, hresult, hsink⟩ := animate_eq_reel hx hle sink
  rw [hreports, hresult, hsink, Reel.animate, hpour]
  simp [told]

/-- If no frame fails, the flush decides the result. -/
theorem animate_of_added (hx : r.extent? = some x) (hle : x.units ≤ r.settings.unitLimit)
    {sink : Sink} {w : Gif.Writer}
    (hadded : ({ delay := r.settings.frameDelay, sink } : Gif.Writer).addAll (r.images x)
      = (none, w)) :
    (r.animate sink).reports
        = Report.upTo r.events.length r.events.length ++ [.complete r.events.length]
      ∧ (r.animate sink).result
          = (if w.close.flushFails then .error (.output .flush) else .ok w.images)
      ∧ (r.animate sink).sink = w.close.flush.2 := by
  obtain ⟨notices, hpour⟩ := pour_reelAt (Nat.zero_le _) hadded #[] rfl #[]
  obtain ⟨hreports, hresult, hsink⟩ := animate_eq_reel hx hle sink
  rw [hreports, hresult, hsink, Reel.animate, hpour]
  cases hflush : w.close.flushFails <;> simp [told, Sink.flush, hflush]

/-! ### The bytes of an animation, and who they belong to -/

/-- The bytes of each frame, those of the first after the header of the stream. -/
def chunks (r : Replay) (x : Extent) : List (List UInt8) :=
  ({ delay := r.settings.frameDelay, sink := {} } : Gif.Writer).chunks (r.images x)

theorem chunks_writer (sink : Sink) :
    ({ delay := r.settings.frameDelay, sink } : Gif.Writer).chunks (r.images x) = r.chunks x := by
  unfold chunks
  cases r.images x <;> rfl

/-- Every frame has a size that the format can express. -/
theorem fits_of_mem_images (hwidth : (r.scene x).size.1 ≤ Gif.maxWord)
    (hheight : (r.scene x).size.2 ≤ Gif.maxWord) {image : Indexed} (h : image ∈ r.images x) :
    Gif.Fits image := by
  obtain ⟨hw, hh⟩ := size_of_mem_images h
  exact ⟨hw ▸ hwidth, hh ▸ hheight⟩

theorem images_ne_nil (hx : r.extent? = some x) : r.images x ≠ [] := by
  intro h
  have hlen := congrArg List.length h
  rw [length_images, List.length_nil, List.length_eq_zero_iff] at hlen
  rw [extent?, hlen] at hx
  cases hx

end Replay

/-- Byte number `n` of the chunks belongs to chunk `k`. -/
def Owns (chunks : List (List UInt8)) (k n : Nat) : Prop :=
  (chunks.take k).flatten.length ≤ n ∧ n < (chunks.take (k + 1)).flatten.length

instance (chunks : List (List UInt8)) (k n : Nat) : Decidable (Owns chunks k n) :=
  inferInstanceAs (Decidable (_ ∧ _))

theorem Owns.lt_length {chunks : List (List UInt8)} {k n : Nat} (h : Owns chunks k n) :
    n < chunks.flatten.length := by
  have hsplit := congrArg (fun l => l.flatten.length) (List.take_append_drop (k + 1) chunks)
  simp only [List.flatten_append, List.length_append] at hsplit
  have := h.2
  omega

/-- Every byte of the chunks belongs to one of them. -/
theorem exists_owns {chunks : List (List UInt8)} {n : Nat} (h : n < chunks.flatten.length) :
    ∃ k, Owns chunks k n := by
  induction chunks generalizing n with
  | nil => simp at h
  | cons chunk chunks ih =>
      rw [List.flatten_cons, List.length_append] at h
      rcases Nat.lt_or_ge n chunk.length with hfirst | hlater
      · exact ⟨0, by simp [Owns, hfirst]⟩
      · obtain ⟨k, hbefore, hafter⟩ := ih (n := n - chunk.length) (by omega)
        refine ⟨k + 1, ?_, ?_⟩
        · rw [List.take_succ_cons, List.flatten_cons, List.length_append]
          omega
        · rw [List.take_succ_cons, List.flatten_cons, List.length_append]
          omega

namespace Replay

variable {r : Replay} {x : Extent}

/-- A sink with room for all frames gets them, the end, and one flush. -/
theorem animate_of_hasRoom (hx : r.extent? = some x) (hle : x.units ≤ r.settings.unitLimit)
    (hwidth : (r.scene x).size.1 ≤ Gif.maxWord) (hheight : (r.scene x).size.2 ≤ Gif.maxWord)
    (sink : Sink) (hroom : sink.HasRoom (r.chunks x).flatten.length) :
    (r.animate sink).reports
        = Report.upTo r.events.length r.events.length ++ [.complete r.events.length]
      ∧ (r.animate sink).result
          = (if sink.flushFails then .error (.output .flush) else .ok r.events.length)
      ∧ (r.animate sink).sink
          = (((sink.keep (r.chunks x).flatten).write Gif.trailer).2.flush).2 := by
  have hadded := Gif.Writer.addAll_of_hasRoom
    (w := { delay := r.settings.frameDelay, sink })
    (fun _ (h : _ ∈ r.images x) => fits_of_mem_images hwidth hheight h) (by rwa [chunks_writer])
    (images_ne_nil hx)
  rw [chunks_writer, length_images] at hadded
  obtain ⟨hreports, hresult, hsink⟩ := animate_of_added hx hle hadded
  refine ⟨hreports, hresult.trans ?_, hsink⟩
  simp only [Gif.Writer.close, Gif.Writer.grown, if_pos, Sink.flushFails_write, Sink.keep,
    Nat.zero_add]

/-- A sink that cannot take the bytes of frame `k` keeps what comes before its limit. -/
theorem animate_of_owns (hx : r.extent? = some x) (hle : x.units ≤ r.settings.unitLimit)
    (hwidth : (r.scene x).size.1 ≤ Gif.maxWord) (hheight : (r.scene x).size.2 ≤ Gif.maxWord)
    {limit k : Nat} (flushFails : Bool) (howns : Owns (r.chunks x) k limit) :
    (r.animate { limit, flushFails }).reports = Report.upTo (k + 1) r.events.length
      ∧ (r.animate { limit, flushFails }).result = .error (.encode k (.sink .full))
      ∧ (r.animate { limit, flushFails }).sink
          = ({ limit, flushFails } : Sink).keep ((r.chunks x).flatten.take limit) := by
  have hbefore : 0 + ((r.chunks x).take k).flatten.length ≤ limit := by
    rw [Nat.zero_add]
    exact howns.1
  have hcut : limit < 0 + ((r.chunks x).take (k + 1)).flatten.length := by
    rw [Nat.zero_add]
    exact howns.2
  have hadded := Gif.Writer.addAll_of_lt
    (w := { delay := r.settings.frameDelay, sink := { limit, flushFails } })
    (fun _ h => fits_of_mem_images hwidth hheight h) rfl
    (by rwa [chunks_writer]) (by rwa [chunks_writer])
  rw [chunks_writer] at hadded
  obtain ⟨hreports, hresult, hsink⟩ := animate_of_failed hx hle hadded
  refine ⟨hreports, hresult, hsink.trans ?_⟩
  have hfull : limit
      ≤ (({ limit, flushFails } : Sink).keep ((r.chunks x).flatten.take limit)).stored.size := by
    have := howns.lt_length
    rw [Sink.size_stored_keep, List.length_take]
    omega
  exact Sink.write_of_full rfl hfull

/-- A frame that is too large for the format leaves no trace but its report. -/
theorem animate_of_too_large (hx : r.extent? = some x) (hle : x.units ≤ r.settings.unitLimit)
    (hlarge : Gif.maxWord < (r.scene x).size.1 ∨ Gif.maxWord < (r.scene x).size.2)
    (sink : Sink) :
    (r.animate sink).reports = [.frame 1 r.events.length]
      ∧ (r.animate sink).result = .error (.encode 0 .dimensions)
      ∧ (r.animate sink).sink = sink := by
  obtain ⟨image, images, himages⟩ := List.exists_cons_of_ne_nil (images_ne_nil hx)
  have hfits : ¬Gif.Fits image := by
    obtain ⟨hw, hh⟩ := size_of_mem_images (himages ▸ List.mem_cons_self : image ∈ r.images x)
    rintro ⟨hwidth, hheight⟩
    omega
  have hadded : ({ delay := r.settings.frameDelay, sink } : Gif.Writer).addAll (r.images x)
      = (some (0, .dimensions), { delay := r.settings.frameDelay, sink }) := by
    rw [himages, Gif.Writer.addAll, Gif.Writer.add_of_not_fits hfits]
  exact animate_of_failed hx hle hadded

/-- The bytes that a sink without a limit gets. -/
theorem toList_stored_animate (hx : r.extent? = some x) (hle : x.units ≤ r.settings.unitLimit)
    (hwidth : (r.scene x).size.1 ≤ Gif.maxWord) (hheight : (r.scene x).size.2 ≤ Gif.maxWord) :
    (r.animate {}).sink.stored.toList = (r.chunks x).flatten ++ Gif.trailer := by
  obtain ⟨-, -, hsink⟩ :=
    animate_of_hasRoom hx hle hwidth hheight {} (Sink.hasRoom_of_limit_eq_none rfl _)
  rw [hsink]
  simp [Sink.flush, Sink.fitting]

/-- A sink with a limit gets the start of those bytes, up to its limit. -/
theorem toList_stored_animate_of_limit (hx : r.extent? = some x)
    (hle : x.units ≤ r.settings.unitLimit) (hwidth : (r.scene x).size.1 ≤ Gif.maxWord)
    (hheight : (r.scene x).size.2 ≤ Gif.maxWord) (limit : Nat) (flushFails : Bool) :
    (r.animate { limit, flushFails }).sink.stored.toList
      = ((r.chunks x).flatten ++ Gif.trailer).take limit := by
  rcases Nat.lt_or_ge limit (r.chunks x).flatten.length with hlt | hge
  · obtain ⟨k, howns⟩ := exists_owns hlt
    obtain ⟨-, -, hsink⟩ := animate_of_owns hx hle hwidth hheight flushFails howns
    rw [hsink, List.take_append_of_le_length (Nat.le_of_lt hlt), Sink.toList_stored_keep]
    rfl
  · obtain ⟨-, -, hsink⟩ := animate_of_hasRoom hx hle hwidth hheight
      { limit, flushFails } fun l hl => by
        rw [← Option.some.inj hl]
        simpa using hge
    rw [hsink, List.take_append, List.take_of_length_le hge]
    simp [Sink.flush, Sink.fitting]

/--
**What an animation leaves behind on any sink.**

Let `B` be the bytes that a sink without a limit gets.  No events leave no trace, a range
that is too long leaves none, and a frame that is too large leaves only its report.
Otherwise the sink keeps the start of `B` up to its limit.  If the first byte it cannot keep
belongs to frame `k`, that frame fails, after the reports of the frames up to it.  If all
frames fit, all of them and the end are reported, and only the flush, which is tried once,
can still fail.
-/
theorem animate_outcome (r : Replay) (limit : Option Nat) (flushFails : Bool) :
    (r.events = [] →
        r.animate { limit, flushFails } = { result := .ok 0, sink := { limit, flushFails } })
      ∧ (r.events ≠ [] → ∃ x : Extent, x.Spans r.events
        ∧ (r.settings.unitLimit < x.units →
          r.animate { limit, flushFails }
            = { result := .error (.tooLarge x.units r.settings.unitLimit)
                sink := { limit, flushFails } })
        ∧ (x.units ≤ r.settings.unitLimit →
            Gif.maxWord < (r.scene x).size.1 ∨ Gif.maxWord < (r.scene x).size.2 →
          (r.animate { limit, flushFails }).result = .error (.encode 0 .dimensions)
            ∧ (r.animate { limit, flushFails }).sink = { limit, flushFails }
            ∧ (r.animate { limit, flushFails }).reports = [.frame 1 r.events.length])
        ∧ (x.units ≤ r.settings.unitLimit →
            (r.scene x).size.1 ≤ Gif.maxWord ∧ (r.scene x).size.2 ≤ Gif.maxWord →
          (r.animate {}).sink.stored.toList = (r.chunks x).flatten ++ Gif.trailer
            ∧ (r.animate { limit, flushFails }).sink.stored.toList
                = (match limit with
                  | some l => (r.animate {}).sink.stored.toList.take l
                  | none => (r.animate {}).sink.stored.toList)
            ∧ (∀ l k, limit = some l → Owns (r.chunks x) k l →
                (r.animate { limit, flushFails }).result = .error (.encode k (.sink .full))
                  ∧ (r.animate { limit, flushFails }).reports
                      = Report.upTo (k + 1) r.events.length
                  ∧ (r.animate { limit, flushFails }).sink.flushes = 0)
            ∧ ((∀ l, limit = some l → (r.chunks x).flatten.length ≤ l) →
                (r.animate { limit, flushFails }).result
                    = (if flushFails then .error (.output .flush) else .ok r.events.length)
                  ∧ (r.animate { limit, flushFails }).reports
                      = Report.upTo r.events.length r.events.length
                        ++ [.complete r.events.length]
                  ∧ (r.animate { limit, flushFails }).sink.flushes = 1))) := by
  refine ⟨fun h => animate_of_nil h _, fun hne => ?_⟩
  obtain ⟨x, hx⟩ := Option.ne_none_iff_exists'.mp (mt Extent.ofEvents?_eq_none_iff.mp hne)
  refine ⟨x, Extent.ofEvents?_eq_some_iff.mp hx, fun hlt => animate_of_lt hx hlt _,
    fun hle hlarge => ?_, fun hle ⟨hwidth, hheight⟩ => ?_⟩
  · obtain ⟨hreports, hresult, hsink⟩ :=
      animate_of_too_large hx hle hlarge { limit, flushFails }
    exact ⟨hresult, hsink, hreports⟩
  · have hall := toList_stored_animate hx hle hwidth hheight
    refine ⟨hall, ?_, ?_, ?_⟩
    · cases limit with
      | none =>
          obtain ⟨-, -, hsink⟩ := animate_of_hasRoom hx hle hwidth hheight
            { flushFails } fun l hl => by cases hl
          rw [hall, hsink]
          simp [Sink.flush, Sink.fitting]
      | some l =>
          rw [hall]
          exact toList_stored_animate_of_limit hx hle hwidth hheight l flushFails
    · rintro l k rfl howns
      obtain ⟨hreports, hresult, hsink⟩ :=
        animate_of_owns hx hle hwidth hheight flushFails howns
      refine ⟨hresult, hreports, ?_⟩
      rw [hsink]
      rfl
    · intro hroom
      obtain ⟨hreports, hresult, hsink⟩ := animate_of_hasRoom hx hle hwidth hheight
        { limit, flushFails } fun l hl => by simpa using hroom l hl
      refine ⟨hresult, hreports, ?_⟩
      rw [hsink]
      rfl

theorem size_overlapping : (overlapping.scene overlappingExtent).size = (340, 74) := by
  rw [Scene.size, grid_overlapping]
  rfl

/-- On a sink without room the first of two frames fails, and no flush is tried. -/
theorem animate_onto_full_sink :
    overlapping.events ≠ []
      ∧ overlappingExtent.units ≤ overlapping.settings.unitLimit
      ∧ Owns (overlapping.chunks overlappingExtent) 0 0
      ∧ (overlapping.animate { limit := some 0, flushFails := true }).result
          = .error (.encode 0 (.sink .full))
      ∧ (overlapping.animate { limit := some 0, flushFails := true }).reports = [.frame 1 2]
      ∧ (overlapping.animate { limit := some 0, flushFails := true }).sink.stored.toList = [] := by
  have hne : overlapping.events ≠ [] := by decide
  have hle : overlappingExtent.units ≤ overlapping.settings.unitLimit := by decide
  have howns : Owns (overlapping.chunks overlappingExtent) 0 0 := by
    obtain ⟨image, images, himages⟩ := List.exists_cons_of_ne_nil
      (images_ne_nil (r := overlapping) (x := overlappingExtent) rfl)
    rw [chunks, himages]
    simp [Owns, Gif.Writer.bytesFor, Gif.header, Gif.signature]
  refine ⟨hne, hle, howns, ?_⟩
  obtain ⟨x, hx, -, -, hfits⟩ := (animate_outcome overlapping (some 0) true).2 hne
  have hxeq : x = overlappingExtent :=
    Option.some.inj (Extent.ofEvents?_eq_some_iff.mpr hx).symm
  subst hxeq
  obtain ⟨-, hstored, hfails, -⟩ := hfits hle (by rw [size_overlapping]; decide)
  obtain ⟨hresult, hreports, -⟩ := hfails 0 0 rfl howns
  exact ⟨hresult, hreports, hstored.trans List.take_zero⟩

end Replay

end HeapReel
