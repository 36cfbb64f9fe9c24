/-
What a sink keeps of what it is given.

Every write keeps bytes at the end, all of them or those that still fit, so a sink is known
by what it held and what it has kept since.  `keep` is that view.  A write succeeds exactly
if there is room for it, and the one that does not fit leaves the sink full.

From then on nothing is kept, so a sink with a limit has the start of all that it was sent, and it
does not matter how that was cut into writes.  `Received` says so against everything sent, also
what came after the sink was full.
-/
import HeapReel.Sink

namespace HeapReel.Sink

variable {s : Sink} {bytes : List UInt8}

/-- The sink with more bytes at the end. -/
def keep (s : Sink) (bytes : List UInt8) : Sink :=
  { s with stored := s.stored ++ bytes }

@[simp] theorem limit_keep : (s.keep bytes).limit = s.limit := rfl

@[simp] theorem toList_stored_keep : (s.keep bytes).stored.toList = s.stored.toList ++ bytes := by
  simp [keep]

@[simp] theorem size_stored_keep : (s.keep bytes).stored.size = s.stored.size + bytes.length := by
  simp [← Array.length_toList]

@[simp] theorem keep_nil : s.keep [] = s := by
  simp [keep]

@[simp] theorem keep_keep {more : List UInt8} :
    (s.keep bytes).keep more = s.keep (bytes ++ more) := by
  have hstored : s.stored ++ bytes ++ more = s.stored ++ (bytes ++ more) := by
    rw [← Array.toList_inj]
    simp
  rw [keep, keep, keep, hstored]

/-- The sink takes `n` more bytes. -/
def HasRoom (s : Sink) (n : Nat) : Prop :=
  ∀ limit, s.limit = some limit → s.stored.size + n ≤ limit

theorem HasRoom.mono {m n : Nat} (h : s.HasRoom n) (hle : m ≤ n) : s.HasRoom m :=
  fun limit hlimit => Nat.le_trans (Nat.add_le_add_left hle _) (h limit hlimit)

/-- A sink without a limit has room for anything. -/
theorem hasRoom_of_limit_eq_none (h : s.limit = none) (n : Nat) : s.HasRoom n := by
  intro limit hlimit
  rw [h] at hlimit
  cases hlimit

/-- What is kept takes up room. -/
theorem HasRoom.keep {n : Nat} (h : s.HasRoom (bytes.length + n)) : (s.keep bytes).HasRoom n := by
  intro limit hlimit
  have := h limit hlimit
  rw [size_stored_keep]
  omega

/-- Everything is kept if there is room for it. -/
theorem write_of_hasRoom (h : s.HasRoom bytes.length) : s.write bytes = (none, s.keep bytes) := by
  have hfits : s.fitting bytes = bytes := by
    unfold fitting
    split
    · rename_i limit hlimit
      have := h limit hlimit
      exact List.take_of_length_le (by omega)
    · rfl
  simp [write, hfits, Sink.keep]

/-- A write that goes over the limit keeps what reaches up to it, and fails. -/
theorem write_of_lt {limit : Nat} (hlimit : s.limit = some limit)
    (hle : s.stored.size ≤ limit) (hlt : limit < s.stored.size + bytes.length) :
    s.write bytes = (some .full, s.keep (bytes.take (limit - s.stored.size))) := by
  have hfits : s.fitting bytes = bytes.take (limit - s.stored.size) := by
    rw [fitting, hlimit]
  have hcut : (bytes.take (limit - s.stored.size)).length < bytes.length := by
    rw [List.length_take]
    omega
  simp only [write, hfits, if_pos hcut, Sink.keep]

/-- A full sink keeps nothing more. -/
theorem write_of_full {limit : Nat} (hlimit : s.limit = some limit)
    (hfull : limit ≤ s.stored.size) : (s.write bytes).2 = s := by
  have hfits : s.fitting bytes = [] := by
    rw [fitting, hlimit]
    simp [hfull]
  have hwrite : (s.write bytes).2 = s.keep (s.fitting bytes) := rfl
  rw [hwrite, hfits, keep_nil]

/-! ### Writing in pieces -/

/-- Writes pieces one after the other, until one of them fails. -/
def writeEach (s : Sink) : List (List UInt8) → Option SinkError × Sink
  | [] => (none, s)
  | piece :: pieces =>
      match s.write piece with
      | (some error, s) => (some error, s)
      | (none, s) => s.writeEach pieces

theorem write_nil (s : Sink) : s.write [] = (none, s) := by
  have hroom : s.fitting [] = [] := by
    unfold fitting
    split
    · exact List.take_nil
    · rfl
  rw [write, hroom]
  simp

theorem write_eq (s : Sink) (bytes : List UInt8) :
    s.write bytes
      = (if (s.fitting bytes).length < bytes.length then some .full else none,
        s.keep (s.fitting bytes)) := rfl

/-- What fits of two pieces is what fits of the first, and then of the second. -/
theorem fitting_append (s : Sink) (a b : List UInt8) :
    s.fitting (a ++ b) = s.fitting a ++ (s.keep (s.fitting a)).fitting b := by
  cases hlimit : s.limit with
  | none => simp [fitting, hlimit]
  | some n =>
      have hleft : n - (s.stored.size + min (n - s.stored.size) a.length)
          = n - s.stored.size - a.length := by omega
      simp only [fitting, hlimit, limit_keep, size_stored_keep, List.length_take, List.take_append,
        hleft]

/-- After a write that fits, the rest is written as if it came alone. -/
theorem write_append_of_none {a : List UInt8} (h : (s.write a).1 = none) (b : List UInt8) :
    s.write (a ++ b) = (s.write a).2.write b := by
  have hall : s.fitting a = a := by
    have hle : ¬(s.fitting a).length < a.length := by simpa [write_eq] using h
    unfold fitting at hle ⊢
    split at hle
    · exact List.take_of_length_le (by rw [List.length_take] at hle; omega)
    · rfl
  have hlength : (a ++ (s.keep a).fitting b).length < (a ++ b).length
      ↔ ((s.keep a).fitting b).length < b.length := by
    simp only [List.length_append]
    omega
  rw [write_eq s a, hall, write_eq, fitting_append, hall, ← keep_keep, write_eq]
  simp only [hlength]

/-- What comes after a write that does not fit makes no difference. -/
theorem write_append_of_some {a : List UInt8} {error : SinkError}
    (h : (s.write a).1 = some error) (b : List UInt8) :
    s.write (a ++ b) = (some error, (s.write a).2) := by
  have hshort : (s.fitting a).length < a.length := by
    rw [write_eq] at h
    split at h
    · assumption
    · cases h
  have hfull : (s.keep (s.fitting a)).fitting b = [] := by
    cases hlimit : s.limit with
    | none => simp [fitting, hlimit] at hshort
    | some n =>
        simp only [fitting, hlimit, limit_keep, size_stored_keep, List.length_take] at hshort ⊢
        rw [List.take_eq_nil_iff]
        omega
  have hlength : (s.fitting a).length < (a ++ b).length := by
    rw [List.length_append]
    omega
  rw [write_eq, if_pos hshort] at h
  rw [write_eq, fitting_append, hfull, List.append_nil, if_pos hlength, write_eq, ← h]

/-- **A sink does not notice how its bytes were cut into pieces.** -/
theorem writeEach_eq (s : Sink) (pieces : List (List UInt8)) :
    s.writeEach pieces = s.write pieces.flatten := by
  induction pieces generalizing s with
  | nil => exact (write_nil s).symm
  | cons piece pieces ih =>
      rw [writeEach, List.flatten_cons]
      rcases hpiece : s.write piece with ⟨_ | error, s'⟩
      · have hnone : (s.write piece).1 = none := by rw [hpiece]
        rw [write_append_of_none hnone, hpiece]
        exact ih s'
      · have hsome : (s.write piece).1 = some error := by rw [hpiece]
        rw [write_append_of_some hsome, hpiece]

/-! ### What is kept of everything -/

variable {limit : Option Nat} {sent : List UInt8}

/-- The sink has been sent some bytes and has kept as many of them as its limit lets it. -/
structure Received (s : Sink) (limit : Option Nat) (sent : List UInt8) : Prop where
  limit_eq : s.limit = limit
  stored_eq : s.stored.toList = sent.take (limit.getD sent.length)

theorem received_nil (limit : Option Nat) (flushFails : Bool) :
    Received { limit, flushFails } limit [] := by
  refine ⟨rfl, ?_⟩
  rw [List.take_nil]

theorem Received.size_stored (h : s.Received limit sent) :
    s.stored.size = (sent.take (limit.getD sent.length)).length := by
  rw [← h.stored_eq, Array.length_toList]

/-- Every write adds to what has been sent, whether it fits or not. -/
theorem Received.write (h : s.Received limit sent) (bytes : List UInt8) :
    (s.write bytes).2.Received limit (sent ++ bytes) := by
  refine ⟨h.limit_eq, ?_⟩
  rw [toList_stored_write, h.stored_eq, fitting, h.limit_eq, h.size_stored]
  cases limit with
  | none => simp only [Option.getD_none, List.take_length]
  | some n =>
      have hleft : n - min n sent.length = n - sent.length := by omega
      simp only [Option.getD_some, List.length_take, List.take_append, hleft]

/-- A write fails exactly if the limit is below all that has been sent with it. -/
theorem Received.failure_write (h : s.Received limit sent) {bytes : List UInt8}
    (hne : bytes ≠ []) :
    (s.write bytes).1
      = if limit.any (· < (sent ++ bytes).length) then some .full else none := by
  have hpos : 0 < bytes.length := List.length_pos_iff.mpr hne
  simp only [Sink.write, fitting, h.limit_eq, h.size_stored]
  cases limit with
  | none => simp
  | some n =>
      have hover : min (n - min n sent.length) bytes.length < bytes.length
          ↔ n < (sent ++ bytes).length := by
        rw [List.length_append]
        omega
      simp [hover]

theorem Received.flush (h : s.Received limit sent) : s.flush.2.Received limit sent :=
  ⟨h.limit_eq, h.stored_eq⟩

theorem Received.withFlushFails (h : s.Received limit sent) (flushFails : Bool) :
    Received { s with flushFails } limit sent :=
  ⟨h.limit_eq, h.stored_eq⟩

end HeapReel.Sink
