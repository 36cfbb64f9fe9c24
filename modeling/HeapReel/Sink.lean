/-
Places that bytes are written to.

A sink keeps what it is given, up to a limit if it has one.  A write that goes over the
limit keeps what fits and fails.  What is kept is therefore always the start of what was
written, and once a write has failed nothing but empty writes succeed.

Flushing keeps nothing and may fail on its own.
-/

namespace HeapReel

/-- Why a sink refused. -/
inductive SinkError where
  | full
  | flush
  deriving Repr, DecidableEq

/-- The text of the error. -/
def SinkError.message : SinkError → String
  | .full => "disk full"
  | .flush => "flush failed"

/-- What a place holds, how much it can hold, whether flushing it fails, and how often that
has been tried. -/
structure Sink where
  stored : Array UInt8 := #[]
  limit : Option Nat := none
  flushFails : Bool := false
  flushes : Nat := 0
  deriving Repr, DecidableEq

namespace Sink

/-- The part of `bytes` that still fits. -/
def fitting (s : Sink) (bytes : List UInt8) : List UInt8 :=
  match s.limit with
  | some limit => bytes.take (limit - s.stored.size)
  | none => bytes

/-- Keeps what fits of `bytes`, and fails unless all of it does. -/
def write (s : Sink) (bytes : List UInt8) : Option SinkError × Sink :=
  let fits := s.fitting bytes
  (if fits.length < bytes.length then some .full else none,
    { s with stored := s.stored ++ fits })

/-- Flushes, which fails or not. -/
def flush (s : Sink) : Option SinkError × Sink :=
  (if s.flushFails then some .flush else none, { s with flushes := s.flushes + 1 })

/-! ### The view of each operation -/

@[simp] theorem flushFails_write {s : Sink} {bytes : List UInt8} :
    (s.write bytes).2.flushFails = s.flushFails := rfl

@[simp] theorem toList_stored_write {s : Sink} {bytes : List UInt8} :
    (s.write bytes).2.stored.toList = s.stored.toList ++ s.fitting bytes := by
  simp [write]

end Sink

end HeapReel
