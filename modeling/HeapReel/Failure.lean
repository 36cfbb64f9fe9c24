/-
Why a replay or its animation cannot be made.

Logs that are malformed or empty are no failures: bad lines are dropped, and no events give
no frames.  What is left is an address range that is too long and a place that does not
take the animation.
-/
import HeapReel.Sink

namespace HeapReel

/-- Why an image cannot be added to an animation. -/
inductive EncodeError where
  /-- A side does not fit the 16 bits that the format has for it. -/
  | dimensions
  | sink (error : SinkError)
  deriving Repr, DecidableEq

/-- The text of the error. -/
def EncodeError.message : EncodeError → String
  | .dimensions => "The Image's dimensions are either too small or too large"
  | .sink error => error.message

/-- Why a replay or its animation cannot be made. -/
inductive Failure where
  /-- The events span more units than the settings allow. -/
  | tooLarge (units limit : Nat)
  /-- The frame with this index could not be added. -/
  | encode (index : Nat) (error : EncodeError)
  /-- The animation is complete, and flushing it failed. -/
  | output (error : SinkError)
  deriving Repr, DecidableEq

namespace Failure

/-- The text of the failure. -/
def message : Failure → String
  | .tooLarge units limit =>
      s!"address range of {units} units exceeds the limit of {limit} units"
  | .encode index error => s!"failed to encode frame {index}: {error.message}"
  | .output error => error.message

/-- The failure and what lies behind it, the outermost first. -/
def causes : Failure → List String
  | .encode index error => [(Failure.encode index error).message, error.message]
  | f => [f.message]

end Failure

end HeapReel
