/-
The command on a real disk.

Everything is decided elsewhere; here the disk answers, and the outcome is printed.
-/
import HeapReel.CommandLine.Run

namespace HeapReel.CommandLine

/-- The text of an error of the operating system. -/
def explainSystem : IO.Error → String
  | .noFileOrDirectory _ code details
  | .inappropriateType _ code details
  | .permissionDenied _ code details
  | .resourceExhausted _ code details
  | .invalidArgument _ code details => s!"{details} (os error {code})"
  | e => toString e

/-- The disk of the operating system. -/
def systemDisk : Disk IO IO.Error where
  read path :=
    try
      let file ← IO.FS.Handle.mk path .read
      return .ok (← file.readBinToEnd)
    catch e => return .error e
  create path :=
    try
      let _ ← IO.FS.Handle.mk path .write
      return .ok ()
    catch e => return .error e
  fill path bytes := IO.FS.writeBinFile path bytes

end HeapReel.CommandLine

open HeapReel.CommandLine in
/-- Renders a heap log as an animation. -/
def main (arguments : List String) : IO UInt32 := do
  let outcome ← run systemDisk explainSystem (← IO.getEnv "RUST_LOG") arguments
  IO.print outcome.stdout
  for line in outcome.stderr do
    IO.eprintln line
  return outcome.exit.toUInt32
