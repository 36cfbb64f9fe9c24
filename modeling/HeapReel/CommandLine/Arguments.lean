/-
The arguments of the command.

Two parameters take a value and must be given; one switch may be given.  A value follows
its parameter as the next argument, after an equals sign, or, for the one-letter names,
right away.  Nothing is given twice, no value is empty, and there are no other arguments.

Arguments are taken from the left, and the first fault is the one that is told.  A parameter
whose value is the next argument is settled late, when another one starts or at the end, so
that a fault in between comes first.  After `--` every argument is a value that no one asked
for.
-/
import HeapReel.Terminal.Plain

namespace HeapReel.CommandLine

/-- What the command is to do. -/
structure Request where
  /-- Where the log is. -/
  input : String
  /-- Where the animation goes. -/
  output : String
  /-- Show no progress. -/
  quiet : Bool
  deriving Repr, DecidableEq

/-- The parameters that take a value. -/
inductive Parameter where
  | input
  | output
  deriving Repr, DecidableEq

/-- The parameter as an error names it. -/
def Parameter.usage : Parameter → String
  | .input => "--input-replay-file <INPUT_REPLAY_FILE>"
  | .output => "--output-gif <OUTPUT_GIF>"

/-- What is wrong with the arguments. -/
inductive UsageError where
  | missing
  | unexpected (argument : String)
  | noValue (parameter : Parameter)
  | repeated (usage : String)
  | unexpectedValue (value usage : String)
  deriving Repr, DecidableEq

/-- The text of the error.  Of an argument it shows what a terminal would. -/
def UsageError.message : UsageError → String
  | .missing => "the following required arguments were not provided:"
  | .unexpected argument => s!"unexpected argument '{Terminal.plain argument}' found"
  | .noValue parameter =>
      s!"a value is required for '{parameter.usage}' but none was supplied"
  | .repeated usage => s!"the argument '{usage}' cannot be used multiple times"
  | .unexpectedValue value usage =>
      s!"unexpected value '{Terminal.plain value}' for '{usage}' found; no more were expected"

/-- Why the arguments are not a request. -/
inductive Halt where
  /-- The person asked for help. -/
  | help
  | misuse (error : UsageError)
  deriving Repr, DecidableEq

/-- The text that helps. -/
def help : String :=
  "Render an allocator replay log as an animated GIF, one frame per event\n\n"
    ++ "Usage: allocreplay [OPTIONS] --input-replay-file <INPUT_REPLAY_FILE> "
    ++ "--output-gif <OUTPUT_GIF>\n\n"
    ++ "Options:\n"
    ++ "  -i, --input-replay-file <INPUT_REPLAY_FILE>\n"
    ++ "          Replay log with one `+ offset size` or `- offset size` event per line\n"
    ++ "  -o, --output-gif <OUTPUT_GIF>\n"
    ++ "          Where to write the animation\n"
    ++ "      --quiet\n"
    ++ "          Do not print the progress line\n"
    ++ "  -h, --help\n"
    ++ "          Print help\n"

/-- A request as far as it has been read. -/
structure Draft where
  input : Option String := none
  output : Option String := none
  quiet : Bool := false
  /-- The last parameter, if its value is an argument of its own, and that value once it
  has been read. -/
  pending : Option (Parameter × Option String) := none
  deriving Repr, DecidableEq

namespace Draft

private def misuse {α : Type} (e : UsageError) : Except Halt α :=
  .error (.misuse e)

/-- The value that a parameter has. -/
def value? (d : Draft) : Parameter → Option String
  | .input => d.input
  | .output => d.output

/-- Gives a parameter its value.  A missing value is the first fault, a second one the next,
and an empty one the last. -/
def assign (d : Draft) (p : Parameter) (value : Option String) : Except Halt Draft :=
  match value with
  | none => misuse (.noValue p)
  | some v =>
      if (d.value? p).isSome then misuse (.repeated p.usage)
      else if v.isEmpty then misuse (.noValue p)
      else
        match p with
        | .input => .ok { d with input := some v }
        | .output => .ok { d with output := some v }

/-- Gives the pending parameter the value that it has got. -/
def settle (d : Draft) : Except Halt Draft :=
  match d.pending with
  | none => .ok d
  | some (p, value) => ({ d with pending := none }).assign p value

/-- Starts a parameter, whose value is there already or may be the next argument. -/
def parameter (d : Draft) (p : Parameter) (value : Option String) : Except Halt Draft := do
  let d ← d.settle
  match value with
  | some v => d.assign p (some v)
  | none => .ok { d with pending := some (p, none) }

/-- Sets the switch. -/
def beQuiet (d : Draft) : Except Halt Draft := do
  let d ← d.settle
  if d.quiet then misuse (.repeated "--quiet") else .ok { d with quiet := true }

/-- Gives help, if everything before is right. -/
def askForHelp (d : Draft) : Except Halt Draft := do
  let _ ← d.settle
  .error .help

/-- Reads an argument that starts with two dashes, without those. -/
def readLong (d : Draft) (text : List Char) : Except Halt Draft :=
  let (name, rest) := text.span (· ≠ '=')
  let value :=
    match rest with
    | _ :: v => some (String.ofList v)
    | [] => none
  match String.ofList name, value with
  | "input-replay-file", v => d.parameter .input v
  | "output-gif", v => d.parameter .output v
  | "quiet", none => d.beQuiet
  | "quiet", some v => misuse (.unexpectedValue v "--quiet")
  | "help", none => d.askForHelp
  | "help", some v => misuse (.unexpectedValue v "--help")
  | name, _ => misuse (.unexpected ("--" ++ name))

/-- The value that follows a one-letter name in the same argument. -/
def attached : List Char → Option String
  | [] => none
  | '=' :: v => some (String.ofList v)
  | v => some (String.ofList v)

/-- Reads an argument that starts with one dash, without that. -/
def readShort (d : Draft) : List Char → Except Halt Draft
  | [] => .ok d
  | 'i' :: rest => d.parameter .input (attached rest)
  | 'o' :: rest => d.parameter .output (attached rest)
  | 'h' :: _ => d.askForHelp
  | c :: _ => misuse (.unexpected (String.ofList ['-', c]))

/-- Reads an argument that names nothing. -/
def readValue (d : Draft) (argument : String) : Except Halt Draft :=
  match d.pending with
  | some (p, none) => .ok { d with pending := some (p, some argument) }
  | _ => misuse (.unexpected argument)

/-- Reads arguments from the left. -/
def readAll (d : Draft) : List String → Except Halt Draft
  | [] => d.settle
  | argument :: rest =>
      match argument.toList with
      | ['-', '-'] =>
          match rest with
          | [] => d.settle
          | value :: _ => misuse (.unexpected value)
      | '-' :: '-' :: text => do (← d.readLong text).readAll rest
      | '-' :: c :: text => do (← d.readShort (c :: text)).readAll rest
      | _ => do (← d.readValue argument).readAll rest

end Draft

/-- The request that the arguments make. -/
def Request.ofArguments (arguments : List String) : Except Halt Request := do
  let d ← ({} : Draft).readAll arguments
  match d.input, d.output with
  | some input, some output => return { input, output, quiet := d.quiet }
  | _, _ => throw (.misuse .missing)

end HeapReel.CommandLine
