/-
Which notices a reader wants to see.

A filter is written as directives between commas.  A directive names a level, or a target,
or both as `target=level`; a target alone wants everything.  It concerns the notices whose
target starts with its own, and a directive without a target concerns all.

Of the directives that concern a notice the most specific one decides, whatever the others
say: the longest target, and among equal targets the one that asks for more fields.  A
notice that none concerns is dropped.

Brackets ask for a span, which notices here never stand in, or for fields, as in
`target[{field}]=level`.

One directive that cannot be read spoils the filter, and warnings are shown.
-/
import HeapReel.Notice
import HeapReel.Notice.Condition

namespace HeapReel

/-- Part of a filter. -/
structure Directive where
  /-- The start of the targets that it concerns; all of them, if it is absent. -/
  target : Option String := none
  /-- The fields that a notice needs. -/
  fields : List String := []
  /-- The levels up to this verbosity pass; zero lets nothing pass. -/
  verbosity : Nat
  deriving Repr, DecidableEq

namespace Directive

/-- The directive applies to the notice. -/
def concerns (d : Directive) (n : Notice) : Bool :=
  (d.target.all fun t => t.toList.isPrefixOf n.target.toList)
    && d.fields.all fun f => f == "message" || (n.fields.map Prod.fst).contains f

/-- How specific a directive is, larger numbers and later names first. -/
def specificity (d : Directive) : Nat × Nat × List String :=
  ((d.target.map fun t => t.length + 1).getD 0, d.fields.length, d.fields)

/-- `d` is at least as specific as `e`. -/
def outranks (d e : Directive) : Bool :=
  let (a, b, c) := d.specificity
  let (x, y, z) := e.specificity
  x < a || (x = a && (y < b || (y = b && !(c < z))))

/-! ### Reading -/

/-- The character may start a directive. -/
def isOpening (c : Char) : Bool :=
  "-:_[".toList.contains c || Text.isLetterOrNumber c

/-- The verbosity that a level has by name, in letters of any case, or by number. -/
def verbosity? (text : List Char) : Option Nat :=
  match Numeral.readNat? (if text.head? = some '+' then text.tail else text) with
  | some n => if n ≤ 5 then some n else none
  | none =>
      match String.ofList (text.map Char.toLower) with
      | "off" => some 0
      | "error" => some 1
      | "warn" => some 2
      | "info" => some 3
      | "debug" => some 4
      | "trace" => some 5
      | _ => none

/-- The number of bytes that encode a text. -/
def size (text : List Char) : Nat :=
  text.foldl (fun n c => n + c.utf8Size) 0

/-- The part of a text between two places, which are counted in bytes.  A character that is
cut makes it unreadable. -/
def word? (text : List Char) (start stop : Nat) : Option (List Char) :=
  (String.fromUTF8? ((String.ofList text).toUTF8.extract start stop)).map String.toList

/-- The verbosity that the rest of a text writes, where nothing means everything. -/
def verbosityFrom? (text : List Char) (start : Nat) : Option Nat := do
  let level ← word? text start (size text)
  if level.isEmpty then some 5 else verbosity? level

/-- The verbosity after a closing bracket at a place.  `rest` is what the directive goes on
with. -/
def verbosityAfterBracket? (text : List Char) (place : Nat) : List Char → Option Nat
  | [] => some 5
  | '=' :: _ => verbosityFrom? text (place + 2)
  | _ => none

/-- Reads what follows an opening bracket at a place, `rest`.  A directive that asks for a
span or for the value of a field is readable, but no notice meets it. -/
def readBracket? (text : List Char) (place : Nat) (rest : List Char) :
    Option (List Directive) := do
  let target ← if place = 0 then some none else (word? text 0 place).map some
  let (span, rest) := rest.span fun c => c ≠ ']' && c ≠ '\x7b'
  let place := place + 1 + size span
  match rest with
  | ']' :: rest =>
      let _ ← verbosityAfterBracket? text place rest
      return []
  | '\x7b' :: rest =>
      let (field, rest) := rest.span fun c => c ≠ '\x7d'
      let stop := place + 1 + size field
      match rest with
      | '\x7d' :: ']' :: rest =>
          if field.isEmpty then none
          else
            let condition ← Condition.read? (← word? text (place + 1) stop)
            let verbosity ← verbosityAfterBracket? text (stop + 1) rest
            if span.isEmpty && condition.value.isNone then
              let target := target.map String.ofList
              return [{ target, fields := [condition.field], verbosity }]
            else return []
      | _ => none
  | _ => none

/-- Reads one directive, which may come to nothing; `none` if it is unreadable.  Places are
counted from the first character that is no blank, and words are then taken from the whole
text, so blanks in front shift every word. -/
def read? (text : List Char) : Option (List Directive) :=
  let body := Text.trim text
  let (name, rest) := body.span fun c => c ≠ '=' && c ≠ '['
  let place := size name
  if body.head?.all fun c => !isOpening c then none
  else
    match rest with
    | '=' :: _ => do
        let target ← word? text 0 place
        let verbosity ← verbosityFrom? text (place + 1)
        return [{ target := some (String.ofList target), verbosity }]
    | _ :: rest => readBracket? text place rest
    | [] =>
        match verbosity? text with
        | some verbosity => some [{ verbosity }]
        | none => some [{ target := some (String.ofList text), verbosity := 5 }]

end Directive

/-- Directives, of which the most specific one decides. -/
structure Filter where
  directives : List Directive
  deriving Repr, DecidableEq

namespace Filter

/-- Everything up to a level. -/
def upTo (level : Level) : Filter :=
  ⟨[{ verbosity := level.verbosity }]⟩

/-- The filter that a text writes.  A text without directives wants errors only, and one
with an unreadable directive is ignored. -/
def ofText (text : String) : Filter :=
  let pieces := (text.toList.splitOn ',').filter fun piece => !piece.isEmpty
  if pieces.isEmpty then upTo .error
  else
    match pieces.mapM Directive.read? with
    | some directives => ⟨directives.flatten⟩
    | none => upTo .warn

/-- The filter that a person asked for; warnings, if nothing was asked. -/
def ofRequest (text : Option String) : Filter :=
  match text with
  | some text => ofText text
  | none => upTo .warn

/-- The directive that decides about a notice.  Of two that are equally specific the later
one does. -/
def deciding? (f : Filter) (n : Notice) : Option Directive :=
  (f.directives.filter fun d => d.concerns n).foldl
    (fun best d =>
      match best with
      | some e => if d.outranks e then some d else some e
      | none => some d)
    none

/-- The notice passes. -/
def admits (f : Filter) (n : Notice) : Bool :=
  (f.deciding? n).any fun d => n.level.verbosity ≤ d.verbosity

end Filter

end HeapReel
