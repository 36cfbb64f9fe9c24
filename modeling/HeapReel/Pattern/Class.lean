/-
Classes of characters in patterns.

A class lists characters, ranges and other classes between brackets, and operators may stand
between parts of the list.  Right after the opening, dashes and then a closing bracket stand
for themselves.  A range goes up, from one character to another.

How deep a class nests is counted on the way.
-/
import HeapReel.Pattern.Atom

namespace HeapReel.Pattern

/-- How deep parts nest that stand side by side.  A part alone is as deep as it is. -/
def sideBySide : List Nat → Nat
  | [] => 0
  | [depth] => depth
  | depths => 1 + depths.foldl max 0

/-- A class that is still open. -/
structure OpenClass where
  /-- Nothing but dashes has been read. -/
  fresh : Bool := true
  /-- How deep each item since the last operator nests. -/
  items : List Nat := []
  /-- How deep everything before the last operator nests. -/
  before : Option Nat := none
  deriving Repr, DecidableEq

namespace OpenClass

/-- Adds an item. -/
def add (c : OpenClass) (depth : Nat) : OpenClass :=
  { c with items := depth :: c.items }

/-- How deep the list nests. -/
def listDepth (c : OpenClass) : Nat :=
  match c.before with
  | none => sideBySide c.items
  | some depth => 1 + max depth (sideBySide c.items)

/-- How deep the class nests. -/
def depth (c : OpenClass) : Nat :=
  1 + c.listDepth

/-- Starts the list after an operator. -/
def operate (c : OpenClass) : OpenClass :=
  { fresh := false, before := some c.listDepth }

end OpenClass

/-- The classes that have a name. -/
def classNames : List String :=
  ["alnum", "alpha", "ascii", "blank", "cntrl", "digit", "graph", "lower", "print", "punct",
    "space", "upper", "word", "xdigit"]

/-- Reads a class by name after its opening bracket, and tells whether it is negated. -/
def readNamed? : List Char → Option (Bool × List Char)
  | ':' :: text =>
      let negated := text.head? = some '^'
      let (name, rest) := (if negated then text.tail else text).span (· ≠ ':')
      match rest with
      | ':' :: ']' :: rest =>
          if classNames.contains (String.ofList name) then some (negated, rest) else none
      | _ => none
  | _ => none

/-- Opens a class after its opening bracket.  A negated class matches more than whole
characters where bytes are matched. -/
def openClass? (m : Mode) (text : List Char) : Option (OpenClass × List Char) :=
  match m.skip text with
  | '^' :: rest => if m.characters then some ({}, rest) else none
  | rest => some ({}, rest)

/-- Reads a character or a range, and returns what follows. -/
def readRange? (m : Mode) (text : List Char) : Option (List Char) := do
  let (first, rest) ← Atom.readItem? m text
  let alone := if first.fitsClass m then some rest else none
  match m.skip rest with
  | '-' :: more =>
      if m.glance? more = some ']' ∨ m.glance? more = some '-' then alone
      else
        let (last, rest) ← Atom.readItem? m (m.skip more)
        let start ← first.code?
        let stop ← last.code?
        if first.fitsClass m ∧ last.fitsClass m ∧ start ≤ stop then some rest else none
  | _ => alone

/-- Reads to the end of the outermost open class, the last one listed: how deep that nests,
and what follows. -/
def readOpen? (m : Mode) : Nat → List OpenClass → List Char → Option (Nat × List Char)
  | 0, _, _ | _, [], _ => none
  | fuel + 1, c :: outer, text =>
      let text := m.skip text
      let settled := { c with fresh := false }
      if c.fresh ∧ text.head? = some '-' then readOpen? m fuel (c.add 0 :: outer) text.tail
      else if c.fresh ∧ c.items = [] ∧ text.head? = some ']' then
        readOpen? m fuel (settled.add 0 :: outer) text.tail
      else
        match text with
        | [] => none
        | ']' :: rest =>
            match outer with
            | [] => some (c.depth, rest)
            | parent :: outer => readOpen? m fuel (parent.add c.depth :: outer) rest
        | '[' :: rest =>
            match readNamed? rest with
            | some (negated, rest) =>
                if m.characters || !negated then readOpen? m fuel (settled.add 0 :: outer) rest
                else none
            | none => do
                let (inner, rest) ← openClass? m rest
                readOpen? m fuel (inner :: settled :: outer) rest
        | '&' :: '&' :: rest
        | '-' :: '-' :: rest
        | '~' :: '~' :: rest => readOpen? m fuel (c.operate :: outer) rest
        | text => do
            let rest ← readRange? m text
            readOpen? m fuel (settled.add 0 :: outer) rest

/-- Reads a class after its opening bracket.  Each step takes a character. -/
def readClass? (m : Mode) (text : List Char) : Option (Nat × List Char) := do
  let (c, rest) ← openClass? m text
  readOpen? m (rest.length + 1) [c] rest

end HeapReel.Pattern
