/-
Which texts are patterns.

A pattern describes texts: branches between bars, each a row of parts.  A part is an atom, a
class or a group of branches in parentheses, and a mark after it lets it repeat.  A group may
have a name of its own or its own switches; switches alone in parentheses hold up to the end
of the group around them.  Nothing refers back to a group, looks ahead or behind, or counts
repetitions, so a pattern can be matched in one pass.

No notice is ever held against a pattern here.  What matters is whether a text is one, so
nothing of a pattern is kept except how deep it nests, which has a limit.
-/
import HeapReel.Pattern.Class
import HeapReel.Text.Letter

namespace HeapReel.Pattern

/-- A part of a branch. -/
structure Part where
  /-- How deep the part nests. -/
  depth : Nat := 0
  /-- The part matches something, if only a place. -/
  solid : Bool := true
  deriving Repr, DecidableEq

/-- A group that is still open, or the pattern around all groups. -/
structure Level where
  /-- How the pattern is read after the group. -/
  after : Mode := {}
  /-- How deep each finished branch nests. -/
  branches : List Nat := []
  /-- The parts of the branch at hand, the last one first. -/
  parts : List Part := []
  deriving Repr, DecidableEq

namespace Level

/-- How deep the branch at hand nests. -/
def branchDepth (l : Level) : Nat :=
  sideBySide (l.parts.map Part.depth)

/-- How deep the branches nest. -/
def depth (l : Level) : Nat :=
  sideBySide (l.branchDepth :: l.branches)

/-- Adds a part to the branch at hand. -/
def add (l : Level) (part : Part) : Level :=
  { l with parts := part :: l.parts }

/-- Finishes the branch at hand. -/
def branch (l : Level) : Level :=
  { l with branches := l.branchDepth :: l.branches, parts := [] }

/-- Lets the last part repeat, if there is one that matches something. -/
def repeat? (l : Level) : Option Level :=
  match l.parts with
  | [] => none
  | part :: parts =>
      if part.solid then some { l with parts := { depth := 1 + part.depth } :: parts } else none

end Level

/-- A pattern as far as it has been read. -/
structure Draft where
  mode : Mode := {}
  /-- The innermost open group. -/
  level : Level := {}
  /-- The groups around it, the inner ones first. -/
  outer : List Level := []
  /-- The names of groups. -/
  names : List (List Char) := []
  deriving Repr, DecidableEq

namespace Draft

/-- Adds a part. -/
def add (d : Draft) (part : Part) : Draft :=
  { d with level := d.level.add part }

/-- Opens a group that is read in a mode. -/
def openGroup (d : Draft) (mode : Mode) : Draft :=
  { d with mode, level := { after := d.mode }, outer := d.level :: d.outer }

/-- Closes the innermost group, if one is open. -/
def close? (d : Draft) : Option Draft :=
  match d.outer with
  | [] => none
  | level :: outer =>
      let level := level.add { depth := 1 + d.level.depth }
      some { d with mode := d.level.after, level, outer }

/-- The name can be the name of a group. -/
def isName : List Char → Bool
  | [] => false
  | c :: rest =>
      (c = '_' || Text.isLetter c)
        && rest.all fun c => "_.[]".toList.contains c || Text.isLetterOrNumber c

/-- Opens a group whose name comes next.  No two groups share a name. -/
def openNamed? (d : Draft) (text : List Char) : Option (Draft × List Char) :=
  let (name, rest) := text.span (· ≠ '>')
  match rest with
  | _ :: rest =>
      if isName name && !d.names.contains name then
        some ({ d.openGroup d.mode with names := name :: d.names }, rest)
      else none
  | [] => none

/-- The letters are switches, each given once, and some follow a dash if there is one. -/
def areSwitches (letters : List Char) : Bool :=
  letters.all "imsUuRx-".toList.contains && decide letters.Nodup && letters.getLast? ≠ some '-'

/-- Reads switches, for a group that starts or for the rest of the group at hand. -/
def switch? (d : Draft) (text : List Char) : Option (Draft × List Char) :=
  let (letters, rest) := text.span fun c => c ≠ ':' && c ≠ ')'
  let mode := d.mode.switched letters
  if !areSwitches letters then none
  else
    match rest with
    | ':' :: rest => some (d.openGroup mode, rest)
    | ')' :: rest =>
        if letters.isEmpty then none else some ({ d with mode }.add { solid := false }, rest)
    | _ => none

/-- Reads what follows an opening parenthesis. -/
def readOpening? (d : Draft) (text : List Char) : Option (Draft × List Char) :=
  match d.mode.skip text with
  | '?' :: 'P' :: '<' :: rest | '?' :: '<' :: rest => d.openNamed? rest
  | '?' :: rest => d.switch? rest
  | rest => some (d.openGroup d.mode, rest)

/-- How deep the pattern nests that a text continues to its end.  Each step takes a
character. -/
def finish? (d : Draft) (fuel : Nat) (text : List Char) : Option Nat :=
  match fuel with
  | 0 => none
  | fuel + 1 =>
      match d.mode.skip text with
      | [] => if d.outer.isEmpty then some d.level.depth else none
      | '(' :: rest => do
          let (d, rest) ← d.readOpening? rest
          d.finish? fuel rest
      | ')' :: rest => do (← d.close?).finish? fuel rest
      | '|' :: rest => { d with level := d.level.branch }.finish? fuel rest
      | '[' :: rest => do
          let (depth, rest) ← readClass? d.mode rest
          (d.add { depth }).finish? fuel rest
      | '?' :: rest | '*' :: rest | '+' :: rest => do
          let level ← d.level.repeat?
          { d with level }.finish? fuel (if rest.head? = some '?' then rest.tail else rest)
      | '\x7b' :: _ => none
      | text => do
          let (atom, rest) ← Atom.read? d.mode text
          if atom.fits d.mode then (d.add {}).finish? fuel rest else none

end Draft

/-- How deep a pattern may nest. -/
def depthLimit : Nat :=
  250

/-- The text is a pattern. -/
def isPattern (text : List Char) : Bool :=
  (({} : Draft).finish? (text.length + 1) text).any (· ≤ depthLimit)

end HeapReel.Pattern
