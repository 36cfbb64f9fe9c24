/-
How a pattern is being read.

Two of the switches that a pattern may set decide what is a pattern at all.  One lets a
pattern be spread out, with blanks and with comments from a `#` to the end of the line.  The
other has it match bytes in place of characters, and then all that could match half of a
character is refused.
-/
import HeapReel.Text.Blank

namespace HeapReel.Pattern

/-- How the rest of a pattern is read. -/
structure Mode where
  /-- Blanks and comments mean nothing. -/
  spread : Bool := false
  /-- The pattern matches characters and not bytes. -/
  characters : Bool := true
  deriving Repr, DecidableEq

namespace Mode

/-- A text from its first character that is neither blank nor in a comment. -/
def skipSpread (inComment : Bool) : List Char → List Char
  | [] => []
  | c :: text =>
      if inComment then skipSpread (c ≠ '\n') text
      else if c = '#' then skipSpread true text
      else if Text.isBlank c then skipSpread false text
      else c :: text

/-- A text from the next character that means something. -/
def skip (m : Mode) (text : List Char) : List Char :=
  if m.spread then skipSpread false text else text

/-- The character that a look ahead takes to be next.  It looks into a comment. -/
def glance? (m : Mode) (text : List Char) : Option Char :=
  if m.spread then
    match text.dropWhile Text.isBlank with
    | '#' :: comment => (comment.dropWhile Text.isBlank).head?
    | text => text.head?
  else text.head?

/-- The mode after switches, written as those to set and, after a dash, those to clear. -/
def switched (m : Mode) (letters : List Char) : Mode :=
  let (on, off) := letters.span (· ≠ '-')
  let after (letter : Char) (old : Bool) : Bool :=
    on.contains letter || (old && !off.contains letter)
  ⟨after 'x' m.spread, after 'u' m.characters⟩

end Mode

end HeapReel.Pattern
