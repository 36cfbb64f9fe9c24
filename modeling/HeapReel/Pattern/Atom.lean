/-
The smallest parts of patterns.

An atom is a character that stands for itself, a set of characters with a short name, or a
condition on the place.  Most atoms are written with a backslash, and a backslash before any
ASCII character that is no letter, no digit and no angle bracket takes its meaning away.
-/
import HeapReel.Pattern.Mode

namespace HeapReel.Pattern

/-- A part of a pattern that holds no other part. -/
inductive Atom where
  /-- A character that stands for itself. -/
  | literal (c : Char)
  /-- A byte, written with two digits. -/
  | byte (n : Nat)
  /-- Any character. -/
  | any
  /-- The digits, blanks or word characters, or all others. -/
  | set (negated : Bool)
  /-- The characters of a general kind. -/
  | kind
  /-- A start or an end. -/
  | edge
  /-- The place between a word and something else. -/
  | wordEdge
  deriving Repr, DecidableEq

namespace Atom

/-- The code point that the atom stands for. -/
def code? : Atom → Option Nat
  | literal c => some c.toNat
  | byte n => some n
  | _ => none

/-- The atom can be part of a pattern.  Where bytes are matched, it must not match half of a
character, and only there is a word edge known. -/
def fits (m : Mode) : Atom → Bool
  | literal _ | edge => true
  | byte n => m.characters || n < 0x80
  | any | kind => m.characters
  | set negated => m.characters || !negated
  | wordEdge => !m.characters

/-- The atom can be an item of a class. -/
def fitsClass (m : Mode) : Atom → Bool
  | literal c => m.characters || c.toNat < 0x80
  | byte n => m.characters || n < 0x80
  | kind => m.characters
  | set negated => m.characters || !negated
  | any | edge | wordEdge => false

/-! ### Reading -/

/-- The value of a hexadecimal digit. -/
def digit? (c : Char) : Option Nat :=
  if c.isDigit then some (c.toNat - '0'.toNat)
  else if 'a' ≤ c ∧ c ≤ 'f' then some (c.toNat - 'a'.toNat + 10)
  else if 'A' ≤ c ∧ c ≤ 'F' then some (c.toNat - 'A'.toNat + 10)
  else none

/-- Reads this many hexadecimal digits, which continue a value. -/
def readDigits? (m : Mode) : Nat → Nat → List Char → Option (Nat × List Char)
  | 0, value, text => some (value, text)
  | places + 1, value, text =>
      match m.skip text with
      | c :: rest => do readDigits? m places (16 * value + (← digit? c)) rest
      | [] => none

/-- Reads the code point of a character. -/
def readCode? (m : Mode) (places : Nat) (text : List Char) : Option (Atom × List Char) := do
  let (n, rest) ← readDigits? m places 0 text
  if n.isValidChar then some (literal (Char.ofNat n), rest) else none

/-- Reads what follows a backslash. -/
def readEscape? (m : Mode) : List Char → Option (Atom × List Char)
  | [] => none
  | c :: rest =>
      match c with
      | 'x' => (readDigits? m 2 0 rest).map fun (n, rest) => (byte n, rest)
      | 'u' => readCode? m 4 rest
      | 'U' => readCode? m 8 rest
      | 'p' | 'P' =>
          match m.skip rest with
          | letter :: rest =>
              if "clmnpsz".toList.contains letter.toLower then some (kind, rest) else none
          | [] => none
      | 'd' | 's' | 'w' => some (set false, rest)
      | 'D' | 'S' | 'W' => some (set true, rest)
      | 'A' | 'z' => some (edge, rest)
      | 'b' | 'B' | '<' | '>' => some (wordEdge, rest)
      | 'a' => some (literal '\x07', rest)
      | 'f' => some (literal '\x0c', rest)
      | 't' => some (literal '\t', rest)
      | 'n' => some (literal '\n', rest)
      | 'r' => some (literal '\r', rest)
      | 'v' => some (literal '\x0b', rest)
      | c => if c.toNat < 0x80 && !c.isAlphanum then some (literal c, rest) else none

/-- Reads an atom outside classes. -/
def read? (m : Mode) : List Char → Option (Atom × List Char)
  | [] => none
  | '\\' :: rest => readEscape? m rest
  | '.' :: rest => some (any, rest)
  | '^' :: rest | '$' :: rest => some (edge, rest)
  | c :: rest => some (literal c, rest)

/-- Reads an item of a class. -/
def readItem? (m : Mode) : List Char → Option (Atom × List Char)
  | [] => none
  | '\\' :: rest => readEscape? m rest
  | c :: rest => some (literal c, rest)

end Atom

end HeapReel.Pattern
