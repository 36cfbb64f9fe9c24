/-
What a filter may ask of a field.

A field is asked for by name, and after an equals sign comes what its value should be: a
pattern, or a number.  A number without a sign or with a minus sign is a pattern as well, so
only a plus sign tells a number from a pattern.
-/
import HeapReel.Numeral
import HeapReel.Pattern

namespace HeapReel

/-- A field that a directive asks for. -/
structure Condition where
  field : String
  /-- What the value should be; it has to be there, if this is absent. -/
  value : Option (List Char) := none
  deriving Repr, DecidableEq

namespace Condition

/-- The text is a power of ten after the digits of a number, or empty. -/
def isPower : List Char → Bool
  | [] => true
  | c :: rest =>
      let digits := if rest.head? = some '+' ∨ rest.head? = some '-' then rest.tail else rest
      c.toLower = 'e' && (Numeral.readNat? digits).isSome

/-- The text is a number without a sign: digits around at most one point and maybe a power of
ten, or a name for what is no finite number. -/
def isUnsigned (text : List Char) : Bool :=
  let (whole, rest) := text.span Char.isDigit
  let (part, rest) := if rest.head? = some '.' then rest.tail.span Char.isDigit else ([], rest)
  ["inf", "infinity", "nan"].contains (String.ofList (text.map Char.toLower))
    || ((!whole.isEmpty || !part.isEmpty) && isPower rest)

/-- The text says what a value should be. -/
def isValue : List Char → Bool
  | '+' :: rest => isUnsigned rest
  | text => Pattern.isPattern text

/-- Reads a field and its value.  A second equals sign and what follows it are ignored. -/
def read? (text : List Char) : Option Condition :=
  let (name, rest) := text.span (· ≠ '=')
  let field := String.ofList name
  match rest with
  | [] => some { field }
  | _ :: rest =>
      let value := rest.takeWhile (· ≠ '=')
      if isValue value then some { field, value := some value } else none

end Condition

end HeapReel
