/-
Events of a heap log.

An event allocates or frees the `size` address units that start at `offset`.  Both numbers
are integers of either sign: a log may hold anything that was written into it, and whether
a range makes sense is for the later stages to say.

Every event adds the same number to each unit that it covers, `+1` for an allocation and
`-1` for a free.  The label is the line of text that a frame shows under the grid.
-/
import HeapReel.Numeral

namespace HeapReel

/-- What happened to a range of address units. -/
inductive Action where
  | alloc
  | free
  deriving Repr, DecidableEq

namespace Action

/-- The action that a log writes as the sign `text`. -/
def ofSign? (text : List Char) : Option Action :=
  if text = ['+'] then some .alloc else if text = ['-'] then some .free else none

/-- The sign that a log writes for the action. -/
def sign : Action → Char
  | .alloc => '+'
  | .free => '-'

/-- What the action adds to the counter of a unit. -/
def change : Action → Int
  | .alloc => 1
  | .free => -1

/-- The name of the action on a label. -/
def name : Action → String
  | .alloc => "alloc"
  | .free => "free"

@[simp] theorem ofSign?_sign (a : Action) : ofSign? [a.sign] = some a := by
  cases a <;> rfl

end Action

/-- An allocation or a free of the units from `offset` up to `offset + size`. -/
structure Event where
  action : Action
  offset : Int
  size : Int
  deriving Repr, DecidableEq

namespace Event

/-- The first offset past the range. -/
def stop (e : Event) : Int :=
  e.offset + e.size

/-- Both numbers fit the words that a log may hold. -/
def FitsWords (e : Event) : Prop :=
  Numeral.FitsWord e.offset ∧ Numeral.FitsWord e.size

/-- The label: the name filled up to five columns, the offset in hexadecimal with at least
eight digits and its sign in front, and the size in decimal. -/
def label (e : Event) : String :=
  String.ofList <|
    e.action.name.toList.rightpad 5 ' ' ++ [' ']
      ++ (if e.offset < 0 then ['-'] else []) ++ ['0', 'x']
      ++ Numeral.hexadecimal 8 e.offset.natAbs
      ++ [' ', ':', ' '] ++ Numeral.decimal e.size

end Event

end HeapReel
