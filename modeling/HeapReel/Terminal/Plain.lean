/-
Text without the controls of a terminal.

An escape starts a control sequence; what may follow and where it ends depends on how it goes
on.  Nothing of a sequence is kept, and neither are control characters, except for the ASCII
blanks.  A sequence that does not end takes the rest of the text with it.

A blank inside a sequence is shown, and the text after it is shown as well up to the next
control character; there the sequence goes on.  A character beyond ASCII in that text ends
the sequence.
-/

namespace HeapReel.Terminal

/-- Where in a control sequence a text is. -/
inductive Control where
  /-- In no sequence. -/
  | outside
  /-- After an escape. -/
  | escape
  /-- After an escape and a mark for a set of commands. -/
  | escapeMark
  /-- At the start of a command. -/
  | command
  /-- In the numbers of a command. -/
  | commandNumbers
  /-- In the marks after the numbers of a command. -/
  | commandMarks
  /-- In a command that is not understood. -/
  | commandIgnored
  /-- At the start of a device string. -/
  | device
  /-- In the numbers of a device string. -/
  | deviceNumbers
  /-- In the marks after the numbers of a device string. -/
  | deviceMarks
  /-- In the text of a string for a device, or of one that nothing reads. -/
  | deviceText
  /-- In a string for the system, such as a title. -/
  | systemText
  deriving Repr, DecidableEq

namespace Control

/-- The byte lies in the range. -/
def within (b : UInt8) (first last : Nat) : Bool :=
  first ≤ b.toNat && b.toNat ≤ last

/-- Where a text is after a byte that is not shown. -/
def next (s : Control) (b : UInt8) : Control :=
  if b = 0x1b then escape
  else if b = 0x18 ∨ b = 0x1a then outside
  else
    match s with
    | outside => outside
    | escape =>
        if b = 0x5b then command
        else if b = 0x5d then systemText
        else if b = 0x50 then device
        else if b = 0x58 ∨ b = 0x5e ∨ b = 0x5f then deviceText
        else if within b 0x20 0x2f then escapeMark
        else if within b 0x30 0x7e then outside
        else s
    | escapeMark => if within b 0x30 0x7e then outside else s
    | command =>
        if within b 0x20 0x2f then commandMarks
        else if within b 0x30 0x3f then commandNumbers
        else if within b 0x40 0x7e then outside
        else s
    | commandNumbers =>
        if within b 0x20 0x2f then commandMarks
        else if within b 0x3c 0x3f then commandIgnored
        else if within b 0x40 0x7e then outside
        else s
    | commandMarks =>
        if within b 0x30 0x3f then commandIgnored
        else if within b 0x40 0x7e then outside
        else s
    | commandIgnored => if within b 0x40 0x7e then outside else s
    | device =>
        if within b 0x20 0x2f then deviceMarks
        else if within b 0x30 0x3f then deviceNumbers
        else if within b 0x40 0x7e then deviceText
        else s
    | deviceNumbers =>
        if within b 0x20 0x2f then deviceMarks
        else if within b 0x3c 0x7e then deviceText
        else s
    | deviceMarks => if within b 0x30 0x7e then deviceText else s
    | deviceText => if b = 0x9c then outside else s
    | systemText => if b = 0x07 then outside else s

/-- The byte is an ASCII blank other than the space. -/
def isLayout (b : UInt8) : Bool :=
  b = 0x09 || b = 0x0a || b = 0x0c || b = 0x0d

/-- The byte ends the silence: a sequence lets nothing show but layout, and strings not even
that. -/
def shows (s : Control) (b : UInt8) : Bool :=
  match s with
  | outside => within b 0x20 0x7e || within b 0xc2 0xf4 || isLayout b
  | escape | escapeMark | command | commandNumbers | commandMarks | commandIgnored => isLayout b
  | device | deviceNumbers | deviceMarks | deviceText | systemText => false

/-- The byte is shown after one that was. -/
def continues (b : UInt8) : Bool :=
  within b 0x20 0x7e || 0x80 ≤ b || isLayout b

end Control

/-- The bytes that are shown, from some place in a sequence on.  `shown` tells whether the
byte before was. -/
def plainBytes (shown : Bool) (s : Control) : List UInt8 → List UInt8
  | [] => []
  | b :: rest =>
      if if shown then Control.continues b else s.shows b then
        b :: plainBytes true (if 0x80 ≤ b then .outside else s) rest
      else plainBytes false (s.next b) rest

/-- The text that a terminal shows of a text. -/
def plain (text : String) : String :=
  (String.fromUTF8? ⟨(plainBytes false .outside text.toUTF8.data.toList).toArray⟩).getD ""

end HeapReel.Terminal
