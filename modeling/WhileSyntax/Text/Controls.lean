import WhileSyntax.Text.Blank
namespace WhileSyntax.Text

/-! # Control characters and control sequences

A text that is meant for a screen may hold control characters, and sequences of characters that an
escape character begins and a terminal obeys. Where it goes elsewhere they are left out, but for
the controls that are layout. A string goes on until it is ended or the text is. Any other sequence
is interrupted by a layout control: what follows is text again, up to a control that is not layout,
behind which the sequence goes on. A character beyond ASCII ends an interrupted sequence.
-/

/-- Whether the character is an ASCII control. -/
def isControl (c : Char) : Bool :=
  c.toNat < 0x20 || c.toNat = 0x7F

/-- Whether the character is a control that is layout: tab, carriage return, form feed, newline. -/
def isLayoutControl (c : Char) : Bool :=
  isLayout c && isControl c

/-- Whether the code point of the character lies between two others or is one of them. -/
def isWithin (low high : Nat) (c : Char) : Bool :=
  low ≤ c.toNat && c.toNat ≤ high

/-- Whether the character has the byte 9C, which ends a string, in its form in UTF-8. -/
def hasStringEnd (c : Char) : Bool :=
  (String.utf8EncodeChar c).contains 0x9C

/-- Where in a control sequence the next character stands. -/
inductive SequenceState where
  /-- Outside of all sequences. -/
  | outside
  /-- Behind an escape character. -/
  | escaped
  /-- Behind an escape character and marks; one more character ends the sequence. -/
  | marked
  /-- Among the parameters of a control sequence. -/
  | parameters
  /-- At the head of a string for a device. -/
  | deviceHead
  /-- Among the parameters of a string for a device. -/
  | deviceParameters
  /-- Among the marks of a string for a device. -/
  | deviceMarks
  /-- In a string that only the byte 9C ends. -/
  | string
  /-- In a string for the operating system, which a bell ends. -/
  | systemString
  deriving DecidableEq, Repr, Inhabited

namespace SequenceState

/-- Whether a layout control interrupts a sequence here. -/
def isInterruptible : SequenceState → Bool
  | escaped | marked | parameters => true
  | _ => false

/-- The state behind an escape character and one more character. -/
def ofEscaped (c : Char) : SequenceState :=
  if isWithin 0x20 0x2F c then marked
  else if c = '[' then parameters
  else if c = ']' then systemString
  else if c = 'P' then deviceHead
  else if c = 'X' || c = '^' || c = '_' then string
  else if isWithin 0x30 0x7E c then outside
  else escaped

/-- The state behind a character of a sequence. An escape character begins a new sequence wherever
it stands, and the controls for cancelling and for substituting end every sequence. -/
def next (s : SequenceState) (c : Char) : SequenceState :=
  if c = '\x1b' then escaped
  else if c = '\x18' || c = '\x1a' then outside
  else
    match s with
    | outside => outside
    | escaped => ofEscaped c
    | marked => if isWithin 0x30 0x7E c then outside else marked
    | parameters => if isWithin 0x40 0x7E c then outside else parameters
    | deviceHead =>
      if isWithin 0x20 0x2F c then deviceMarks
      else if isWithin 0x30 0x3F c then deviceParameters
      else if isWithin 0x40 0x7E c then string
      else deviceHead
    | deviceParameters =>
      if isWithin 0x20 0x2F c then deviceMarks
      else if isWithin 0x3C 0x7E c then string
      else deviceParameters
    | deviceMarks => if isWithin 0x30 0x7E c then string else deviceMarks
    | string => if hasStringEnd c then outside else string
    | systemString => if c = '\x07' then outside else systemString

end SequenceState

/-- How a text is being read: where in a sequence the next character stands, and whether that
sequence is interrupted, so that the character is text all the same. -/
structure Reading where
  sequence : SequenceState
  interrupted : Bool
  deriving DecidableEq, Repr, Inhabited

namespace Reading

/-- Reading begins outside of all sequences. -/
def start : Reading :=
  ⟨.outside, false⟩

/-- How a text is read behind a character. -/
def next (r : Reading) (c : Char) : Reading :=
  if r.interrupted then
    if isControl c then if isLayout c then r else ⟨r.sequence.next c, false⟩
    else if c.toNat < 0x80 then r
    else start
  else ⟨r.sequence.next c, r.sequence.isInterruptible && isLayoutControl c⟩

/-- Whether a character belongs to the text and not to a control sequence. -/
def keeps (r : Reading) (c : Char) : Bool :=
  if r.interrupted || r.sequence = .outside then isLayout c || !isControl c
  else r.sequence.isInterruptible && isLayoutControl c

end Reading

/-- The text without controls, when it is read on in the given way. -/
def withoutControlsFrom : Reading → List Char → List Char
  | _, [] => []
  | r, c :: cs =>
    if r.keeps c then c :: withoutControlsFrom (r.next c) cs
    else withoutControlsFrom (r.next c) cs

/-- The text without control sequences and without controls other than layout. -/
def withoutControls (cs : List Char) : List Char :=
  withoutControlsFrom .start cs

end WhileSyntax.Text
