import PongFixture.Text.Utf8

/-!
# Text without control sequences

A terminal takes parts of a text as orders: single control characters, and sequences that an escape
character begins. `strip` leaves both out, so that what a text quotes cannot give orders. White
space is no order; it stays, and it breaks off a sequence that it stands in, unless the sequence
carries a string. A sequence that the text does not complete goes on to its end.

The reader is a machine that takes one character at a time and says whether it is shown.
-/

set_option autoImplicit false

namespace PongFixture.ControlSequence

/-- What the text is in the middle of: nothing; an escape character alone, or with characters that
wait for its last one; the parameters of a control sequence; a command that a bell ends; the head
of a device control string, by what it has come to; or a string that is thrown away. -/
inductive State
  | plain
  | escape
  | escapePart
  | parameters
  | command
  | device
  | deviceParameters
  | devicePart
  | string
  deriving DecidableEq

/-- White space among the control characters. -/
def isLayout (c : Char) : Bool := c == '\t' || c == '\n' || c == '\x0c' || c == '\r'

/-- Whether a character outside of sequences is shown: all but controls, white space excepted. -/
def isVisible (c : Char) : Bool := (' ' ≤ c && c != '\x7f') || isLayout c

/-- Whether a character lies in a range. -/
def between (first last c : Char) : Bool := first ≤ c && c ≤ last

/-- The octet that ends a string. -/
def terminator : UInt8 := 0x9C

/-- Whether a character ends a string: one beyond ASCII with the terminator among its octets. -/
def endsString (c : Char) : Bool := '\x7f' < c && (Utf8.encode [c]).contains terminator

namespace State

/-- The state after an escape character and one more. -/
def afterEscape (c : Char) : State :=
  if c = '[' then .parameters
  else if c = ']' then .command
  else if c = 'P' then .device
  else if c = 'X' ∨ c = '^' ∨ c = '_' then .string
  else if between ' ' '/' c then .escapePart
  else if between '0' '~' c then .plain
  else .escape

/-- The state after a character that neither begins nor cancels a sequence. -/
def next (c : Char) : State → State
  | .plain => .plain
  | .escape => afterEscape c
  | .escapePart => if between '0' '~' c then .plain else .escapePart
  | .parameters => if between '@' '~' c then .plain else .parameters
  | .command => if c = '\x07' then .plain else .command
  | .device =>
    if between ' ' '/' c then .devicePart
    else if between '0' '?' c then .deviceParameters
    else if between '@' '~' c then .string
    else .device
  | .deviceParameters =>
    if between ' ' '/' c then .devicePart
    else if between '<' '~' c then .string
    else .deviceParameters
  | .devicePart => if between '0' '~' c then .string else .devicePart
  | .string => if endsString c then .plain else .string

/-- Whether white space breaks off what the text is in the middle of. -/
def breaksOff : State → Bool
  | .escape => true
  | .escapePart => true
  | .parameters => true
  | _ => false

/-- The state after a character, and whether the character is shown. An escape character begins a
sequence in every state, and two controls cancel whatever has begun. -/
def step (c : Char) (state : State) : State × Bool :=
  if c = '\x1b' then (.escape, false)
  else if c = '\x18' ∨ c = '\x1a' then (.plain, false)
  else if state.breaksOff ∧ isLayout c then (.plain, true)
  else (state.next c, state = .plain && isVisible c)

end State

/-- What is shown of a text from a state on. -/
def stripFrom : State → List Char → List Char
  | _, [] => []
  | state, c :: text =>
    (if (state.step c).2 then [c] else []) ++ stripFrom (state.step c).1 text

/-- What is shown of a text. -/
def strip (text : List Char) : List Char := stripFrom .plain text

/-- The string that any octets are shown as, without control sequences. -/
def display (bytes : Bytes) : String := String.ofList (strip (Utf8.decodeLossy bytes))

end PongFixture.ControlSequence
