/-!
# UTF-8

Texts are lists of characters and bytes are lists of octets. `encode` writes a text, `decodeLossy`
reads any bytes at all: every longest piece that begins a character and cannot be completed, and
every octet that begins none, becomes one replacement character. `decode?` accepts exactly the
bytes that some text encodes to.

The reader is a machine that takes one octet at a time, so that what it does on a concatenation is
what it does on the parts as soon as nothing is pending in between; `IsBoundary` names the places
in an encoded text where that is the case.
-/

set_option autoImplicit false

namespace PongFixture

/-- Octets in the order in which they travel. -/
abbrev Bytes := List UInt8

namespace Utf8

/-- The octets of a text. -/
def encode (text : List Char) : Bytes := text.flatMap String.utf8EncodeChar

/-- The octets of a string. -/
def ofString (s : String) : Bytes := encode s.toList

/-- The character that stands for octets which are no text. -/
def replacement : Char := '\uFFFD'

/-- What the octets read so far have left unfinished: nothing, or a character whose bits so far
are `value`, which needs `more + 1` further octets, the next of them from `low` to `high`. -/
inductive Pending
  | idle
  | within (more : Nat) (low high : UInt8) (value : Nat)
  deriving DecidableEq

/-- Reads an octet where a character may begin. The ranges of the second octet keep out
overlong forms, surrogates and values beyond the last character. -/
def lead (b : UInt8) : List Char × Pending :=
  if b < 0x80 then ([Char.ofNat b.toNat], .idle)
  else if b < 0xC2 then ([replacement], .idle)
  else if b < 0xE0 then ([], .within 0 0x80 0xBF (b.toNat - 0xC0))
  else if b = 0xE0 then ([], .within 1 0xA0 0xBF 0)
  else if b = 0xED then ([], .within 1 0x80 0x9F 0xD)
  else if b < 0xF0 then ([], .within 1 0x80 0xBF (b.toNat - 0xE0))
  else if b = 0xF0 then ([], .within 2 0x90 0xBF 0)
  else if b < 0xF4 then ([], .within 2 0x80 0xBF (b.toNat - 0xF0))
  else if b = 0xF4 then ([], .within 2 0x80 0x8F 4)
  else ([replacement], .idle)

/-- Reads one octet: the characters that are now settled, and what is pending afterwards. -/
def step : Pending → UInt8 → List Char × Pending
  | .idle, b => lead b
  | .within more low high value, b =>
    if low ≤ b ∧ b ≤ high then
      match more with
      | 0 => ([Char.ofNat (value * 64 + (b.toNat - 0x80))], .idle)
      | more + 1 => ([], .within more 0x80 0xBF (value * 64 + (b.toNat - 0x80)))
    else
      (replacement :: (lead b).1, (lead b).2)

/-- What is written for a character that the end of the octets cuts off. -/
def settle : Pending → List Char
  | .idle => []
  | .within .. => [replacement]

/-- Reads octets from a given pending state to their end. -/
def decodeFrom : Pending → Bytes → List Char
  | pending, [] => settle pending
  | pending, b :: bytes => (step pending b).1 ++ decodeFrom (step pending b).2 bytes

/-- Reads any octets as text. -/
def decodeLossy (bytes : Bytes) : List Char := decodeFrom .idle bytes

/-- Reads octets as text where they are the encoding of one. -/
def decode? (bytes : Bytes) : Option (List Char) :=
  if encode (decodeLossy bytes) = bytes then some (decodeLossy bytes) else none

/-- The string that any octets are shown as. -/
def display (bytes : Bytes) : String := String.ofList (decodeLossy bytes)

/-- A place between two characters of an encoded text, counted in octets from its beginning. -/
def IsBoundary (text : List Char) (place : Nat) : Prop :=
  ∃ head tail, text = head ++ tail ∧ (encode head).length = place

/-- No text has no octets. -/
@[simp] theorem encode_nil : encode [] = [] := rfl

/-- The octets of a text are those of its first character, then those of the rest. -/
@[simp] theorem encode_cons (c : Char) (text : List Char) :
    encode (c :: text) = String.utf8EncodeChar c ++ encode text := rfl

/-- The octets of a concatenation are the concatenated octets. -/
@[simp] theorem encode_append (head tail : List Char) :
    encode (head ++ tail) = encode head ++ encode tail := by
  simp [encode]

/-- Reading ends with what is pending. -/
@[simp] theorem decodeFrom_nil (pending : Pending) : decodeFrom pending [] = settle pending := rfl

/-- Reading settles what the first octet settles and goes on. -/
theorem decodeFrom_cons (pending : Pending) (b : UInt8) (bytes : Bytes) :
    decodeFrom pending (b :: bytes) =
      (step pending b).1 ++ decodeFrom (step pending b).2 bytes := rfl

/-- Octets that read strictly are shown as the text they encode. -/
theorem encode_of_decode? {bytes : Bytes} {text : List Char} (h : decode? bytes = some text) :
    encode text = bytes := by
  unfold decode? at h
  split at h
  · next same => cases h; exact same
  · cases h

end Utf8

end PongFixture
