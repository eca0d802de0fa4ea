import PongFixture.Log.Event
import PongFixture.Text.Blank
import PongFixture.Text.Numeral

/-!
# Filter directives

A directive says how much of what is let through. In its simplest form it is a limit, by name or
number. Otherwise it names a target, a span in brackets, or both, and may end with an equals sign
and a limit; without a limit it lets everything through. A span may name fields in braces, and a
field a value.

A word that is no limit is a target. Blanks around a directive belong to such a word, and spoil a
limit that follows an equals sign.
-/

set_option autoImplicit false

namespace PongFixture.Log

/-- How much is let through: nothing, or everything up to a level. -/
inductive Limit
  | off
  | upTo (level : Level)
  deriving DecidableEq

namespace Limit

/-- How verbose a log under a limit is. -/
def verbosity : Limit → Nat
  | .off => 0
  | .upTo level => level.verbosity

/-- Whether a limit lets a level through. -/
def admits (limit : Limit) (level : Level) : Bool := decide (level.verbosity ≤ limit.verbosity)

/-- The name of a limit. -/
def name : Limit → String
  | .off => "off"
  | .upTo .error => "error"
  | .upTo .warn => "warn"
  | .upTo .info => "info"
  | .upTo .debug => "debug"
  | .upTo .trace => "trace"

/-- All limits. Each has its place in the list as its number. -/
def all : List Limit := [.off, .upTo .error, .upTo .warn, .upTo .info, .upTo .debug, .upTo .trace]

/-- The limit of a number in decimal digits, which may follow a plus sign. -/
def ofNumber? (text : List Char) : Option Limit :=
  let digits := if text.head? = some '+' then text.tail else text
  if digits ≠ [] ∧ digits.all (Numeral.isDigit 10) then all[Numeral.value 10 digits]? else none

/-- The limit of a name, in letters of either case. -/
def ofName? (text : List Char) : Option Limit :=
  all.find? fun limit => limit.name.toList == text.map Char.toLower

/-- The limit that a text tells, by number or by name. -/
def parse? (text : List Char) : Option Limit := (ofNumber? text).or (ofName? text)

end Limit

/-- A field that a directive asks for, possibly with a certain value. -/
structure FieldQuery where
  name : String
  value : Option String
  deriving DecidableEq

/-- A directive: the target and the span it is about, the fields it asks for, and its limit. -/
structure Directive where
  target : Option String
  span : Option String
  fields : List FieldQuery
  limit : Limit
  deriving DecidableEq

/-- Why a text is no directive: by its form, or because of what should be its limit. -/
inductive DirectiveError
  | malformed
  | badLimit
  deriving DecidableEq

/-- The text of an error. -/
def DirectiveError.message : DirectiveError → String
  | .malformed => "invalid filter directive"
  | .badLimit =>
    "error parsing level filter: expected one of \"off\", \"error\", \"warn\", \"info\", " ++
      "\"debug\", \"trace\", or a number 0-5"

namespace Directive

/-- Whether a directive may begin with a character. Letters and digits are told apart from other
characters within ASCII only. -/
def isWordStart (c : Char) : Bool :=
  c == '-' || c == ':' || c == '_' || c.isAlphanum || 0x80 ≤ c.toNat

/-- A directive that is a single word: a limit for everything, or a target without a limit. -/
def ofWord (word : List Char) : Directive :=
  match Limit.parse? word with
  | some limit => ⟨none, none, [], limit⟩
  | none => ⟨some (String.ofList word), none, [], .upTo .trace⟩

/-- The limit after an equals sign. An empty one lets everything through. -/
def readLimit (isBare : Bool) (text : List Char) : Except DirectiveError Limit :=
  if !isBare then .error .badLimit
  else if text = [] then .ok (.upTo .trace)
  else match Limit.parse? text with
    | some limit => .ok limit
    | none => .error .badLimit

/-- A field, with what follows an equals sign as its value. -/
def readField (text : List Char) : FieldQuery :=
  match text.dropWhile (· != '=') with
  | [] => ⟨String.ofList text, none⟩
  | _ :: value =>
    ⟨String.ofList (text.takeWhile (· != '=')), some (String.ofList (value.takeWhile (· != '=')))⟩

/-- The end of a directive, after its span. -/
def readEnd (isBare : Bool) (target span : Option String) (fields : List FieldQuery) :
    List Char → Except DirectiveError Directive
  | [] => .ok ⟨target, span, fields, .upTo .trace⟩
  | '=' :: text => (readLimit isBare text).map fun limit => ⟨target, span, fields, limit⟩
  | _ => .error .malformed

/-- The rest of a directive after an opening bracket. -/
def readSpan (isBare : Bool) (target : Option String) (text : List Char) :
    Except DirectiveError Directive :=
  let inside := fun c => c != ']' && c != '\x7b'
  let name := text.takeWhile inside
  match text.dropWhile inside with
  | ']' :: rest => readEnd isBare target (some (String.ofList name)) [] rest
  | _ :: rest =>
    let span := if name = [] then none else some (String.ofList name)
    let field := rest.takeWhile (· != '\x7d')
    match rest.dropWhile (· != '\x7d') with
    | _ :: ']' :: rest =>
      if field = [] then .error .malformed
      else readEnd isBare target span [readField field] rest
    | _ => .error .malformed
  | [] => .error .malformed

/-- Reads a directive. -/
def parse (text : List Char) : Except DirectiveError Directive :=
  let bare := Blank.trim text
  let isBare := decide (bare = text)
  let inWord := fun c => c != '=' && c != '['
  match bare with
  | [] => .error .malformed
  | '[' :: rest => readSpan isBare none rest
  | c :: _ =>
    if isWordStart c then
      let target := some (String.ofList (bare.takeWhile inWord))
      match bare.dropWhile inWord with
      | [] => .ok (ofWord text)
      | '=' :: limit => (readLimit isBare limit).map fun limit => ⟨target, none, [], limit⟩
      | _ :: rest => readSpan isBare target rest
    else .error .malformed

end Directive

/-- The pieces of a text between its commas. -/
def pieces : List Char → List (List Char)
  | [] => [[]]
  | c :: text =>
    if c = ',' then [] :: pieces text
    else match pieces text with
      | [] => [[c]]
      | piece :: others => (c :: piece) :: others

/-- Reads directives that must all be well-formed. No text at all holds none. -/
def parseAll (text : List Char) : Except DirectiveError (List Directive) :=
  if text = [] then .ok [] else (pieces text).mapM Directive.parse

/-- Reads the directives that are well-formed, and passes over the others. -/
def parseValid (text : List Char) : List Directive :=
  (pieces text).filterMap fun piece => (Directive.parse piece).toOption

/-- The complaints about the directives that are passed over. Empty ones cause none. -/
def complaints (text : List Char) : List String :=
  (pieces text).filterMap fun piece =>
    match piece, Directive.parse piece with
    | [], _ => none
    | _, .ok _ => none
    | _, .error error => some ("ignoring `" ++ String.ofList piece ++ "`: " ++ error.message)

/-- A text has one piece more than it has commas. -/
theorem length_pieces (text : List Char) : (pieces text).length = text.count ',' + 1 := by
  induction text with
  | nil => rfl
  | cons c text ih =>
    unfold pieces
    split
    · next comma => simp [comma, ih]
    · next other =>
      split
      · next none => simp [none] at ih
      · next piece others some => simp_all

/-- The name of every limit tells that limit. -/
theorem parse?_name (limit : Limit) : Limit.parse? limit.name.toList = some limit := by
  cases limit with
  | off => decide +kernel
  | upTo level => cases level <;> decide +kernel

end PongFixture.Log
