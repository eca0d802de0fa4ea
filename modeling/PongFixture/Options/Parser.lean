import PongFixture.Options.Refusal

/-!
# Reading a command line

Arguments are octets and are read in their order. An argument is a long option or flag, a cluster
of letters, the mark after which no option is recognised, or a bare word. An option takes its value
from the same argument or from the next, which must not itself look like an option.

A value from the next argument is examined only when the next option or flag that the program
knows is reached, or the end. So an argument that the program does not know is reported before a
wrong value that stands in front of it.
-/

set_option autoImplicit false

namespace PongFixture.Options

/-- The values chosen so far. -/
structure Chosen where
  config : Option Bytes
  protocol : Option Protocol
  telnetListen : Option String
  sshListen : Option String
  logLevel : Option String
  deriving DecidableEq

namespace Chosen

/-- No values. -/
def empty : Chosen := ⟨none, none, none, none, none⟩

/-- Whether an option has its value. -/
def has (chosen : Chosen) : OptionName → Bool
  | .config => chosen.config.isSome
  | .protocol => chosen.protocol.isSome
  | .telnetListen => chosen.telnetListen.isSome
  | .sshListen => chosen.sshListen.isSome
  | .logLevel => chosen.logLevel.isSome

/-- A value as text. -/
def text (value : Bytes) : Except Refusal String :=
  match Utf8.decode? value with
  | some text => .ok (String.ofList text)
  | none => .error .notText

/-- Gives an option a value that it accepts. -/
def put (chosen : Chosen) (option : OptionName) (value : Bytes) : Except Refusal Chosen :=
  match option with
  | .config =>
    if value = [] then .error (.missingValue .config)
    else .ok { chosen with config := some value }
  | .protocol =>
    if value = [] then .error (.missingValue .protocol)
    else
      match Protocol.ofBytes? value with
      | some protocol => .ok { chosen with protocol := some protocol }
      | none => .error (.invalidProtocol value)
  | .telnetListen => do
    let text ← text value
    return { chosen with telnetListen := some text }
  | .sshListen => do
    let text ← text value
    return { chosen with sshListen := some text }
  | .logLevel => do
    let text ← text value
    return { chosen with logLevel := some text }

/-- Settles an occurrence of an option: it must have a value, be the first, and accept its
value. -/
def settle (chosen : Chosen) (option : OptionName) (value : Option Bytes) :
    Except Refusal Chosen :=
  match value with
  | none => .error (.missingValue option)
  | some value =>
    if chosen.has option then .error (.repeated option) else chosen.put option value

/-- The choices of a whole command line. -/
def toOptions (chosen : Chosen) : Options :=
  ⟨chosen.config, chosen.protocol.getD .all, chosen.telnetListen, chosen.sshListen,
    chosen.logLevel⟩

end Chosen

/-- How far the reading of a command line has come: the values settled, and the option whose value
has not been examined yet, with the value if it has come. -/
structure Progress where
  chosen : Chosen
  pending : Option (OptionName × Option Bytes)
  deriving DecidableEq

namespace Progress

/-- Nothing has been read. -/
def start : Progress := ⟨.empty, none⟩

/-- Examines the pending value. -/
def settle (progress : Progress) : Except Refusal Chosen :=
  match progress.pending with
  | none => .ok progress.chosen
  | some (option, value) => progress.chosen.settle option value

/-- Takes up an option whose value is to come. -/
def await (progress : Progress) (option : OptionName) : Except Refusal Progress := do
  let chosen ← progress.settle
  return ⟨chosen, some (option, none)⟩

/-- Takes up an option together with its value. -/
def give (progress : Progress) (option : OptionName) (value : Bytes) :
    Except Refusal Progress := do
  let chosen ← progress.settle
  let chosen ← chosen.settle option (some value)
  return ⟨chosen, none⟩

/-- Takes up a flag. -/
def ask (progress : Progress) (request : Refusal) : Except Refusal Progress := do
  let _ ← progress.settle
  throw request

/-- Takes up a bare word: the value that is awaited, if one is. -/
def word (progress : Progress) (argument : Bytes) : Except Refusal Progress :=
  match progress.pending with
  | some (option, none) => .ok { progress with pending := some (option, some argument) }
  | _ => .error (.unknownArgument argument)

end Progress

/-- The octet of a character of ASCII. -/
def octet (c : Char) : UInt8 := UInt8.ofNat c.toNat

/-- The octet of a hyphen. -/
def hyphen : UInt8 := octet '-'

/-- The octet of an equals sign. -/
def equalsSign : UInt8 := octet '='

/-- An argument by its form: the mark that ends the options, a long name with an attached value if
there is one, letters after a hyphen, or a bare word. -/
inductive Argument
  | endOfOptions
  | long (name : Bytes) (value : Option Bytes)
  | cluster (letters : Bytes)
  | word (bytes : Bytes)
  deriving DecidableEq

/-- Splits octets at the first equals sign. -/
def splitValue (bytes : Bytes) : Bytes × Option Bytes :=
  match bytes.dropWhile (· != equalsSign) with
  | [] => (bytes, none)
  | _ :: value => (bytes.takeWhile (· != equalsSign), some value)

/-- The form of an argument. A hyphen alone is a word. -/
def Argument.ofBytes (bytes : Bytes) : Argument :=
  match bytes with
  | first :: second :: rest =>
    if first = hyphen then
      if second = hyphen then
        if rest = [] then .endOfOptions else .long (splitValue rest).1 (splitValue rest).2
      else .cluster (second :: rest)
    else .word bytes
  | _ => .word bytes

/-- The option of a long name. -/
def longOption? (name : Bytes) : Option OptionName :=
  OptionName.all.find? fun option => Utf8.ofString option.long == name

/-- The flag of a long name. -/
def longFlag? (name : Bytes) : Option Flag :=
  Flag.all.find? fun flag => Utf8.ofString flag.long == name

/-- The option of a letter. -/
def shortOption? (letter : UInt8) : Option OptionName :=
  OptionName.all.find? fun option => option.short?.map octet == some letter

/-- The flag of a letter. -/
def shortFlag? (letter : UInt8) : Option Flag :=
  Flag.all.find? fun flag => octet flag.short == letter

/-- What a flag asks for, by its long name or by its letter. -/
def Flag.request (long : Bool) : Flag → Refusal
  | .help => .help long
  | .version => .version

/-- The letters of a cluster that are shown when the first of them is unknown: that letter, or all
that is left where the octets are no text. -/
def unknownLetters (letters : Bytes) : Bytes :=
  (([1, 2, 3, 4].map letters.take).find? fun bytes =>
    (Utf8.decode? bytes).any fun text => text.length == 1).getD letters

/-- Reads an argument with a long name. -/
def Progress.takeLong (progress : Progress) (name : Bytes) (value : Option Bytes) :
    Except Refusal Progress :=
  match longOption? name, longFlag? name, value with
  | some option, _, none => progress.await option
  | some option, _, some value => progress.give option value
  | none, some flag, none => progress.ask (Flag.request true flag)
  | none, some flag, some value => .error (.surplusValue flag value)
  | none, none, _ => .error (.unknownArgument (hyphen :: hyphen :: name))

/-- The value that follows a letter in its own argument, without an equals sign before it. -/
def attachedValue (rest : Bytes) : Bytes :=
  match rest with
  | [] => []
  | first :: value => if first = equalsSign then value else rest

/-- Reads a cluster of letters. -/
def Progress.takeCluster (progress : Progress) (letters : Bytes) : Except Refusal Progress :=
  match letters with
  | [] => .ok progress
  | letter :: rest =>
    match shortOption? letter, shortFlag? letter with
    | some option, _ =>
      if rest = [] then progress.await option else progress.give option (attachedValue rest)
    | none, some flag => progress.ask (Flag.request false flag)
    | none, none => .error (.unknownArgument (hyphen :: unknownLetters letters))

/-- Reads the arguments that remain. -/
def parseFrom (progress : Progress) : List Bytes → Except Refusal Chosen
  | [] => progress.settle
  | argument :: arguments =>
    match Argument.ofBytes argument with
    | .endOfOptions =>
      match arguments with
      | [] => progress.settle
      | surplus :: _ => .error (.unknownArgument surplus)
    | .long name value => do
      let progress ← progress.takeLong name value
      parseFrom progress arguments
    | .cluster letters => do
      let progress ← progress.takeCluster letters
      parseFrom progress arguments
    | .word bytes => do
      let progress ← progress.word bytes
      parseFrom progress arguments

/-- Reads a command line without the name of the program. -/
def parse (arguments : List Bytes) : Except Refusal Options :=
  (parseFrom .start arguments).map Chosen.toOptions

/-- An empty command line chooses nothing. -/
@[simp] theorem parse_nil : parse [] = .ok .unchosen := rfl

end PongFixture.Options
