import PongFixture.Options.Parser

/-!
# Writing a command line

An option with its value can be spelled in several ways. `Occurrence.render` writes one in a given
spelling, `Occurrence.Spellable` says which spellings a value allows, and `render` writes a whole
command line. It is the way back from what `parse` reads.
-/

set_option autoImplicit false

namespace PongFixture.Options

/-- The ways to write an option: its long name or its letter, with the value in the next
argument, after an equals sign, or right after the letter. -/
inductive Spelling
  | longSeparate
  | longEquals
  | shortSeparate
  | shortEquals
  | shortAttached
  deriving DecidableEq

/-- An option with a value, in a spelling. -/
structure Occurrence where
  option : OptionName
  value : Bytes
  spelling : Spelling
  deriving DecidableEq

/-- Whether octets are read as a word: they do not begin with a hyphen, or are one alone. -/
def IsWord (bytes : Bytes) : Prop := bytes.head? ≠ some hyphen ∨ bytes = [hyphen]

namespace Occurrence

/-- The long name with its hyphens. -/
def longName (occurrence : Occurrence) : Bytes :=
  hyphen :: hyphen :: Utf8.ofString occurrence.option.long

/-- The letter with its hyphen. -/
def letterName (occurrence : Occurrence) : Bytes :=
  hyphen :: (occurrence.option.short?.map octet).toList

/-- The arguments of an occurrence. -/
def render (occurrence : Occurrence) : List Bytes :=
  match occurrence.spelling with
  | .longSeparate => [occurrence.longName, occurrence.value]
  | .longEquals => [occurrence.longName ++ equalsSign :: occurrence.value]
  | .shortSeparate => [occurrence.letterName, occurrence.value]
  | .shortEquals => [occurrence.letterName ++ equalsSign :: occurrence.value]
  | .shortAttached => [occurrence.letterName ++ occurrence.value]

/-- Whether a value can be written in a spelling: an option without a letter has no short ones,
what stands in an argument of its own must be a word, and what follows a letter directly must be
there and not begin with an equals sign. -/
def Spellable (occurrence : Occurrence) : Prop :=
  match occurrence.spelling with
  | .longSeparate => IsWord occurrence.value
  | .longEquals => True
  | .shortSeparate => occurrence.option.short?.isSome ∧ IsWord occurrence.value
  | .shortEquals => occurrence.option.short?.isSome
  | .shortAttached =>
    occurrence.option.short?.isSome ∧ occurrence.value ≠ [] ∧
      occurrence.value.head? ≠ some equalsSign

/-- Whether an option takes a value. -/
def Valid (occurrence : Occurrence) : Prop :=
  match occurrence.option with
  | .config => occurrence.value ≠ []
  | .protocol => (Protocol.ofBytes? occurrence.value).isSome
  | _ => (Utf8.decode? occurrence.value).isSome

end Occurrence

/-- The arguments of several occurrences in their order. -/
def render (occurrences : List Occurrence) : List Bytes := occurrences.flatMap Occurrence.render

/-- The value that occurrences give to an option. -/
def valueOf? (occurrences : List Occurrence) (option : OptionName) : Option Bytes :=
  (occurrences.find? fun occurrence => occurrence.option == option).map Occurrence.value

/-- The text of a value, where there is one. -/
def textOf? (value : Option Bytes) : Option String := value.map Utf8.display

/-- The choices that occurrences spell out. -/
def denoted (occurrences : List Occurrence) : Options :=
  { config := valueOf? occurrences .config
    protocol := ((valueOf? occurrences .protocol).bind Protocol.ofBytes?).getD .all
    telnetListen := textOf? (valueOf? occurrences .telnetListen)
    sshListen := textOf? (valueOf? occurrences .sshListen)
    logLevel := textOf? (valueOf? occurrences .logLevel) }

/-- Occurrences in sequence are written in sequence. -/
@[simp] theorem render_append (first second : List Occurrence) :
    render (first ++ second) = render first ++ render second := by
  simp [render]

end PongFixture.Options
