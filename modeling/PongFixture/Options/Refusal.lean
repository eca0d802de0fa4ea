import PongFixture.Options.Basic
import PongFixture.Text.ControlSequence

/-!
# Why a command line does not start the program

A command line is refused for a reason, or it asks for the help or the version instead. Each cause
has its text and its exit code: two for a refusal, zero for a text that was asked for. What a text
quotes of the command line is stripped of control sequences.
-/

set_option autoImplicit false

namespace PongFixture.Options

/-- Why a command line does not start the program. -/
inductive Refusal
  | unknownArgument (argument : Bytes)
  | missingValue (option : OptionName)
  | invalidProtocol (value : Bytes)
  | repeated (option : OptionName)
  | notText
  | surplusValue (flag : Flag) (value : Bytes)
  | help (long : Bool)
  | version
  deriving DecidableEq

/-- The name and version of the program. -/
def versionText : String := "pong-server 0.1.0\n"

/-- A text with spaces up to a width. -/
def pad (width : Nat) (text : String) : String :=
  text ++ String.ofList (List.replicate (width - text.length) ' ')

/-- The choices of a protocol, as a list in brackets. -/
def choiceList : String :=
  "[possible values: " ++
    String.intercalate ", " (Protocol.choices.map Protocol.name) ++ "]"

/-- The head of both help texts. -/
def helpHead : String :=
  "Telnet and SSH test servers that answer pong\n\nUsage: pong-server [OPTIONS]\n\nOptions:\n"

/-- An option in a list: its letter, its long name and its value. -/
def optionSpelling (option : OptionName) : String :=
  match option.short? with
  | some c => "-" ++ String.ofList [c] ++ ", " ++ option.usage
  | none => "    " ++ option.usage

/-- What the short help says of an option. -/
def shortSummary (option : OptionName) : String :=
  match option with
  | .protocol => option.summary ++ " [default: " ++ Protocol.name .all ++ "] " ++ choiceList
  | option => option.summary

/-- A line of the short help. -/
def shortLine (spelling summary : String) : String := "  " ++ pad 37 spelling ++ summary ++ "\n"

/-- The short help. -/
def shortHelp : String :=
  helpHead ++
    String.join (OptionName.all.map fun o => shortLine (optionSpelling o) (shortSummary o)) ++
    shortLine "-h, --help" "Print help (see more with '--help')" ++
    shortLine "-V, --version" "Print version"

/-- What the long help says of an option. -/
def longSummary (option : OptionName) : String :=
  let indent := "          "
  match option with
  | .protocol =>
    indent ++ option.summary ++ "\n\n" ++ indent ++ "Possible values:\n" ++
      String.join (Protocol.choices.map fun p =>
        indent ++ "- " ++ pad 8 (p.name ++ ":") ++ p.summary ++ "\n") ++
      indent ++ "\n" ++ indent ++ "[default: " ++ Protocol.name .all ++ "]\n"
  | option => indent ++ option.summary ++ "\n"

/-- The long help. -/
def longHelp : String :=
  helpHead ++
    String.intercalate "\n"
      ((OptionName.all.map fun o => "  " ++ optionSpelling o ++ "\n" ++ longSummary o) ++
        ["  -h, --help\n          Print help (see a summary with '-h')\n",
         "  -V, --version\n          Print version\n"])

/-- The text of a refusal. -/
def Refusal.message : Refusal → String
  | .unknownArgument argument =>
    "error: unexpected argument '" ++ ControlSequence.display argument ++ "' found"
  | .missingValue option =>
    "error: a value is required for '" ++ option.usage ++ "' but none was supplied" ++
      (if option = .protocol then "\n  " ++ choiceList else "")
  | .invalidProtocol value =>
    "error: invalid value '" ++ ControlSequence.display value ++ "' for '" ++ OptionName.usage .protocol ++
      "'\n  " ++ choiceList
  | .repeated option =>
    "error: the argument '" ++ option.usage ++ "' cannot be used multiple times"
  | .notText => "error: invalid UTF-8 was detected in one or more arguments"
  | .surplusValue flag value =>
    "error: unexpected value '" ++ ControlSequence.display value ++ "' for '--" ++ flag.long ++
      "' found; no more were expected"
  | .help true => longHelp
  | .help false => shortHelp
  | .version => versionText

/-- Whether a text was asked for. -/
def Refusal.isRequest : Refusal → Bool
  | .help _ => true
  | .version => true
  | _ => false

/-- The exit code of a program that does not start for a cause. -/
def Refusal.exitCode (refusal : Refusal) : Nat := if refusal.isRequest then 0 else 2

end PongFixture.Options
