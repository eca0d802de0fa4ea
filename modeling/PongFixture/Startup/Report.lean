import PongFixture.Startup.Launch
import PongFixture.Log.Line
import PongFixture.Text.QuotedPath

/-!
# What the program writes

A program that starts writes its log to the standard output, and keeps running or ends with a
report on the standard error. One that is refused by its command line writes the refusal, or the
text that was asked for, and nothing else. A report shows the parts of a failure: paths and texts
in quotes, kinds and numbers as they are.
-/

set_option autoImplicit false

namespace PongFixture

/-- The parts of a fault. -/
def Fault.describe (fault : Fault) : String :=
  match fault.code with
  | some code =>
    "Os \x7b code: " ++ toString code ++ ", kind: " ++ fault.kind.name ++
      ", message: " ++ Quoted.ofString fault.text ++ " \x7d"
  | none =>
    "Error \x7b kind: " ++ fault.kind.name ++ ", message: " ++ Quoted.ofString fault.text ++ " \x7d"

/-- The parts of an error in the settings: the path, and of a value of the wrong kind the complaint
about it. -/
def Settings.ConfigError.describe : Settings.ConfigError → String
  | .unreadable path fault => "FileRead(" ++ Quoted.ofPath path ++ ", " ++ fault.describe ++ ")"
  | .malformed path => "TomlParse(" ++ Quoted.ofPath path ++ ")"
  | .mismatched path text mismatch =>
    "TomlParse(" ++ Quoted.ofPath path ++ ", " ++ Quoted.ofString (mismatch.print text) ++ ")"
  | .invalidAddress text =>
    "InvalidAddress(" ++ Quoted.ofString text ++ ", AddrParseError(Socket))"

namespace Startup

/-- What a failure is reported as. -/
def Failure.report : Failure → String
  | .commandLine refusal => refusal.message
  | .settings error => "Error: " ++ error.describe
  | .bind fault => "Error: " ++ fault.describe

/-- What a program has written, and how it has ended, unless it is running. -/
structure Console where
  exit : Option Nat
  output : String
  errors : String
  deriving DecidableEq

/-- Lines, each with its end. -/
def unlines (lines : List String) : String := String.join (lines.map fun line => line ++ "\n")

/-- What a program writes that fails before it has a log. -/
def Failure.console (failure : Failure) : Console :=
  match failure with
  | .commandLine refusal =>
    if refusal.isRequest then ⟨some failure.exitCode, failure.report, ""⟩
    else ⟨some failure.exitCode, "", unlines [failure.report]⟩
  | _ => ⟨some failure.exitCode, "", unlines [failure.report]⟩

/-- What a program writes, where the environment may ask for a filter. -/
def console (surroundings : Surroundings) (environment : Option Bytes) (arguments : List Bytes) :
    Console :=
  match configure surroundings arguments with
  | .error failure => failure.console
  | .ok settings =>
    let launched := launch surroundings settings
    { exit := launched.failure.map Failure.exitCode
      output := unlines
        (Log.lines (Log.Filter.choose environment settings.logLevel) launched.events)
      errors := unlines
        (Log.Filter.grumbles environment settings.logLevel ++
          launched.failure.toList.map Failure.report) }

end Startup

end PongFixture
