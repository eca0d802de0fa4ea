import PongFixture.Text.Utf8

/-!
# The options of the command line

Five options take a value each, two flags ask for a text. A command line chooses for every option
a value or none; the protocol that is served when none is chosen is both.
-/

set_option autoImplicit false

namespace PongFixture

/-- Which fixtures are to run. -/
inductive Protocol
  | telnet
  | ssh
  | all
  deriving DecidableEq

namespace Protocol

/-- Whether the telnet fixture is to run. -/
def runsTelnet : Protocol → Bool
  | .telnet => true
  | .ssh => false
  | .all => true

/-- Whether the SSH fixture is to run. -/
def runsSsh : Protocol → Bool
  | .telnet => false
  | .ssh => true
  | .all => true

/-- How a choice is written on the command line. -/
def name : Protocol → String
  | .telnet => "telnet"
  | .ssh => "ssh"
  | .all => "all"

/-- How a choice is shown in the log. -/
def label : Protocol → String
  | .telnet => "Telnet"
  | .ssh => "Ssh"
  | .all => "All"

/-- What a choice means. -/
def summary : Protocol → String
  | .telnet => "Plain TCP telnet fixture"
  | .ssh => "Password-authenticated SSH fixture"
  | .all => "Both fixtures side by side"

/-- All choices, in the order in which they are offered. -/
def choices : List Protocol := [.telnet, .ssh, .all]

/-- The choice that is written by some octets. -/
def ofBytes? (bytes : Bytes) : Option Protocol :=
  choices.find? fun protocol => Utf8.ofString protocol.name == bytes

end Protocol

/-- The options that take a value. -/
inductive OptionName
  | config
  | protocol
  | telnetListen
  | sshListen
  | logLevel
  deriving DecidableEq

namespace OptionName

/-- All options, in the order in which they are listed. -/
def all : List OptionName := [.config, .protocol, .telnetListen, .sshListen, .logLevel]

/-- The long name of an option. -/
def long : OptionName → String
  | .config => "config"
  | .protocol => "protocol"
  | .telnetListen => "telnet-listen"
  | .sshListen => "ssh-listen"
  | .logLevel => "log-level"

/-- The letter of an option, if it has one. -/
def short? : OptionName → Option Char
  | .config => some 'c'
  | .protocol => some 'p'
  | _ => none

/-- The word that stands for the value of an option. -/
def placeholder : OptionName → String
  | .config => "CONFIG"
  | .protocol => "PROTOCOL"
  | .telnetListen => "TELNET_LISTEN"
  | .sshListen => "SSH_LISTEN"
  | .logLevel => "LOG_LEVEL"

/-- What an option is for. -/
def summary : OptionName → String
  | .config => "Path to TOML configuration file"
  | .protocol => "Which server(s) to run"
  | .telnetListen => "Address for the telnet server (e.g., 0.0.0.0:2323)"
  | .sshListen => "Address for the SSH server (e.g., 0.0.0.0:2222)"
  | .logLevel => "Log level (trace, debug, info, warn, error) [default: info]"

/-- An option with the word for its value, as refusals name it. -/
def usage (option : OptionName) : String :=
  "--" ++ option.long ++ " <" ++ option.placeholder ++ ">"

end OptionName

/-- The flags that ask for a text instead of a run. -/
inductive Flag
  | help
  | version
  deriving DecidableEq

namespace Flag

/-- All flags. -/
def all : List Flag := [.help, .version]

/-- The long name of a flag. -/
def long : Flag → String
  | .help => "help"
  | .version => "version"

/-- The letter of a flag. -/
def short : Flag → Char
  | .help => 'h'
  | .version => 'V'

end Flag

/-- What a command line chooses. A path need not be text. -/
structure Options where
  config : Option Bytes
  protocol : Protocol
  telnetListen : Option String
  sshListen : Option String
  logLevel : Option String
  deriving DecidableEq

/-- The choices of an empty command line. -/
def Options.unchosen : Options := ⟨none, .all, none, none, none⟩

end PongFixture
