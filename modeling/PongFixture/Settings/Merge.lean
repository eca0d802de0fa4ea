import PongFixture.Settings.File
import PongFixture.Options.Parser
import PongFixture.Address.Parser
import PongFixture.Address.Printer
import PongFixture.Fault

/-!
# The settings of a run

The settings come from three layers: the command line, the settings file, and the built-in values,
where the first layer that says something of a setting decides. Only then are the two addresses
read, so that a text which another one overrides is never examined. Credentials and the timeout
come from the file alone, the protocol from the command line alone.
-/

set_option autoImplicit false

namespace PongFixture

open Address

/-- The settings of a run. The timeout is in seconds. -/
structure Settings where
  protocol : Protocol
  telnetListen : Endpoint
  sshListen : Endpoint
  username : String
  password : String
  channelOpenTimeout : Nat
  logLevel : String
  deriving DecidableEq

namespace Settings

/-- Why settings cannot be had: the file cannot be read, is not in the format, or holds a value
of the wrong kind, or an address is none. -/
inductive ConfigError
  | unreadable (path : Bytes) (fault : Fault)
  | malformed (path : Bytes)
  | mismatched (path : Bytes) (text : List Char) (mismatch : Mismatch)
  | invalidAddress (text : String)
  deriving DecidableEq

namespace ConfigError

/-- The beginning of a complaint about a file. -/
def about (what : String) (path : Bytes) : String :=
  "Failed to " ++ what ++ " config file '" ++ Utf8.display path ++ "': "

/-- The text of an error. Of a file that is not in the format it does not say what is wrong there. -/
def message : ConfigError → String
  | .unreadable path fault => about "read" path ++ fault.message
  | .malformed path => about "parse" path ++ "TOML parse error\n"
  | .mismatched path text mismatch => about "parse" path ++ mismatch.print text
  | .invalidAddress text => "Invalid listen address '" ++ text ++ "': invalid socket address syntax"

end ConfigError

/-- Reads an address. -/
def parseAddress (text : String) : Except ConfigError Endpoint :=
  match Address.parse? text.toList with
  | some endpoint => .ok endpoint
  | none => .error (.invalidAddress text)

/-- Lays the command line over the contents of the file. -/
def merge (options : Options) (file : File) : Except ConfigError Settings := do
  let telnetListen ← parseAddress (options.telnetListen.getD file.telnet.listen)
  let sshListen ← parseAddress (options.sshListen.getD file.ssh.listen)
  return {
    protocol := options.protocol
    telnetListen
    sshListen
    username := file.ssh.username
    password := file.ssh.password
    channelOpenTimeout := file.ssh.channelOpenTimeout
    logLevel := options.logLevel.getD file.logging.level }

/-- Reads the text of a settings file, which is known by a path. -/
def parseFile (path : Bytes) (text : List Char) : Except ConfigError File :=
  match File.parse text with
  | .ok file => .ok file
  | .error .malformed => .error (.malformed path)
  | .error (.mismatched mismatch) => .error (.mismatched path text mismatch)

/-- What reading the file at a path comes to: its octets, or a fault. -/
inductive FileContent
  | octets (bytes : Bytes)
  | unreadable (fault : Fault)
  deriving DecidableEq

/-- There is no file. -/
def FileContent.missing : FileContent := .unreadable .fileNotFound

/-- There is a directory. -/
def FileContent.directory : FileContent := .unreadable .fileIsDirectory

/-- Reads a file as text. -/
def readText (path : Bytes) (content : FileContent) : Except ConfigError (List Char) :=
  match content with
  | .unreadable fault => .error (.unreadable path fault)
  | .octets bytes =>
    match Utf8.decode? bytes with
    | some text => .ok text
    | none => .error (.unreadable path .fileNotText)

/-- The settings of a command line, where `files` says what there is at each path. -/
def load (files : Bytes → FileContent) (options : Options) : Except ConfigError Settings :=
  match options.config with
  | none => merge options .builtIn
  | some path => do
    let text ← readText path (files path)
    let file ← parseFile path text
    merge options file

end Settings

end PongFixture
