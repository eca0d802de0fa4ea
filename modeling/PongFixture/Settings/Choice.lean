import PongFixture.Settings.File

/-!
# Writing a settings file

A choice gives some of the settings of a file a value and leaves the others out. Written down, each
section stands under its header, with a line for every setting chosen; texts stand between double
quotes. What is written reads back as the choice laid over the built-in settings.
-/

set_option autoImplicit false

namespace PongFixture.Settings

/-- A choice of settings for a file. -/
structure Choice where
  telnetListen : Option String
  sshListen : Option String
  username : Option String
  password : Option String
  channelOpenTimeout : Option Nat
  level : Option String
  deriving DecidableEq

namespace Choice

/-- The contents of a file with the chosen settings, and the built-in ones for the others. -/
def laidOver (choice : Choice) (file : File) : File :=
  { telnet := ⟨choice.telnetListen.getD file.telnet.listen⟩
    ssh :=
      { listen := choice.sshListen.getD file.ssh.listen
        username := choice.username.getD file.ssh.username
        password := choice.password.getD file.ssh.password
        channelOpenTimeout := choice.channelOpenTimeout.getD file.ssh.channelOpenTimeout }
    logging := ⟨choice.level.getD file.logging.level⟩ }

/-- The greatest number of seconds that a file can hold. -/
def greatestTimeout : Nat := 9223372036854775807

/-- Whether a choice can be written: a file holds no greater numbers. -/
def Writable (choice : Choice) : Prop :=
  ∀ seconds ∈ choice.channelOpenTimeout, seconds ≤ greatestTimeout

/-- The header of a section. -/
def writeHeader (name : String) : List Char := '[' :: (name.toList ++ [']', '\n'])

/-- The line of a setting. -/
def writeLine (key : String) (value : List Char) : List Char :=
  key.toList ++ [' ', '=', ' '] ++ value ++ ['\n']

/-- The line of a setting that is a text, if it is chosen. -/
def writeText (key : String) (value : Option String) : List Char :=
  match value with
  | none => []
  | some value => writeLine key (Toml.writeText value.toList)

/-- The line of a setting that is a number, if it is chosen. -/
def writeNumber (key : String) (value : Option Nat) : List Char :=
  match value with
  | none => []
  | some value => writeLine key (Numeral.decimal value)

/-- A settings file that says what is chosen and nothing else. -/
def print (choice : Choice) : List Char :=
  writeHeader "telnet" ++ writeText "listen" choice.telnetListen ++
    writeHeader "ssh" ++ writeText "listen" choice.sshListen ++
    writeText "username" choice.username ++ writeText "password" choice.password ++
    writeNumber "channel_open_timeout" choice.channelOpenTimeout ++
    writeHeader "logging" ++ writeText "level" choice.level

/-- Choosing nothing keeps every setting of a file. -/
@[simp] theorem laidOver_of_none (file : File) :
    (⟨none, none, none, none, none, none⟩ : Choice).laidOver file = file := rfl

end Choice

end PongFixture.Settings
