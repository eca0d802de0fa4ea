import PongFixture.Toml.Document
import PongFixture.Toml.Excerpt
import PongFixture.Decimal.Shortest
import PongFixture.Text.Quoted

/-!
# The settings file

A settings file has three sections, `telnet`, `ssh` and `logging`, each with a few fields. Whatever
is missing has its built-in value, and whatever is unknown is passed over. A section is a table, or
an array with its fields in their order. A value of the wrong kind is a `Mismatch`, and the first in
the order of the file is the one reported.
-/

set_option autoImplicit false

namespace PongFixture.Settings

open Toml

/-- The section of the telnet fixture. -/
structure TelnetSection where
  listen : String
  deriving DecidableEq

/-- The section of the SSH fixture. The timeout is in seconds. -/
structure SshSection where
  listen : String
  username : String
  password : String
  channelOpenTimeout : Nat
  deriving DecidableEq

/-- The section of the log. -/
structure LoggingSection where
  level : String
  deriving DecidableEq

/-- The contents of a settings file. -/
structure File where
  telnet : TelnetSection
  ssh : SshSection
  logging : LoggingSection
  deriving DecidableEq

/-- The section of a file that says nothing of the telnet fixture. -/
def TelnetSection.builtIn : TelnetSection := ⟨"0.0.0.0:2323"⟩

/-- The section of a file that says nothing of the SSH fixture. -/
def SshSection.builtIn : SshSection := ⟨"0.0.0.0:2222", "testuser", "password", 20⟩

/-- The section of a file that says nothing of the log. -/
def LoggingSection.builtIn : LoggingSection := ⟨"info"⟩

/-- The settings without a file. -/
def File.builtIn : File := ⟨.builtIn, .builtIn, .builtIn⟩

/-! ## Values of the wrong kind -/

/-- What stands in a file where something else is wanted. -/
inductive Found
  | boolean (value : Bool)
  | integer (value : Int)
  | real (value : Decimal.Binary64)
  | text (value : String)
  | sequence
  | map
  deriving DecidableEq

/-- What is found, in the words of a complaint. -/
def Found.describe : Found → String
  | .boolean value => "boolean `" ++ toString value ++ "`"
  | .integer value => "integer `" ++ toString value ++ "`"
  | .real value => "floating point `" ++ String.ofList value.print ++ "`"
  | .text value => "string " ++ Quoted.ofString value
  | .sequence => "sequence"
  | .map => "map"

/-- What is wanted at a place of a file. -/
inductive Wanted
  | text
  | seconds
  | telnetSection
  | sshSection
  | loggingSection
  deriving DecidableEq

/-- What is wanted, in the words of a complaint. -/
def Wanted.describe : Wanted → String
  | .text => "a string"
  | .seconds => "u64"
  | .telnetSection => "struct TelnetSection"
  | .sshSection => "struct SshSection"
  | .loggingSection => "struct LoggingConfig"

/-- A value of the wrong kind, or of the right kind and out of range, where it stands. -/
structure Mismatch where
  found : Found
  wanted : Wanted
  outOfRange : Bool
  extent : Extent
  deriving DecidableEq

/-- The reason of a complaint. -/
def Mismatch.reason (mismatch : Mismatch) : String :=
  (if mismatch.outOfRange then "invalid value: " else "invalid type: ") ++
    mismatch.found.describe ++ ", expected " ++ mismatch.wanted.describe

/-- A complaint about a value of a text. -/
def Mismatch.print (mismatch : Mismatch) (text : List Char) : String :=
  (Excerpt.of text mismatch.extent).print mismatch.reason

/-- What an item is found to be. A moment counts as a map. -/
def Found.ofItem : Item → Found
  | .text value _ => .text value
  | .number (.integer value) _ => .integer value
  | .number (.real value) _ => .real value
  | .boolean value _ => .boolean value
  | .moment _ => .map
  | .array .. => .sequence
  | .table .. => .map
  | .tables .. => .sequence

/-- The complaint that an item is not what is wanted. An item without a stretch of its own is
pointed at by `place`. -/
def mismatch (wanted : Wanted) (place : Extent) (item : Item) : Mismatch :=
  ⟨Found.ofItem item, wanted, false, item.extent?.getD place⟩

/-! ## Decoding -/

/-- The text of an item. -/
def decodeText (place : Extent) : Item → Except Mismatch String
  | .text value _ => .ok value
  | item => .error (mismatch .text place item)

/-- The number of seconds of an item. -/
def decodeSeconds (place : Extent) : Item → Except Mismatch Nat
  | .number (.integer value) extent =>
    if value < 0 then .error ⟨.integer value, .seconds, true, extent⟩ else .ok value.toNat
  | item => .error (mismatch .seconds place item)

/-- The item of an array in a position, decoded, or else a built-in value. -/
def decodeAt {α : Type} (decode : Extent → Item → Except Mismatch α) (place : Extent)
    (items : List Item) (position : Nat) (builtIn : α) : Except Mismatch α :=
  match items[position]? with
  | none => .ok builtIn
  | some item => decode place item

/-- The contents of a section, as fields under their names or in their order, unless the item is
no section. -/
inductive Shape
  | named (entries : Entries)
  | ordered (items : List Item)

/-- The shape of an item that is written as a section. A moment is a section without known
fields. -/
def Shape.ofItem? : Item → Option Shape
  | .table _ entries _ => some (.named entries)
  | .moment _ => some (.named [])
  | .array items _ => some (.ordered items)
  | .tables rows _ => some (.ordered rows)
  | _ => none

namespace TelnetSection

/-- Takes one entry of a section into account. -/
def take (current : TelnetSection) (entry : Key × Item) : Except Mismatch TelnetSection :=
  if entry.1.name = "listen" then do
    let listen ← decodeText entry.1.extent entry.2
    return { current with listen }
  else return current

/-- Decodes a section. -/
def decode (place : Extent) (item : Item) : Except Mismatch TelnetSection :=
  match Shape.ofItem? item with
  | none => .error (mismatch .telnetSection place item)
  | some (.named entries) => entries.foldlM take builtIn
  | some (.ordered items) => do
    let listen ← decodeAt decodeText place items 0 builtIn.listen
    return { listen }

end TelnetSection

namespace SshSection

/-- Takes one entry of a section into account. -/
def take (current : SshSection) (entry : Key × Item) : Except Mismatch SshSection :=
  if entry.1.name = "listen" then do
    let listen ← decodeText entry.1.extent entry.2
    return { current with listen }
  else if entry.1.name = "username" then do
    let username ← decodeText entry.1.extent entry.2
    return { current with username }
  else if entry.1.name = "password" then do
    let password ← decodeText entry.1.extent entry.2
    return { current with password }
  else if entry.1.name = "channel_open_timeout" then do
    let channelOpenTimeout ← decodeSeconds entry.1.extent entry.2
    return { current with channelOpenTimeout }
  else return current

/-- Decodes a section. -/
def decode (place : Extent) (item : Item) : Except Mismatch SshSection :=
  match Shape.ofItem? item with
  | none => .error (mismatch .sshSection place item)
  | some (.named entries) => entries.foldlM take builtIn
  | some (.ordered items) => do
    let listen ← decodeAt decodeText place items 0 builtIn.listen
    let username ← decodeAt decodeText place items 1 builtIn.username
    let password ← decodeAt decodeText place items 2 builtIn.password
    let channelOpenTimeout ← decodeAt decodeSeconds place items 3 builtIn.channelOpenTimeout
    return { listen, username, password, channelOpenTimeout }

end SshSection

namespace LoggingSection

/-- Takes one entry of a section into account. -/
def take (current : LoggingSection) (entry : Key × Item) : Except Mismatch LoggingSection :=
  if entry.1.name = "level" then do
    let level ← decodeText entry.1.extent entry.2
    return { current with level }
  else return current

/-- Decodes a section. -/
def decode (place : Extent) (item : Item) : Except Mismatch LoggingSection :=
  match Shape.ofItem? item with
  | none => .error (mismatch .loggingSection place item)
  | some (.named entries) => entries.foldlM take builtIn
  | some (.ordered items) => do
    let level ← decodeAt decodeText place items 0 builtIn.level
    return { level }

end LoggingSection

namespace File

/-- Takes one entry of a document into account. -/
def take (file : File) (entry : Key × Item) : Except Mismatch File :=
  if entry.1.name = "telnet" then do
    let telnet ← TelnetSection.decode entry.1.extent entry.2
    return { file with telnet }
  else if entry.1.name = "ssh" then do
    let ssh ← SshSection.decode entry.1.extent entry.2
    return { file with ssh }
  else if entry.1.name = "logging" then do
    let logging ← LoggingSection.decode entry.1.extent entry.2
    return { file with logging }
  else return file

/-- Decodes the contents of a document. -/
def ofEntries (entries : Entries) : Except Mismatch File := entries.foldlM take builtIn

end File

/-- Why a text is no settings file. -/
inductive FileError
  | malformed
  | mismatched (mismatch : Mismatch)
  deriving DecidableEq

/-- Reads a settings file. -/
def File.parse (text : List Char) : Except FileError File :=
  match Document.parse? text with
  | none => .error .malformed
  | some document =>
    match File.ofEntries document.entries with
    | .error mismatch => .error (.mismatched mismatch)
    | .ok file => .ok file

/-- A file without sections has the built-in settings. -/
@[simp] theorem File.ofEntries_nil : File.ofEntries [] = .ok File.builtIn := rfl

end PongFixture.Settings
