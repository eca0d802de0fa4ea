/-!
# Faults

What a failing call on a stream or a socket reports: the kind of failure and a text. A fault that
the system reports also carries the system's number.
-/

set_option autoImplicit false

namespace PongFixture

/-- The kinds of failure that are told apart. -/
inductive FaultKind
  | connectionReset
  | brokenPipe
  | interrupted
  | wouldBlock
  | timedOut
  | unexpectedEof
  | writeZero
  | notConnected
  | permissionDenied
  | invalidData
  | invalidInput
  | notFound
  | connectionRefused
  | connectionAborted
  | addrInUse
  | addrNotAvailable
  | isADirectory
  | other
  deriving DecidableEq

namespace FaultKind

/-- The identifier of a kind. -/
def name : FaultKind → String
  | .connectionReset => "ConnectionReset"
  | .brokenPipe => "BrokenPipe"
  | .interrupted => "Interrupted"
  | .wouldBlock => "WouldBlock"
  | .timedOut => "TimedOut"
  | .unexpectedEof => "UnexpectedEof"
  | .writeZero => "WriteZero"
  | .notConnected => "NotConnected"
  | .permissionDenied => "PermissionDenied"
  | .invalidData => "InvalidData"
  | .invalidInput => "InvalidInput"
  | .notFound => "NotFound"
  | .connectionRefused => "ConnectionRefused"
  | .connectionAborted => "ConnectionAborted"
  | .addrInUse => "AddrInUse"
  | .addrNotAvailable => "AddrNotAvailable"
  | .isADirectory => "IsADirectory"
  | .other => "Other"

/-- The text of a kind for a fault that brings none of its own. -/
def text : FaultKind → String
  | .connectionReset => "connection reset"
  | .brokenPipe => "broken pipe"
  | .interrupted => "operation interrupted"
  | .wouldBlock => "operation would block"
  | .timedOut => "timed out"
  | .unexpectedEof => "unexpected end of file"
  | .writeZero => "write zero"
  | .notConnected => "not connected"
  | .permissionDenied => "permission denied"
  | .invalidData => "invalid data"
  | .invalidInput => "invalid input parameter"
  | .notFound => "entity not found"
  | .connectionRefused => "connection refused"
  | .connectionAborted => "connection aborted"
  | .addrInUse => "address in use"
  | .addrNotAvailable => "address not available"
  | .isADirectory => "is a directory"
  | .other => "other error"

end FaultKind

/-- A failure: its kind, what it says, and the system's number for it where it has one. -/
structure Fault where
  kind : FaultKind
  text : String
  code : Option Nat
  deriving DecidableEq

namespace Fault

/-- A fault with the text of its kind. -/
def ofKind (kind : FaultKind) : Fault := ⟨kind, kind.text, none⟩

/-- A fault with a text of its own. -/
def custom (kind : FaultKind) (text : String) : Fault := ⟨kind, text, none⟩

/-- A fault that the system reports under a number. -/
def system (kind : FaultKind) (text : String) (code : Nat) : Fault := ⟨kind, text, some code⟩

/-- The text of a fault for a user. -/
def message (fault : Fault) : String :=
  match fault.code with
  | none => fault.text
  | some code => fault.text ++ " (os error " ++ toString code ++ ")"

/-- The peer tore the connection down. -/
def reset : Fault := system .connectionReset "Connection reset by peer" 104

/-- Another socket holds the address. -/
def addressInUse : Fault := system .addrInUse "Address already in use" 98

/-- The machine does not have the address. -/
def addressNotAvailable : Fault :=
  system .addrNotAvailable "Cannot assign requested address" 99

/-- The socket is not of the address's version. -/
def familyNotSupported : Fault :=
  system .other "Address family not supported by protocol" 97

/-- The file does not exist. -/
def fileNotFound : Fault := system .notFound "No such file or directory" 2

/-- A directory was read as a file. -/
def fileIsDirectory : Fault := system .isADirectory "Is a directory" 21

/-- The caller may not do what it asked for. -/
def notPermitted : Fault := system .permissionDenied "Permission denied" 13

/-- The other side does not read any more. -/
def pipeBroken : Fault := system .brokenPipe "Broken pipe" 32

/-- The faults that the system reports under numbers of its own. -/
def numbered : List Fault :=
  [fileNotFound, notPermitted, fileIsDirectory, pipeBroken, addressInUse, addressNotAvailable, reset]

/-- The fault of a system's number. -/
def ofCode? (code : Nat) : Option Fault := numbered.find? fun fault => fault.code == some code

/-- The file does not hold text. -/
def fileNotText : Fault := custom .invalidData "stream did not contain valid UTF-8"

/-- A call accepted nothing although something was offered. -/
def nothingWritten : Fault := ofKind .writeZero

end Fault

end PongFixture
