import Std.Async.TCP
import Std.Async.Timer
import PongFixture.Ssh.Opening
import PongFixture.Startup.Report
import PongFixture.Telnet.Worker

/-!
# The program

The command line of the fixtures: it does in the world what the library says is to be done. The
telnet server is served whole. On the SSH side there is no cipher here, so a connection is followed
as far as its opening goes: to the version line, and to a peer that talks nonsense, leaves or keeps
silent.
-/

set_option autoImplicit false

namespace PongFixture.Program

open Address
open Std.Async
open Std.Async.TCP
open Std.Net

/-- The fault that an error of the system is. Some calls report the number of a fault negated. -/
def faultOf (error : IO.Error) : Fault :=
  let code : UInt32 :=
    match error with
    | .alreadyExists _ code _ => code
    | .otherError code _ => code
    | .resourceBusy code _ => code
    | .resourceVanished code _ => code
    | .illegalOperation code _ => code
    | .noFileOrDirectory _ code _ => code
    | .invalidArgument _ code _ => code
    | .permissionDenied _ code _ => code
    | .inappropriateType _ code _ => code
    | .noSuchThing _ code _ => code
    | _ => 0
  ((Fault.ofCode? code.toNat).or (Fault.ofCode? (-code).toNat)).getD
    (.custom .other (toString error))

/-- An endpoint as the system takes it. -/
def toSystem : Endpoint → SocketAddress
  | .v4 ip port => .v4 ⟨.ofParts ip.a ip.b ip.c ip.d, port⟩
  | .v6 ip _ port =>
    match ip.groups with
    | [a, b, c, d, e, f, g, h] => .v6 ⟨.ofParts a b c d e f g h, port⟩
    | _ => .v6 ⟨.ofParts 0 0 0 0 0 0 0 0, port⟩

/-- The endpoint that the system names. -/
def ofSystem : SocketAddress → Endpoint
  | .v4 address =>
    match address.addr.octets.toList with
    | [a, b, c, d] => .v4 ⟨a, b, c, d⟩ address.port
    | _ => .v4 Listener.any4 address.port
  | .v6 address => .v6 ((Ipv6.ofList? address.addr.segments.toList).getD Listener.any6) 0 address.port

/-- A socket that listens, and where. -/
structure Listening where
  endpoint : Endpoint
  server : Socket.Server

/-- Binds a socket and lets it listen. -/
def bindSocket (endpoint : Endpoint) : IO (Except Fault Listening) := do
  try
    let server ← Socket.Server.mk
    server.bind (toSystem endpoint)
    server.listen 1024
    return .ok ⟨ofSystem (← server.getSockName), server⟩
  catch error =>
    return .error (faultOf error)

/-- What a launch finds around it when some of its binds have been made. -/
def surroundings (settingsFile : Settings.FileContent) (hostKey : Ssh.HostKey)
    (made : List (Except Fault Listening)) : Startup.Surroundings :=
  { files := fun _ => settingsFile
    bind := fun bound _ =>
      match made[bound.length]? with
      | some (.ok listening) => .ok listening.endpoint
      | some (.error fault) => .error fault
      | none => .error .addressNotAvailable
    hostKey }

/-- Makes the binds of a launch, one after the other, as long as it asks for more. -/
partial def makeBinds (around : List (Except Fault Listening) → Startup.Surroundings)
    (settings : Settings) (made : List (Except Fault Listening)) :
    IO (List (Except Fault Listening)) := do
  match (Startup.launch (around made) settings).binds[made.length]? with
  | none => return made
  | some endpoint => makeBinds around settings (made ++ [← bindSocket endpoint])

/-- Prints events. -/
def log (filter : Log.Filter) (events : List Event) : IO Unit := do
  for line in Log.lines filter events do
    IO.println line
  (← IO.getStdout).flush

/-- Sends octets. -/
def sendAll (client : Socket.Client) (bytes : Bytes) : IO Unit := do
  if bytes ≠ [] then
    (client.send (ByteArray.mk bytes.toArray)).block

/-- What comes in next: octets, none at the end, or a fault. -/
def nextArrival (client : Socket.Client) : IO Exchange.Arrival := do
  try
    match ← (client.recv? (UInt64.ofNat Exchange.chunkSize)).block with
    | some bytes => return .data bytes.toList
    | none => return .data []
  catch error =>
    return .fault (faultOf error)

/-- Serves a telnet connection to its end. -/
partial def converseTelnet (filter : Log.Filter) (client : Socket.Client) (peer : String)
    (standing : Exchange.Standing) : IO Unit := do
  let (acts, events, standing) := Telnet.advance peer standing [← nextArrival client]
  log filter events
  sendAll client (Exchange.sent acts)
  match standing with
  | .waiting .. => converseTelnet filter client peer standing
  | .finished _ => client.shutdown.block

/-- Serves a telnet connection. -/
def serveTelnet (filter : Log.Filter) (client : Socket.Client) (peer : String) : IO Unit := do
  let (acts, events, standing) := Telnet.accept peer .willing
  log filter events
  sendAll client (Exchange.sent acts)
  converseTelnet filter client peer standing

/-- How often, in milliseconds, the clocks of an opening are read. -/
def clockStep : Nat := 100

/-- What the peer of an opening does next. -/
def nextAction (client : Socket.Client) : IO Ssh.PeerAction := do
  try
    let pause ← (Selector.sleep (.ofNat clockStep)).block
    let next : Async Ssh.PeerAction := Selectable.one #[
      .case (client.recvSelector 4096) fun received =>
        return match received with
          | some bytes => Ssh.PeerAction.send bytes.toList
          | none => .shutdown,
      .case pause fun _ => return .wait clockStep]
    next.block
  catch _ =>
    return .reset

/-- Follows an opening to its end. -/
partial def followOpening (filter : Log.Filter) (client : Socket.Client) (opening : Ssh.Opening) :
    IO Unit := do
  let (events, opening) := opening.act (← nextAction client)
  log filter events
  if opening.link.isUp then followOpening filter client opening else client.shutdown.block

/-- Accepts connections for ever. A connection that ends badly concerns nobody else. -/
partial def acceptAll (filter : Log.Filter) (protocol : String)
    (serve : Socket.Client → String → IO Unit) (listening : Listening) : IO Unit := do
  let client ← listening.server.accept.block
  let peer := (ofSystem (← client.getPeerName)).display
  log filter [Listener.accepted protocol peer]
  discard <| IO.asTask (serve client peer) Task.Priority.dedicated
  acceptAll filter protocol serve listening

/-- The servers that run, each with what it does for a connection. -/
def running (filter : Log.Filter) (settings : Settings) (listening : List Listening) :
    List (IO Unit) :=
  let telnet := acceptAll filter Telnet.protocolName (serveTelnet filter)
  let ssh := acceptAll filter Ssh.protocolName fun client peer =>
    followOpening filter client (.accepted ⟨peer, settings.channelOpenTimeout⟩)
  let servers :=
    (if settings.protocol.runsTelnet then [telnet] else []) ++
      (if settings.protocol.runsSsh then [ssh] else [])
  (servers.zip listening).map fun (server, socket) => server socket

/-- Reads the settings file that the command line names. -/
def readSettingsFile (arguments : List Bytes) : IO Settings.FileContent := do
  match Options.parse arguments with
  | .ok { config := some path, .. } =>
    try
      return .octets (← IO.FS.readBinFile (Utf8.display path)).toList
    catch error =>
      return .unreadable (faultOf error)
  | _ => return .missing

/-- Runs the program: its exit code, once it has one. -/
def run (arguments : List Bytes) : IO UInt32 := do
  let environment := (← IO.getEnv "RUST_LOG").map Utf8.ofString
  let around := surroundings (← readSettingsFile arguments)
    ⟨(← IO.getRandomBytes 32).toList⟩
  let made ←
    match Startup.configure (around []) arguments with
    | .ok settings => makeBinds around settings []
    | .error _ => pure []
  let console := Startup.console (around made) environment arguments
  IO.print console.output
  IO.eprint console.errors
  (← IO.getStdout).flush
  match console.exit, Startup.configure (around made) arguments with
  | none, .ok settings =>
    let filter := Log.Filter.choose environment settings.logLevel
    let servers := running filter settings (made.filterMap Except.toOption)
    let tasks ← servers.mapM fun server => IO.asTask server Task.Priority.dedicated
    for task in tasks do
      discard <| IO.wait task
    return 0
  | exit, _ => return UInt32.ofNat (exit.getD 0)

end PongFixture.Program

/-- Runs the fixtures as the command line says. -/
def main (arguments : List String) : IO UInt32 :=
  PongFixture.Program.run (arguments.map PongFixture.Utf8.ofString)
