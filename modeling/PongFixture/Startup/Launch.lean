import PongFixture.Listener.Announcement
import PongFixture.Listener.Registry
import PongFixture.Options.Parser
import PongFixture.Settings.Merge
import PongFixture.Ssh.Server
import PongFixture.Telnet.Server

/-!
# Starting the program

The program reads its command line, then its settings, and says what it is about to do. Then it
starts the servers that are selected, telnet first: each binds its socket and says where it
listens, and the SSH server makes its host key before. The first failure ends the program; if there
is none, it keeps running.

What starting comes to is a list of deeds and the failure, if any. What the system answers to a
bind may depend on what has been bound before.
-/

set_option autoImplicit false

namespace PongFixture.Startup

open Address

/-- What is around the program when it starts: the files, what a bind comes to after others, and
the host key that will be made. -/
structure Surroundings where
  files : Bytes → Settings.FileContent
  bind : List Endpoint → Endpoint → Except Fault Endpoint
  hostKey : Ssh.HostKey

/-- The binds of a machine. -/
def bindOn (machine : Listener.Machine) (bound : List Endpoint) (endpoint : Endpoint) :
    Except Fault Endpoint :=
  (machine.willing.openListener endpoint (bound.mapIdx Listener.Socket.listener)).1.map
    Listener.Socket.endpoint

/-- Why the program ends. -/
inductive Failure
  | commandLine (refusal : Options.Refusal)
  | settings (error : Settings.ConfigError)
  | bind (fault : Fault)
  deriving DecidableEq

/-- The exit code of a program that ends. -/
def Failure.exitCode : Failure → Nat
  | .commandLine refusal => refusal.exitCode
  | .settings _ => 1
  | .bind _ => 1

/-- What the program does while it starts: it binds, it makes a host key, it reports. -/
inductive Deed
  | bind (endpoint : Endpoint)
  | makeKey
  | report (event : Event)
  deriving DecidableEq

/-- What starting comes to: the deeds in order, the sockets that are bound, and the failure that
ended it, if one did. -/
structure Launch where
  deeds : List Deed
  bound : List Endpoint
  failure : Option Failure
  deriving DecidableEq

namespace Launch

/-- A program that has failed before it did anything. -/
def failed (failure : Failure) : Launch := ⟨[], [], some failure⟩

/-- The events of a launch. -/
def events (launch : Launch) : List Event :=
  launch.deeds.filterMap fun
    | .report event => some event
    | _ => none

/-- The endpoints on which a launch tried to bind. -/
def binds (launch : Launch) : List Endpoint :=
  launch.deeds.filterMap fun
    | .bind endpoint => some endpoint
    | _ => none

/-- Goes on after a launch, unless it has failed. What comes next knows what is bound. -/
def andThen (launch : Launch) (next : List Endpoint → Launch) : Launch :=
  match launch.failure with
  | some _ => launch
  | none =>
    { deeds := launch.deeds ++ (next launch.bound).deeds
      bound := (next launch.bound).bound
      failure := (next launch.bound).failure }

/-- Goes on if a server is selected. -/
def andIf (launch : Launch) (selected : Bool) (next : List Endpoint → Launch) : Launch :=
  if selected then launch.andThen next else launch

end Launch

/-- The first event of every run. -/
def starting (settings : Settings) : Event :=
  ⟨.info, .startup, "Starting pong-server",
    [.plain "protocol" settings.protocol.label,
     .plain "telnet" settings.telnetListen.display,
     .plain "ssh" settings.sshListen.display]⟩

/-- Binds a socket, and says where it is listened if that succeeds. -/
def listen (surroundings : Surroundings) (endpoint : Endpoint) (announce : String → Event)
    (bound : List Endpoint) : Launch :=
  match surroundings.bind bound endpoint with
  | .error fault => ⟨[.bind endpoint], bound, some (.bind fault)⟩
  | .ok actual =>
    ⟨[.bind endpoint, .report (announce actual.display)], bound ++ [actual], none⟩

/-- Starts the telnet server. -/
def startTelnet (surroundings : Surroundings) (endpoint : Endpoint) (bound : List Endpoint) :
    Launch :=
  listen surroundings endpoint (Listener.listening Telnet.protocolName) bound

/-- What all connections to the SSH server of a run share. -/
def context (surroundings : Surroundings) (settings : Settings) : Ssh.Context :=
  .withHostKey ⟨settings.username, settings.password⟩ settings.channelOpenTimeout
    surroundings.hostKey

/-- Starts the SSH server. -/
def startSsh (surroundings : Surroundings) (context : Ssh.Context) (endpoint : Endpoint)
    (bound : List Endpoint) : Launch :=
  (⟨[.makeKey, .report (Ssh.Server.keyGenerated context.credentials.username context.fingerprint)],
    bound, none⟩ : Launch).andThen
      (listen surroundings endpoint (Listener.listening Ssh.protocolName))

/-- Starts the servers that the settings select. -/
def launch (surroundings : Surroundings) (settings : Settings) : Launch :=
  ((⟨[.report (starting settings)], [], none⟩ : Launch).andIf settings.protocol.runsTelnet
    (startTelnet surroundings settings.telnetListen)).andIf settings.protocol.runsSsh
    (startSsh surroundings (context surroundings settings) settings.sshListen)

/-- The settings of a run with some arguments. -/
def configure (surroundings : Surroundings) (arguments : List Bytes) : Except Failure Settings :=
  match Options.parse arguments with
  | .error refusal => .error (.commandLine refusal)
  | .ok options =>
    match Settings.load surroundings.files options with
    | .error error => .error (.settings error)
    | .ok settings => .ok settings

/-- Starts the program with some arguments. -/
def start (surroundings : Surroundings) (arguments : List Bytes) : Launch :=
  match configure surroundings arguments with
  | .error failure => .failed failure
  | .ok settings => launch surroundings settings

/-- A server that is not selected adds nothing to a launch. -/
@[simp] theorem Launch.andIf_false (launch : Launch) (next : List Endpoint → Launch) :
    launch.andIf false next = launch := rfl

end PongFixture.Startup
