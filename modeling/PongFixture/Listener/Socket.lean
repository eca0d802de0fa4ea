import PongFixture.Listener.Overlap
import PongFixture.Fault

/-!
# The sockets of a machine

A machine keeps its open sockets in a table, each under a number. A listener is made by six calls:
one makes the socket, five prepare it. The machine may refuse any of them for reasons of its own.
Binding is refused for an address that the machine does not have, and while a socket is bound that
would get in the way: one that overlaps, unless both sockets let addresses be reused and the other
does not listen. Listening is refused beside a socket that listens on an overlapping endpoint.

The first call that fails ends the preparation, and the socket is closed.
-/

set_option autoImplicit false

namespace PongFixture.Listener

open Address

/-- The machine on which sockets are bound: the addresses it has. -/
structure Machine where
  has : Ip → Bool

/-- A machine on which any address can be bound. -/
def Machine.lending : Machine := ⟨fun _ => true⟩

/-- The calls by which a listener is made. -/
inductive Call
  | create
  | reuseAddress
  | nonBlocking
  | bind
  | listen
  | register
  deriving DecidableEq

/-- A machine at one time: the addresses it has, and the calls that it refuses for reasons of its
own. -/
structure Host extends Machine where
  refusal : Call → Option Fault

/-- A machine that refuses no call for reasons of its own. -/
def Machine.willing (machine : Machine) : Host := ⟨machine, fun _ => none⟩

/-- An open socket. -/
structure Socket where
  number : Nat
  isV6 : Bool
  reusesAddress : Bool
  isBlocking : Bool
  bound : Option Endpoint
  isListening : Bool
  deriving DecidableEq

namespace Socket

/-- A socket as it is made. -/
def new (number : Nat) (isV6 : Bool) : Socket := ⟨number, isV6, false, true, none, false⟩

/-- A listener at an endpoint. -/
def listener (number : Nat) (endpoint : Endpoint) : Socket :=
  ⟨number, endpoint.isV6, true, false, some endpoint, true⟩

/-- The endpoint of a socket. One that is not bound has the wildcard of its version, and no port. -/
def endpoint (socket : Socket) : Endpoint :=
  socket.bound.getD (if socket.isV6 then .v6 any6 0 0 else .v4 any4 0)

/-- Whether a bound socket keeps another from being bound to an endpoint. -/
def obstructs (other socket : Socket) (endpoint : Endpoint) : Bool :=
  other.bound.any (overlaps endpoint) &&
    !(socket.reusesAddress && other.reusesAddress && !other.isListening)

/-- Whether a socket listens where another would listen. -/
def isHeardAt (other : Socket) (endpoint : Option Endpoint) : Bool :=
  other.isListening && endpoint.any fun endpoint => other.bound.any (overlaps endpoint)

end Socket

/-- The sockets that are open on a machine. -/
abbrev Sockets := List Socket

namespace Sockets

/-- A number that no open socket has. -/
def freeNumber (sockets : Sockets) : Nat :=
  sockets.foldr (fun socket number => max (socket.number + 1) number) 0

/-- Puts a socket in place of the one with its number. -/
def put (sockets : Sockets) (socket : Socket) : Sockets :=
  sockets.map fun other => if other.number = socket.number then socket else other

/-- Closes the socket with a number. -/
def close (sockets : Sockets) (number : Nat) : Sockets :=
  sockets.filter fun socket => socket.number ≠ number

/-- The sockets other than one. -/
def besides (sockets : Sockets) (socket : Socket) : Sockets := sockets.close socket.number

/-- Whether a socket can be bound to an endpoint. -/
def admits (sockets : Sockets) (socket : Socket) (endpoint : Endpoint) : Bool :=
  (sockets.besides socket).all fun other => !other.obstructs socket endpoint

/-- The first of the ports that are handed out on request. -/
def firstHandedOut : Nat := 32768

/-- The number of ports that are handed out on request. -/
def handedOutCount : Nat := 28232

/-- An endpoint with a port: its own, or a free one where it asks for any. -/
def withFreePort? (sockets : Sockets) (socket : Socket) (endpoint : Endpoint) : Option Endpoint :=
  if endpoint.port = 0 then
    ((List.range handedOutCount).find? fun n =>
      sockets.admits socket (endpoint.withPort (UInt16.ofNat (firstHandedOut + n)))).map fun n =>
        endpoint.withPort (UInt16.ofNat (firstHandedOut + n))
  else some endpoint

end Sockets

/-- Binds a socket to an endpoint. -/
def Machine.bind (machine : Machine) (sockets : Sockets) (socket : Socket) (endpoint : Endpoint) :
    Except Fault Socket :=
  if socket.isV6 ≠ endpoint.isV6 then .error .familyNotSupported
  else if machine.has endpoint.ip then
    match sockets.withFreePort? socket endpoint with
    | some endpoint =>
      if sockets.admits socket endpoint then .ok { socket with bound := some endpoint }
      else .error .addressInUse
    | none => .error .addressInUse
  else .error .addressNotAvailable

/-- Lets a socket listen. -/
def Sockets.listen (sockets : Sockets) (socket : Socket) : Except Fault Socket :=
  if (sockets.besides socket).any fun other => other.isHeardAt socket.bound then
    .error .addressInUse
  else .ok { socket with isListening := true }

/-- What a call comes to that the machine does not refuse, on a socket that is to listen at an
endpoint. -/
def Machine.carryOut (machine : Machine) (sockets : Sockets) (endpoint : Endpoint)
    (socket : Socket) : Call → Except Fault Socket
  | .create => .ok socket
  | .reuseAddress => .ok { socket with reusesAddress := true }
  | .nonBlocking => .ok { socket with isBlocking := false }
  | .bind => machine.bind sockets socket endpoint
  | .listen => sockets.listen socket
  | .register => .ok socket

/-- What a call comes to. -/
def Host.perform (host : Host) (sockets : Sockets) (endpoint : Endpoint) (socket : Socket)
    (call : Call) : Except Fault Socket :=
  match host.refusal call with
  | some fault => .error fault
  | none => host.carryOut sockets endpoint socket call

/-- The calls that prepare a socket which has been made. -/
def Call.preparing : List Call := [.reuseAddress, .nonBlocking, .bind, .listen, .register]

/-- Makes calls on a socket in their order, up to the first that fails. -/
def Host.prepare (host : Host) (endpoint : Endpoint) :
    List Call → Socket → Sockets → Except Fault Socket × Sockets
  | [], socket, sockets => (.ok socket, sockets)
  | call :: calls, socket, sockets =>
    match host.perform sockets endpoint socket call with
    | .error fault => (.error fault, sockets)
    | .ok next => host.prepare endpoint calls next (sockets.put next)

/-- Opens a listener at an endpoint: the socket, or why there is none, and the sockets then. -/
def Host.openListener (host : Host) (endpoint : Endpoint) (sockets : Sockets) :
    Except Fault Socket × Sockets :=
  let socket := Socket.new sockets.freeNumber endpoint.isV6
  match host.perform sockets endpoint socket .create with
  | .error fault => (.error fault, sockets)
  | .ok socket =>
    match host.prepare endpoint Call.preparing socket (sockets ++ [socket]) with
    | (.ok socket, after) => (.ok socket, after)
    | (.error fault, after) => (.error fault, after.close socket.number)

end PongFixture.Listener
