import PongFixture.Exchange.Loop

/-!
# One telnet connection

The exchange on a bare connection, with a line in the log for every chunk and one for how the
connection ended: that the client left, with the number of replies it got, or the fault.
-/

set_option autoImplicit false

namespace PongFixture.Telnet

open Exchange

/-- The lines of the telnet fixture. -/
def banner : Banner :=
  ⟨Utf8.ofString "Welcome to test telnet server\r\n", Utf8.ofString "pong\r\n"⟩

/-- The event of a chunk. -/
def received (peer : String) (bytes : Bytes) : Event :=
  ⟨.info, .telnet, "Received data from " ++ peer ++ ": " ++ Utf8.display bytes, []⟩

/-- The event of an exchange that is over. -/
def concluded (peer : String) : Except Fault Nat → Event
  | .ok replies =>
    ⟨.debug, .telnet, "Telnet client disconnected",
      [.plain "peer" peer, .plain "replies" (toString replies)]⟩
  | .error fault =>
    ⟨.debug, .telnet, "Connection error", [.plain "peer" peer, .plain "error" fault.message]⟩

/-- The event, if any, of where an exchange stands. -/
def conclusion (peer : String) : Standing → List Event
  | .waiting .. => []
  | .finished result => [concluded peer result]

/-- Begins a connection: the acts on its stream, its events, and where it stands. -/
def accept (peer : String) (sink : Sink) : List Act × List Event × Standing :=
  let (acts, standing) := greet banner sink
  (acts, eventsOf (received peer) acts ++ conclusion peer standing, standing)

/-- Carries a connection on with what comes in. A connection that is over is left alone. -/
def advance (peer : String) (standing : Standing) (arrivals : List Arrival) :
    List Act × List Event × Standing :=
  match standing with
  | .finished result => ([], [], .finished result)
  | .waiting .. =>
    let (acts, standing) := standing.resume banner arrivals
    (acts, eventsOf (received peer) acts ++ conclusion peer standing, standing)

end PongFixture.Telnet
