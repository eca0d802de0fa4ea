import PongFixture.Telnet.Worker
import PongFixture.Listener.Announcement

/-!
# The telnet server and its clients

A server keeps one worker for every client that is connected, and the workers share nothing. What
the clients do is a series of steps; each step is finished, with all that it brings about, before
the next one begins. The answer to a step is what the client receives, how its connection has
ended if it has, and the events that the step causes.

A client is known by its address as the log shows it.
-/

set_option autoImplicit false

namespace PongFixture.Telnet

open Exchange

/-- The name of the protocol in the log. -/
def protocolName : String := "telnet"

/-- A client, by its address. -/
abbrev Client := String

/-- What a client does to its connection. Closing its side lets it read to the end, dropping it
does not, and resetting tears it down. -/
inductive Deed
  | connect
  | send (bytes : Bytes)
  | shutdown
  | drop
  | reset
  deriving DecidableEq

/-- A step of one client. -/
structure Step where
  client : Client
  deed : Deed
  deriving DecidableEq

/-- How a client's connection has ended, as the client sees it. -/
inductive Ending
  | none
  | eof
  | dropped
  | notConnected
  deriving DecidableEq

/-- The answer to a step. -/
structure Answer where
  received : Bytes
  ending : Ending
  events : List Event
  deriving DecidableEq

/-- A connection of a server: where its worker stands. -/
structure Connection where
  client : Client
  standing : Standing

/-- A server: its address, whether it has been announced, and its connections. -/
structure Server where
  address : String
  announced : Bool
  connections : List Connection

namespace Server

/-- A server that nobody has connected to. -/
def start (address : String) : Server := ⟨address, false, []⟩

/-- The connection of a client. -/
def find? (server : Server) (client : Client) : Option Connection :=
  server.connections.find? fun connection => connection.client == client

/-- A server without the connection of a client. -/
def without (server : Server) (client : Client) : Server :=
  { server with
    connections := server.connections.filter fun connection => !(connection.client == client) }

/-- A server where the worker of a client stands as given. -/
def withStanding (server : Server) (client : Client) (standing : Standing) : Server :=
  { server with connections := (server.without client).connections ++ [⟨client, standing⟩] }

/-- The events by which the worker of a client ends when its input ends in a given way. -/
def endingEvents (connection : Connection) (arrival : Arrival) : List Event :=
  (advance connection.client connection.standing [arrival]).2.1

/-- Connects a client. A connection that it has already is dropped. -/
def connect (server : Server) (client : Client) : Answer × Server :=
  let (acts, events, standing) := accept client .willing
  let old := (server.find? client).toList.flatMap fun connection =>
    endingEvents connection (.data [])
  (⟨sent acts, .none, Listener.accepted protocolName client :: events ++ old⟩,
    server.withStanding client standing)

/-- Ends the connection of a client. -/
def finish (server : Server) (connection : Connection) (arrival : Arrival) (ending : Ending) :
    Answer × Server :=
  (⟨[], ending, endingEvents connection arrival⟩, server.without connection.client)

/-- The octets of one send, which bring nothing to the server if there are none. -/
def arrivalsOf (bytes : Bytes) : List Arrival := if bytes = [] then [] else [.data bytes]

/-- Performs a step of a client that is connected, or connects it. -/
def perform (server : Server) (client : Client) (deed : Deed) : Answer × Server :=
  match deed, server.find? client with
  | .connect, _ => server.connect client
  | _, none => (⟨[], .notConnected, []⟩, server)
  | .send bytes, some connection =>
    let (acts, events, standing) := advance client connection.standing (arrivalsOf bytes)
    (⟨sent acts, .none, events⟩, server.withStanding client standing)
  | .shutdown, some connection => server.finish connection (.data []) .eof
  | .drop, some connection => server.finish connection (.data []) .dropped
  | .reset, some connection => server.finish connection (.fault .reset) .dropped

/-- The events of a server that has not been announced yet. -/
def announcement (server : Server) : List Event :=
  if server.announced then [] else [Listener.listening protocolName server.address]

/-- Performs a step. The first one shows the announcement of the server too. -/
def step (server : Server) (step : Step) : Answer × Server :=
  let (answer, next) := { server with announced := true }.perform step.client step.deed
  ({ answer with events := server.announcement ++ answer.events }, next)

/-- Performs steps in their order: the answers, and the server afterwards. -/
def steps (server : Server) : List Step → List Answer × Server
  | [] => ([], server)
  | first :: rest =>
    let (answer, next) := server.step first
    let (answers, last) := steps next rest
    (answer :: answers, last)

/-- Every step is answered. -/
@[simp] theorem length_steps (server : Server) (steps : List Step) :
    (server.steps steps).1.length = steps.length := by
  induction steps generalizing server with
  | nil => rfl
  | cons first rest ih => exact congrArg (· + 1) (ih _)

end Server

end PongFixture.Telnet
