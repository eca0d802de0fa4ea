import PongFixture.Ssh.Session

/-!
# The SSH server and its clients

A server keeps one session for every client that it has. What the clients do is a series of steps;
each step is finished, with all that it brings about, before the next one begins. While one client
acts, time passes for all others, and nothing else of it reaches them.

The answer to a step is what the acting client sees, its reply and the state of its transport, and
the events that the step causes on all connections.
-/

set_option autoImplicit false

namespace PongFixture.Ssh

/-- A client, by its address. -/
abbrev Client := String

/-- A step of one client. -/
structure Step where
  client : Client
  action : Action
  deriving DecidableEq

/-- The state of a client's transport: whether it is closed, and the server's farewell if it was
told one. -/
structure TransportState where
  closed : Bool
  farewell : Option Farewell
  deriving DecidableEq

/-- The state of the transport of a session. -/
def Session.transport (session : Session) : TransportState :=
  ⟨!session.link.isUp, session.link.farewell⟩

/-- The answer to a step. Its client may have no transport. -/
structure Answer where
  reply : Reply
  transport : Option TransportState
  events : List Event
  deriving DecidableEq

/-- A server: its address, whom it accepts, how many seconds it waits for a channel, the events
that are still to be shown, and the sessions of its clients. -/
structure Server where
  address : String
  credentials : Credentials
  wait : Nat
  pending : List Event
  sessions : List (Client × Session)

namespace Server

/-- The event of a new host key. -/
def keyGenerated (username fingerprint : String) : Event :=
  ⟨.info, .startup, "Generated SSH host key",
    [.plain "user" username, .plain "fingerprint" fingerprint]⟩

/-- What a server says when it starts: its key, and where it listens. -/
def announcement (address : String) (context : Context) : List Event :=
  [keyGenerated context.credentials.username context.fingerprint,
    Listener.listening protocolName address]

/-- A server that nobody has connected to. -/
def start (address : String) (context : Context) : Server :=
  { address
    credentials := context.credentials
    wait := context.channelOpenTimeout
    pending := announcement address context
    sessions := [] }

/-- The session of a client. -/
def session? (server : Server) (client : Client) : Option Session :=
  (server.sessions.find? fun entry => entry.1 == client).map (·.2)

/-- The clients other than one, with their sessions. -/
def others (server : Server) (client : Client) : List (Client × Session) :=
  server.sessions.filter fun entry => !(entry.1 == client)

/-- What the worker of a client's connection knows. -/
def assignment (server : Server) (client : Client) : Assignment := ⟨client, server.wait⟩

/-- What the action of a step comes to for its client. -/
def outcome (server : Server) (step : Step) : Outcome :=
  Session.perform server.credentials (server.assignment step.client) step.action
    (server.session? step.client)

/-- Performs a step. The first one shows what is still to be shown. -/
def step (server : Server) (step : Step) : Answer × Server :=
  let outcome := server.outcome step
  let elapsed := (server.others step.client).map fun entry =>
    (entry.1, entry.2.elapse outcome.duration)
  (⟨outcome.reply, outcome.session.map Session.transport,
      server.pending ++ outcome.events ++ elapsed.flatMap fun entry => entry.2.1⟩,
    { server with
      pending := []
      sessions := elapsed.map (fun entry => (entry.1, entry.2.2)) ++
        outcome.session.toList.map fun session => (step.client, session) })

/-- Performs steps in their order: the answers, and the server afterwards. -/
def steps (server : Server) : List Step → List Answer × Server
  | [] => ([], server)
  | first :: rest =>
    ((server.step first).1 :: ((server.step first).2.steps rest).1,
      ((server.step first).2.steps rest).2)

/-- No step changes whom a server accepts. -/
@[simp] theorem credentials_step (server : Server) (step : Step) :
    (server.step step).2.credentials = server.credentials := rfl

/-- No step changes how long a server waits. -/
@[simp] theorem wait_step (server : Server) (step : Step) :
    (server.step step).2.wait = server.wait := rfl

/-- Neither do any number of steps. -/
@[simp] theorem wait_steps (server : Server) (steps : List Step) :
    (server.steps steps).2.wait = server.wait := by
  induction steps generalizing server with
  | nil => rfl
  | cons first rest ih => exact (ih _).trans (server.wait_step first)

/-- Every step is answered. -/
@[simp] theorem length_steps (server : Server) (steps : List Step) :
    (server.steps steps).1.length = steps.length := by
  induction steps generalizing server with
  | nil => rfl
  | cons first rest ih => exact congrArg (· + 1) (ih _)

end Server

end PongFixture.Ssh
