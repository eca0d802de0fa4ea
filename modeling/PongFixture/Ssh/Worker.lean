import PongFixture.Exchange.Loop
import PongFixture.Text.Blank

/-!
# The worker of one SSH connection

The worker waits until the version exchange is over, then for the first session channel, and runs
the exchange on that channel. It gives up when no channel is handed over in time. Whatever goes
wrong it reports once, and unless the version exchange failed it leaves by disconnecting the
transport once and saying so.

The worker is a machine over the things that may happen to it, in any order; each step lists its
`Deed`s. What happens after the worker has left, or does not concern the stage it is in, is
ignored.
-/

set_option autoImplicit false

namespace PongFixture.Ssh

open Exchange

/-- The lines of the SSH fixture. -/
def banner : Banner :=
  ⟨Utf8.ofString "Welcome to test SSH server!\n", Utf8.ofString "pong\n"⟩

/-- The event of a chunk: its text without the blanks around it. -/
def received (bytes : Bytes) : Event :=
  ⟨.info, .secure,
    "Received: " ++ String.ofList (Blank.trim (Utf8.decodeLossy bytes)), []⟩

/-- A time to wait, in the words of the log: no time at all is counted in the smallest unit. -/
def describeWait (seconds : Nat) : String :=
  if seconds = 0 then "0ns" else toString seconds ++ "s"

/-- Where a worker stands. -/
inductive Stage
  | connecting
  | awaitingChannel
  | serving (standing : Standing)
  | left

/-- What may happen to a worker. -/
inductive Happening
  | setupFailed (message : String)
  | setupDone
  | channelPassed (sink : Sink)
  | sessionEnded (error : Option String)
  | waitedTooLong
  | arrived (arrivals : List Arrival)

/-- The farewell of the server on a transport: its reason and a message. -/
structure Farewell where
  reason : String
  message : String
  deriving DecidableEq

/-- The only farewell that the server says: the application ends the connection. -/
def farewell : Farewell := ⟨"ByApplication", ""⟩

/-- What a worker does: an act on the served channel, a line in the log, or the request to close
the transport with a farewell. -/
inductive Deed
  | onChannel (act : Act)
  | logged (event : Event)
  | disconnected (farewell : Farewell)
  deriving DecidableEq

/-- The farewell of a deed that asks for the end of the transport. -/
def Deed.farewell? : Deed → Option Farewell
  | .disconnected farewell => some farewell
  | _ => none

/-- What a worker knows of its connection: the peer, and how many seconds it waits. -/
structure Assignment where
  peer : String
  wait : Nat
  deriving DecidableEq

namespace Assignment

/-- The report of an error. -/
def complaint (assignment : Assignment) (message : String) : Deed :=
  .logged ⟨.warn, .secure, "Error: " ++ message, [.plain "peer" assignment.peer]⟩

/-- The report that no channel came. -/
def impatience (assignment : Assignment) : Deed :=
  .logged ⟨.debug, .secure, "No channel opened in time",
    [.plain "wait" (describeWait assignment.wait)]⟩

/-- What every worker does last once the transport is up. -/
def farewell (assignment : Assignment) : List Deed :=
  [.disconnected Ssh.farewell,
    .logged ⟨.debug, .secure, "SSH transport closed", [.plain "peer" assignment.peer]⟩]

/-- Leaves after an error, if there was one. -/
def leave (assignment : Assignment) (error : Option String) : List Deed × Stage :=
  ((error.map assignment.complaint).toList ++ assignment.farewell, .left)

end Assignment

/-- The deeds of acts on the served channel. -/
def deedsOf (acts : List Act) : List Deed :=
  acts.flatMap fun act => .onChannel act :: (act.events received).map .logged

/-- Goes on after the exchange has reached a standing by some acts. -/
def afterActs (assignment : Assignment) (acts : List Act) : Standing → List Deed × Stage
  | .waiting buffer sink replies => (deedsOf acts, .serving (.waiting buffer sink replies))
  | .finished (.ok _) =>
    (deedsOf acts ++ (assignment.leave none).1, .left)
  | .finished (.error fault) =>
    (deedsOf acts ++ (assignment.leave (some fault.message)).1, .left)

/-- One step of a worker. -/
def Stage.step (assignment : Assignment) : Stage → Happening → List Deed × Stage
  | .connecting, .setupFailed message => ([assignment.complaint message], .left)
  | .connecting, .setupDone => ([], .awaitingChannel)
  | .awaitingChannel, .channelPassed sink =>
    afterActs assignment (greet banner sink).1 (greet banner sink).2
  | .awaitingChannel, .sessionEnded error => assignment.leave error
  | .awaitingChannel, .waitedTooLong =>
    (assignment.impatience :: (assignment.leave none).1, .left)
  | .serving standing, .arrived arrivals =>
    afterActs assignment (standing.resume banner arrivals).1 (standing.resume banner arrivals).2
  | stage, _ => ([], stage)

/-- A series of steps: all deeds in order, and where the worker stands afterwards. -/
def Stage.steps (assignment : Assignment) : Stage → List Happening → List Deed × Stage
  | stage, [] => ([], stage)
  | stage, happening :: happenings =>
    ((stage.step assignment happening).1 ++
        ((stage.step assignment happening).2.steps assignment happenings).1,
      ((stage.step assignment happening).2.steps assignment happenings).2)

/-- The lines that deeds put into the log. -/
def eventsOf (deeds : List Deed) : List Event :=
  deeds.filterMap fun
    | .logged event => some event
    | _ => none

/-- The octets that deeds send on the served channel. -/
def sentBy (deeds : List Deed) : Bytes :=
  deeds.flatMap fun
    | .onChannel act => act.sent
    | _ => []

/-- A worker that has left does nothing more. -/
@[simp] theorem Stage.step_left (assignment : Assignment) (happening : Happening) :
    Stage.step assignment .left happening = ([], .left) := by
  cases happening <;> rfl

end PongFixture.Ssh
