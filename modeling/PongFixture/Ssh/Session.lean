import PongFixture.Ssh.Link
import PongFixture.Ssh.Handler
import PongFixture.Ssh.Context
import PongFixture.Listener.Announcement

/-!
# One SSH client and its connection

A session is one client with the connection that serves it: the link with its worker, the handler
that decides for it, whether the client is authenticated, and the channels that the client has
opened, each with what the client has not listened to yet. The transport cares for the rest: it
lets only an authenticated client open channels, it holds back the answer to a rejected attempt,
and it carries the data of the first session channel to the worker, and of no other.

`perform` is one action of the client, finished with all that it brings about. Its outcome says
what the client sees, what the log shows, and how long it took.
-/

set_option autoImplicit false

namespace PongFixture.Ssh

/-- What a client notices on a channel: that no more will come, that the channel was closed, or
that it is gone. -/
inductive ChannelEvent
  | eof
  | close
  | gone
  deriving DecidableEq

/-- A channel that a client has opened. Its name is the client's own. -/
structure Channel where
  name : String
  id : ChannelId
  isOpen : Bool
  unheard : Bytes
  unseen : List ChannelEvent
  deriving DecidableEq

namespace Channel

/-- A channel that has just been opened. -/
def new (name : String) (id : ChannelId) : Channel := ⟨name, id, true, [], []⟩

/-- A channel on which octets have come in. -/
def receive (channel : Channel) (bytes : Bytes) : Channel :=
  { channel with unheard := channel.unheard ++ bytes }

/-- A channel that is no more. Its client notices that once. -/
def vanish (channel : Channel) : Channel :=
  if channel.isOpen then
    { channel with isOpen := false, unseen := channel.unseen ++ [.gone] }
  else channel

/-- A channel whose client has listened to all there is. -/
def listened (channel : Channel) : Channel := { channel with unheard := [], unseen := [] }

end Channel

/-- What a client asks for when it opens a channel: a kind that the policy decides on, or a kind
that the transport refuses by itself. -/
inductive OpenRequest
  | decided (kind : ChannelKind)
  | streamlocal
  deriving DecidableEq

/-- What a client does. -/
inductive Action
  | connect
  | password (username password : String)
  | askMethods (username : String)
  | openChannel (channel : String) (request : OpenRequest)
  | send (channel : String) (bytes : Bytes)
  | sendExtended (channel : String) (bytes : Bytes)
  | endInput (channel : String)
  | closeChannel (channel : String)
  | wait (ms : Nat)
  | disconnect
  | drop
  deriving DecidableEq

/-- The answer to an attempt to authenticate. A client that is authenticated gets none. -/
inductive AuthAnswer
  | success
  | failure (remaining : List Method)
  | closed
  | unanswered
  deriving DecidableEq

/-- The answer to a request to open a channel. -/
inductive OpenAnswer
  | granted
  | failure (reason : Refusal)
  | closed
  deriving DecidableEq

/-- What a client hears when it listens to a channel. -/
structure Hearing where
  received : Bytes
  events : List ChannelEvent
  deriving DecidableEq

/-- What a client sees of its own action. -/
inductive Reply
  | connected (established : Bool)
  | authenticated (answer : AuthAnswer)
  | opened (answer : OpenAnswer) (hearing : Option Hearing)
  | sent (accepted : Bool) (hearing : Hearing)
  | noChannel
  | noClient
  | done
  deriving DecidableEq

/-- A client and its connection. -/
structure Session where
  link : Link
  handler : Handler
  authenticated : Bool
  attempted : Bool
  channels : List Channel
  opened : Nat

/-- What an action comes to: what the client sees, the events, the milliseconds it took, and the
session afterwards, if the client still has one. -/
structure Outcome where
  reply : Reply
  events : List Event
  duration : Nat
  session : Option Session

namespace Session

/-- How long after an answer that was held back the next action begins. -/
def settlingTime : Nat := 1

/-- A session with the effects of some deeds of its worker: what was sent is on the served channel,
and all channels vanish with the transport. -/
def absorb (session : Session) (outcome : List Deed × Link) : List Event × Session :=
  let delivered := session.channels.map fun channel =>
    if session.handler.handover.delivered = some channel.id then
      channel.receive (sentBy outcome.1)
    else channel
  let channels := if outcome.2.isUp then delivered else delivered.map Channel.vanish
  (eventsOf outcome.1, { session with link := outcome.2, channels })

/-- Lets something happen to the worker. -/
def happen (session : Session) (happening : Happening) : List Event × Session :=
  session.absorb (session.link.happen happening)

/-- Ends the transport. -/
def sever (session : Session) (error : String) : List Event × Session :=
  session.absorb (session.link.sever (some error))

/-- Lets time pass. -/
def elapse (session : Session) (ms : Nat) : List Event × Session :=
  session.absorb (session.link.elapse ms)

/-- Notes a message of the client. -/
def heard (session : Session) : Session := { session with link := session.link.heard }

/-- The connection of a client right after the version exchange. -/
def begin (credentials : Credentials) (assignment : Assignment) : Session :=
  { link := (Link.accepted assignment).establish.2
    handler := .new credentials assignment.peer
    authenticated := false
    attempted := false
    channels := []
    opened := 0 }

/-- The channel of a name. The last one opened counts. -/
def channel? (session : Session) (name : String) : Option Channel :=
  session.channels.find? fun channel => channel.name == name

/-- A session in which the channel of an id has been replaced. -/
def withChannel (session : Session) (changed : Channel) : Session :=
  { session with
    channels := session.channels.map fun channel =>
      if channel.id = changed.id then changed else channel }

/-- Listens to the channel of a name: what there is to hear, and the session afterwards. -/
def listen (session : Session) (name : String) : Hearing × Session :=
  match session.channel? name with
  | none => (⟨[], []⟩, session)
  | some channel => (⟨channel.unheard, channel.unseen⟩, session.withChannel channel.listened)

/-- Whether a channel is the one that the worker serves. -/
def serves (session : Session) (channel : Channel) : Bool :=
  session.handler.handover.delivered == some channel.id

/-- Lets the answer to a rejected attempt be held back. -/
def holdBack (session : Session) : List Event × Session :=
  let (first, session) := session.elapse rejectionDelay
  let (second, session) := session.heard.elapse settlingTime
  (first ++ second, session)

/-- Tries a password. -/
def tryPassword (session : Session) (username password : String) : Outcome :=
  if !session.link.isUp then
    ⟨.authenticated .closed, [], 0, some session⟩
  else if session.authenticated then
    ⟨.authenticated .unanswered, [], 0, some session.heard⟩
  else
    let session := { session.heard with attempted := true }
    match session.handler.onPassword username password with
    | (.accepted, events) =>
      ⟨.authenticated .success, events, 0, some { session with authenticated := true }⟩
    | (_, events) =>
      let (later, session) := session.holdBack
      ⟨.authenticated (.failure methods), events ++ later, rejectionDelay + settlingTime,
        some session⟩

/-- Asks for the ways to authenticate. The first attempt of a connection is answered at once. -/
def askMethods (session : Session) : Outcome :=
  if !session.link.isUp then
    ⟨.authenticated .closed, [], 0, some session⟩
  else if session.authenticated then
    ⟨.authenticated .unanswered, [], 0, some session.heard⟩
  else if session.attempted then
    let (events, session) := session.heard.holdBack
    ⟨.authenticated (.failure methods), events, rejectionDelay + settlingTime, some session⟩
  else
    ⟨.authenticated (.failure methods), [], firstRejectionDelay,
      some { session.heard with attempted := true }⟩

/-- Hands a channel to the worker, if the handler has just passed it on. -/
def handOver (session : Session) (before : Handover) : List Event × Session :=
  if before.delivered = session.handler.handover.delivered then ([], session)
  else session.happen (.channelPassed .willing)

/-- Opens a channel, as an authenticated client does. -/
def request (session : Session) (name : String) (kind : ChannelKind) : Outcome :=
  let before := session.handler.handover
  match session.handler.onOpen kind session.opened with
  | (.opened true, events, handler) =>
    let session :=
      { session with
        handler
        channels := .new name session.opened :: session.channels
        opened := session.opened + 1 }
    let (later, session) := session.handOver before
    let (hearing, session) := session.listen name
    ⟨.opened .granted (some hearing), events ++ later, 0, some session⟩
  | (_, events, handler) =>
    ⟨.opened (.failure .administrativelyProhibited) none, events, 0,
      some { session with handler }⟩

/-- Asks for a channel. A client that asks too early breaks the protocol, and the transport ends. -/
def openChannel (session : Session) (name : String) (request : OpenRequest) : Outcome :=
  if !session.link.isUp then ⟨.opened .closed none, [], 0, some session⟩
  else if !session.authenticated then
    let (events, session) := session.sever "early eof"
    ⟨.opened .closed none, events, 0, some session⟩
  else
    match request with
    | .decided kind => session.heard.request name kind
    | .streamlocal =>
      ⟨.opened (.failure .administrativelyProhibited) none, [], 0, some session.heard⟩

/-- Sends a message on a channel, where `effect` is what it does to a session whose transport is
up, and then listens to the channel. -/
def onChannel (session : Session) (name : String)
    (effect : Session → Channel → List Event × Session) : Outcome :=
  match session.channel? name with
  | none => ⟨.noChannel, [], 0, some session⟩
  | some channel =>
    let up := session.link.isUp
    let (events, session) := if up then effect session.heard channel else ([], session)
    let (hearing, session) := session.listen name
    ⟨.sent up hearing, events, 0, some session⟩

/-- What comes in on a channel reaches the worker if it serves the channel. -/
def arrive (session : Session) (channel : Channel) (arrivals : List Exchange.Arrival) :
    List Event × Session :=
  if session.serves channel && channel.isOpen then session.happen (.arrived arrivals)
  else ([], session)

/-- Delivers the octets of a message. No octets are no message. -/
def deliver (bytes : Bytes) (session : Session) (channel : Channel) : List Event × Session :=
  session.arrive channel (if bytes = [] then [] else [.data bytes])

/-- Ends the input of a channel. -/
def endInput (session : Session) (channel : Channel) : List Event × Session :=
  session.arrive channel [.data []]

/-- Closes a channel: its input ends, and it is gone. -/
def closeChannel (session : Session) (channel : Channel) : List Event × Session :=
  let (events, session) := session.endInput channel
  (events, { session with
    channels := session.channels.map fun other =>
      if other.id = channel.id then other.vanish else other })

/-- Connects. A connection that the client has already is dropped, and one that does not last is
none. -/
def connect (credentials : Credentials) (assignment : Assignment) (old : Option Session) : Outcome :=
  let (begun, session) := (begin credentials assignment).elapse 0
  let ended := old.toList.flatMap fun session => (session.sever "early eof").1
  ⟨.connected session.link.isUp,
    Listener.accepted protocolName assignment.peer :: (begun ++ ended), 0,
    if session.link.isUp then some session else none⟩

/-- One action of a client that has a session, `connect` apart. -/
def act (session : Session) : Action → Outcome
  | .connect => ⟨.done, [], 0, some session⟩
  | .password username password => session.tryPassword username password
  | .askMethods _ => session.askMethods
  | .openChannel channel request => session.openChannel channel request
  | .send channel bytes => session.onChannel channel (deliver bytes)
  | .sendExtended channel _ => session.onChannel channel fun session _ => ([], session)
  | .endInput channel => session.onChannel channel endInput
  | .closeChannel channel => session.onChannel channel closeChannel
  | .wait ms => ⟨.done, (session.elapse ms).1, ms, some (session.elapse ms).2⟩
  | .disconnect =>
    ⟨.done, (session.sever "early eof").1, 0, some (session.sever "early eof").2⟩
  | .drop => ⟨.done, (session.sever "early eof").1, 0, none⟩

/-- One action of a client, which may have no session. Waiting is possible without one. -/
def perform (credentials : Credentials) (assignment : Assignment) (action : Action) :
    Option Session → Outcome
  | none =>
    match action with
    | .connect => connect credentials assignment none
    | .wait ms => ⟨.done, [], ms, none⟩
    | _ => ⟨.noClient, [], 0, none⟩
  | some session =>
    match action with
    | .connect => connect credentials assignment (some session)
    | action => session.act action

end Session

end PongFixture.Ssh
