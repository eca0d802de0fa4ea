import PongFixture.Ssh.Credentials
import PongFixture.Log.Event

/-!
# The callbacks of one connection

While a client talks to the server, the transport asks the connection's handler about passwords
and channel opens. The handler answers by the policy and passes the first session channel that it
opens to the worker of the connection. The hand-over happens at most once: the handler holds a
sender that the first session open uses up, and what it sends arrives if the worker is still
waiting at that moment.
-/

set_option autoImplicit false

namespace PongFixture.Ssh

/-- The number by which a connection tells its channels apart. -/
abbrev ChannelId := Nat

/-- The one-time way of a channel from the handler to the worker. -/
structure Handover where
  senderHeld : Bool
  receiverAlive : Bool
  delivered : Option ChannelId
  deriving DecidableEq

namespace Handover

/-- A way that has not been used. -/
def new : Handover := ⟨true, true, none⟩

/-- Sends a channel, if none was sent before. It arrives if somebody still receives. -/
def pass (handover : Handover) (channel : ChannelId) : Handover :=
  if handover.senderHeld then
    { handover with
      senderHeld := false
      delivered := if handover.receiverAlive then some channel else none }
  else handover

/-- Stops receiving. -/
def abandon (handover : Handover) : Handover := { handover with receiverAlive := false }

end Handover

/-- The handler of one connection. The peer's address stands in its events. -/
structure Handler where
  credentials : Credentials
  peer : String
  handover : Handover
  deriving DecidableEq

/-- What the transport asks of a handler, and the worker's ceasing to wait. -/
inductive Callback
  | password (username password : String)
  | openChannel (kind : ChannelKind) (channel : ChannelId)
  | abandoned
  deriving DecidableEq

/-- The answer to a callback. -/
inductive CallbackAnswer
  | accepted
  | rejected (remaining : List Method)
  | opened (allowed : Bool)
  | noted
  deriving DecidableEq

namespace Handler

/-- The handler of a new connection. -/
def new (credentials : Credentials) (peer : String) : Handler := ⟨credentials, peer, .new⟩

/-- An event that names the peer first. -/
def report (handler : Handler) (message : String) (fields : List Field) : Event :=
  ⟨.debug, .secure, message, .plain "peer" handler.peer :: fields⟩

/-- Decides on a password. A rejected client may try another. -/
def onPassword (handler : Handler) (username password : String) : CallbackAnswer × List Event :=
  match handler.credentials.judge username password with
  | .successful =>
    (.accepted, [handler.report "Password accepted" [.text "user" username]])
  | .failed =>
    (.rejected methods, [handler.report "Password rejected" [.text "user" username]])

/-- Decides on a channel, and hands it over when it is the first to be opened. -/
def onOpen (handler : Handler) (kind : ChannelKind) (channel : ChannelId) :
    CallbackAnswer × List Event × Handler :=
  match admission kind with
  | .granted =>
    (.opened true,
      [handler.report "Channel opened"
        [.plain "kind" kind.name, .plain "id" ("ChannelId(" ++ toString channel ++ ")")]],
      { handler with handover := handler.handover.pass channel })
  | .refused reason =>
    (.opened false,
      [handler.report "Channel open rejected"
        [.plain "kind" kind.name, .plain "reason" (toString reason.code)]],
      handler)

/-- One callback: its answer, the events it causes, and the handler afterwards. -/
def step (handler : Handler) : Callback → CallbackAnswer × List Event × Handler
  | .password username password =>
    ((handler.onPassword username password).1, (handler.onPassword username password).2, handler)
  | .openChannel kind channel => handler.onOpen kind channel
  | .abandoned => (.noted, [], { handler with handover := handler.handover.abandon })

/-- A series of callbacks: the answers in order, and the handler at the end. -/
def steps (handler : Handler) : List Callback → List CallbackAnswer × Handler
  | [] => ([], handler)
  | callback :: callbacks =>
    ((handler.step callback).1 :: (((handler.step callback).2.2).steps callbacks).1,
      (((handler.step callback).2.2).steps callbacks).2)

/-- No callback changes the accepted pair. -/
@[simp] theorem credentials_step (handler : Handler) (callback : Callback) :
    (handler.step callback).2.2.credentials = handler.credentials := by
  cases callback with
  | password username password => rfl
  | openChannel kind channel => cases kind <;> rfl
  | abandoned => rfl

end Handler

end PongFixture.Ssh
