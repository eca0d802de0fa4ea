import PongFixture.Ssh.Worker

/-!
# A connection in time

A link is one connection as the server holds it: the worker that looks after it, and two clocks in
milliseconds. `age` runs from the end of the version exchange, and the worker loses patience when
it reaches the configured wait while no channel has been handed over. `silence` runs from the last
message, and the transport gives up a peer that is silent for too long. When both clocks strike at
once the worker is first.

A link is up as long as its worker has not left, since the worker leaves when the transport ends
and ends the transport when it leaves.
-/

set_option autoImplicit false

namespace PongFixture.Ssh

/-- How long, in milliseconds, a peer may be silent. -/
def silenceLimit : Nat := 600000

/-- One connection of a server, with the farewell that the server has said on it, if it has. -/
structure Link where
  assignment : Assignment
  stage : Stage
  farewell : Option Farewell
  age : Nat
  silence : Nat

namespace Link

/-- A connection that has just been accepted. -/
def accepted (assignment : Assignment) : Link := ⟨assignment, .connecting, none, 0, 0⟩

/-- Whether the transport is up. -/
def isUp (link : Link) : Bool :=
  match link.stage with
  | .left => false
  | _ => true

/-- Whether the worker waits for a channel. -/
def awaitsChannel (link : Link) : Bool :=
  match link.stage with
  | .awaitingChannel => true
  | _ => false

/-- Lets something happen to the worker. A disconnect that it asks for reaches the peer. -/
def happen (link : Link) (happening : Happening) : List Deed × Link :=
  let (deeds, stage) := link.stage.step link.assignment happening
  (deeds, { link with stage, farewell := link.farewell.or (deeds.findSome? Deed.farewell?) })

/-- Ends the transport. The worker sees the end of the session, or the end of the input of the
channel that it serves; a disconnect that it asks for goes nowhere. -/
def sever (link : Link) (error : Option String) : List Deed × Link :=
  let (deeds, stage) := link.stage.steps link.assignment
    [.sessionEnded error, .arrived [.data []]]
  (deeds, { link with stage })

/-- Ends the version exchange well, which starts both clocks. -/
def establish (link : Link) : List Deed × Link :=
  ({ link with age := 0, silence := 0 } : Link).happen .setupDone

/-- Notes a message of the peer. -/
def heard (link : Link) : Link := { link with silence := 0 }

/-- The age at which the worker loses patience. -/
def patience (link : Link) : Nat := 1000 * link.assignment.wait

/-- Whether the worker loses patience within a time. -/
def tires (link : Link) (ms : Nat) : Bool :=
  link.awaitsChannel && decide (link.patience ≤ link.age + ms)

/-- Whether the peer has been silent for too long within a time. -/
def fallsSilent (link : Link) (ms : Nat) : Bool :=
  link.isUp && decide (silenceLimit ≤ link.silence + ms)

/-- Whether the worker loses patience before the silence gets too long, or with it. -/
def tiresFirst (link : Link) : Bool :=
  decide (link.patience - link.age ≤ silenceLimit - link.silence)

/-- A link so much later, if nothing happens to it. -/
def later (link : Link) (ms : Nat) : Link :=
  { link with age := link.age + ms, silence := link.silence + ms }

/-- What the silence of a peer does: it fails the version exchange, and ends a session. -/
def giveUp (link : Link) : List Deed × Link :=
  match link.stage with
  | .connecting => link.happen (.setupFailed "deadline has elapsed")
  | _ => link.sever (some "Inactivity timeout")

/-- Lets time pass. -/
def elapse (link : Link) (ms : Nat) : List Deed × Link :=
  if link.tires ms && (link.tiresFirst || !link.fallsSilent ms) then
    (link.later ms).happen .waitedTooLong
  else if link.fallsSilent ms then (link.later ms).giveUp
  else ([], link.later ms)

/-- On a link that is not up, time passes without effect. -/
theorem elapse_of_left {link : Link} (h : link.stage = .left) (ms : Nat) :
    link.elapse ms = ([], link.later ms) := by
  simp [elapse, tires, fallsSilent, awaitsChannel, isUp, h]

end Link

end PongFixture.Ssh
