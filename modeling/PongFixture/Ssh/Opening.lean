import PongFixture.Ssh.Link
import PongFixture.Ssh.Context
import PongFixture.Listener.Announcement
import PongFixture.Text.Utf8

/-!
# The first octets of a connection

Before the two sides can talk in secret they tell their versions, each on a line of plain text, and
then exchange packets that begin with their length. A peer that is no SSH client gets no further
than this. An opening is such a connection: its link, and the octets that came in and have not been
made use of.

A version line is read into a memory of fixed size. Other lines may come before it; each is thrown
away together with whatever came in with it. The version exchange fails when the memory is full or
the input ends, and when it takes too long. After it, a packet of impossible size or the end of the
input ends the session.
-/

set_option autoImplicit false

namespace PongFixture.Ssh

/-- The most octets that are held while a version line is looked for. -/
def versionMemory : Nat := 256

/-- The greatest length that a packet may have. -/
def packetLimit : Nat := 262144

/-- Where the first line of some octets ends, counted from `start`: its length, and its length
with the line end. A line ends with a line feed, which a carriage return may precede. -/
def lineEnd? (start : Nat) : Bytes → Option (Nat × Nat)
  | a :: b :: bytes =>
    if b = 10 then some (if a = 13 then start else start + 1, start + 2)
    else lineEnd? (start + 1) (b :: bytes)
  | _ => none

/-- The beginnings of a version line that are understood. -/
def knownVersions : List Bytes := [Utf8.ofString "SSH-2.0-", Utf8.ofString "SSH-1.99-"]

/-- Whether a line tells a version that is understood. -/
def isVersion (line : Bytes) : Bool :=
  (Utf8.decode? line).isSome && knownVersions.any fun known => line.take known.length == known

/-- The state of the search for a version line: it goes on with the octets held, it has succeeded
with the octets after the line, or it has failed. -/
inductive VersionSearch
  | wanting (held : Bytes)
  | found (rest : Bytes)
  | failed
  deriving DecidableEq

/-- Looks for a version line in the octets held and those that came in. -/
def findVersion (held bytes : Bytes) : VersionSearch :=
  if versionMemory ≤ held.length then .failed
  else if bytes = [] then .wanting held
  else
    match lineEnd? 0 (held ++ bytes.take (versionMemory - held.length)) with
    | none =>
      findVersion (held ++ bytes.take (versionMemory - held.length))
        (bytes.drop (versionMemory - held.length))
    | some (line, used) =>
      if isVersion ((held ++ bytes.take (versionMemory - held.length)).take line) then
        .found ((held ++ bytes.take (versionMemory - held.length)).drop used ++
          bytes.drop (versionMemory - held.length))
      else findVersion [] (bytes.drop (versionMemory - held.length))
termination_by bytes.length
decreasing_by
  all_goals
    have : bytes.length ≠ 0 := by simpa using ‹¬bytes = []›
    simp only [List.length_drop]
    omega

/-- The number that four octets write, the highest first. -/
def lengthOf (a b c d : UInt8) : Nat :=
  ((a.toNat * 256 + b.toNat) * 256 + c.toNat) * 256 + d.toNat

/-- Takes whole packets off the front of some octets: what remains, or a length that no packet has. -/
def takePackets : Bytes → Except Nat Bytes
  | a :: b :: c :: d :: bytes =>
    if packetLimit < lengthOf a b c d then .error (lengthOf a b c d)
    else if bytes.length < lengthOf a b c d then .ok (a :: b :: c :: d :: bytes)
    else takePackets (bytes.drop (lengthOf a b c d))
  | bytes => .ok bytes
termination_by bytes => bytes.length
decreasing_by
  simp only [List.length_drop, List.length_cons]
  omega

/-- A connection whose peer sends bare octets. -/
structure Opening where
  link : Link
  unread : Bytes

/-- What such a peer does. -/
inductive PeerAction
  | send (bytes : Bytes)
  | shutdown
  | reset
  | wait (ms : Nat)
  deriving DecidableEq

namespace Opening

/-- A connection that has just been accepted. -/
def accepted (assignment : Assignment) : Opening := ⟨.accepted assignment, []⟩

/-- An opening whose link has done something. -/
def withLink (opening : Opening) (outcome : List Deed × Link) : List Event × Opening :=
  (eventsOf outcome.1, { opening with link := outcome.2 })

/-- The end of a connection for a reason, in the words for the version exchange and for later. -/
def fail (opening : Opening) (early late : String) : List Event × Opening :=
  match opening.link.stage with
  | .connecting => opening.withLink (opening.link.happen (.setupFailed early))
  | _ => opening.withLink (opening.link.sever (some late))

/-- Makes use of octets that come after the version line. -/
def receivePackets (opening : Opening) (bytes : Bytes) : List Event × Opening :=
  match takePackets bytes with
  | .error size => opening.withLink (opening.link.sever (some ("Bad packet size: " ++ toString size)))
  | .ok rest =>
    ([], ⟨if rest.length < bytes.length then opening.link.heard else opening.link, rest⟩)

/-- The end of the version exchange, with the octets that came in after the line. A worker that
does not wait at all leaves at once. -/
def establish (opening : Opening) (rest : Bytes) : List Event × Opening :=
  let (begun, opening) := opening.withLink (opening.link.establish.2.elapse 0)
  if opening.link.isUp then
    let (later, opening) := opening.receivePackets rest
    (begun ++ later, opening)
  else (begun, opening)

/-- Takes octets in. -/
def receive (opening : Opening) (bytes : Bytes) : List Event × Opening :=
  match opening.link.stage with
  | .connecting =>
    match findVersion opening.unread bytes with
    | .wanting held => ([], { opening with unread := held })
    | .found rest => opening.establish rest
    | .failed => opening.withLink (opening.link.happen (.setupFailed "Disconnected"))
  | .left => ([], opening)
  | _ => opening.receivePackets (opening.unread ++ bytes)

/-- One action of the peer. -/
def act (opening : Opening) : PeerAction → List Event × Opening
  | .send bytes => opening.receive bytes
  | .shutdown => opening.fail "Disconnected" "early eof"
  | .reset => opening.fail Fault.reset.message Fault.reset.message
  | .wait ms => opening.withLink (opening.link.elapse ms)

/-- The actions of a peer in their order: after each, its events and whether the transport is up. -/
def acts (opening : Opening) : List PeerAction → List (List Event × Bool)
  | [] => []
  | action :: actions =>
    ((opening.act action).1, (opening.act action).2.link.isUp) ::
      (opening.act action).2.acts actions

end Opening

end PongFixture.Ssh
