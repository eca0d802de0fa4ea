import PongFixture.Exchange.Stream
import PongFixture.Log.Event

/-!
# The greeting and the replies

An exchange greets its peer and then answers every chunk that comes in, whatever it holds, with
one fixed reply. There is no framing: a chunk is what one read hands out, at most `chunkSize`
octets. The exchange ends when the input ends or when a call on the stream fails, and a failure
is passed on as it is.

`greet` begins an exchange, `converse` carries it on over the arrivals there are, and leaves it
waiting when they run out, so that an exchange can be taken up again with what comes in later.
`run` is the whole of an exchange on a stream whose input ends after its last arrival.
-/

set_option autoImplicit false

namespace PongFixture.Exchange

/-- The most octets that one read takes. -/
def chunkSize : Nat := 1024

/-- The fixed lines of a fixture: one sent before the first read, one after every chunk. -/
structure Banner where
  greeting : Bytes
  reply : Bytes
  deriving DecidableEq

/-- The memory that every chunk of an exchange is read into. -/
structure Buffer where
  capacity : Nat
  held : Bytes

namespace Buffer

/-- The buffer an exchange begins with. -/
def new : Buffer := ⟨chunkSize, []⟩

/-- A buffer without its contents. -/
def clear (buffer : Buffer) : Buffer := { buffer with held := [] }

/-- The octets that a read may still put into a buffer. -/
def room (buffer : Buffer) : Nat := buffer.capacity - buffer.held.length

/-- A buffer with further octets after those it holds. -/
def fill (buffer : Buffer) (bytes : Bytes) : Buffer := { buffer with held := buffer.held ++ bytes }

end Buffer

/-- Where an exchange stands between two arrivals: waiting to read after so many replies, or
finished, with the number of replies or the fault that ended it. -/
inductive Standing
  | waiting (buffer : Buffer) (sink : Sink) (replies : Nat)
  | finished (result : Except Fault Nat)

/-- Begins an exchange: sends the greeting. -/
def greet (banner : Banner) (sink : Sink) : List Act × Standing :=
  match sink.send banner.greeting with
  | (acts, .error fault) => (acts, .finished (.error fault))
  | (acts, .ok sink) => (acts, .waiting .new sink 0)

/-- Reads and replies until the arrivals run out, the input ends or a call fails. -/
def converse (banner : Banner) (buffer : Buffer) (sink : Sink) (replies : Nat)
    (arrivals : List Arrival) : List Act × Standing :=
  match _ : read buffer.clear.room arrivals with
  | (.idle, _) => ([], .waiting buffer.clear sink replies)
  | (.fault fault, _) => ([.readFailed fault], .finished (.error fault))
  | (.got [], _) => ([.read buffer.clear.room [], .ended replies], .finished (.ok replies))
  | (.got (b :: bytes), rest) =>
    match sink.send banner.reply with
    | (acts, .error fault) =>
      (.read buffer.clear.room (b :: bytes) :: .chunk (buffer.clear.fill (b :: bytes)).held :: acts,
        .finished (.error fault))
    | (acts, .ok sink) =>
      let later := converse banner (buffer.clear.fill (b :: bytes)) sink (replies + 1) rest
      (.read buffer.clear.room (b :: bytes) :: .chunk (buffer.clear.fill (b :: bytes)).held ::
          (acts ++ later.1),
        later.2)
termination_by weight arrivals
decreasing_by exact weight_read_lt ‹_›

/-- Takes an exchange up again with further arrivals. An exchange that is over stays so. -/
def Standing.resume (banner : Banner) (arrivals : List Arrival) : Standing → List Act × Standing
  | .waiting buffer sink replies => converse banner buffer sink replies arrivals
  | .finished result => ([], .finished result)

/-- Lets the input of an exchange end. -/
def Standing.finish : Standing → List Act × Except Fault Nat
  | .waiting buffer _ replies => ([.read buffer.clear.room [], .ended replies], .ok replies)
  | .finished result => ([], result)

/-- A stream: what comes in on it and how its writing side behaves. The input ends after the
last arrival. -/
structure Stream where
  arrivals : List Arrival
  sink : Sink

/-- A whole exchange: all that happened, in order, and the number of replies or the fault. -/
structure Transcript where
  acts : List Act
  result : Except Fault Nat

/-- Runs an exchange on a stream to its end. -/
def run (banner : Banner) (stream : Stream) : Transcript :=
  let greeted := greet banner stream.sink
  let conversed := greeted.2.resume banner stream.arrivals
  let finished := conversed.2.finish
  ⟨greeted.1 ++ conversed.1 ++ finished.1, finished.2⟩

namespace Act

/-- The octets that a stream accepted in one act. -/
def sent : Act → Bytes
  | .wrote bytes => bytes
  | _ => []

/-- The events of one act, where `received` reports a chunk. -/
def events (received : Bytes → Event) : Act → List Event
  | .chunk bytes => [received bytes]
  | .ended replies =>
    [⟨.trace, .exchange, "Connection closed by peer", [.plain "replies" (toString replies)]⟩]
  | _ => []

end Act

/-- The octets that a stream accepted over a series of acts. -/
def sent (acts : List Act) : Bytes := acts.flatMap Act.sent

/-- The chunks that were handed on over a series of acts. -/
def chunks (acts : List Act) : List Bytes :=
  acts.filterMap fun
    | .chunk bytes => some bytes
    | _ => none

/-- The octets that were read over a series of acts. -/
def received (acts : List Act) : Bytes :=
  acts.flatMap fun
    | .read _ bytes => bytes
    | _ => []

/-- The events of a series of acts. -/
def eventsOf (report : Bytes → Event) (acts : List Act) : List Event :=
  acts.flatMap (Act.events report)

/-- A cleared buffer has room for all it can hold. -/
@[simp] theorem Buffer.room_clear (buffer : Buffer) : buffer.clear.room = buffer.capacity := rfl

/-- Filling a cleared buffer leaves exactly what was filled in. -/
@[simp] theorem Buffer.held_fill_clear (buffer : Buffer) (bytes : Bytes) :
    (buffer.clear.fill bytes).held = bytes := rfl

/-- Acts in sequence send what the first send, then what the others send. -/
@[simp] theorem sent_append (first second : List Act) :
    sent (first ++ second) = sent first ++ sent second := by
  simp [sent]

/-- Acts in sequence hand on the chunks of the first, then those of the others. -/
@[simp] theorem chunks_append (first second : List Act) :
    chunks (first ++ second) = chunks first ++ chunks second := by
  simp [chunks]

/-- Acts in sequence read what the first read, then what the others read. -/
@[simp] theorem received_append (first second : List Act) :
    received (first ++ second) = received first ++ received second := by
  simp [received]

end PongFixture.Exchange
