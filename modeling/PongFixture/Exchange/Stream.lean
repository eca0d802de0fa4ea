import PongFixture.Text.Utf8
import PongFixture.Fault

/-!
# Byte streams, by what their calls do

A stream is described by what it will do: the arrivals that its reads hand out, and the answers
that its writes and flushes give. A call that is not ready is made again and leaves nothing behind.
After the last scripted answer every write is accepted whole and every flush succeeds.

`read`, `writeAll` and `flush` say what one call, or one run of calls, does with such a script.
Each leaves the script that remains, and the writing side also lists the calls it completed, as
`Act`s in their order.
-/

set_option autoImplicit false

namespace PongFixture.Exchange

/-- What comes in on a stream. Octets are handed out over as many reads as they need; no octets
at all are the end of the input. -/
inductive Arrival
  | data (bytes : Bytes)
  | notReady
  | fault (fault : Fault)

/-- What one write does: take all that is offered, take at most so many octets, or fail. -/
inductive Acceptance
  | all
  | upTo (limit : Nat)
  | notReady
  | fault (fault : Fault)

/-- What one flush does. -/
inductive Flushing
  | done
  | notReady
  | fault (fault : Fault)

/-- The writing side of a stream. -/
structure Sink where
  acceptances : List Acceptance
  flushings : List Flushing

/-- A writing side whose calls all succeed. -/
def Sink.willing : Sink := ⟨[], []⟩

/-- What happened in an exchange: a completed call on the stream, a chunk handed on, or the end
of the input noticed after so many replies. -/
inductive Act
  | read (room : Nat) (bytes : Bytes)
  | readFailed (fault : Fault)
  | chunk (bytes : Bytes)
  | wrote (bytes : Bytes)
  | writeFailed (fault : Fault)
  | flushed
  | flushFailed (fault : Fault)
  | ended (replies : Nat)
  deriving DecidableEq

/-- The answer to a read: nothing has come in yet, octets (none at the end), or a fault. -/
inductive Reading
  | idle
  | got (bytes : Bytes)
  | fault (fault : Fault)

/-- Reads into `room` octets: as many of the next octets as fit. What does not fit stays. -/
def read (room : Nat) : List Arrival → Reading × List Arrival
  | [] => (.idle, [])
  | .notReady :: arrivals => read room arrivals
  | .fault fault :: arrivals => (.fault fault, arrivals)
  | .data bytes :: arrivals =>
    if bytes.length ≤ room then (.got bytes, arrivals)
    else (.got (bytes.take room), .data (bytes.drop room) :: arrivals)

/-- Writes octets until all are accepted. An interrupted write is made again; any other fault, and
a write that accepts nothing, ends the attempt. -/
def writeAll : List Acceptance → Bytes → List Act × Except Fault (List Acceptance)
  | script, [] => ([], .ok script)
  | [], b :: bytes => ([.wrote (b :: bytes)], .ok [])
  | .notReady :: script, b :: bytes => writeAll script (b :: bytes)
  | .all :: script, b :: bytes => ([.wrote (b :: bytes)], .ok script)
  | .upTo limit :: script, b :: bytes =>
    if limit = 0 then ([.wrote []], .error .nothingWritten)
    else
      (.wrote ((b :: bytes).take limit) :: (writeAll script ((b :: bytes).drop limit)).1,
        (writeAll script ((b :: bytes).drop limit)).2)
  | .fault fault :: script, b :: bytes =>
    if fault.kind = .interrupted then
      (.writeFailed fault :: (writeAll script (b :: bytes)).1, (writeAll script (b :: bytes)).2)
    else ([.writeFailed fault], .error fault)

/-- Flushes what was written. -/
def flush : List Flushing → List Act × Except Fault (List Flushing)
  | [] => ([.flushed], .ok [])
  | .notReady :: script => flush script
  | .done :: script => ([.flushed], .ok script)
  | .fault fault :: _ => ([.flushFailed fault], .error fault)

/-- Sends octets: writes them in full, then flushes. -/
def Sink.send (sink : Sink) (bytes : Bytes) : List Act × Except Fault Sink :=
  match writeAll sink.acceptances bytes with
  | (written, .error fault) => (written, .error fault)
  | (written, .ok acceptances) =>
    match flush sink.flushings with
    | (settled, .error fault) => (written ++ settled, .error fault)
    | (settled, .ok flushings) => (written ++ settled, .ok ⟨acceptances, flushings⟩)

/-- A bound on the reads that arrivals can serve: one for each of them and one for each octet. -/
def weight : List Arrival → Nat
  | [] => 0
  | .data bytes :: arrivals => bytes.length + 1 + weight arrivals
  | _ :: arrivals => 1 + weight arrivals

/-- A read that hands out octets uses up arrivals. -/
theorem weight_read_lt {room : Nat} {arrivals rest : List Arrival} {b : UInt8} {bytes : Bytes}
    (h : read room arrivals = (.got (b :: bytes), rest)) : weight rest < weight arrivals := by
  fun_induction read room arrivals with
  | case1 => simp at h
  | case2 arrivals ih => have := ih h; simp only [weight]; omega
  | case3 => simp at h
  | case4 data arrivals fits =>
    obtain ⟨-, rfl⟩ := Prod.mk.inj h
    simp only [weight]
    omega
  | case5 data arrivals big =>
    obtain ⟨got, rfl⟩ := Prod.mk.inj h
    have := congrArg List.length (Reading.got.inj got)
    simp only [weight, List.length_take, List.length_cons, List.length_drop] at *
    omega

/-- Sending nothing on a willing sink is a flush. -/
@[simp] theorem Sink.send_willing_nil :
    Sink.willing.send [] = ([.flushed], .ok Sink.willing) := rfl

/-- Sending octets on a willing sink is one write and a flush. -/
@[simp] theorem Sink.send_willing_cons (b : UInt8) (bytes : Bytes) :
    Sink.willing.send (b :: bytes) = ([.wrote (b :: bytes), .flushed], .ok Sink.willing) := rfl

end PongFixture.Exchange
