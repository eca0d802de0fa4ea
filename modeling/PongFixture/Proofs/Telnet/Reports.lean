import PongFixture.Proofs.Exchange.Delivery
import PongFixture.Proofs.Telnet.Books
import PongFixture.Proofs.Text.Utf8

/-!
# What the log shows of a text

Every chunk that a telnet connection reads is reported in a line of its own, read as text by itself.
So where the octets of a text arrive in several chunks, the lines show that text again exactly if
every chunk ends between two of its characters (`lines_show_text_iff`). Nothing is assumed of how
the stream behaves: the chunks are those of any course of a connection.
-/

set_option autoImplicit false

namespace PongFixture.Telnet

open Exchange

/-- The course of a connection: what its worker does on the stream, and what it logs. -/
structure Course where
  acts : List Act
  events : List Event

/-- The course of a connection over all that comes in on its stream. -/
def course (peer : Client) (stream : Stream) : Course :=
  let accepted := accept peer stream.sink
  let advanced := advance peer accepted.2.2 stream.arrivals
  ⟨accepted.1 ++ advanced.1, accepted.2.1 ++ advanced.2.1⟩

/-- The text that a line reports as received from a client. -/
def reportedText (client : Client) (line : Event) : List Char :=
  line.message.toList.drop ("Received data from " ++ client ++ ": ").toList.length

/-- The line about a chunk reports the text of the chunk. -/
theorem reportedText_received (client : Client) (bytes : Bytes) :
    reportedText client (received client bytes) = Utf8.decodeLossy bytes := by
  have hmessage : (received client bytes).message.toList =
      ("Received data from " ++ client ++ ": ").toList ++ Utf8.decodeLossy bytes := by
    simp only [received, Utf8.display, String.toList_append, String.toList_ofList]
  rw [reportedText, hmessage, List.drop_left]

section Lines

variable (peer : Client)

/-- Of the acts of an exchange only the chunks are reported as received. -/
theorem chunkLines_eventsOf (acts : List Act) :
    chunkLines peer (eventsOf (received peer) acts) = (chunks acts).map (received peer) := by
  induction acts with
  | nil => rfl
  | cons act acts ih =>
    have hact : chunkLines peer (act.events (received peer)) =
        (chunks [act]).map (received peer) := by
      cases act with
      | chunk bytes => exact chunkLines_received peer [bytes]
      | ended replies => simp [Act.events, chunkLines, reportsChunk, chunks, List.isPrefixOf]
      | _ => rfl
    have hsplit : chunks (act :: acts) = chunks [act] ++ chunks acts := chunks_append [act] acts
    rw [hsplit, List.map_append, ← ih, ← hact, ← chunkLines_append]
    rfl

/-- The end of a worker reports no chunk. -/
theorem chunkLines_conclusion (standing : Standing) :
    chunkLines peer (conclusion peer standing) = [] := by
  cases standing with
  | waiting => rfl
  | finished result => exact chunkLines_concluded peer peer result

/-- A worker reports every chunk that it hands on, in the same order. -/
theorem chunkLines_advance (standing : Standing) (arrivals : List Arrival) :
    chunkLines peer (advance peer standing arrivals).2.1 =
      (chunks (advance peer standing arrivals).1).map (received peer) := by
  cases standing with
  | finished result => rfl
  | waiting buffer sink replies =>
    simp only [advance, chunkLines_append, chunkLines_eventsOf, chunkLines_conclusion,
      List.append_nil]

/-- Every chunk of a connection is reported once, in order. -/
theorem chunkLines_course (stream : Stream) :
    chunkLines peer (course peer stream).events =
      (chunks (course peer stream).acts).map (received peer) := by
  have haccept : chunkLines peer (accept peer stream.sink).2.1 =
      (chunks (accept peer stream.sink).1).map (received peer) := by
    simp only [accept, chunkLines_append, chunkLines_eventsOf, chunkLines_conclusion,
      List.append_nil]
  simp only [course, chunkLines_append, chunks_append, List.map_append, haccept,
    chunkLines_advance]

/-- A connection is a whole exchange but for the end of its input. -/
theorem run_acts_eq (stream : Stream) :
    (run banner stream).acts =
      (course peer stream).acts ++ (advance peer (accept peer stream.sink).2.2
        stream.arrivals).2.2.finish.1 := by
  unfold run course accept
  cases greet banner stream.sink with
  | mk acts standing => cases standing <;> rfl

/-- An exchange that is finished hands on nothing more. -/
theorem chunks_finish (standing : Standing) :
    chunks standing.finish.1 = [] ∧ Exchange.received standing.finish.1 = [] := by
  cases standing <;> exact ⟨rfl, rfl⟩

/-- What a connection reads is what it hands on. -/
theorem flatten_chunks_course (stream : Stream) :
    (chunks (course peer stream).acts).flatten = Exchange.received (course peer stream).acts := by
  have hwhole := received_eq_flatten (run banner stream).acts
  obtain ⟨hchunks, hreceived⟩ :=
    chunks_finish (advance peer (accept peer stream.sink).2.2 stream.arrivals).2.2
  rw [← chunks_run_eq_chunksRead, run_acts_eq peer, chunks_append, received_append, hchunks,
    hreceived, List.append_nil, List.append_nil] at hwhole
  exact hwhole.symm

end Lines

/-- Whatever a stream does, every chunk is reported by one line, in order. Where the octets read are
those of a text, a chunk from boundary to boundary is shown as its piece of the text, and all lines
together show the text if and only if no chunk ends inside a character. -/
theorem lines_show_text_iff (peer : Client) (stream : Stream) (text : List Char)
    (sent : Exchange.received (course peer stream).acts = Utf8.encode text) :
    chunkLines peer (course peer stream).events =
        (chunks (course peer stream).acts).map (received peer) ∧
      ((chunkLines peer (course peer stream).events).flatMap (reportedText peer) = text ↔
        Utf8.CutsAtBoundaries text (chunks (course peer stream).acts)) ∧
      ∀ before chunk after, chunks (course peer stream).acts = before ++ chunk :: after →
        Utf8.IsBoundary text before.flatten.length →
        Utf8.IsBoundary text (before ++ [chunk]).flatten.length →
        ∃ head piece tail, text = head ++ (piece ++ tail) ∧
          Utf8.encode head = before.flatten ∧ Utf8.encode piece = chunk ∧
          reportedText peer (received peer chunk) = piece := by
  have lines := chunkLines_course peer stream
  have whole := (flatten_chunks_course peer stream).trans sent
  refine ⟨lines, ?_, ?_⟩
  · rw [lines, List.flatMap_map]
    simp only [reportedText_received]
    exact Utf8.flatMap_decodeLossy_eq_iff whole
  · intro before chunk after hchunks begins ends
    rw [hchunks, List.flatten_append, List.flatten_cons] at whole
    rw [List.flatten_append, List.flatten_singleton] at ends
    obtain ⟨head, piece, tail, htext, hhead, hpiece⟩ :=
      Utf8.encode_of_isBoundary_isBoundary whole begins ends
    refine ⟨head, piece, tail, htext, hhead, hpiece, ?_⟩
    rw [reportedText_received, ← hpiece, Utf8.decodeLossy_encode]

/-- A text of three characters, the last of them a replacement character, comes in cut inside the
second. -/
theorem lines_show_text_iff_inside_character :
    let stream : Stream :=
      ⟨[.data [0x68, 0xC3], .notReady, .data [0xA9, 0xEF, 0xBF, 0xBD]], .willing⟩
    let text := ['h', 'é', Utf8.replacement]
    Exchange.received (course "peer" stream).acts = Utf8.encode text ∧
      (chunkLines "peer" (course "peer" stream).events).flatMap (reportedText "peer") =
        ['h', Utf8.replacement, Utf8.replacement, Utf8.replacement] ∧
      ¬ Utf8.CutsAtBoundaries text (chunks (course "peer" stream).acts) := by
  intro stream text
  have hchunks : chunks (course "peer" stream).acts = [[0x68, 0xC3], [0xA9, 0xEF, 0xBF, 0xBD]] := by
    decide +kernel
  have sent : Exchange.received (course "peer" stream).acts = Utf8.encode text := by
    rw [← flatten_chunks_course, hchunks]
    decide
  obtain ⟨lines, iff_cuts, -⟩ := lines_show_text_iff "peer" stream text sent
  have shown : (chunkLines "peer" (course "peer" stream).events).flatMap (reportedText "peer") =
      ['h', Utf8.replacement, Utf8.replacement, Utf8.replacement] := by
    rw [lines, hchunks, List.flatMap_map]
    simp only [reportedText_received]
    decide
  refine ⟨sent, shown, fun cuts => ?_⟩
  rw [← iff_cuts, shown] at cuts
  revert cuts
  decide

end PongFixture.Telnet
