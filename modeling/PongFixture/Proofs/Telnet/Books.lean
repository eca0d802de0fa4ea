import PongFixture.Proofs.Exchange.Pieces
import PongFixture.Telnet.Server

/-!
# The books of a telnet server

For one client, the books of a run keep a record of each of its connections: what the client sent
on it, the octets that came back, the lines of the log that report chunks, and the lines about its
end. The books are kept from the steps and the answers alone, so they say nothing that cannot be
seen from outside.

Every record balances (`every_connection_balances`): the greeting stands in it once, and the sends
fix, by the number of pieces that each of them is read in, the replies, the reported chunks and the
count in the line about the end. What carries this through a run is that the worker of the client
waits after as many replies as its open record owes (`Books.Follow`).
-/

set_option autoImplicit false

namespace PongFixture.Telnet

open Exchange

/-! ## What the log shows of a client -/

/-- Whether an event reports a chunk that was read from a client. -/
def reportsChunk (client : Client) (event : Event) : Bool :=
  ("Received data from " ++ client ++ ": ").toList.isPrefixOf event.message.toList

/-- Whether an event reports the end of a connection of a client. -/
def reportsEnd (client : Client) (event : Event) : Bool :=
  (event.message == "Telnet client disconnected" || event.message == "Connection error") &&
    event.fields.contains (.plain "peer" client)

/-- The lines that report chunks of a client. -/
def chunkLines (client : Client) (events : List Event) : List Event :=
  events.filter (reportsChunk client)

/-- The lines that report the end of a connection of a client. -/
def endLines (client : Client) (events : List Event) : List Event :=
  events.filter (reportsEnd client)

/-! ## Keeping books -/

/-- How a connection came to its end: its client left, or tore it down. -/
inductive Parting
  | left
  | torn
  deriving DecidableEq

/-- The line about the end of a connection. -/
def lineAbout (client : Client) (sends : List Bytes) : Parting → Event
  | .left => concluded client (.ok (owed sends))
  | .torn => concluded client (.error .reset)

/-- The record of a connection: what its client sent, the octets that the client received, and the
lines about its chunks and about its end. -/
structure Record where
  sends : List Bytes
  heard : Bytes
  chunks : List Event
  ends : List Event

namespace Record

/-- The record of a connection that has just been made. -/
def blank : Record := ⟨[], [], [], []⟩

/-- A record with one more answer in it. -/
def enter (client : Client) (record : Record) (answer : Answer) : Record :=
  { record with
    heard := record.heard ++ answer.received
    chunks := record.chunks ++ chunkLines client answer.events
    ends := record.ends ++ endLines client answer.events }

/-- A record in which everything agrees: the greeting was received once and then the replies that
are owed, each piece of each send was reported once, and so was the end if there was one. -/
structure Balanced (client : Client) (parting : Option Parting) (record : Record) : Prop where
  heard_eq : record.heard = banner.upTo (owed record.sends)
  chunks_eq : record.chunks = (record.sends.flatMap pieces).map (received client)
  ends_eq : record.ends = parting.toList.map (lineAbout client record.sends)

end Record

/-- The books of a client: the connections that are over, and the one that is open if there is
one. -/
structure Books where
  past : List (Record × Parting)
  current : Option Record

namespace Books

/-- The books of a client that has never been connected. -/
def blank : Books := ⟨[], none⟩

/-- The records in the books, the oldest first. -/
def records (books : Books) : List Record := books.past.map Prod.fst ++ books.current.toList

/-- Closes the open record. -/
def close (books : Books) (record : Record) (parting : Parting) : Books :=
  ⟨books.past ++ [(record, parting)], none⟩

/-- Books with one more step of the client in them. A client that connects while it is connected
leaves its old connection, and the line about that stands in the answer to the new one. -/
def enter (client : Client) (books : Books) (deed : Deed) (answer : Answer) : Books :=
  match deed, books.current with
  | .connect, none => { books with current := some (Record.blank.enter client answer) }
  | .connect, some old =>
    { books.close { old with ends := old.ends ++ endLines client answer.events } .left with
      current := some { Record.blank.enter client answer with ends := [] } }
  | _, none => books
  | .send bytes, some record =>
    { books with
      current := some { record.enter client answer with sends := record.sends ++ [bytes] } }
  | .shutdown, some record => books.close (record.enter client answer) .left
  | .drop, some record => books.close (record.enter client answer) .left
  | .reset, some record => books.close (record.enter client answer) .torn

/-- Books with one more step in them, which may be another client's. -/
def post (client : Client) (books : Books) (entry : Step × Answer) : Books :=
  if entry.1.client = client then books.enter client entry.1.deed entry.2 else books

end Books

/-- The answers to the steps of a client. -/
def answersTo (client : Client) (course : List (Step × Answer)) : List Answer :=
  (course.filter fun entry => entry.1.client = client).map Prod.snd

/-! ## Lines -/

section Lines

variable (client other : Client)

/-- The lines that report chunks come in the sequence of the events. -/
@[simp] theorem chunkLines_append (first second : List Event) :
    chunkLines client (first ++ second) = chunkLines client first ++ chunkLines client second :=
  List.filter_append ..

/-- The lines that report ends come in the sequence of the events. -/
@[simp] theorem endLines_append (first second : List Event) :
    endLines client (first ++ second) = endLines client first ++ endLines client second :=
  List.filter_append ..

/-- A report of a chunk is one, and is not about an end. -/
theorem chunkLines_received (chunks : List Bytes) :
    chunkLines client (chunks.map (received client)) = chunks.map (received client) := by
  apply List.filter_eq_self.mpr
  intro event hevent
  obtain ⟨bytes, -, rfl⟩ := List.mem_map.mp hevent
  apply List.isPrefixOf_iff_prefix.mpr
  exact ⟨(Utf8.display bytes).toList, (String.toList_append ..).symm⟩

/-- The report of a chunk reports no end. -/
theorem endLines_received (chunks : List Bytes) :
    endLines client (chunks.map (received other)) = [] := by
  apply List.filter_eq_nil_iff.mpr
  intro event hevent
  obtain ⟨bytes, -, rfl⟩ := List.mem_map.mp hevent
  simp [reportsEnd, received]

/-- The line about an end names its client, and reports no chunk. -/
theorem endLines_concluded (result : Except Fault Nat) :
    endLines client [concluded other result] =
      if client = other then [concluded other result] else [] := by
  have hreports : reportsEnd client (concluded other result) = decide (client = other) := by
    cases result <;> simp [reportsEnd, concluded, Field.plain]
  unfold endLines
  rw [List.filter_cons, hreports]
  simp

/-- The report of an end reports no chunk. -/
theorem chunkLines_concluded (result : Except Fault Nat) :
    chunkLines client [concluded other result] = [] := by
  cases result <;> simp [chunkLines, reportsChunk, concluded, List.isPrefixOf]

end Lines

/-! ## A worker that waits -/

section Worker

variable (client other : Client)

/-- Octets are answered piece by piece, and every piece is reported. -/
theorem advance_send (replies : Nat) (bytes : Bytes) :
    advance client (.waiting .new .willing replies) (Server.arrivalsOf bytes) =
      ((roundsOf banner bytes).flatMap Round.acts, (pieces bytes).map (received client),
        .waiting .new .willing (replies + pieceCount bytes.length)) := by
  have hresumed := resume_data banner replies bytes
  unfold advance Server.arrivalsOf
  simp only [hresumed, eventsOf_rounds _ (roundsOf_sends banner bytes), roundsOf_chunks, conclusion,
    List.append_nil]

/-- A new connection is greeted. -/
theorem accept_willing :
    accept client .willing = (sendingOf banner.greeting, [], .waiting .new .willing 0) := by
  have hsilent := (sendingOf_sending banner.greeting).eventsOf_eq_nil (received client)
  unfold accept
  simp only [greet_willing, hsilent, conclusion, List.append_nil]

/-- A worker whose client leaves reports how often it has replied. -/
theorem endingEvents_left (replies : Nat) :
    Server.endingEvents ⟨client, .waiting .new .willing replies⟩ (.data []) =
      [⟨.trace, .exchange, "Connection closed by peer", [.plain "replies" (toString replies)]⟩] ++
        [concluded client (.ok replies)] := by
  unfold Server.endingEvents advance
  rw [Standing.resume_end]
  rfl

/-- A connection that is torn down ends with one line, about the error. -/
theorem endingEvents_torn (replies : Nat) :
    Server.endingEvents ⟨client, .waiting .new .willing replies⟩ (.fault .reset) =
      [concluded client (.error .reset)] := by
  unfold Server.endingEvents advance
  rw [resume_fault]
  rfl

/-- No chunk is reported when a client leaves. -/
theorem chunkLines_left (replies : Nat) :
    chunkLines client
      (Server.endingEvents ⟨client, .waiting .new .willing replies⟩ (.data [])) = [] := by
  rw [endingEvents_left, chunkLines_append, chunkLines_concluded]
  simp [chunkLines, reportsChunk, List.isPrefixOf]

/-- When a client leaves, one line reports the end, with the number of replies. -/
theorem endLines_left (replies : Nat) :
    endLines client
        (Server.endingEvents ⟨client, .waiting .new .willing replies⟩ (.data [])) =
      [concluded client (.ok replies)] := by
  rw [endingEvents_left, endLines_append, endLines_concluded, if_pos rfl]
  rfl

/-- No chunk is reported when a connection is torn down. -/
theorem chunkLines_torn (replies : Nat) :
    chunkLines client
      (Server.endingEvents ⟨client, .waiting .new .willing replies⟩ (.fault .reset)) = [] := by
  rw [endingEvents_torn, chunkLines_concluded]

/-- When a connection is torn down, one line reports the end, with the error. -/
theorem endLines_torn (replies : Nat) :
    endLines client
        (Server.endingEvents ⟨client, .waiting .new .willing replies⟩ (.fault .reset)) =
      [concluded client (.error .reset)] := by
  rw [endingEvents_torn, endLines_concluded, if_pos rfl]

/-- No worker reports the end of another client's connection. -/
theorem endLines_advance (hother : client ≠ other) (standing : Standing)
    (arrivals : List Arrival) :
    endLines client (advance other standing arrivals).2.1 = [] := by
  have hacts : ∀ acts, endLines client (eventsOf (received other) acts) = [] := by
    intro acts
    apply List.filter_eq_nil_iff.mpr
    intro event hevent
    obtain ⟨act, -, hact⟩ := List.mem_flatMap.mp hevent
    cases act <;> simp_all [Act.events, reportsEnd, received]
  have hconclusion : ∀ standing, endLines client (conclusion other standing) = [] := by
    intro standing
    cases standing with
    | waiting => rfl
    | finished result => exact (endLines_concluded client other result).trans (if_neg hother)
  unfold advance
  cases standing with
  | finished result => rfl
  | waiting buffer sink replies => simp only [endLines_append, hacts, hconclusion, List.append_nil]

end Worker

/-! ## One step -/

section Step

variable {client other : Client} {server : Server}

/-- A client that is removed is not found. -/
theorem find?_without_self (client : Client) (server : Server) :
    (server.without client).find? client = none := by
  simp [Server.find?, Server.without]

/-- Removing another client changes nothing for this one. -/
theorem find?_without (hother : client ≠ other) (server : Server) :
    (server.without other).find? client = server.find? client := by
  unfold Server.find? Server.without
  rw [List.find?_filter]
  congr 1
  funext connection
  by_cases hclient : connection.client = client
  · simp [hclient, hother]
  · simp [hclient]

/-- A client whose worker is put somewhere is found there. -/
theorem find?_withStanding_self (client : Client) (server : Server) (standing : Standing) :
    (server.withStanding client standing).find? client = some ⟨client, standing⟩ := by
  have hnone := find?_without_self client server
  unfold Server.find? at hnone ⊢
  simp [Server.withStanding, List.find?_append, hnone]

/-- Putting the worker of another client somewhere changes nothing for this one. -/
theorem find?_withStanding (hother : client ≠ other) (server : Server) (standing : Standing) :
    (server.withStanding other standing).find? client = server.find? client := by
  have hsame := find?_without hother server
  unfold Server.find? at hsame ⊢
  simp [Server.withStanding, List.find?_append, hsame, hother.symm]

/-- A client that connects receives the greeting, and the connection that it had ends. -/
theorem connect_eq (client : Client) (server : Server) :
    server.connect client =
      (⟨banner.greeting, .none,
          [Listener.accepted protocolName client] ++
            (server.find? client).toList.flatMap fun connection =>
              Server.endingEvents connection (.data [])⟩,
        server.withStanding client (.waiting .new .willing 0)) := by
  unfold Server.connect
  simp only [accept_willing, sent_sendingOf, List.cons_append, List.nil_append]

/-- The connection that is found for a client is its own. -/
theorem client_of_find? {connection : Connection} (hfind : server.find? client = some connection) :
    connection.client = client := by
  have hmatch := List.find?_some hfind
  simpa using hmatch

/-- A step of another client leaves a client's worker where it stands. -/
theorem find?_perform (hother : client ≠ other) (server : Server) (deed : Deed) :
    (server.perform other deed).2.find? client = server.find? client := by
  cases hfind : server.find? other with
  | none =>
    cases deed with
    | connect => exact find?_withStanding hother server _
    | send | shutdown | drop | reset => simp only [Server.perform, hfind]
  | some connection =>
    have hclient := client_of_find? hfind
    cases deed with
    | connect => exact find?_withStanding hother server _
    | send bytes =>
      simp only [Server.perform, hfind]
      exact find?_withStanding hother server _
    | shutdown | drop | reset =>
      simp only [Server.perform, hfind, Server.finish, hclient]
      exact find?_without hother server

/-- A step of another client shows no end of a client's connection. -/
theorem endLines_perform (hother : client ≠ other) (server : Server) (deed : Deed) :
    endLines client (server.perform other deed).1.events = [] := by
  have hending : ∀ connection arrival, server.find? other = some connection →
      endLines client (Server.endingEvents connection arrival) = [] := by
    intro connection arrival hfind
    have hclient := client_of_find? hfind
    unfold Server.endingEvents
    rw [hclient]
    exact endLines_advance client other hother _ _
  have hconnect : endLines client (server.connect other).1.events = [] := by
    have hopen : endLines client [Listener.accepted protocolName other] = [] := rfl
    rw [connect_eq, endLines_append, hopen]
    cases hfind : server.find? other with
    | none => rfl
    | some connection => simpa using hending connection (.data []) hfind
  cases hfind : server.find? other with
  | none =>
    cases deed with
    | connect => exact hconnect
    | send | shutdown | drop | reset =>
      simp only [Server.perform, hfind]
      rfl
  | some connection =>
    cases deed with
    | connect => exact hconnect
    | send bytes =>
      simp only [Server.perform, hfind]
      exact endLines_advance client other hother _ _
    | shutdown | drop | reset =>
      simp only [Server.perform, hfind]
      exact hending connection _ hfind

/-- A client that sends receives a reply for every piece, and every piece is reported. -/
theorem perform_send {replies : Nat}
    (hfind : server.find? client = some ⟨client, .waiting .new .willing replies⟩)
    (bytes : Bytes) :
    server.perform client (.send bytes) =
      (⟨(List.replicate (pieceCount bytes.length) banner.reply).flatten, .none,
          (pieces bytes).map (received client)⟩,
        server.withStanding client
          (.waiting .new .willing (replies + pieceCount bytes.length))) := by
  unfold Server.perform
  simp only [hfind, advance_send, sent_roundsOf]

end Step

/-! ## Books that are kept -/

namespace Record

variable {client : Client} {record : Record} {answer : Answer}

/-- The record of a new connection balances. -/
theorem Balanced.begin (hheard : answer.received = banner.greeting)
    (hchunks : chunkLines client answer.events = []) :
    Balanced client none { blank.enter client answer with ends := [] } where
  heard_eq := by simp [enter, blank, owed, Banner.upTo, hheard]
  chunks_eq := by simp [enter, blank, hchunks]
  ends_eq := rfl

/-- A record still balances with one more send and what it is answered. -/
theorem Balanced.send (h : record.Balanced client none) {bytes : Bytes}
    (hheard : answer.received =
      (List.replicate (pieceCount bytes.length) banner.reply).flatten)
    (hchunks : chunkLines client answer.events = (pieces bytes).map (received client))
    (hends : endLines client answer.events = []) :
    Balanced client none { record.enter client answer with sends := record.sends ++ [bytes] } where
  heard_eq := by
    simp [enter, h.heard_eq, hheard, owed_append, Banner.upTo_add]
  chunks_eq := by simp [enter, h.chunks_eq, hchunks]
  ends_eq := by simp [enter, h.ends_eq, hends]

/-- A record is closed by the line about its end. -/
theorem Balanced.finish (h : record.Balanced client none) {parting : Parting}
    (hheard : answer.received = []) (hchunks : chunkLines client answer.events = [])
    (hends : endLines client answer.events = [lineAbout client record.sends parting]) :
    (record.enter client answer).Balanced client (some parting) where
  heard_eq := by simp [enter, h.heard_eq, hheard]
  chunks_eq := by simp [enter, h.chunks_eq, hchunks]
  ends_eq := by simp [enter, h.ends_eq, hends]

end Record

namespace Books

variable {client other : Client} {server : Server} {books : Books}

/-- Books that tell where the worker of their client stands, and in which every record balances. -/
structure Follow (client : Client) (server : Server) (books : Books) : Prop where
  stands : server.find? client =
    books.current.map fun record => ⟨client, .waiting .new .willing (owed record.sends)⟩
  past : ∀ entry ∈ books.past, entry.1.Balanced client (some entry.2)
  current : ∀ record ∈ books.current, record.Balanced client none

/-- Closing a record that balances keeps the books. -/
theorem Follow.close (h : books.Follow client server) {record : Record} {parting : Parting}
    (hrecord : record.Balanced client (some parting)) :
    (books.close record parting).Follow client (server.without client) where
  stands := find?_without_self client server
  past := by
    intro entry hentry
    rcases List.mem_append.mp hentry with hpast | hlast
    · exact h.past entry hpast
    · rw [List.mem_singleton.mp hlast]
      exact hrecord
  current := by simp [Books.close]

/-- The books are kept when the input of the client's worker ends. -/
theorem Follow.finish (h : books.Follow client server) {record : Record}
    (hcurrent : books.current = some record) (ending : Ending) {arrival : Arrival}
    {parting : Parting} (connection : Connection) (hclient : connection.client = client)
    (hchunks : chunkLines client (Server.endingEvents connection arrival) = [])
    (hends : endLines client (Server.endingEvents connection arrival) =
      [lineAbout client record.sends parting]) :
    (books.close (record.enter client (server.finish connection arrival ending).1) parting).Follow
      client (server.finish connection arrival ending).2 := by
  subst hclient
  have hrecord := h.current record hcurrent
  exact h.close (hrecord.finish rfl hchunks hends)

/-- The books are kept when the client connects, whether it leaves a connection for that or not. -/
theorem Follow.connect (h : books.Follow client server) :
    (books.enter client .connect (server.connect client).1).Follow client
      (server.connect client).2 := by
  have haccepted : chunkLines client [Listener.accepted protocolName client] = [] := by
    simp [chunkLines, reportsChunk, Listener.accepted, List.isPrefixOf]
  have hopen : endLines client [Listener.accepted protocolName client] = [] := rfl
  have hstands := h.stands
  rw [connect_eq]
  cases hcurrent : books.current with
  | none =>
    rw [hcurrent] at hstands
    simp only [enter, hcurrent, hstands, Option.map_none, Option.toList_none, List.flatMap_nil,
      List.append_nil]
    refine ⟨find?_withStanding_self .., h.past, ?_⟩
    intro record hrecord
    obtain rfl := Option.some.inj hrecord
    exact Record.Balanced.begin rfl haccepted
  | some old =>
    rw [hcurrent] at hstands
    simp only [enter, hcurrent, hstands, Option.map_some, Option.toList_some, List.flatMap_singleton]
    have hold := h.current old hcurrent
    have hchunks := chunkLines_left client (owed old.sends)
    have hends := endLines_left client (owed old.sends)
    refine ⟨find?_withStanding_self .., (h.close ?_).past, ?_⟩
    · refine ⟨hold.heard_eq, hold.chunks_eq, ?_⟩
      rw [endLines_append, hopen, hends, hold.ends_eq]
      rfl
    · intro record hrecord
      obtain rfl := Option.some.inj hrecord
      exact Record.Balanced.begin rfl (by rw [chunkLines_append, haccepted, hchunks]; rfl)

/-- The books are kept by what the client does next. -/
theorem Follow.perform (h : books.Follow client server) (deed : Deed) :
    (books.enter client deed (server.perform client deed).1).Follow client
      (server.perform client deed).2 := by
  have hstands := h.stands
  cases hcurrent : books.current with
  | none =>
    rw [hcurrent] at hstands
    cases deed with
    | connect => exact h.connect
    | send bytes => simpa [Server.perform, hstands, enter, hcurrent] using h
    | shutdown => simpa [Server.perform, hstands, enter, hcurrent] using h
    | drop => simpa [Server.perform, hstands, enter, hcurrent] using h
    | reset => simpa [Server.perform, hstands, enter, hcurrent] using h
  | some record =>
    rw [hcurrent] at hstands
    have hrecord := h.current record hcurrent
    cases deed with
    | connect => exact h.connect
    | send bytes =>
      rw [perform_send hstands]
      simp only [enter, hcurrent]
      refine ⟨?_, h.past, ?_⟩
      · rw [find?_withStanding_self, Option.map_some, owed_append]
      · intro later hlater
        obtain rfl := Option.some.inj hlater
        exact hrecord.send rfl (chunkLines_received ..) (endLines_received ..)
    | shutdown =>
      simp only [Server.perform, hstands, Option.map_some, enter, hcurrent]
      exact h.finish hcurrent .eof _ rfl (chunkLines_left ..) (endLines_left ..)
    | drop =>
      simp only [Server.perform, hstands, Option.map_some, enter, hcurrent]
      exact h.finish hcurrent .dropped _ rfl (chunkLines_left ..) (endLines_left ..)
    | reset =>
      simp only [Server.perform, hstands, Option.map_some, enter, hcurrent]
      exact h.finish hcurrent .dropped _ rfl (chunkLines_torn ..) (endLines_torn ..)

/-- Events that say nothing of a client's connections make no difference to its books. -/
theorem enter_congr (client : Client) (books : Books) (deed : Deed) (answer : Answer)
    {extra : List Event} (hchunks : chunkLines client extra = [])
    (hends : endLines client extra = []) :
    books.enter client deed { answer with events := extra ++ answer.events } =
      books.enter client deed answer := by
  have hanswer : ∀ record : Record,
      record.enter client { answer with events := extra ++ answer.events } =
        record.enter client answer := by
    intro record
    simp [Record.enter, hchunks, hends]
  cases deed <;> cases hcurrent : books.current <;> simp [enter, hcurrent, hanswer, hends]

/-- The announcement of a server reports no chunk. -/
theorem chunkLines_announcement (client : Client) (server : Server) :
    chunkLines client server.announcement = [] := by
  unfold Server.announcement
  split
  · rfl
  · simp [chunkLines, reportsChunk, Listener.listening, List.isPrefixOf]

/-- The announcement of a server reports no end. -/
theorem endLines_announcement (client : Client) (server : Server) :
    endLines client server.announcement = [] := by
  unfold Server.announcement
  split
  · rfl
  · rfl

/-- The books are kept by every step, of the client or of another. -/
theorem Follow.step (h : books.Follow client server) (step : Step) :
    (books.post client (step, (server.step step).1)).Follow client (server.step step).2 := by
  have hannounced : books.Follow client { server with announced := true } :=
    ⟨h.stands, h.past, h.current⟩
  unfold post
  by_cases hclient : step.client = client
  · rw [if_pos hclient]
    have hnext := hannounced.perform step.deed
    unfold Server.step
    simp only [hclient, enter_congr client books step.deed _
      (chunkLines_announcement client server) (endLines_announcement client server)]
    exact hnext
  · rw [if_neg hclient]
    have hsame := find?_perform (Ne.symm hclient) { server with announced := true } step.deed
    exact ⟨hsame.trans h.stands, h.past, h.current⟩

/-- Books that are kept over a course tell where the worker stands after it. -/
theorem Follow.steps (h : books.Follow client server) (steps : List Step) :
    ((steps.zip (server.steps steps).1).foldl (post client) books).Follow client
      (server.steps steps).2 := by
  induction steps generalizing books server with
  | nil => exact h
  | cons first later ih => exact ih (h.step first)

/-- Books that leave out nothing that a course shows of their client. -/
structure Cover (client : Client) (course : List (Step × Answer)) (books : Books) : Prop where
  heard_eq : (answersTo client course).flatMap Answer.received =
    books.records.flatMap Record.heard
  chunks_eq : chunkLines client ((answersTo client course).flatMap Answer.events) =
    books.records.flatMap Record.chunks
  ends_eq : endLines client (course.flatMap fun entry => entry.2.events) =
    books.records.flatMap Record.ends

/-- An answer without anything about a client's connections. -/
structure Quiet (client : Client) (answer : Answer) : Prop where
  heard_eq : answer.received = []
  chunks_eq : chunkLines client answer.events = []
  ends_eq : endLines client answer.events = []

/-- What is entered stands in the records. -/
theorem records_enter (deed : Deed) (answer : Answer)
    (hquiet : books.current = none → deed ≠ .connect → Quiet client answer) :
    (books.enter client deed answer).records.flatMap Record.heard =
        books.records.flatMap Record.heard ++ answer.received ∧
      (books.enter client deed answer).records.flatMap Record.chunks =
        books.records.flatMap Record.chunks ++ chunkLines client answer.events ∧
      (books.enter client deed answer).records.flatMap Record.ends =
        books.records.flatMap Record.ends ++ endLines client answer.events := by
  cases hcurrent : books.current with
  | none =>
    cases deed with
    | connect => simp [enter, hcurrent, records, Record.enter, Record.blank]
    | send | shutdown | drop | reset =>
      have hanswer := hquiet hcurrent (by simp)
      simp [enter, hcurrent, hanswer.heard_eq, hanswer.chunks_eq, hanswer.ends_eq]
  | some record =>
    cases deed <;> simp [enter, hcurrent, records, close, Record.enter, Record.blank]

/-- What a client does while it is not connected comes to nothing. -/
theorem Follow.quiet (h : books.Follow client server) (deed : Deed) (hnone : books.current = none)
    (hdeed : deed ≠ .connect) : Quiet client (server.step ⟨client, deed⟩).1 := by
  have hfind : Server.find? { server with announced := true } client = none := by
    have hstands := h.stands
    rwa [hnone] at hstands
  have hperformed : Server.perform { server with announced := true } client deed =
      (⟨[], .notConnected, []⟩, { server with announced := true }) := by
    cases deed with
    | connect => contradiction
    | send | shutdown | drop | reset => simp only [Server.perform, hfind]
  unfold Server.step
  simp only [hperformed, List.append_nil]
  exact ⟨rfl, chunkLines_announcement client server, endLines_announcement client server⟩

/-- Nothing is left out by a step, of the client or of another. -/
theorem Cover.step {course : List (Step × Answer)} (h : books.Cover client course)
    (hfollow : books.Follow client server) (step : Step) :
    (books.post client (step, (server.step step).1)).Cover client
      (course ++ [(step, (server.step step).1)]) := by
  unfold post
  by_cases hclient : step.client = client
  · obtain ⟨stepClient, deed⟩ := step
    obtain rfl : stepClient = client := hclient
    obtain ⟨hheard, hchunks, hends⟩ := records_enter deed _ fun hnone hdeed =>
      hfollow.quiet deed hnone hdeed
    have hanswers : ∀ answer, answersTo stepClient (course ++ [(⟨stepClient, deed⟩, answer)]) =
        answersTo stepClient course ++ [answer] := by
      intro answer
      simp [answersTo]
    rw [if_pos rfl]
    refine ⟨?_, ?_, ?_⟩
    · rw [hheard, hanswers, List.flatMap_append, h.heard_eq, List.flatMap_singleton]
    · rw [hchunks, hanswers, List.flatMap_append, chunkLines_append, h.chunks_eq,
        List.flatMap_singleton]
    · rw [hends, List.flatMap_append, endLines_append, h.ends_eq, List.flatMap_singleton]
  · have hanswers : ∀ answer, answersTo client (course ++ [(step, answer)]) =
        answersTo client course := by
      intro answer
      simp [answersTo, hclient]
    have hends : endLines client (server.step step).1.events = [] := by
      unfold Server.step
      rw [endLines_append, endLines_announcement, endLines_perform (Ne.symm hclient)]
      rfl
    rw [if_neg hclient]
    refine ⟨?_, ?_, ?_⟩
    · rw [hanswers, h.heard_eq]
    · rw [hanswers, h.chunks_eq]
    · rw [List.flatMap_append, endLines_append, h.ends_eq, List.flatMap_singleton, hends,
        List.append_nil]

/-- Books that are kept over a course leave out nothing of it. -/
theorem Cover.steps {before : List (Step × Answer)} (h : books.Cover client before)
    (hfollow : books.Follow client server) (steps : List Step) :
    ((steps.zip (server.steps steps).1).foldl (post client) books).Cover client
      (before ++ steps.zip (server.steps steps).1) := by
  induction steps generalizing books server before with
  | nil =>
    rw [List.zip_nil_left, List.append_nil]
    exact h
  | cons first later ih =>
    have hlater := ih (h.step hfollow first) (hfollow.step first)
    rw [List.append_assoc] at hlater
    exact hlater

end Books

end PongFixture.Telnet
