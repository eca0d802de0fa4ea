import Mathlib.Data.Stream.Init
import PongFixture.Proofs.Exchange.Resumption

/-!
# An exchange, poll by poll

`run` works on a stream whose answers are written down in lists, so it always comes to an end. A
stream need not be so obliging: it may go on answering for ever that it is not ready. Here an
exchange is a machine that makes one poll after the other on a stream which never runs out of
answers (`Behaviour`). Nothing in the machine bounds the number of its polls, so whether it ends is
a question about the stream.

The machine and `run` are the same exchange: where the machine has finished after some polls, `run`
on the first answers of the stream, as many of each kind or more, has the same acts and the same
result (`run_of_polls`).
-/

set_option autoImplicit false

namespace PongFixture.Exchange

/-! ## Polls -/

/-- A stream that never runs out of answers: what one poll of a read, of a write or of a flush
comes to after the other. -/
structure Behaviour where
  arrivals : Stream' Arrival
  acceptances : Stream' Acceptance
  flushings : Stream' Flushing

/-- The stream of the first so many answers of each kind. -/
def Behaviour.cut (behaviour : Behaviour) (reads writes flushes : Nat) : Stream :=
  ⟨behaviour.arrivals.take reads,
    ⟨behaviour.acceptances.take writes, behaviour.flushings.take flushes⟩⟩

/-- Where an exchange stands between two polls: it has octets left to send before it will have
replied so often, and flushes when none are left; it is about to read; or it has finished. -/
inductive Phase
  | sending (left : Bytes) (replies : Nat)
  | reading (replies : Nat)
  | finished (result : Except Fault Nat)

/-- An exchange between two polls, with what its stream is going to answer. -/
structure Moment where
  phase : Phase
  behaviour : Behaviour

/-- A poll of a flush. -/
def pollFlush (replies : Nat) : Flushing → List Act × Phase
  | .notReady => ([], .sending [] replies)
  | .done => ([.flushed], .reading replies)
  | .fault fault => ([.flushFailed fault], .finished (.error fault))

/-- A poll of a write. -/
def pollWrite (left : Bytes) (replies : Nat) : Acceptance → List Act × Phase
  | .notReady => ([], .sending left replies)
  | .all => ([.wrote left], .sending [] replies)
  | .upTo limit =>
    if limit = 0 then ([.wrote []], .finished (.error .nothingWritten))
    else ([.wrote (left.take limit)], .sending (left.drop limit) replies)
  | .fault fault =>
    if fault.kind = .interrupted then ([.writeFailed fault], .sending left replies)
    else ([.writeFailed fault], .finished (.error fault))

/-- A poll of a read. -/
def pollRead (banner : Banner) (replies : Nat) : Arrival → List Act × Phase
  | .notReady => ([], .reading replies)
  | .fault fault => ([.readFailed fault], .finished (.error fault))
  | .data [] => ([.read chunkSize [], .ended replies], .finished (.ok replies))
  | .data (b :: bytes) =>
    ([.read chunkSize ((b :: bytes).take chunkSize), .chunk ((b :: bytes).take chunkSize)],
      .sending banner.reply (replies + 1))

/-- What is still to arrive after a poll of a read: octets that did not fit come next. -/
def afterRead (arrivals : Stream' Arrival) : Stream' Arrival :=
  match arrivals.head with
  | .data bytes =>
    if bytes.length ≤ chunkSize then arrivals.tail
    else .cons (.data (bytes.drop chunkSize)) arrivals.tail
  | _ => arrivals.tail

/-- Makes the poll that is due: the acts it adds, and where the exchange then stands. -/
def Moment.poll (banner : Banner) (moment : Moment) : List Act × Moment :=
  match moment.phase with
  | .sending [] replies =>
    let polled := pollFlush replies moment.behaviour.flushings.head
    (polled.1,
      ⟨polled.2, { moment.behaviour with flushings := moment.behaviour.flushings.tail }⟩)
  | .sending (b :: bytes) replies =>
    let polled := pollWrite (b :: bytes) replies moment.behaviour.acceptances.head
    (polled.1,
      ⟨polled.2, { moment.behaviour with acceptances := moment.behaviour.acceptances.tail }⟩)
  | .reading replies =>
    let polled := pollRead banner replies moment.behaviour.arrivals.head
    (polled.1,
      ⟨polled.2, { moment.behaviour with arrivals := afterRead moment.behaviour.arrivals }⟩)
  | .finished result => ([], ⟨.finished result, moment.behaviour⟩)

/-- Makes so many polls. -/
def Moment.polls (banner : Banner) : Nat → Moment → List Act × Moment
  | 0, moment => ([], moment)
  | count + 1, moment =>
    let first := moment.poll banner
    let later := polls banner count first.2
    (first.1 ++ later.1, later.2)

/-- An exchange before its first poll. -/
def Behaviour.begin (banner : Banner) (behaviour : Behaviour) : Moment :=
  ⟨.sending banner.greeting 0, behaviour⟩

/-- More polls are one poll and the polls after it. -/
theorem Moment.polls_succ (banner : Banner) (count : Nat) (moment : Moment) :
    moment.polls banner (count + 1) =
      ((moment.poll banner).1 ++ ((moment.poll banner).2.polls banner count).1,
        ((moment.poll banner).2.polls banner count).2) := rfl

/-! ## What is still to come of an exchange -/

/-- Acts that come before those of a transcript. -/
def Transcript.after (acts : List Act) (transcript : Transcript) : Transcript :=
  ⟨acts ++ transcript.acts, transcript.result⟩

/-- A transcript after nothing is the transcript. -/
@[simp] theorem Transcript.after_nil (transcript : Transcript) : transcript.after [] = transcript :=
  rfl

/-- The rest of an exchange that is about to read. -/
def readingRest (banner : Banner) (replies : Nat) (stream : Stream) : Transcript :=
  let conversed := converse banner .new stream.sink replies stream.arrivals
  ⟨conversed.1 ++ conversed.2.finish.1, conversed.2.finish.2⟩

/-- The rest of an exchange that has sent what it had to, or has failed to. -/
def sentRest (banner : Banner) (replies : Nat) (arrivals : List Arrival) :
    List Act × Except Fault Sink → Transcript
  | (acts, .error fault) => ⟨acts, .error fault⟩
  | (acts, .ok sink) => (readingRest banner replies ⟨arrivals, sink⟩).after acts

/-- The rest of an exchange, on a stream whose answers are written down. -/
def Phase.rest (banner : Banner) (stream : Stream) : Phase → Transcript
  | .sending left replies => sentRest banner replies stream.arrivals (stream.sink.send left)
  | .reading replies => readingRest banner replies stream
  | .finished result => ⟨[], result⟩

/-- A run is the rest of an exchange that has its greeting to send. -/
theorem run_eq_rest (banner : Banner) (stream : Stream) :
    run banner stream = (Phase.sending banner.greeting 0).rest banner stream := by
  show _ = sentRest banner 0 stream.arrivals (stream.sink.send banner.greeting)
  unfold run greet
  cases hsend : stream.sink.send banner.greeting with
  | mk acts result =>
    cases result with
    | error fault => simp [sentRest, Standing.resume, Standing.finish]
    | ok sink => simp [sentRest, readingRest, Transcript.after, Standing.resume]

/-- Acts that come before a sending come before the whole rest. -/
theorem sentRest_after (banner : Banner) (replies : Nat) (arrivals : List Arrival) (acts : List Act)
    (sent : List Act × Except Fault Sink) :
    sentRest banner replies arrivals (acts ++ sent.1, sent.2) =
      (sentRest banner replies arrivals sent).after acts := by
  obtain ⟨later, result⟩ := sent
  cases result <;> simp [sentRest, Transcript.after]

/-! ### One poll less -/

section Rest

variable (banner : Banner) (replies : Nat)

/-- A flush is polled once, and then the rest is what it is without that poll. -/
theorem rest_pollFlush (answer : Flushing) (flushings : List Flushing)
    (acceptances : List Acceptance) (arrivals : List Arrival) :
    (Phase.sending [] replies).rest banner ⟨arrivals, acceptances, answer :: flushings⟩ =
      ((pollFlush replies answer).2.rest banner ⟨arrivals, acceptances, flushings⟩).after
        (pollFlush replies answer).1 := by
  cases answer with
  | notReady => rfl
  | done => simp [Phase.rest, Sink.send, writeAll, flush, sentRest, pollFlush]
  | fault fault =>
    simp [Phase.rest, Sink.send, writeAll, flush, sentRest, pollFlush, Transcript.after]

/-- A sending whose first write has been made goes on with what that has left. -/
theorem send_of_taken {acceptances later : List Acceptance} {bytes left : Bytes} {act : Act}
    (h : writeAll acceptances bytes =
      (act :: (writeAll later left).1, (writeAll later left).2)) (flushings : List Flushing) :
    (Sink.mk acceptances flushings).send bytes =
      ([act] ++ ((Sink.mk later flushings).send left).1,
        ((Sink.mk later flushings).send left).2) := by
  unfold Sink.send
  rw [h]
  cases hwrite : writeAll later left with
  | mk acts result =>
    cases result with
    | error fault => simp
    | ok rest =>
      cases hflush : flush flushings with
      | mk settled flushed => cases flushed <;> simp

/-- A write is polled once, and then the rest is what it is without that poll. -/
theorem rest_pollWrite (b : UInt8) (bytes : Bytes) (answer : Acceptance)
    (acceptances : List Acceptance) (flushings : List Flushing) (arrivals : List Arrival) :
    (Phase.sending (b :: bytes) replies).rest banner
        ⟨arrivals, answer :: acceptances, flushings⟩ =
      ((pollWrite (b :: bytes) replies answer).2.rest banner
        ⟨arrivals, acceptances, flushings⟩).after (pollWrite (b :: bytes) replies answer).1 := by
  cases answer with
  | notReady => rfl
  | all =>
    have hwrite : writeAll (.all :: acceptances) (b :: bytes) =
        (.wrote (b :: bytes) :: (writeAll acceptances []).1, (writeAll acceptances []).2) := by
      simp [writeAll]
    simp only [Phase.rest, send_of_taken hwrite, sentRest_after, pollWrite]
  | upTo limit =>
    by_cases hlimit : limit = 0
    · simp [Phase.rest, Sink.send, writeAll, sentRest, pollWrite, hlimit, Transcript.after]
    · have hwrite : writeAll (.upTo limit :: acceptances) (b :: bytes) =
          (.wrote ((b :: bytes).take limit) ::
            (writeAll acceptances ((b :: bytes).drop limit)).1,
            (writeAll acceptances ((b :: bytes).drop limit)).2) := by
        rw [writeAll, if_neg hlimit]
      simp only [Phase.rest, send_of_taken hwrite, sentRest_after, pollWrite, if_neg hlimit]
  | fault fault =>
    by_cases hkind : fault.kind = .interrupted
    · have hwrite : writeAll (.fault fault :: acceptances) (b :: bytes) =
          (.writeFailed fault :: (writeAll acceptances (b :: bytes)).1,
            (writeAll acceptances (b :: bytes)).2) := by
        rw [writeAll, if_pos hkind]
      simp only [Phase.rest, send_of_taken hwrite, sentRest_after, pollWrite, if_pos hkind]
    · simp [Phase.rest, Sink.send, writeAll, sentRest, pollWrite, hkind, Transcript.after]

/-- A chunk and its reply are the beginning of what is still to come of a reading exchange. -/
theorem readingRest_of_got {b : UInt8} {bytes : Bytes} {arrivals rest : List Arrival} {sink : Sink}
    (h : read chunkSize arrivals = (.got (b :: bytes), rest)) :
    readingRest banner replies ⟨arrivals, sink⟩ =
      (sentRest banner (replies + 1) rest (sink.send banner.reply)).after
        [.read chunkSize (b :: bytes), .chunk (b :: bytes)] := by
  have hread : read Buffer.new.clear.room arrivals = (.got (b :: bytes), rest) := h
  unfold readingRest
  cases hsend : sink.send banner.reply with
  | mk acts result =>
    cases result with
    | error fault =>
      rw [converse_of_send_error hread hsend]
      simp [sentRest, Standing.finish, Transcript.after, Buffer.new]
    | ok sink' =>
      have hbuffer : converse banner (Buffer.new.clear.fill (b :: bytes)) sink' (replies + 1) rest =
          converse banner .new sink' (replies + 1) rest := converse_congr rfl rfl
      rw [converse_of_send_ok hread hsend, hbuffer]
      simp [sentRest, readingRest, Transcript.after, Buffer.new]

/-- A read is polled once, and then the rest is what it is without that poll. Octets that do not fit
stay the next arrival. -/
theorem rest_pollRead (arrivals : Stream' Arrival) (count : Nat) (sink : Sink) :
    ∃ left, count ≤ left ∧
      (Phase.reading replies).rest banner ⟨arrivals.take (count + 1), sink⟩ =
        ((pollRead banner replies arrivals.head).2.rest banner
          ⟨(afterRead arrivals).take left, sink⟩).after
            (pollRead banner replies arrivals.head).1 := by
  rw [Stream'.take_succ]
  unfold afterRead
  cases hhead : arrivals.head with
  | notReady =>
    refine ⟨count, Nat.le_refl _, ?_⟩
    have hsame : converse banner .new sink replies (.notReady :: arrivals.tail.take count) =
        converse banner .new sink replies (arrivals.tail.take count) := converse_congr rfl rfl
    simp [Phase.rest, readingRest, pollRead, hsame]
  | fault fault =>
    refine ⟨count, Nat.le_refl _, ?_⟩
    simp only [Phase.rest, readingRest, pollRead]
    rw [converse_of_fault rfl]
    simp [Standing.finish, Transcript.after]
  | data bytes =>
    cases bytes with
    | nil =>
      refine ⟨count, Nat.le_refl _, ?_⟩
      simp only [Phase.rest, readingRest, pollRead]
      rw [converse_of_end rfl]
      simp [Standing.finish, Transcript.after, Buffer.new]
    | cons b bytes =>
      by_cases hfits : (b :: bytes).length ≤ chunkSize
      · refine ⟨count, Nat.le_refl _, ?_⟩
        simp only [Phase.rest, pollRead, if_pos hfits, List.take_of_length_le hfits]
        apply readingRest_of_got
        rw [read, if_pos hfits]
      · refine ⟨count + 1, Nat.le_succ _, ?_⟩
        simp only [Phase.rest, pollRead, if_neg hfits, Stream'.take_succ_cons]
        apply readingRest_of_got
        rw [read, if_neg hfits]
        rfl

end Rest

/-- What is still to come of an exchange, by the first answers of its stream, is what the next poll
adds and what is then still to come. Of the answers that were written down at most one of each kind
has been used up. -/
theorem rest_poll (banner : Banner) (moment : Moment) (reads writes flushes : Nat) :
    ∃ reads' writes' flushes', reads ≤ reads' ∧ writes ≤ writes' ∧ flushes ≤ flushes' ∧
      moment.phase.rest banner (moment.behaviour.cut (reads + 1) (writes + 1) (flushes + 1)) =
        ((moment.poll banner).2.phase.rest banner
          ((moment.poll banner).2.behaviour.cut reads' writes' flushes')).after
            (moment.poll banner).1 := by
  obtain ⟨phase, behaviour⟩ := moment
  match phase with
  | .sending [] replies =>
    exact ⟨reads + 1, writes + 1, flushes, by omega, by omega, Nat.le_refl _,
      rest_pollFlush banner replies _ _ _ _⟩
  | .sending (b :: bytes) replies =>
    exact ⟨reads + 1, writes, flushes + 1, by omega, Nat.le_refl _, by omega,
      rest_pollWrite banner replies b bytes _ _ _ _⟩
  | .reading replies =>
    obtain ⟨left, hleft, hrest⟩ := rest_pollRead banner replies behaviour.arrivals reads
      ⟨behaviour.acceptances.take (writes + 1), behaviour.flushings.take (flushes + 1)⟩
    exact ⟨left, writes + 1, flushes + 1, hleft, by omega, by omega, hrest⟩
  | .finished result =>
    exact ⟨reads, writes, flushes, Nat.le_refl _, Nat.le_refl _, Nat.le_refl _, rfl⟩

/-- An exchange that finishes within some polls does what the rest of it is, by as many answers of
each kind or more. -/
theorem rest_of_polls (banner : Banner) (count : Nat) :
    ∀ (moment last : Moment) (acts : List Act) (result : Except Fault Nat),
      moment.polls banner count = (acts, last) → last.phase = .finished result →
      ∀ reads writes flushes, count ≤ reads → count ≤ writes → count ≤ flushes →
        moment.phase.rest banner (moment.behaviour.cut reads writes flushes) = ⟨acts, result⟩ := by
  induction count with
  | zero =>
    intro moment last acts result hpolls hphase reads writes flushes _ _ _
    obtain ⟨rfl, rfl⟩ := Prod.mk.inj hpolls
    rw [hphase]
    rfl
  | succ count ih =>
    intro moment last acts result hpolls hphase reads writes flushes hreads hwrites hflushes
    rw [Moment.polls_succ] at hpolls
    obtain ⟨rfl, rfl⟩ := Prod.mk.inj hpolls
    obtain ⟨reads, rfl⟩ := Nat.exists_eq_succ_of_ne_zero (Nat.ne_zero_of_lt hreads)
    obtain ⟨writes, rfl⟩ := Nat.exists_eq_succ_of_ne_zero (Nat.ne_zero_of_lt hwrites)
    obtain ⟨flushes, rfl⟩ := Nat.exists_eq_succ_of_ne_zero (Nat.ne_zero_of_lt hflushes)
    obtain ⟨reads', writes', flushes', hreads', hwrites', hflushes', hrest⟩ :=
      rest_poll banner moment reads writes flushes
    have hlater := ih _ _ _ result rfl hphase reads' writes' flushes' (by omega) (by omega)
      (by omega)
    rw [hrest, hlater]
    rfl

/-- Where an exchange has finished after some polls, a run on the first answers of its stream, as
many of each kind or more, has the same acts and the same result. -/
theorem run_of_polls {banner : Banner} {behaviour : Behaviour} {count : Nat} {acts : List Act}
    {last : Moment} {result : Except Fault Nat}
    (hpolls : (behaviour.begin banner).polls banner count = (acts, last))
    (hphase : last.phase = .finished result) {answers : Nat} (hanswers : count ≤ answers) :
    run banner (behaviour.cut answers answers answers) = ⟨acts, result⟩ := by
  rw [run_eq_rest]
  exact rest_of_polls banner count _ last acts result hpolls hphase _ _ _ hanswers hanswers hanswers

end PongFixture.Exchange
