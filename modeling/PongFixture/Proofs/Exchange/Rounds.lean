import Mathlib.Control.Monad.Basic
import PongFixture.Proofs.Exchange.Sending

/-!
# An exchange is a greeting and rounds

However its stream behaves, an exchange sends its greeting and then goes through rounds: one read,
the chunk handed on, the reply sent. It ends with the end of the input, with a failing read, or with
a round whose reply fails (`Ending`), and never in between. `run_rounds` says so for whole runs.

From this follow the order of the acts of a run that succeeds, and what has been sent before any
read. The only acts that do not show in that order are interrupted writes, which `Writing` allows
between two writes.
-/

set_option autoImplicit false

namespace PongFixture.Exchange

/-- What an exchange has sent once it has replied so often. -/
def Banner.upTo (banner : Banner) (replies : Nat) : Bytes :=
  banner.greeting ++ (List.replicate replies banner.reply).flatten

/-- One more reply is sent at the end. -/
theorem Banner.upTo_succ (banner : Banner) (replies : Nat) :
    banner.upTo (replies + 1) = banner.upTo replies ++ banner.reply := by
  simp [upTo, List.replicate_succ']

/-- What is sent after fewer replies is the beginning of what is sent after more. -/
theorem Banner.upTo_prefix (banner : Banner) {fewer more : Nat} (h : fewer ≤ more) :
    banner.upTo fewer <+: banner.upTo more := by
  obtain ⟨further, rfl⟩ := Nat.exists_eq_add_of_le h
  induction further with
  | zero => exact List.prefix_rfl
  | succ further ih =>
    rw [← Nat.add_assoc, banner.upTo_succ]
    exact (ih (Nat.le_add_right _ _)).trans (List.prefix_append _ _)

/-- One turn of an exchange: the chunk that came in, and the acts that sent the reply. -/
structure Round where
  chunk : Bytes
  sending : List Act

namespace Round

/-- The acts of a round. -/
def acts (round : Round) : List Act :=
  .read chunkSize round.chunk :: .chunk round.chunk :: round.sending

/-- A round as it is to be: a chunk that fits, and the reply sent with the outcome given. -/
structure Sends (banner : Banner) (failure : Option Fault) (round : Round) : Prop where
  nonempty : 1 ≤ round.chunk.length
  fits : round.chunk.length ≤ chunkSize
  replied : Sending banner.reply round.sending failure

/-- A round that succeeds sends the reply. -/
theorem Sends.sent_acts {banner : Banner} {round : Round} (h : round.Sends banner none) :
    sent round.acts = banner.reply := by
  rw [← h.replied.sent_prefix.2 rfl]
  rfl

/-- A round hands on its chunk and nothing else. -/
theorem Sends.chunks_acts {banner : Banner} {failure : Option Fault} {round : Round}
    (h : round.Sends banner failure) : chunks round.acts = [round.chunk] := by
  have hnone := h.replied.chunks_eq_nil
  unfold chunks at hnone ⊢
  simp [acts, hnone]

/-- A round reads its chunk and nothing else. -/
theorem Sends.received_acts {banner : Banner} {failure : Option Fault} {round : Round}
    (h : round.Sends banner failure) : received round.acts = round.chunk := by
  have hnone := h.replied.received_eq_nil
  unfold received at hnone ⊢
  simp [acts, hnone]

end Round

/-! ## Series of rounds -/

section Rounds

variable {banner : Banner} {rounds : List Round}

/-- Rounds that succeed send one reply each. -/
theorem sent_rounds (h : ∀ round ∈ rounds, round.Sends banner none) :
    sent (rounds.flatMap Round.acts) = (List.replicate rounds.length banner.reply).flatten := by
  induction rounds with
  | nil => rfl
  | cons round rounds ih =>
    rw [List.flatMap_cons, sent_append, (h round (by simp)).sent_acts,
      ih fun other hother => h other (by simp [hother])]
    simp [List.replicate_succ]

/-- Rounds hand on their chunks in their order. -/
theorem chunks_rounds (h : ∀ round ∈ rounds, round.Sends banner none) :
    chunks (rounds.flatMap Round.acts) = rounds.map Round.chunk := by
  induction rounds with
  | nil => rfl
  | cons round rounds ih =>
    rw [List.flatMap_cons, chunks_append, (h round (by simp)).chunks_acts,
      ih fun other hother => h other (by simp [hother])]
    rfl

/-- What rounds read are their chunks joined. -/
theorem received_rounds (h : ∀ round ∈ rounds, round.Sends banner none) :
    received (rounds.flatMap Round.acts) = (rounds.map Round.chunk).flatten := by
  induction rounds with
  | nil => rfl
  | cons round rounds ih =>
    rw [List.flatMap_cons, received_append, (h round (by simp)).received_acts,
      ih fun other hother => h other (by simp [hother])]
    rfl

/-- After rounds that succeed, and the flush before them, everything is flushed. -/
theorem rounds_end_flushed {opening : List Act}
    (hopening : ∃ earlier, opening = earlier ++ [.flushed])
    (h : ∀ round ∈ rounds, round.Sends banner none) :
    ∃ earlier, opening ++ rounds.flatMap Round.acts = earlier ++ [.flushed] := by
  induction rounds generalizing opening with
  | nil => simpa using hopening
  | cons round rounds ih =>
    obtain ⟨earlier, hearlier⟩ := (h round (by simp)).replied.ends_flushed
    have hround : ∃ earlier, opening ++ round.acts = earlier ++ [.flushed] :=
      ⟨opening ++ .read chunkSize round.chunk :: .chunk round.chunk :: earlier, by
        simp [Round.acts, hearlier]⟩
    have htail := ih hround fun other hother => h other (by simp [hother])
    rwa [List.append_assoc] at htail

end Rounds

/-! ## The form of a run -/

/-- How an exchange goes on after its last whole round, and where it then stands: it waits, the
input ends, a read fails, or the reply to one more chunk does. -/
inductive Ending (banner : Banner) (replies : Nat) : List Act → Standing → Prop
  | waiting {buffer : Buffer} {sink : Sink} (hcapacity : buffer.capacity = chunkSize) :
      Ending banner replies [] (.waiting buffer sink replies)
  | closed : Ending banner replies [.read chunkSize [], .ended replies] (.finished (.ok replies))
  | unread {fault : Fault} : Ending banner replies [.readFailed fault] (.finished (.error fault))
  | unanswered {round : Round} {fault : Fault} (hround : round.Sends banner (some fault)) :
      Ending banner replies round.acts (.finished (.error fault))

/-- A read hands out no more than there is room for. -/
theorem length_of_read {room : Nat} {arrivals rest : List Arrival} {bytes : Bytes}
    (h : read room arrivals = (.got bytes, rest)) : bytes.length ≤ room := by
  fun_induction read room arrivals with
  | case1 => simp at h
  | case2 arrivals ih => exact ih h
  | case3 => simp at h
  | case4 data arrivals hfits =>
    obtain ⟨hgot, -⟩ := Prod.mk.inj h
    rwa [← Reading.got.inj hgot]
  | case5 data arrivals hbig =>
    obtain ⟨hgot, -⟩ := Prod.mk.inj h
    rw [← Reading.got.inj hgot]
    exact List.length_take_le room data

/-- Conversing goes through whole rounds, and then comes to an ending. -/
theorem converse_rounds (banner : Banner) (buffer : Buffer) (sink : Sink) (replies : Nat)
    (arrivals : List Arrival) (hcapacity : buffer.capacity = chunkSize) :
    ∃ (rounds : List Round) (ending : List Act),
      (converse banner buffer sink replies arrivals).1 =
        rounds.flatMap Round.acts ++ ending ∧
      (∀ round ∈ rounds, round.Sends banner none) ∧
      Ending banner (replies + rounds.length) ending
        (converse banner buffer sink replies arrivals).2 := by
  have hroom : buffer.clear.room = chunkSize := hcapacity
  fun_induction converse banner buffer sink replies arrivals with
  | case1 => exact ⟨[], [], by simp, by simp, .waiting hcapacity⟩
  | case2 => exact ⟨[], _, rfl, by simp, .unread⟩
  | case3 => exact ⟨[], _, rfl, by simp, hroom ▸ .closed⟩
  | case4 buffer sink replies arrivals b bytes rest hread acts fault hsend =>
    have hsending := Sink.sending_of_send hsend
    have hlength := hroom ▸ length_of_read hread
    refine ⟨[], _, rfl, by simp, ?_⟩
    have hround : (⟨b :: bytes, acts⟩ : Round).Sends banner (some fault) :=
      ⟨by simp, hlength, hsending⟩
    rw [hroom]
    exact .unanswered hround
  | case5 buffer sink replies arrivals b bytes rest hread acts sink' hsend later ih =>
    have hsending := Sink.sending_of_send hsend
    have hlength := hroom ▸ length_of_read hread
    obtain ⟨rounds, ending, hacts, hrounds, hending⟩ := ih hcapacity hcapacity
    refine ⟨⟨b :: bytes, acts⟩ :: rounds, ending, ?_, ?_, ?_⟩
    · simp [later, hacts, hroom, Round.acts]
    · intro round hround
      rcases List.mem_cons.mp hround with rfl | hround
      · exact ⟨by simp, hlength, hsending⟩
      · exact hrounds round hround
    · rw [List.length_cons, ← Nat.add_assoc, Nat.add_right_comm]
      exact hending

/-- A run fails in its greeting, or goes through whole rounds after it and comes to an ending. -/
theorem run_rounds (banner : Banner) (stream : Stream) :
    (∃ fault, Sending banner.greeting (run banner stream).acts (some fault) ∧
        (run banner stream).result = .error fault) ∨
      ∃ (opening : List Act) (rounds : List Round) (ending : List Act),
        (run banner stream).acts = opening ++ rounds.flatMap Round.acts ++ ending ∧
        Sending banner.greeting opening none ∧
        (∀ round ∈ rounds, round.Sends banner none) ∧
        Ending banner rounds.length ending (.finished (run banner stream).result) := by
  unfold run greet
  cases hsend : stream.sink.send banner.greeting with
  | mk opening result =>
    have hsending := Sink.sending_of_send hsend
    cases result with
    | error fault =>
      refine .inl ⟨fault, ?_, rfl⟩
      simpa [Standing.resume, Standing.finish] using hsending
    | ok sink =>
      right
      obtain ⟨rounds, ending, hacts, hrounds, hending⟩ :=
        converse_rounds banner .new sink 0 stream.arrivals rfl
      rw [Nat.zero_add] at hending
      simp only [Standing.resume, hacts]
      generalize (converse banner .new sink 0 stream.arrivals).2 = standing at hending
      cases hending with
      | waiting hcapacity =>
        refine ⟨opening, rounds, [.read chunkSize [], .ended rounds.length], ?_, hsending, hrounds,
          .closed⟩
        simp [Standing.finish, hcapacity]
      | closed => exact ⟨opening, rounds, _, by simp [Standing.finish], hsending, hrounds, .closed⟩
      | unread => exact ⟨opening, rounds, _, by simp [Standing.finish], hsending, hrounds, .unread⟩
      | unanswered hround =>
        exact ⟨opening, rounds, _, by simp [Standing.finish], hsending, hrounds,
          .unanswered hround⟩

/-! ## What comes before a read -/

/-- A read that follows acts which do not read comes after all of them. -/
theorem reading_after {quiet rest before after : List Act} {call : Act}
    (hquiet : ∀ act ∈ quiet, act.isReading = false) (hcall : call.isReading = true)
    (hsplit : quiet ++ rest = before ++ call :: after) :
    ∃ later, before = quiet ++ later ∧ rest = later ++ call :: after := by
  rcases List.append_eq_append_iff.mp hsplit with ⟨later, hbefore, hrest⟩ | ⟨inner, hinner, hlater⟩
  · exact ⟨later, hbefore, hrest⟩
  · cases inner with
    | nil => exact ⟨[], by simpa using hinner.symm, hlater.symm⟩
    | cons act inner =>
      obtain ⟨rfl, -⟩ := List.cons.inj hlater
      have hact := hquiet call (by simp [hinner])
      rw [hcall] at hact
      contradiction

/-- Nothing is read in a sending. -/
theorem Sending.isReading {bytes : Bytes} {acts : List Act} {failure : Option Fault}
    (h : Sending bytes acts failure) : ∀ act ∈ acts, act.isReading = false :=
  h.forall_acts (fun _ => rfl) (fun _ => rfl) rfl fun _ => rfl

/-- The only read of a round is its first act. -/
theorem Round.Sends.reading {banner : Banner} {failure : Option Fault} {round : Round}
    (h : round.Sends banner failure) {rest before after : List Act} {call : Act}
    (hcall : call.isReading = true) (hsplit : round.acts ++ rest = before ++ call :: after) :
    before = [] ∨ ∃ later, before = round.acts ++ later ∧ rest = later ++ call :: after := by
  cases before with
  | nil => exact .inl rfl
  | cons first before =>
    right
    have hquiet : ∀ act ∈ Act.chunk round.chunk :: round.sending, act.isReading = false := by
      intro act hact
      rcases List.mem_cons.mp hact with rfl | hact
      · rfl
      · exact h.replied.isReading act hact
    obtain ⟨rfl, htail⟩ := List.cons.inj hsplit
    obtain ⟨later, rfl, hrest⟩ := reading_after hquiet hcall htail
    exact ⟨later, rfl, hrest⟩

/-- An ending reads at its beginning, or not at all. -/
theorem Ending.reading {banner : Banner} {replies : Nat} {ending : List Act} {standing : Standing}
    (h : Ending banner replies ending standing) {before after : List Act} {call : Act}
    (hcall : call.isReading = true) (hsplit : ending = before ++ call :: after) : before = [] := by
  cases before with
  | nil => rfl
  | cons first before =>
    have hmem : call ∈ ending.tail := by simp [hsplit]
    cases h with
    | waiting => simp at hmem
    | closed =>
      rw [List.mem_singleton.mp hmem] at hcall
      contradiction
    | unread => simp at hmem
    | unanswered hround =>
      rcases List.mem_cons.mp hmem with rfl | hmem
      · contradiction
      · rw [hround.replied.isReading call hmem] at hcall
        contradiction

/-- Before a read stand whole rounds. -/
theorem rounds_before_reading {banner : Banner} {replies : Nat} {ending : List Act}
    {standing : Standing} (hending : Ending banner replies ending standing) {rounds : List Round}
    (hrounds : ∀ round ∈ rounds, round.Sends banner none) {before after : List Act} {call : Act}
    (hcall : call.isReading = true)
    (hsplit : rounds.flatMap Round.acts ++ ending = before ++ call :: after) :
    ∃ front : List Round, before = front.flatMap Round.acts ∧
      ∀ round ∈ front, round.Sends banner none := by
  induction rounds generalizing before with
  | nil => exact ⟨[], hending.reading hcall hsplit, by simp⟩
  | cons round rounds ih =>
    have hround := hrounds round (by simp)
    rw [List.flatMap_cons, List.append_assoc] at hsplit
    rcases hround.reading hcall hsplit with rfl | ⟨later, rfl, hrest⟩
    · exact ⟨[], rfl, by simp⟩
    · obtain ⟨front, rfl, hfront⟩ := ih (fun other hother => hrounds other (by simp [hother])) hrest
      exact ⟨round :: front, rfl, List.forall_mem_cons.mpr ⟨hround, hfront⟩⟩

/-- Whenever an exchange reads, its greeting and a reply to every chunk so far are sent. -/
theorem sent_before_reading (banner : Banner) (stream : Stream) {before after : List Act}
    {call : Act}
    (hcall : call.isReading = true)
    (hsplit : (run banner stream).acts = before ++ call :: after) :
    sent before = banner.upTo (chunks before).length ∧
      ∃ earlier, before = earlier ++ [.flushed] := by
  rcases run_rounds banner stream with
    ⟨fault, hbroken, -⟩ | ⟨opening, rounds, ending, hacts, hopening, hrounds, hending⟩
  · have hread := hbroken.isReading call (by simp [hsplit])
    rw [hcall] at hread
    contradiction
  · rw [hacts, List.append_assoc] at hsplit
    obtain ⟨later, rfl, hrest⟩ := reading_after hopening.isReading hcall hsplit
    obtain ⟨front, rfl, hfront⟩ := rounds_before_reading hending hrounds hcall hrest
    refine ⟨?_, rounds_end_flushed hopening.ends_flushed hfront⟩
    rw [sent_append, chunks_append, hopening.sent_prefix.2 rfl, hopening.chunks_eq_nil,
      sent_rounds hfront, chunks_rounds hfront]
    simp [Banner.upTo]

/-! ## The order of a run -/

/-- The acts of a run that succeeds are the greeting, a round for each reply, and the read that
found the end of the input; so it sends the greeting and the replies, and hands on all it reads. In
every run, also in one that fails later, all that is due before a read is sent and flushed by
then. -/
theorem run_in_order (banner : Banner) (stream : Stream) :
    (∀ replies, (run banner stream).result = .ok replies →
      ∃ (opening : List Act) (rounds : List Round),
        (run banner stream).acts = opening ++ rounds.flatMap Round.acts ++
          [.read chunkSize [], .ended replies] ∧
        Sending banner.greeting opening none ∧
        (∀ round ∈ rounds, round.Sends banner none) ∧
        rounds.length = replies ∧
        sent (run banner stream).acts = banner.upTo replies ∧
        chunks (run banner stream).acts = rounds.map Round.chunk ∧
        (chunks (run banner stream).acts).flatten = received (run banner stream).acts) ∧
    ∀ (before after : List Act) (call : Act), call.isReading = true →
      (run banner stream).acts = before ++ call :: after →
      sent before = banner.upTo (chunks before).length ∧
        ∃ earlier, before = earlier ++ [.flushed] := by
  refine ⟨?_, fun before after call => sent_before_reading banner stream⟩
  intro replies hresult
  rcases run_rounds banner stream with
    ⟨fault, -, hfault⟩ | ⟨opening, rounds, ending, hacts, hopening, hrounds, hending⟩
  · rw [hresult] at hfault
    cases hfault
  · rw [hresult] at hending
    cases hending with
    | closed =>
      have hchunks : chunks (run banner stream).acts = rounds.map Round.chunk := by
        rw [hacts, chunks_append, chunks_append, hopening.chunks_eq_nil, chunks_rounds hrounds]
        simp [chunks]
      refine ⟨opening, rounds, hacts, hopening, hrounds, rfl, ?_, hchunks, ?_⟩
      · rw [hacts, sent_append, sent_append, hopening.sent_prefix.2 rfl, sent_rounds hrounds]
        simp [Banner.upTo, sent, Act.sent]
      · rw [hchunks, hacts, received_append, received_append, hopening.received_eq_nil,
          received_rounds hrounds]
        simp [received]

/-- A run that succeeds although its first write was interrupted: that write stands among the acts
too, before the one that takes the greeting. -/
theorem interrupted_write_in_course :
    (run ⟨[72, 105], [111, 107]⟩
      ⟨[.data [97]], ⟨[.fault (.ofKind .interrupted)], []⟩⟩).result = .ok 1 ∧
    (run ⟨[72, 105], [111, 107]⟩ ⟨[.data [97]], ⟨[.fault (.ofKind .interrupted)], []⟩⟩).acts =
      [.writeFailed (.ofKind .interrupted), .wrote [72, 105], .flushed, .read 1024 [97],
        .chunk [97], .wrote [111, 107], .flushed, .read 1024 [], .ended 1] := by
  constructor <;> decide +kernel

end PongFixture.Exchange
