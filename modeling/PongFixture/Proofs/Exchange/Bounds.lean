import PongFixture.Proofs.Exchange.Delivery

/-!
# Bounds on an exchange

What an exchange does is bounded by the octets that come in and by the lengths of its lines. Every
read but the last takes an octet at least, and every write too, unless it fails; so there is at most
one chunk for each octet, and at most one write for each octet of the greeting and of a reply to each
chunk (`run_withinBounds`). A write that is interrupted is made again, and is not counted.
-/

set_option autoImplicit false

namespace PongFixture.Exchange

/-! ## What is counted -/

/-- The octets that arrivals bring before the end of the input or the first fault. -/
def octetsBrought : List Arrival → Nat
  | [] => 0
  | .notReady :: arrivals => octetsBrought arrivals
  | .fault _ :: _ => 0
  | .data [] :: _ => 0
  | .data (b :: bytes) :: arrivals => (b :: bytes).length + octetsBrought arrivals

/-- Whether an act is a write that is not made again: one that is not interrupted. -/
def Act.isLastingWrite : Act → Bool
  | .wrote _ => true
  | .writeFailed fault => decide (fault.kind ≠ .interrupted)
  | _ => false

/-- What acts stay within, where so many octets came in: reads, chunks and flushes are bounded by the
octets or by the chunks, writes by the octets of the lines that were due. An empty line is not
written at all. -/
structure WithinBounds (banner : Banner) (octets : Nat) (acts : List Act) : Prop where
  reads : acts.countP Act.isReading ≤ octets + 1
  chunks : (chunks acts).length ≤ octets
  flushes : acts.countP Act.isFlush ≤ (Exchange.chunks acts).length + 1
  writes : acts.countP Act.isLastingWrite ≤
    banner.greeting.length + (Exchange.chunks acts).length * banner.reply.length
  noGreeting : banner.greeting = [] →
    ∀ act ∈ acts.takeWhile (fun act => !act.isReading), act.isWriting = false
  noReply : banner.reply = [] →
    ∀ act ∈ acts.dropWhile (fun act => !act.isReading), act.isWriting = false

/-- What is within bounds is so where more octets come in. -/
theorem WithinBounds.mono {banner : Banner} {fewer more : Nat} {acts : List Act}
    (h : WithinBounds banner fewer acts) (hle : fewer ≤ more) : WithinBounds banner more acts :=
  { h with
    reads := h.reads.trans (Nat.succ_le_succ hle)
    chunks := h.chunks.trans hle }

/-! ## Acts of sendings and rounds -/

/-- Every write that is not made again takes an octet at least, or is the last one, with an octet
left to write. -/
theorem Writing.countP_isLastingWrite {bytes : Bytes} {acts : List Act} {failure : Option Fault}
    (h : Writing bytes acts failure) : acts.countP Act.isLastingWrite ≤ bytes.length := by
  induction h with
  | done => simp
  | part htaken _ ih =>
    have hpositive := List.length_pos_iff.mpr htaken
    simp only [List.countP_cons, Act.isLastingWrite, List.length_append]
    simp only [if_true]
    omega
  | interrupted _ hkind _ ih => simpa [List.countP_cons, Act.isLastingWrite, hkind] using ih
  | refused hbytes => simpa [Act.isLastingWrite, Nat.succ_le_iff, List.length_pos_iff] using hbytes
  | failed hbytes hkind =>
    simpa [Act.isLastingWrite, hkind, Nat.succ_le_iff, List.length_pos_iff] using hbytes

/-- Nothing is written where there is nothing to write. -/
theorem Writing.eq_nil {acts : List Act} {failure : Option Fault} (h : Writing [] acts failure) :
    acts = [] := by
  generalize hnone : ([] : Bytes) = bytes at h
  cases h with
  | done => rfl
  | part htaken => exact absurd (List.append_eq_nil_iff.mp hnone.symm).1 htaken
  | interrupted hbytes | refused hbytes | failed hbytes => exact absurd hnone.symm hbytes

/-- Acts that only write do not flush. -/
theorem countP_isFlush_of_isWriting {acts : List Act} (h : ∀ act ∈ acts, act.isWriting = true) :
    acts.countP Act.isFlush = 0 := by
  apply List.countP_eq_zero.mpr
  intro act hact
  have hwriting := h act hact
  cases act <;> simp_all [Act.isWriting, Act.isFlush]

section Sending

variable {bytes : Bytes} {acts : List Act} {failure : Option Fault}

/-- A sending flushes once at most. -/
theorem Sending.countP_isFlush (h : Sending bytes acts failure) :
    acts.countP Act.isFlush ≤ 1 := by
  cases h with
  | done hwritten => simp [countP_isFlush_of_isWriting hwritten.isWriting, Act.isFlush]
  | unwritten hbroken => simp [countP_isFlush_of_isWriting hbroken.isWriting]
  | unflushed hwritten => simp [countP_isFlush_of_isWriting hwritten.isWriting, Act.isFlush]

/-- A sending makes no more writes than it has octets, but for those that are made again. -/
theorem Sending.countP_isLastingWrite (h : Sending bytes acts failure) :
    acts.countP Act.isLastingWrite ≤ bytes.length := by
  cases h with
  | done hwritten => simpa [Act.isLastingWrite] using hwritten.countP_isLastingWrite
  | unwritten hbroken => exact hbroken.countP_isLastingWrite
  | unflushed hwritten => simpa [Act.isLastingWrite] using hwritten.countP_isLastingWrite

/-- A sending does not read. -/
theorem Sending.countP_isReading (h : Sending bytes acts failure) :
    acts.countP Act.isReading = 0 := by
  apply List.countP_eq_zero.mpr
  intro act hact
  simp [h.isReading act hact]

/-- Where there is nothing to send, nothing is written. -/
theorem Sending.isWriting_of_nil (h : Sending [] acts failure) :
    ∀ act ∈ acts, act.isWriting = false := by
  cases h with
  | done hwritten => simp [hwritten.eq_nil, Act.isWriting]
  | unwritten hbroken => simp [hbroken.eq_nil]
  | unflushed hwritten => simp [hwritten.eq_nil, Act.isWriting]

end Sending

namespace Round

variable {banner : Banner} {failure : Option Fault} {round : Round}

/-- A round reads once. -/
theorem Sends.countP_isReading (h : round.Sends banner failure) :
    round.acts.countP Act.isReading = 1 := by
  show List.countP Act.isReading (_ :: _ :: round.sending) = 1
  rw [List.countP_cons_of_pos rfl, List.countP_cons_of_neg (by simp [Act.isReading]),
    h.replied.countP_isReading]

/-- A round flushes once at most. -/
theorem Sends.countP_isFlush (h : round.Sends banner failure) :
    round.acts.countP Act.isFlush ≤ 1 := by
  simpa [Round.acts, Act.isFlush] using h.replied.countP_isFlush

/-- A round makes no more writes than its reply has octets, but for those that are made again. -/
theorem Sends.countP_isLastingWrite (h : round.Sends banner failure) :
    round.acts.countP Act.isLastingWrite ≤ banner.reply.length := by
  simpa [Round.acts, Act.isLastingWrite] using h.replied.countP_isLastingWrite

/-- An empty reply is not written. -/
theorem Sends.isWriting_of_nil (h : round.Sends banner failure) (hreply : banner.reply = []) :
    ∀ act ∈ round.acts, act.isWriting = false := by
  have hreplied := h.replied
  rw [hreply] at hreplied
  simpa [Round.acts, Act.isWriting] using hreplied.isWriting_of_nil

end Round

/-- What is bounded in each round is bounded in all of them. -/
theorem countP_rounds {counted : Act → Bool} {rounds : List Round} {bound : Nat}
    (h : ∀ round ∈ rounds, round.acts.countP counted ≤ bound) :
    (rounds.flatMap Round.acts).countP counted ≤ rounds.length * bound := by
  induction rounds with
  | nil => simp
  | cons round rounds ih =>
    have hfirst := h round (by simp)
    have hlater := ih fun other hother => h other (by simp [hother])
    rw [List.flatMap_cons, List.countP_append, List.length_cons, Nat.succ_mul]
    omega

/-- An ending of a run reads once, which is its first act, and is at most one round long. -/
structure EndsRun (banner : Banner) (ending : List Act) : Prop where
  begins : ∃ call later, ending = call :: later ∧ call.isReading = true
  reads : ending.countP Act.isReading = 1
  flushes : ending.countP Act.isFlush ≤ (chunks ending).length
  writes : ending.countP Act.isLastingWrite ≤ (chunks ending).length * banner.reply.length
  noReply : banner.reply = [] → ∀ act ∈ ending, act.isWriting = false

/-- The ending of a run keeps the bounds of one. -/
theorem Ending.endsRun {banner : Banner} {replies : Nat} {ending : List Act}
    {result : Except Fault Nat} (h : Ending banner replies ending (.finished result)) :
    EndsRun banner ending := by
  generalize hstanding : Standing.finished result = standing at h
  cases h with
  | waiting => cases hstanding
  | closed | unread =>
    refine ⟨⟨_, _, rfl, rfl⟩, rfl, ?_, ?_, ?_⟩ <;>
      simp [Act.isFlush, Act.isLastingWrite, Act.isWriting]
  | unanswered hround =>
    have hone := hround.chunks_acts
    refine ⟨⟨_, _, rfl, rfl⟩, hround.countP_isReading, ?_, ?_, hround.isWriting_of_nil⟩
    · simpa [hone] using hround.countP_isFlush
    · simpa [hone] using hround.countP_isLastingWrite

/-! ## Octets that came in -/

/-- A read takes its octets from those that arrivals bring. -/
theorem octetsBrought_read {room : Nat} {arrivals rest : List Arrival} {b : UInt8} {bytes : Bytes}
    (h : read room arrivals = (.got (b :: bytes), rest)) :
    (b :: bytes).length + octetsBrought rest = octetsBrought arrivals := by
  fun_induction read room arrivals with
  | case1 => simp at h
  | case2 arrivals ih => exact ih h
  | case3 => simp at h
  | case4 data arrivals hfits =>
    obtain ⟨hgot, rfl⟩ := Prod.mk.inj h
    obtain rfl := Reading.got.inj hgot
    rfl
  | case5 data arrivals hbig =>
    obtain ⟨hgot, rfl⟩ := Prod.mk.inj h
    have htaken := congrArg List.length (Reading.got.inj hgot)
    obtain ⟨d, ds, hdrop⟩ := List.exists_cons_of_ne_nil
      (show data.drop room ≠ [] by rw [← List.length_pos_iff, List.length_drop]; omega)
    have hleft := congrArg List.length hdrop
    cases data with
    | nil => simp at hbig
    | cons first others =>
      rw [hdrop]
      simp only [octetsBrought, List.length_take, List.length_drop] at *
      omega

/-- An exchange reads no more than its arrivals bring. -/
theorem length_received_converse (banner : Banner) (buffer : Buffer) (sink : Sink) (replies : Nat)
    (arrivals : List Arrival) :
    (received (converse banner buffer sink replies arrivals).1).length ≤ octetsBrought arrivals := by
  fun_induction converse banner buffer sink replies arrivals with
  | case1 => simp [received]
  | case2 => simp [received]
  | case3 => simp [received]
  | case4 buffer sink replies arrivals b bytes rest hread acts fault hsend =>
    have hsending := Sink.sending_of_send hsend
    have htaken := octetsBrought_read hread
    have hnone := hsending.received_eq_nil
    unfold received at hnone ⊢
    simp [hnone] at htaken ⊢
    omega
  | case5 buffer sink replies arrivals b bytes rest hread acts sink' hsend later ih =>
    have hsending := Sink.sending_of_send hsend
    have htaken := octetsBrought_read hread
    have hnone := hsending.received_eq_nil
    unfold received at hnone ih ⊢
    simp [hnone, later] at htaken ih ⊢
    omega

/-- A run reads no more than its stream brings. -/
theorem length_received_run (banner : Banner) (stream : Stream) :
    (received (run banner stream).acts).length ≤ octetsBrought stream.arrivals := by
  unfold run greet
  cases hsend : stream.sink.send banner.greeting with
  | mk opening result =>
    have hsending := Sink.sending_of_send hsend
    cases result with
    | error fault => simp [Standing.resume, Standing.finish, hsending.received_eq_nil]
    | ok sink =>
      have hconverse := length_received_converse banner .new sink 0 stream.arrivals
      simp only [Standing.resume, received_append, hsending.received_eq_nil, List.nil_append]
      have hfinish : received (converse banner .new sink 0 stream.arrivals).2.finish.1 = [] := by
        cases (converse banner .new sink 0 stream.arrivals).2 <;> simp [Standing.finish, received]
      rw [hfinish, List.append_nil]
      exact hconverse

/-- No chunk that is read is empty. -/
theorem ne_nil_of_mem_chunksRead {acts : List Act} {chunk : Bytes} (h : chunk ∈ chunksRead acts) :
    chunk ≠ [] := by
  obtain ⟨act, -, hact⟩ := List.mem_filterMap.mp h
  split at hact
  · rw [← Option.some.inj hact]
    exact List.cons_ne_nil _ _
  · cases hact

/-- Every chunk takes at least one octet of those that came in. -/
theorem length_chunks_run (banner : Banner) (stream : Stream) :
    (chunks (run banner stream).acts).length ≤ octetsBrought stream.arrivals := by
  have hpositive : ∀ length ∈ (chunksRead (run banner stream).acts).map List.length, 1 ≤ length := by
    intro length hlength
    obtain ⟨chunk, hchunk, rfl⟩ := List.mem_map.mp hlength
    exact List.length_pos_iff.mpr (ne_nil_of_mem_chunksRead hchunk)
  calc (chunks (run banner stream).acts).length
      = ((chunksRead (run banner stream).acts).map List.length).length := by
        rw [chunks_run_eq_chunksRead, List.length_map]
    _ ≤ ((chunksRead (run banner stream).acts).map List.length).sum :=
        List.length_le_sum_of_one_le _ hpositive
    _ = (received (run banner stream).acts).length := by
        rw [received_eq_flatten, List.length_flatten]
    _ ≤ octetsBrought stream.arrivals := length_received_run banner stream

/-! ## The bounds of a run -/

/-- An exchange that sends its greeting and no more. -/
theorem Sending.withinBounds {banner : Banner} {acts : List Act} {failure : Option Fault}
    (h : Sending banner.greeting acts failure) (octets : Nat) :
    WithinBounds banner octets acts := by
  have hnone := h.chunks_eq_nil
  have hquiet := h.isReading
  refine ⟨?_, ?_, ?_, ?_, ?_, ?_⟩
  · rw [h.countP_isReading]
    exact Nat.zero_le _
  · simp [hnone]
  · simpa [hnone] using h.countP_isFlush
  · simpa [hnone] using h.countP_isLastingWrite
  · intro hgreeting act hact
    rw [hgreeting] at h
    exact h.isWriting_of_nil act (List.takeWhile_subset _ hact)
  · intro _ act hact
    rw [List.dropWhile_eq_nil_iff.mpr fun act hact => by simp [hquiet act hact]] at hact
    simp at hact

/-- An exchange that sends its greeting, goes through rounds and comes to an end. -/
theorem Sending.withinBounds_rounds {banner : Banner} {opening ending : List Act}
    {rounds : List Round} (hopening : Sending banner.greeting opening none)
    (hrounds : ∀ round ∈ rounds, round.Sends banner none) (hending : EndsRun banner ending)
    {octets : Nat}
    (hchunks : (chunks (opening ++ (rounds.flatMap Round.acts ++ ending))).length ≤ octets) :
    WithinBounds banner octets (opening ++ (rounds.flatMap Round.acts ++ ending)) := by
  have hcount : (chunks (opening ++ (rounds.flatMap Round.acts ++ ending))).length =
      rounds.length + (chunks ending).length := by
    simp [hopening.chunks_eq_nil, chunks_rounds hrounds]
  have hquiet : ∀ act ∈ opening, (!act.isReading) = true := by
    intro act hact
    simp [hopening.isReading act hact]
  obtain ⟨call, later, hsplit, hcall⟩ : ∃ call later,
      rounds.flatMap Round.acts ++ ending = call :: later ∧ call.isReading = true := by
    cases rounds with
    | nil => exact hending.begins
    | cons round rounds => exact ⟨_, _, rfl, rfl⟩
  have hreads := countP_rounds fun round hround => ((hrounds round hround).countP_isReading).le
  have hflushes := countP_rounds fun round hround => (hrounds round hround).countP_isFlush
  have hwrites := countP_rounds fun round hround => (hrounds round hround).countP_isLastingWrite
  refine ⟨?_, hchunks, ?_, ?_, ?_, ?_⟩
  · have hlast := hending.reads
    rw [List.countP_append, List.countP_append, hopening.countP_isReading]
    omega
  · have hfirst := hopening.countP_isFlush
    have hlast := hending.flushes
    rw [hcount, List.countP_append, List.countP_append]
    omega
  · have hfirst := hopening.countP_isLastingWrite
    have hlast := hending.writes
    rw [hcount, List.countP_append, List.countP_append, Nat.add_mul]
    omega
  · intro hgreeting act hact
    rw [List.takeWhile_append_of_pos hquiet, hsplit, List.takeWhile_cons_of_neg (by simp [hcall]),
      List.append_nil] at hact
    rw [hgreeting] at hopening
    exact hopening.isWriting_of_nil act hact
  · intro hreply act hact
    rw [List.dropWhile_append_of_pos hquiet, hsplit, List.dropWhile_cons_of_neg (by simp [hcall]),
      ← hsplit, List.mem_append, List.mem_flatMap] at hact
    obtain ⟨round, hround, hact⟩ | hact := hact
    · exact (hrounds round hround).isWriting_of_nil hreply act hact
    · exact hending.noReply hreply act hact

/-- Every run stays within the bounds that its banner and the octets that come in set. -/
theorem run_withinBounds (banner : Banner) (stream : Stream) :
    WithinBounds banner (octetsBrought stream.arrivals) (run banner stream).acts := by
  have hchunks := length_chunks_run banner stream
  rcases run_rounds banner stream with
    ⟨fault, hbroken, -⟩ | ⟨opening, rounds, ending, hacts, hopening, hrounds, hending⟩
  · exact hbroken.withinBounds _
  · rw [hacts, List.append_assoc] at hchunks ⊢
    exact hopening.withinBounds_rounds hrounds hending.endsRun hchunks

end PongFixture.Exchange
