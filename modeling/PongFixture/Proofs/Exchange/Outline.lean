import PongFixture.Proofs.Exchange.FirstFailure

/-!
# Neither contents nor scheduling show in an exchange

The outline of an exchange leaves out which octets came in, calls that were not ready, and how what
is sent was cut into writes: every octet that is sent stands in it by itself. As long as no write
fails, the outline and the result are fixed by how many octets each read hands out, how the input
ends, and which flush fails (`outline_run`). So two exchanges with the same banner that agree in
these agree in all that a peer can tell: the result, the reads, the lengths of the chunks, and what
is sent between two flushes.
-/

set_option autoImplicit false

namespace PongFixture.Exchange

/-! ## What is compared -/

/-- What is left of an act when contents and the cutting of writes are left out. -/
inductive Mark
  | read (room length : Nat)
  | readFailed (fault : Fault)
  | chunk (length : Nat)
  | sent (octet : UInt8)
  | flushed
  | flushFailed (fault : Fault)
  | ended (replies : Nat)
  deriving DecidableEq

namespace Act

/-- What an act leaves on the outline: a read and a chunk their lengths, a write its octets one by
one, a write that fails nothing, and everything else itself. -/
def marks : Act → List Mark
  | .read room bytes => [.read room bytes.length]
  | .readFailed fault => [.readFailed fault]
  | .chunk bytes => [.chunk bytes.length]
  | .wrote bytes => bytes.map .sent
  | .writeFailed _ => []
  | .flushed => [.flushed]
  | .flushFailed fault => [.flushFailed fault]
  | .ended replies => [.ended replies]

/-- Whether an act is a flush, successful or not. -/
def isFlush : Act → Bool
  | .flushed | .flushFailed _ => true
  | _ => false

end Act

/-- The marks of a series of acts. -/
def outline (acts : List Act) : List Mark := acts.flatMap Act.marks

/-- The reads among acts: the room that each offered and the length of what it handed out, or its
fault. -/
def readCalls (acts : List Act) : List (Except Fault (Nat × Nat)) :=
  acts.filterMap fun
    | .read room bytes => some (.ok (room, bytes.length))
    | .readFailed fault => some (.error fault)
    | _ => none

/-- What is sent before the first flush, between every two flushes, and after the last. -/
def sentBetweenFlushes (acts : List Act) : List Bytes := (acts.splitOnP Act.isFlush).map sent

/-- Acts among which no write fails. An interrupted write is made again and counts as not ready. -/
def WritesSucceed (acts : List Act) : Prop :=
  ∀ act ∈ acts, act.isWriting = true → act.failure? = none

/-- What the reads of an exchange come to but for the octets: the length of each chunk, and then the
end of the input or a fault. -/
def readings (arrivals : List Arrival) : List Nat × Option Fault :=
  match _ : read chunkSize arrivals with
  | (.idle, _) => ([], none)
  | (.fault fault, _) => ([], some fault)
  | (.got [], _) => ([], none)
  | (.got (b :: bytes), rest) =>
    let later := readings rest
    ((b :: bytes).length :: later.1, later.2)
termination_by weight arrivals
decreasing_by exact weight_read_lt ‹_›

/-- What flushes come to: how many succeed before one fails, and its fault. -/
def firstFlushFault : List Flushing → Option (Nat × Fault)
  | [] => none
  | .notReady :: script => firstFlushFault script
  | .done :: script => (firstFlushFault script).map fun failure => (failure.1 + 1, failure.2)
  | .fault fault :: _ => some (0, fault)

/-! ## What an exchange comes to by its readings and flushes -/

/-- The marks of sending octets. -/
def sendingMarks (bytes : Bytes) (failure : Option Fault) : List Mark :=
  bytes.map .sent ++ [match failure with
    | none => .flushed
    | some fault => .flushFailed fault]

/-- An exchange after so many replies: its outline and its result, by the lengths of the chunks that
are still to come, how the input ends then, and which flush fails. -/
def course (banner : Banner) (replies : Nat) (flushFault : Option (Nat × Fault)) :
    List Nat → Option Fault → List Mark × Except Fault Nat
  | [], none => ([.read chunkSize 0, .ended replies], .ok replies)
  | [], some fault => ([.readFailed fault], .error fault)
  | length :: lengths, ending =>
    match flushFault with
    | some (0, fault) =>
      (.read chunkSize length :: .chunk length :: sendingMarks banner.reply (some fault),
        .error fault)
    | _ =>
      let later := course banner (replies + 1)
        (flushFault.map fun failure => (failure.1 - 1, failure.2)) lengths ending
      (.read chunkSize length :: .chunk length :: (sendingMarks banner.reply none ++ later.1),
        later.2)

/-- A whole exchange: the greeting, and its course after that. -/
def plan (banner : Banner) (flushFault : Option (Nat × Fault)) (reads : List Nat × Option Fault) :
    List Mark × Except Fault Nat :=
  match flushFault with
  | some (0, fault) => (sendingMarks banner.greeting (some fault), .error fault)
  | _ =>
    let later := course banner 0 (flushFault.map fun failure => (failure.1 - 1, failure.2))
      reads.1 reads.2
    (sendingMarks banner.greeting none ++ later.1, later.2)

section Course

variable (banner : Banner) (replies length : Nat) (lengths : List Nat) (ending : Option Fault)
variable (later : Option (Nat × Fault))

/-- A chunk whose reply is flushed leaves the flushes that come later. -/
theorem course_of_flushed :
    course banner replies (later.map fun failure => (failure.1 + 1, failure.2))
        (length :: lengths) ending =
      (.read chunkSize length :: .chunk length :: (sendingMarks banner.reply none ++
          (course banner (replies + 1) later lengths ending).1),
        (course banner (replies + 1) later lengths ending).2) := by
  cases later <;> rfl

/-- After a greeting that is flushed the plan is that of the course that follows. -/
theorem plan_of_flushed (reads : List Nat × Option Fault) :
    plan banner (later.map fun failure => (failure.1 + 1, failure.2)) reads =
      (sendingMarks banner.greeting none ++ (course banner 0 later reads.1 reads.2).1,
        (course banner 0 later reads.1 reads.2).2) := by
  cases later <;> rfl

end Course

/-- The outline of acts in sequence is that of each part, in the same sequence. -/
@[simp] theorem outline_append (first second : List Act) :
    outline (first ++ second) = outline first ++ outline second := by
  simp [outline]

/-- The outline begins with the marks of the first act. -/
@[simp] theorem outline_cons (act : Act) (acts : List Act) :
    outline (act :: acts) = act.marks ++ outline acts := rfl

/-- Where all writes succeed, they do so in every part. -/
theorem WritesSucceed.of_append {first second : List Act} (h : WritesSucceed (first ++ second)) :
    WritesSucceed first ∧ WritesSucceed second :=
  List.forall_mem_append.mp h

/-- Where all writes succeed, they do so after the first act. -/
theorem WritesSucceed.of_cons {act : Act} {acts : List Act} (h : WritesSucceed (act :: acts)) :
    WritesSucceed acts :=
  (List.forall_mem_cons.mp h).2

/-! ## Sending -/

/-- However octets are cut into writes, what shows is the octets. -/
theorem Writing.outline_eq {bytes : Bytes} {acts : List Act} {failure : Option Fault}
    (h : Writing bytes acts failure) (hnone : failure = none) :
    outline acts = bytes.map .sent := by
  induction h with
  | done => rfl
  | part htaken hrest ih => simp [ih hnone, Act.marks]
  | interrupted hbytes hkind hagain ih => simp [ih hnone, Act.marks]
  | refused => contradiction
  | failed => contradiction

/-- A flush fails if it is the first that does, and leaves the others if not. -/
theorem flush_outcome (script : List Flushing) :
    (∃ fault, flush script = ([.flushFailed fault], .error fault) ∧
      firstFlushFault script = some (0, fault)) ∨
    ∃ rest, flush script = ([.flushed], .ok rest) ∧
      firstFlushFault script =
        (firstFlushFault rest).map fun failure => (failure.1 + 1, failure.2) := by
  fun_induction flush script with
  | case1 => exact .inr ⟨[], rfl, rfl⟩
  | case2 script ih => exact ih
  | case3 script => exact .inr ⟨script, rfl, rfl⟩
  | case4 fault => exact .inl ⟨fault, rfl, rfl⟩

/-- If its writes succeed, a sending has the outcome of its flush. -/
theorem Sink.send_outline (sink : Sink) (bytes : Bytes)
    (h : WritesSucceed (sink.send bytes).1) :
    (∃ fault acts, firstFlushFault sink.flushings = some (0, fault) ∧
      sink.send bytes = (acts, .error fault) ∧ outline acts = sendingMarks bytes (some fault)) ∨
    ∃ (acts : List Act) (next : Sink), sink.send bytes = (acts, .ok next) ∧
      outline acts = sendingMarks bytes none ∧
      firstFlushFault sink.flushings =
        (firstFlushFault next.flushings).map fun failure => (failure.1 + 1, failure.2) := by
  have hwriting := writeAll_writing sink.acceptances bytes
  unfold Sink.send at h ⊢
  cases hwritten : writeAll sink.acceptances bytes with
  | mk written result =>
    rw [hwritten] at h hwriting
    cases result with
    | error fault =>
      -- The write that failed would be among the acts.
      obtain ⟨before, call, hsplit, hfails⟩ := hwriting.failsWith.fails fault rfl
      have hmem : call ∈ written := by
        have : written = before ++ [call] := hsplit
        simp [this]
      have hsucceeds := h call hmem (hwriting.isWriting call hmem)
      rw [hsucceeds] at hfails
      contradiction
    | ok acceptances =>
      have hsent : outline written = bytes.map .sent := hwriting.outline_eq rfl
      rcases flush_outcome sink.flushings with ⟨fault, hflushed, hfirst⟩ | ⟨rest, hflushed, hfirst⟩
      · refine .inl ⟨fault, written ++ [.flushFailed fault], hfirst, ?_, ?_⟩
        · simp only [hflushed]
        · rw [outline_append, hsent]
          rfl
      · refine .inr ⟨written ++ [.flushed], ⟨acceptances, rest⟩, ?_, ?_, hfirst⟩
        · simp only [hflushed]
        · rw [outline_append, hsent]
          rfl

/-! ## Exchanges -/

section Readings

variable {arrivals rest : List Arrival}

/-- Arrivals that run out tell no more readings. -/
theorem readings_of_idle (h : read chunkSize arrivals = (.idle, rest)) :
    readings arrivals = ([], none) := by
  rw [readings]
  split <;> simp_all

/-- Arrivals that bring a fault tell that and no more. -/
theorem readings_of_fault {fault : Fault} (h : read chunkSize arrivals = (.fault fault, rest)) :
    readings arrivals = ([], some fault) := by
  rw [readings]
  split <;> simp_all

/-- The end of the input ends the readings. -/
theorem readings_of_end (h : read chunkSize arrivals = (.got [], rest)) :
    readings arrivals = ([], none) := by
  rw [readings]
  split <;> simp_all

/-- Octets that arrive are told by their number, before what the rest tells. -/
theorem readings_of_got {b : UInt8} {bytes : Bytes}
    (h : read chunkSize arrivals = (.got (b :: bytes), rest)) :
    readings arrivals = ((b :: bytes).length :: (readings rest).1, (readings rest).2) := by
  rw [readings]
  split <;> simp_all

end Readings

/-- Conversing, and letting the input end then, takes the course that readings and flushes fix. -/
theorem outline_converse (banner : Banner) (buffer : Buffer) (sink : Sink) (replies : Nat)
    (arrivals : List Arrival) (hcapacity : buffer.capacity = chunkSize)
    (h : WritesSucceed (converse banner buffer sink replies arrivals).1) :
    let conversed := converse banner buffer sink replies arrivals
    (outline (conversed.1 ++ conversed.2.finish.1), conversed.2.finish.2) =
      course banner replies (firstFlushFault sink.flushings) (readings arrivals).1
        (readings arrivals).2 := by
  intro conversed
  unfold conversed
  have hroom : buffer.clear.room = chunkSize := hcapacity
  fun_induction converse banner buffer sink replies arrivals with
  | case1 buffer sink replies arrivals rest hread =>
    rw [hroom] at hread
    rw [readings_of_idle hread]
    simp [Standing.finish, course, outline, Act.marks, Buffer.clear, Buffer.room, hcapacity]
  | case2 buffer sink replies arrivals fault rest hread =>
    rw [hroom] at hread
    rw [readings_of_fault hread]
    simp [Standing.finish, course, outline, Act.marks]
  | case3 buffer sink replies arrivals rest hread =>
    rw [readings_of_end (hroom ▸ hread)]
    simp [Standing.finish, course, outline, Act.marks, hcapacity]
  | case4 buffer sink replies arrivals b bytes rest hread acts fault hsend =>
    have hsucceed : WritesSucceed (sink.send banner.reply).1 := by
      rw [hsend]
      exact h.of_cons.of_cons
    rw [readings_of_got (hroom ▸ hread)]
    rcases sink.send_outline banner.reply hsucceed with
      ⟨broken, broke, hfirst, hsent, hmarks⟩ | ⟨broke, next, hsent, -⟩
    · rw [hsend] at hsent
      obtain ⟨rfl, hfault⟩ := Prod.mk.inj hsent
      obtain rfl := Except.error.inj hfault
      simp [Standing.finish, course, hfirst, hmarks, Act.marks, hcapacity]
    · rw [hsend] at hsent
      cases (Prod.mk.inj hsent).2
  | case5 buffer sink replies arrivals b bytes rest hread acts sink' hsend later ih =>
    have hrest := h.of_cons.of_cons.of_append
    have hsucceed : WritesSucceed (sink.send banner.reply).1 := by
      rw [hsend]
      exact hrest.1
    have hlater := ih hcapacity hrest.2 hcapacity
    rw [readings_of_got (hroom ▸ hread)]
    rcases sink.send_outline banner.reply hsucceed with
      ⟨broken, broke, -, hsent, -⟩ | ⟨sending, next, hsent, hmarks, hfirst⟩
    · rw [hsend] at hsent
      cases (Prod.mk.inj hsent).2
    · rw [hsend] at hsent
      obtain ⟨rfl, hsink⟩ := Prod.mk.inj hsent
      obtain rfl := Except.ok.inj hsink
      rw [hfirst, course_of_flushed, ← hlater]
      simp [later, hmarks, Act.marks, hcapacity]

/-- The outline and the result of an exchange in which no write fails, by its readings and its
flushes. -/
theorem outline_run (banner : Banner) (stream : Stream)
    (h : WritesSucceed (run banner stream).acts) :
    (outline (run banner stream).acts, (run banner stream).result) =
      plan banner (firstFlushFault stream.sink.flushings) (readings stream.arrivals) := by
  unfold run greet at h ⊢
  have hsucceed : WritesSucceed (stream.sink.send banner.greeting).1 := by
    cases hsend : stream.sink.send banner.greeting with
    | mk acts result =>
      rw [hsend] at h
      cases result with
      | error fault => exact h.of_append.1.of_append.1
      | ok next => exact h.of_append.1.of_append.1
  rcases stream.sink.send_outline banner.greeting hsucceed with
    ⟨fault, acts, hfirst, hsent, hmarks⟩ | ⟨acts, next, hsent, hmarks, hfirst⟩
  · rw [hsent, hfirst]
    simp [Standing.resume, Standing.finish, hmarks, plan]
  · rw [hsent] at h ⊢
    have hconverse := outline_converse banner .new next 0 stream.arrivals rfl
      h.of_append.1.of_append.2
    rw [hfirst, plan_of_flushed, ← hconverse]
    simp [Standing.resume, hmarks]

/-! ## What the outline tells -/

namespace Mark

/-- The read that a mark tells of, with the room and what came. -/
def readCall? : Mark → Option (Except Fault (Nat × Nat))
  | .read room length => some (.ok (room, length))
  | .readFailed fault => some (.error fault)
  | _ => none

/-- The length of the chunk that a mark tells of. -/
def chunkLength? : Mark → Option Nat
  | .chunk length => some length
  | _ => none

/-- The octet that a mark tells has been sent. -/
def octet? : Mark → Option UInt8
  | .sent octet => some octet
  | _ => none

/-- Whether a mark tells of a flush. -/
def isFlush : Mark → Bool
  | .flushed | .flushFailed _ => true
  | _ => false

end Mark

/-- The outline tells the reads. -/
theorem readCalls_eq (acts : List Act) :
    readCalls acts = (outline acts).filterMap Mark.readCall? := by
  induction acts with
  | nil => rfl
  | cons act acts ih =>
    unfold readCalls at ih ⊢
    cases act with
    | wrote bytes => simp [Act.marks, Mark.readCall?, List.filterMap_map, Function.comp_def, ih]
    | _ => simp [Act.marks, List.filterMap_cons, Mark.readCall?, ih]

/-- The outline tells the lengths of the chunks. -/
theorem chunkLengths_eq (acts : List Act) :
    (chunks acts).map List.length = (outline acts).filterMap Mark.chunkLength? := by
  induction acts with
  | nil => rfl
  | cons act acts ih =>
    unfold chunks at ih ⊢
    cases act with
    | wrote bytes => simp [Act.marks, Mark.chunkLength?, List.filterMap_map, Function.comp_def, ih]
    | _ => simp [Act.marks, List.filterMap_cons, Mark.chunkLength?, ih]

/-- What an outline tells of the octets sent between flushes. -/
def octetsBetweenFlushes (marks : List Mark) : List Bytes :=
  (marks.splitOnP Mark.isFlush).map (List.filterMap Mark.octet?)

/-- A mark that is a flush begins a new stretch, and an octet belongs to the first one. -/
theorem octetsBetweenFlushes_cons (mark : Mark) (marks : List Mark) :
    octetsBetweenFlushes (mark :: marks) =
      if mark.isFlush then [] :: octetsBetweenFlushes marks
      else (octetsBetweenFlushes marks).modifyHead (mark.octet?.toList ++ ·) := by
  unfold octetsBetweenFlushes
  rw [List.splitOnP_cons_eq_if_modifyHead]
  split
  · rfl
  · cases marks.splitOnP Mark.isFlush with
    | nil => rfl
    | cons first parts => cases hoctet : mark.octet? <;> simp [hoctet]

/-- Octets that are sent come before all else of the first part. -/
theorem octetsBetweenFlushes_sent (bytes : Bytes) (marks : List Mark) :
    octetsBetweenFlushes (bytes.map .sent ++ marks) =
      (octetsBetweenFlushes marks).modifyHead (bytes ++ ·) := by
  induction bytes with
  | nil => cases hparts : octetsBetweenFlushes marks <;> simp [hparts]
  | cons b bytes ih =>
    rw [List.map_cons, List.cons_append, octetsBetweenFlushes_cons, ih]
    cases octetsBetweenFlushes marks <;> simp [Mark.isFlush, Mark.octet?]

/-- A flush begins a new stretch, and what else is sent belongs to the first one. -/
theorem sentBetweenFlushes_cons (act : Act) (acts : List Act) :
    sentBetweenFlushes (act :: acts) =
      if act.isFlush then [] :: sentBetweenFlushes acts
      else (sentBetweenFlushes acts).modifyHead (act.sent ++ ·) := by
  unfold sentBetweenFlushes
  rw [List.splitOnP_cons_eq_if_modifyHead]
  split
  · rfl
  · cases acts.splitOnP Act.isFlush <;> rfl

/-- The outline tells what is sent between flushes. -/
theorem sentBetweenFlushes_eq (acts : List Act) :
    sentBetweenFlushes acts = octetsBetweenFlushes (outline acts) := by
  induction acts with
  | nil => rfl
  | cons act acts ih =>
    -- Every act but a write has one mark, which is a flush if the act is one.
    have hmark (mark : Mark) (hmarks : act.marks = [mark]) (hflush : mark.isFlush = act.isFlush)
        (hsent : mark.octet?.toList = act.sent) :
        sentBetweenFlushes (act :: acts) = octetsBetweenFlushes (outline (act :: acts)) := by
      rw [sentBetweenFlushes_cons, outline_cons, hmarks, List.singleton_append,
        octetsBetweenFlushes_cons, ih, hflush, hsent]
    cases act with
    | wrote bytes =>
      rw [sentBetweenFlushes_cons, ih]
      exact (octetsBetweenFlushes_sent bytes (outline acts)).symm
    | writeFailed fault =>
      rw [sentBetweenFlushes_cons, ih]
      exact (octetsBetweenFlushes_sent [] (outline acts)).symm
    | read | readFailed | chunk | flushed | flushFailed | ended => exact hmark _ rfl rfl rfl

/-- Two exchanges with the same banner, on streams whose reads hand out the same lengths and end in
the same way and whose flushes fail alike, have the same result, make the same reads, hand on chunks
of the same lengths and send the same between every two flushes, as long as no write fails. What the
octets are, when calls are not ready, and how much each write takes makes no difference. -/
theorem only_lengths_show (banner : Banner) (first second : Stream)
    (hreads : readings first.arrivals = readings second.arrivals)
    (hflushes : firstFlushFault first.sink.flushings = firstFlushFault second.sink.flushings)
    (hfirst : WritesSucceed (run banner first).acts)
    (hsecond : WritesSucceed (run banner second).acts) :
    (run banner first).result = (run banner second).result ∧
    readCalls (run banner first).acts = readCalls (run banner second).acts ∧
    (chunks (run banner first).acts).map List.length =
      (chunks (run banner second).acts).map List.length ∧
    sentBetweenFlushes (run banner first).acts = sentBetweenFlushes (run banner second).acts ∧
    outline (run banner first).acts = outline (run banner second).acts := by
  have hplan := (outline_run banner first hfirst).trans
    (hreads ▸ hflushes ▸ (outline_run banner second hsecond).symm)
  obtain ⟨houtline, hresult⟩ := Prod.mk.inj hplan
  refine ⟨hresult, ?_, ?_, ?_, houtline⟩
  · rw [readCalls_eq, readCalls_eq, houtline]
  · rw [chunkLengths_eq, chunkLengths_eq, houtline]
  · rw [sentBetweenFlushes_eq, sentBetweenFlushes_eq, houtline]

/-- Two streams with three chunks, the first in many small steps and with other octets: the flush of
the second reply fails on both. -/
theorem only_lengths_show_at_failing_flush :
    let first : Stream :=
      ⟨[.data [1, 2, 3], .notReady, .data [9], .data [4, 4]],
        ⟨[.upTo 1, .notReady, .upTo 1, .fault (.ofKind .interrupted)],
          [.notReady, .done, .done, .fault .reset]⟩⟩
    let second : Stream :=
      ⟨[.data [7, 7, 7], .data [0], .notReady, .data [5, 6]],
        ⟨[], [.done, .done, .notReady, .fault .reset]⟩⟩
    readings first.arrivals = readings second.arrivals ∧
    firstFlushFault first.sink.flushings = firstFlushFault second.sink.flushings ∧
    WritesSucceed (run ⟨[72, 105], [111, 107]⟩ first).acts ∧
    WritesSucceed (run ⟨[72, 105], [111, 107]⟩ second).acts ∧
    (run ⟨[72, 105], [111, 107]⟩ first).acts ≠ (run ⟨[72, 105], [111, 107]⟩ second).acts ∧
    (run ⟨[72, 105], [111, 107]⟩ first).result =
      (run ⟨[72, 105], [111, 107]⟩ second).result := by
  intro first second
  have hreads : readings first.arrivals = readings second.arrivals := by decide +kernel
  have hflushes : firstFlushFault first.sink.flushings =
      firstFlushFault second.sink.flushings := by decide +kernel
  have hfirst : WritesSucceed (run ⟨[72, 105], [111, 107]⟩ first).acts := by
    unfold WritesSucceed
    decide +kernel
  have hsecond : WritesSucceed (run ⟨[72, 105], [111, 107]⟩ second).acts := by
    unfold WritesSucceed
    decide +kernel
  refine ⟨hreads, hflushes, hfirst, hsecond, by decide +kernel, ?_⟩
  exact (only_lengths_show ⟨[72, 105], [111, 107]⟩ first second hreads hflushes hfirst hsecond).1

end PongFixture.Exchange
