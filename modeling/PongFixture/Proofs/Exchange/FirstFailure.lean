import PongFixture.Proofs.Exchange.Rounds

/-!
# The first failure ends an exchange

An exchange stops at the first of its acts that fails, and its result is that failure. A stream has
its failures in store, one kind of call apart from the other (`Stream.inStore`); the one an exchange
meets is the next of its kind, unchanged. What was handed on and sent until then is fixed by the
number of chunks: the chunk whose reply fails has been handed on, and all replies before it are
sent. An interrupted write is no failure: it is made again.
-/

set_option autoImplicit false

namespace PongFixture.Exchange

/-- The chunks that were read over a series of acts. -/
def chunksRead (acts : List Act) : List Bytes :=
  acts.filterMap fun
    | .read _ (b :: bytes) => some (b :: bytes)
    | _ => none

/-- The chunks read in a sequence are those read in each part, in the same sequence. -/
@[simp] theorem chunksRead_append (first second : List Act) :
    chunksRead (first ++ second) = chunksRead first ++ chunksRead second := by
  simp [chunksRead]

/-! ## Acts that fail -/

/-- Acts of which none but the last may fail. -/
def StopsAtFailure (acts : List Act) : Prop := ∀ act ∈ acts.dropLast, act.failure? = none

/-- Nothing comes after an act that fails. -/
theorem StopsAtFailure.eq_nil {before after : List Act} {call : Act} {fault : Fault}
    (h : StopsAtFailure (before ++ call :: after)) (hfails : call.failure? = some fault) :
    after = [] := by
  by_cases hafter : after = []
  · exact hafter
  · have hmem : call ∈ (before ++ call :: after).dropLast := by
      rw [List.dropLast_append_cons, List.dropLast_cons_of_ne_nil hafter]
      simp
    rw [h call hmem] at hfails
    contradiction

/-- Acts that do not fail may come before acts that stop at a failure. -/
theorem StopsAtFailure.append {first second : List Act}
    (hfirst : ∀ act ∈ first, act.failure? = none) (hsecond : StopsAtFailure second) :
    StopsAtFailure (first ++ second) := by
  intro act hact
  by_cases hnil : second = []
  · subst hnil
    rw [List.append_nil] at hact
    exact hfirst act (List.dropLast_subset _ hact)
  · rw [List.dropLast_append_of_ne_nil hnil] at hact
    rcases List.mem_append.mp hact with hmem | hmem
    · exact hfirst act hmem
    · exact hsecond act hmem

/-- A single act is followed by none. -/
theorem stopsAtFailure_singleton (act : Act) : StopsAtFailure [act] := by
  simp [StopsAtFailure]

/-- How acts fail: not at all, or the last of them with a fault. -/
structure FailsWith (failure : Option Fault) (acts : List Act) : Prop where
  stops : StopsAtFailure acts
  fails : ∀ fault, failure = some fault →
    ∃ before call, acts = before ++ [call] ∧ call.failure? = some fault
  succeeds : failure = none → ∀ act ∈ acts, act.failure? = none

namespace FailsWith

variable {failure : Option Fault} {acts : List Act} {act : Act} {fault : Fault}

/-- A single act that fails is the failure. -/
theorem singleton (hact : act.failure? = some fault) : FailsWith (some fault) [act] where
  stops := stopsAtFailure_singleton act
  fails _ hfault := ⟨[], act, rfl, hfault ▸ hact⟩
  succeeds hnone := by contradiction

/-- Acts that do not fail come before acts that fail in some way. -/
theorem append {first : List Act} (hfirst : ∀ act ∈ first, act.failure? = none)
    (h : FailsWith failure acts) : FailsWith failure (first ++ acts) where
  stops := .append hfirst h.stops
  fails fault hfault := by
    obtain ⟨before, call, rfl, hcall⟩ := h.fails fault hfault
    exact ⟨first ++ before, call, by simp, hcall⟩
  succeeds hnone act hact := by
    rcases List.mem_append.mp hact with hmem | hmem
    · exact hfirst act hmem
    · exact h.succeeds hnone act hmem

/-- An act that fails is the last, and the acts fail with its fault. -/
theorem eq_nil {before after : List Act} (h : FailsWith failure (before ++ act :: after))
    (hact : act.failure? = some fault) : after = [] ∧ failure = some fault := by
  have hafter := h.stops.eq_nil hact
  refine ⟨hafter, ?_⟩
  cases hfailure : failure with
  | none =>
    rw [h.succeeds hfailure act (by simp)] at hact
    contradiction
  | some broken =>
    obtain ⟨earlier, last, hacts, hlast⟩ := h.fails broken hfailure
    rw [hafter] at hacts
    rw [← hact, ← hlast, (List.append_inj' hacts rfl).2 |> List.singleton_inj.mp]

/-- An act that succeeds leaves the failure where it is. -/
theorem cons (hact : act.failure? = none) (h : FailsWith failure acts) :
    FailsWith failure (act :: acts) := by
  have hfirst : ∀ first ∈ [act], first.failure? = none := by simpa using hact
  exact append hfirst h

end FailsWith

/-- Writing fails with the fault that it reports. -/
theorem Writing.failsWith {bytes : Bytes} {acts : List Act} {failure : Option Fault}
    (h : Writing bytes acts failure) : FailsWith failure acts := by
  induction h with
  | done => exact ⟨by simp [StopsAtFailure], by simp, by simp⟩
  | @part taken rest acts failure htaken _ ih =>
    refine ih.cons ?_
    cases taken with
    | nil => exact absurd rfl htaken
    | cons b taken => rfl
  | interrupted _ hkind _ ih => exact ih.cons (by simp [Act.failure?, hkind])
  | refused => exact .singleton rfl
  | failed _ hkind => exact .singleton (by simp [Act.failure?, hkind])

/-- Sending fails with the fault that it reports. -/
theorem Sending.failsWith {bytes : Bytes} {acts : List Act} {failure : Option Fault}
    (h : Sending bytes acts failure) : FailsWith failure acts := by
  cases h with
  | @done acts hwritten =>
    have hnone : ∀ act ∈ acts ++ [Act.flushed], act.failure? = none := by
      intro act hact
      rcases List.mem_append.mp hact with hmem | hmem
      · exact hwritten.failsWith.succeeds rfl act hmem
      · rw [List.mem_singleton.mp hmem]
        rfl
    refine ⟨?_, by simp, fun _ => hnone⟩
    intro act hact
    exact hnone act (List.dropLast_subset _ hact)
  | unwritten hbroken => exact hbroken.failsWith
  | unflushed hwritten =>
    exact (FailsWith.singleton rfl).append (hwritten.failsWith.succeeds rfl)

/-- A round fails with the fault of its reply. -/
theorem Round.Sends.failsWith {banner : Banner} {failure : Option Fault} {round : Round}
    (h : round.Sends banner failure) : FailsWith failure round.acts := by
  refine (h.replied.failsWith.cons rfl).cons ?_
  have hlength := h.nonempty
  cases hchunk : round.chunk <;> simp_all [Act.failure?]

/-- In rounds that are finished no act fails that is not made again. -/
theorem failure?_rounds {banner : Banner} {rounds : List Round}
    (h : ∀ round ∈ rounds, round.Sends banner none) :
    ∀ act ∈ rounds.flatMap Round.acts, act.failure? = none := by
  intro act hact
  obtain ⟨round, hround, hmem⟩ := List.mem_flatMap.mp hact
  exact (h round hround).failsWith.succeeds rfl act hmem

/-- An ending fails with the fault of its result. -/
theorem Ending.failsWith {banner : Banner} {replies : Nat} {ending : List Act}
    {result : Except Fault Nat} (h : Ending banner replies ending (.finished result)) :
    FailsWith (failureOf result) ending := by
  cases h with
  | closed => exact ⟨by simp [StopsAtFailure, Act.failure?], by simp, by simp [Act.failure?]⟩
  | unread => exact .singleton rfl
  | unanswered hround => exact hround.failsWith

/-- A run fails with the fault that is its result. -/
theorem run_failsWith (banner : Banner) (stream : Stream) :
    FailsWith (failureOf (run banner stream).result) (run banner stream).acts := by
  rcases run_rounds banner stream with
    ⟨fault, hbroken, hfault⟩ | ⟨opening, rounds, ending, hacts, hopening, hrounds, hending⟩
  · rw [hfault]
    exact hbroken.failsWith
  · rw [hacts, List.append_assoc]
    exact (hending.failsWith.append (failure?_rounds hrounds)).append
      (hopening.failsWith.succeeds rfl)

/-! ## What was handed on and sent by then -/

/-- A sending reads no chunk. -/
theorem Sending.chunksRead_eq_nil {bytes : Bytes} {acts : List Act} {failure : Option Fault}
    (h : Sending bytes acts failure) : chunksRead acts = [] := by
  apply List.filterMap_eq_nil_iff.mpr
  exact h.forall_acts (fun _ => rfl) (fun _ => rfl) rfl fun _ => rfl

/-- The chunk that a round reads is the one that it hands on. -/
theorem Round.Sends.chunks_eq_chunksRead {banner : Banner} {failure : Option Fault} {round : Round}
    (h : round.Sends banner failure) : chunks round.acts = chunksRead round.acts := by
  have hnone := h.replied.chunksRead_eq_nil
  have hlength := h.nonempty
  rw [h.chunks_acts]
  cases hchunk : round.chunk with
  | nil => simp [hchunk] at hlength
  | cons b bytes =>
    unfold chunksRead at hnone ⊢
    simp [acts, hchunk, hnone]

/-- Whole rounds hand on exactly the chunks that they read. -/
theorem chunks_rounds_eq_chunksRead {banner : Banner} {rounds : List Round}
    (h : ∀ round ∈ rounds, round.Sends banner none) :
    chunks (rounds.flatMap Round.acts) = chunksRead (rounds.flatMap Round.acts) := by
  induction rounds with
  | nil => rfl
  | cons round rounds ih =>
    rw [List.flatMap_cons, chunks_append, chunksRead_append,
      (h round (by simp)).chunks_eq_chunksRead, ih fun other hother => h other (by simp [hother])]

/-- An ending hands on the chunk that it reads, if it does. -/
theorem Ending.chunks_eq_chunksRead {banner : Banner} {replies : Nat} {ending : List Act}
    {standing : Standing} (h : Ending banner replies ending standing) :
    chunks ending = chunksRead ending := by
  cases h with
  | waiting => rfl
  | closed => rfl
  | unread => rfl
  | unanswered hround => exact hround.chunks_eq_chunksRead

/-- Every chunk that a run reads is handed on once, in the order of the reads. -/
theorem chunks_run_eq_chunksRead (banner : Banner) (stream : Stream) :
    chunks (run banner stream).acts = chunksRead (run banner stream).acts := by
  rcases run_rounds banner stream with
    ⟨fault, hbroken, -⟩ | ⟨opening, rounds, ending, hacts, hopening, hrounds, hending⟩
  · rw [hbroken.chunks_eq_nil, hbroken.chunksRead_eq_nil]
  · rw [hacts, chunks_append, chunks_append, chunksRead_append, chunksRead_append,
      hopening.chunks_eq_nil, hopening.chunksRead_eq_nil, chunks_rounds_eq_chunksRead hrounds,
      hending.chunks_eq_chunksRead]

/-- A run sends at most the greeting and one reply for each chunk, and lacks at most the last. -/
theorem sent_run (banner : Banner) (stream : Stream) :
    sent (run banner stream).acts <+: banner.upTo (chunks (run banner stream).acts).length ∧
      (1 ≤ (chunks (run banner stream).acts).length →
        banner.upTo ((chunks (run banner stream).acts).length - 1) <+:
          sent (run banner stream).acts) := by
  rcases run_rounds banner stream with
    ⟨fault, hbroken, -⟩ | ⟨opening, rounds, ending, hacts, hopening, hrounds, hending⟩
  · rw [hbroken.chunks_eq_nil]
    refine ⟨?_, by simp⟩
    simpa [Banner.upTo] using hbroken.sent_prefix.1
  · have hwhole : sent (opening ++ rounds.flatMap Round.acts) = banner.upTo rounds.length := by
      rw [sent_append, hopening.sent_prefix.2 rfl, sent_rounds hrounds, Banner.upTo]
    have hchunks : (chunks (run banner stream).acts).length =
        rounds.length + (chunks ending).length := by
      rw [hacts, chunks_append, chunks_append, hopening.chunks_eq_nil, chunks_rounds hrounds]
      simp
    rw [hchunks, hacts, sent_append, hwhole]
    generalize (run banner stream).result = result at hending
    -- Only the reply to a chunk of the ending may be sent in part.
    cases hending with
    | closed =>
      refine ⟨by simp [sent, Act.sent, chunks], ?_⟩
      intro _
      exact (banner.upTo_prefix (Nat.sub_le _ _)).trans (List.prefix_append _ _)
    | unread =>
      refine ⟨by simp [sent, Act.sent, chunks], ?_⟩
      intro _
      exact (banner.upTo_prefix (Nat.sub_le _ _)).trans (List.prefix_append _ _)
    | unanswered hround =>
      rw [hround.chunks_acts, List.length_singleton, Banner.upTo_succ, Nat.add_sub_cancel]
      constructor
      · exact (List.prefix_append_right_inj _).mpr hround.replied.sent_prefix.1
      · intro _
        exact List.prefix_append _ _

/-! ## The failures that a stream has in store -/

/-- The fault that comes in. -/
def Arrival.failure? : Arrival → Option Fault
  | .fault broken => some broken
  | _ => none

/-- The failure of a write: a fault other than an interruption, or that nothing is taken. -/
def Acceptance.failure? : Acceptance → Option Fault
  | .upTo limit => if limit = 0 then some .nothingWritten else none
  | .fault broken => if broken.kind = .interrupted then none else some broken
  | _ => none

/-- The fault of a flush. -/
def Flushing.failure? : Flushing → Option Fault
  | .fault broken => some broken
  | _ => none

/-- The next failure that a sink has in store for the kind of call that an act is. -/
def Sink.inStore (sink : Sink) : Act → Option Fault
  | .wrote _ | .writeFailed _ => sink.acceptances.findSome? Acceptance.failure?
  | .flushed | .flushFailed _ => sink.flushings.findSome? Flushing.failure?
  | _ => none

/-- The next failure that a stream has in store for the kind of call that an act is. -/
def Stream.inStore (stream : Stream) (call : Act) : Option Fault :=
  if call.isReading then stream.arrivals.findSome? Arrival.failure? else stream.sink.inStore call

/-- A read meets the next failure among the arrivals, or leaves it in store. -/
theorem failure?_read (room : Nat) (arrivals : List Arrival) :
    arrivals.findSome? Arrival.failure? =
      match read room arrivals with
      | (.fault fault, _) => some fault
      | (_, rest) => rest.findSome? Arrival.failure? := by
  fun_induction read room arrivals with
  | case1 => rfl
  | case2 arrivals ih => exact ih
  | case3 => rfl
  | case4 => rfl
  | case5 => rfl

/-- Writing meets the next failure among the acceptances, or leaves it in store. -/
theorem failure?_writeAll (script : List Acceptance) (bytes : Bytes) :
    script.findSome? Acceptance.failure? =
      match (writeAll script bytes).2 with
      | .error fault => some fault
      | .ok rest => rest.findSome? Acceptance.failure? := by
  fun_induction writeAll script bytes with
  | case1 => rfl
  | case2 => rfl
  | case3 script b bytes ih => exact ih
  | case4 => rfl
  | case5 => rfl
  | case6 limit script b bytes hlimit ih => simpa [Acceptance.failure?, hlimit] using ih
  | case7 fault script b bytes hkind ih => simpa [Acceptance.failure?, hkind] using ih
  | case8 fault script b bytes hkind => simp [Acceptance.failure?, hkind]

/-- A flush meets the next failure among the flushings, or leaves it in store. -/
theorem failure?_flush (script : List Flushing) :
    script.findSome? Flushing.failure? =
      match (flush script).2 with
      | .error fault => some fault
      | .ok rest => rest.findSome? Flushing.failure? := by
  fun_induction flush script with
  | case1 => rfl
  | case2 script ih => exact ih
  | case3 => rfl
  | case4 => rfl

/-- A sending that succeeds leaves the failures of its sink in store. -/
theorem Sink.inStore_send_ok {sink sink' : Sink} {bytes : Bytes} {acts : List Act}
    (h : sink.send bytes = (acts, .ok sink')) (call : Act) :
    sink.inStore call = sink'.inStore call := by
  have hwrite := failure?_writeAll sink.acceptances bytes
  have hflush := failure?_flush sink.flushings
  unfold Sink.send at h
  cases hwritten : writeAll sink.acceptances bytes with
  | mk written result =>
    rw [hwritten] at h hwrite
    cases result with
    | error fault => simp at h
    | ok acceptances =>
      cases hflushed : flush sink.flushings with
      | mk settled result =>
        simp only [hflushed] at h hflush
        cases result with
        | error fault => simp at h
        | ok flushings =>
          obtain ⟨-, hsink⟩ := Prod.mk.inj h
          rw [← Except.ok.inj hsink]
          cases call <;> simp_all [Sink.inStore]

/-- An act of a sending that fails meets the next failure that the sink has in store. -/
theorem Sink.inStore_send {sink : Sink} {bytes : Bytes} {acts : List Act}
    {result : Except Fault Sink}
    {call : Act} {fault : Fault} (h : sink.send bytes = (acts, result)) (hcall : call ∈ acts)
    (hfails : call.failure? = some fault) : sink.inStore call = some fault := by
  have hwrite := failure?_writeAll sink.acceptances bytes
  have hwriting := writeAll_writing sink.acceptances bytes
  have hflush := failure?_flush sink.flushings
  unfold Sink.send at h
  cases hwritten : writeAll sink.acceptances bytes with
  | mk written outcome =>
    rw [hwritten] at h hwrite hwriting
    -- A write that fails ends the sending, so an act that fails is that write or the flush.
    have hstore : ∀ act ∈ written, act.failure? = some fault → sink.inStore act = some fault := by
      intro act hact hbroken
      obtain ⟨before, after, rfl⟩ := List.append_of_mem hact
      have hfault := (hwriting.failsWith.eq_nil hbroken).2
      have hkind := hwriting.isWriting act hact
      cases outcome with
      | ok acceptances => simp at hfault
      | error broken => cases act <;> simp_all [Sink.inStore, Act.isWriting]
    cases outcome with
    | error broken =>
      obtain ⟨rfl, -⟩ := Prod.mk.inj h
      exact hstore call hcall hfails
    | ok acceptances =>
      rcases flush_acts sink.flushings with ⟨rest, hflushed⟩ | ⟨broken, hflushed⟩
      · simp only [hflushed] at h
        obtain ⟨rfl, -⟩ := Prod.mk.inj h
        rcases List.mem_append.mp hcall with hmem | hmem
        · exact hstore call hmem hfails
        · rw [List.mem_singleton.mp hmem] at hfails
          contradiction
      · simp only [hflushed] at h hflush
        obtain ⟨rfl, -⟩ := Prod.mk.inj h
        rcases List.mem_append.mp hcall with hmem | hmem
        · exact hstore call hmem hfails
        · rw [List.mem_singleton.mp hmem] at hfails ⊢
          exact hflush.trans hfails

/-- An act of a conversation that fails meets the next failure in store. -/
theorem inStore_converse (banner : Banner) (buffer : Buffer) (sink : Sink) (replies : Nat)
    (arrivals : List Arrival) {call : Act} {fault : Fault}
    (hcall : call ∈ (converse banner buffer sink replies arrivals).1)
    (hfails : call.failure? = some fault) :
    (Stream.mk arrivals sink).inStore call = some fault := by
  fun_induction converse banner buffer sink replies arrivals with
  | case1 => simp at hcall
  | case2 buffer sink replies arrivals broken rest hread =>
    have hstore := failure?_read buffer.clear.room arrivals
    rw [hread] at hstore
    rw [List.mem_singleton.mp hcall] at hfails ⊢
    exact hstore.trans hfails
  | case3 =>
    rcases List.mem_cons.mp hcall with rfl | hcall
    · simp [Act.failure?] at hfails
    · rw [List.mem_singleton.mp hcall] at hfails
      simp [Act.failure?] at hfails
  | case4 buffer sink replies arrivals b bytes rest hread acts broken hsend =>
    have hsending := Sink.sending_of_send hsend
    rcases List.mem_cons.mp hcall with rfl | hcall
    · simp [Act.failure?] at hfails
    rcases List.mem_cons.mp hcall with rfl | hcall
    · simp [Act.failure?] at hfails
    · have hstore := Sink.inStore_send hsend hcall hfails
      have hkind := hsending.isReading call hcall
      rwa [Stream.inStore, hkind]
  | case5 buffer sink replies arrivals b bytes rest hread acts sink' hsend later ih =>
    have hsending := Sink.sending_of_send hsend
    rcases List.mem_cons.mp hcall with rfl | hcall
    · simp [Act.failure?] at hfails
    rcases List.mem_cons.mp hcall with rfl | hcall
    · simp [Act.failure?] at hfails
    rcases List.mem_append.mp hcall with hcall | hcall
    · rw [hsending.failsWith.succeeds rfl call hcall] at hfails
      contradiction
    · have hstore := failure?_read buffer.clear.room arrivals
      rw [hread] at hstore
      have hlater := ih hcall
      unfold Stream.inStore at hlater ⊢
      rwa [hstore, Sink.inStore_send_ok hsend]

/-- An act of a run that fails meets the next failure that its stream has in store. -/
theorem inStore_run (banner : Banner) (stream : Stream) {call : Act} {fault : Fault}
    (hcall : call ∈ (run banner stream).acts) (hfails : call.failure? = some fault) :
    stream.inStore call = some fault := by
  unfold run greet at hcall
  cases hsend : stream.sink.send banner.greeting with
  | mk opening result =>
    rw [hsend] at hcall
    have hsending := Sink.sending_of_send hsend
    cases result with
    | error broken =>
      have hmem : call ∈ opening := by simpa [Standing.resume, Standing.finish] using hcall
      have hkind := hsending.isReading call hmem
      have hstore := Sink.inStore_send hsend hmem hfails
      rwa [Stream.inStore, hkind]
    | ok sink =>
      simp only [Standing.resume, List.append_assoc] at hcall
      rcases List.mem_append.mp hcall with hcall | hcall
      · rw [hsending.failsWith.succeeds rfl call hcall] at hfails
        contradiction
      rcases List.mem_append.mp hcall with hcall | hcall
      · have hstore := inStore_converse banner .new sink 0 stream.arrivals hcall hfails
        unfold Stream.inStore at hstore ⊢
        rwa [Sink.inStore_send_ok hsend]
      · generalize (converse banner .new sink 0 stream.arrivals).2 = standing at hcall
        cases standing <;> simp [Standing.finish] at hcall
        rcases hcall with rfl | rfl <;> simp [Act.failure?] at hfails

/-! ## Interrupted writes -/

/-- Acts in which every interrupted write is followed by a write. -/
def RepeatsInterrupted (acts : List Act) : Prop :=
  ∀ (before after : List Act) (fault : Fault), acts = before ++ .writeFailed fault :: after →
    fault.kind = .interrupted → ∃ again later, after = again :: later ∧ again.isWriting = true

namespace RepeatsInterrupted

/-- Acts of which none is a failed write. -/
theorem of_none {acts : List Act} (h : ∀ act ∈ acts, ∀ fault, act ≠ .writeFailed fault) :
    RepeatsInterrupted acts := by
  intro before after fault hsplit
  exact absurd rfl (h (.writeFailed fault) (by simp [hsplit]) fault)

/-- An act before others, which begin with a write if it is an interrupted one. -/
theorem cons {act : Act} {acts : List Act}
    (hact : ∀ fault, act = .writeFailed fault → fault.kind = .interrupted →
      ∃ again later, acts = again :: later ∧ again.isWriting = true)
    (hacts : RepeatsInterrupted acts) : RepeatsInterrupted (act :: acts) := by
  intro before after fault hsplit hkind
  cases before with
  | nil =>
    obtain ⟨hfirst, rfl⟩ := List.cons.inj hsplit
    exact hact fault hfirst hkind
  | cons first before =>
    obtain ⟨-, htail⟩ := List.cons.inj hsplit
    exact hacts before after fault htail hkind

/-- Acts one after the other. -/
theorem append {first second : List Act} (hfirst : RepeatsInterrupted first)
    (hsecond : RepeatsInterrupted second) : RepeatsInterrupted (first ++ second) := by
  induction first with
  | nil => exact hsecond
  | cons act rest ih =>
    have hrest : RepeatsInterrupted rest := by
      intro before after fault hsplit
      exact hfirst (act :: before) after fault (by simp [hsplit])
    refine cons ?_ (ih hrest)
    intro fault hact hkind
    obtain ⟨again, later, rfl, hagain⟩ := hfirst [] rest fault (by simp [hact]) hkind
    exact ⟨again, later ++ second, rfl, hagain⟩

end RepeatsInterrupted

/-- Writing repeats what is interrupted. -/
theorem Writing.repeatsInterrupted {bytes : Bytes} {acts : List Act} {failure : Option Fault}
    (h : Writing bytes acts failure) : RepeatsInterrupted acts := by
  induction h with
  | done => exact .of_none (by simp)
  | part _ _ ih => exact .cons (by simp) ih
  | interrupted hbytes _ hagain ih => exact .cons (fun _ _ _ => hagain.begins hbytes) ih
  | refused => exact .of_none (by simp)
  | failed _ hkind =>
    refine .cons ?_ (.of_none (by simp))
    intro fault hfault hinterrupted
    rw [Act.writeFailed.inj hfault] at hkind
    exact absurd hinterrupted hkind

/-- A sending makes every interrupted write again at once. -/
theorem Sending.repeatsInterrupted {bytes : Bytes} {acts : List Act} {failure : Option Fault}
    (h : Sending bytes acts failure) : RepeatsInterrupted acts := by
  cases h with
  | done hwritten => exact hwritten.repeatsInterrupted.append (.of_none (by simp))
  | unwritten hbroken => exact hbroken.repeatsInterrupted
  | unflushed hwritten => exact hwritten.repeatsInterrupted.append (.of_none (by simp))

/-- A round makes every interrupted write again at once. -/
theorem Round.Sends.repeatsInterrupted {banner : Banner} {failure : Option Fault} {round : Round}
    (h : round.Sends banner failure) : RepeatsInterrupted round.acts :=
  .cons (by simp) (.cons (by simp) h.replied.repeatsInterrupted)

/-- An exchange repeats what is interrupted. -/
theorem run_repeatsInterrupted (banner : Banner) (stream : Stream) :
    RepeatsInterrupted (run banner stream).acts := by
  rcases run_rounds banner stream with
    ⟨fault, hbroken, -⟩ | ⟨opening, rounds, ending, hacts, hopening, hrounds, hending⟩
  · exact hbroken.repeatsInterrupted
  · rw [hacts]
    refine (hopening.repeatsInterrupted.append ?_).append ?_
    · clear hacts hending
      induction rounds with
      | nil => exact .of_none (by simp)
      | cons round rounds ih =>
        exact (hrounds round (by simp)).repeatsInterrupted.append
          (ih fun other hother => hrounds other (by simp [hother]))
    · generalize (run banner stream).result = result at hending
      cases hending with
      | closed => exact .of_none (by simp)
      | unread => exact .of_none (by simp)
      | unanswered hround => exact hround.repeatsInterrupted

/-! ## The first failure -/

/-- A call that fails is the first to do so and the last act of its run. Its failure is the next one
that the stream has in store, and the result of the run; every chunk read has been handed on once,
and what has been sent is the greeting and the replies to all chunks, up to the last reply at most.
A run fails in no other way. Interrupted writes are no failures: another write follows them. -/
theorem run_stops_at_first_failure (banner : Banner) (stream : Stream) :
    (∀ (before after : List Act) (call : Act) (fault : Fault),
      (run banner stream).acts = before ++ call :: after → call.failure? = some fault →
      (run banner stream).result = .error fault ∧ after = [] ∧
      (∀ act ∈ before, act.failure? = none) ∧
      stream.inStore call = some fault ∧
      chunks (run banner stream).acts = chunksRead (run banner stream).acts ∧
      sent (run banner stream).acts <+: banner.upTo (chunks (run banner stream).acts).length ∧
      (1 ≤ (chunks (run banner stream).acts).length →
        banner.upTo ((chunks (run banner stream).acts).length - 1) <+:
          sent (run banner stream).acts)) ∧
    (∀ fault, (run banner stream).result = .error fault →
      ∃ before call, (run banner stream).acts = before ++ [call] ∧ call.failure? = some fault) ∧
    RepeatsInterrupted (run banner stream).acts ∧
    Fault.nothingWritten = ⟨.writeZero, "write zero", none⟩ := by
  have hrun := run_failsWith banner stream
  refine ⟨?_, ?_, run_repeatsInterrupted banner stream, rfl⟩
  · intro before after call fault hsplit hfails
    have hlast := hrun
    rw [hsplit] at hlast
    obtain ⟨hafter, hfault⟩ := hlast.eq_nil hfails
    refine ⟨?_, hafter, ?_, ?_, chunks_run_eq_chunksRead banner stream, sent_run banner stream⟩
    · cases hresult : (run banner stream).result with
      | ok replies => simp [hresult] at hfault
      | error broken => simpa [hresult] using hfault
    · intro act hact
      apply hrun.stops act
      rw [hsplit, hafter, List.dropLast_concat]
      exact hact
    · exact inStore_run banner stream (by simp [hsplit]) hfails
  · intro fault hresult
    apply hrun.fails fault
    rw [hresult]
    rfl

/-- A run whose first write is interrupted, and which does not end with that fault; and one whose
write takes nothing, and which does not end with another text than that of the kind. -/
theorem interrupted_write_is_repeated :
    (run ⟨[72, 105], [111, 107]⟩
      ⟨[.data [97]], ⟨[.fault (.ofKind .interrupted)], []⟩⟩).acts.head? =
        some (.writeFailed (.ofKind .interrupted)) ∧
    (run ⟨[72, 105], [111, 107]⟩
      ⟨[.data [97]], ⟨[.fault (.ofKind .interrupted)], []⟩⟩).result ≠
        .error (.ofKind .interrupted) ∧
    (run ⟨[72, 105], [111, 107]⟩ ⟨[.data [97]], ⟨[.upTo 0], []⟩⟩).result ≠
        .error (.custom .writeZero "failed to write whole buffer") := by
  refine ⟨by decide +kernel, ?_, ?_⟩
  · have hresult : (run ⟨[72, 105], [111, 107]⟩
        ⟨[.data [97]], ⟨[.fault (.ofKind .interrupted)], []⟩⟩).result = .ok 1 := by decide +kernel
    rw [hresult]
    nofun
  · have hresult : (run ⟨[72, 105], [111, 107]⟩ ⟨[.data [97]], ⟨[.upTo 0], []⟩⟩).result =
        .error .nothingWritten := by decide +kernel
    rw [hresult]
    simp [Fault.nothingWritten, Fault.ofKind, Fault.custom, FaultKind.text]

end PongFixture.Exchange
