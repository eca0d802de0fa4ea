import Mathlib.Data.Set.Finite.Lattice
import PongFixture.Proofs.Exchange.Bounds
import PongFixture.Proofs.Exchange.Polls

/-!
# Every exchange comes to an end

Nothing in an exchange bounds the number of its polls. It ends because its stream does: every read
but the last takes octets of which there are only so many (`Brings`), and every write takes at least
one of those that are to be sent, or is the last. Only an answer that leaves its call where it was
brings the end no nearer: a call that is not ready, and a write that is interrupted and so is made
again. If such answers do not go on for ever, the exchange finishes within the bounds of what came in
(`run_ends_within_bounds`). If every write is interrupted, it never does.
-/

set_option autoImplicit false

namespace PongFixture.Exchange

/-! ## Answers that do not stall for ever -/

/-- A write that is not ready, or is interrupted, is made again. -/
def Acceptance.stalls : Acceptance → Bool
  | .notReady => true
  | .fault reason => decide (reason.kind = .interrupted)
  | .all => false
  | .upTo _ => false

/-- A flush that is not ready is made again. -/
def Flushing.stalls : Flushing → Bool
  | .notReady => true
  | .done => false
  | .fault _ => false

/-- Answers that, however many of them stall, always come to one that does not. -/
def Relents {Answer : Type} (stalls : Answer → Bool) (answers : Stream' Answer) : Prop :=
  ∀ first, ∃ later, first ≤ later ∧ stalls (answers.get later) = false

section Relents

variable {Answer : Type} {stalls : Answer → Bool} {answers : Stream' Answer}

/-- Answers of which only finitely many stall. -/
theorem Relents.of_finite (h : {index | stalls (answers.get index) = true}.Finite) :
    Relents stalls answers := by
  intro first
  obtain ⟨bound, hbound⟩ := h.bddAbove
  refine ⟨max first (bound + 1), Nat.le_max_left _ _, Bool.eq_false_iff.mpr ?_⟩
  intro hstalls
  have hle := hbound hstalls
  omega

/-- Answers that relent again and again do so after the first as well. -/
theorem Relents.tail (h : Relents stalls answers) : Relents stalls answers.tail := by
  intro first
  obtain ⟨later, hlater, hstalls⟩ := h (first + 1)
  obtain ⟨index, rfl⟩ := Nat.exists_eq_succ_of_ne_zero (Nat.ne_zero_of_lt hlater)
  exact ⟨index, Nat.le_of_succ_le_succ hlater, hstalls⟩

/-- What holds where the next answer does not stall, and is not lost by one that does, holds. -/
theorem Relents.induction {motive : (answers : Stream' Answer) → Relents stalls answers → Prop}
    (now : ∀ answers (h : Relents stalls answers), stalls answers.head = false → motive answers h)
    (later : ∀ answers (h : Relents stalls answers), stalls answers.head = true →
      motive answers.tail h.tail → motive answers h)
    {answers : Stream' Answer} (h : Relents stalls answers) : motive answers h := by
  obtain ⟨index, -, hindex⟩ := h 0
  induction index generalizing answers with
  | zero => exact now answers h hindex
  | succ index ih =>
    cases hhead : stalls answers.head with
    | false => exact now answers h hhead
    | true => exact later answers h hhead (ih h.tail hindex)

end Relents

/-! ## Arrivals that come to an end -/

/-- Arrivals that bring so many octets before the end of the input or the first fault. -/
inductive Brings : Nat → Stream' Arrival → Prop
  | ended {arrivals : Stream' Arrival} (hhead : arrivals.head = .data []) : Brings 0 arrivals
  | failed {arrivals : Stream' Arrival} {fault : Fault} (hhead : arrivals.head = .fault fault) :
      Brings 0 arrivals
  | notReady {octets : Nat} {arrivals : Stream' Arrival} (hhead : arrivals.head = .notReady)
      (hlater : Brings octets arrivals.tail) : Brings octets arrivals
  | octets {octets : Nat} {bytes : Bytes} {arrivals : Stream' Arrival} (hbytes : bytes ≠ [])
      (hhead : arrivals.head = .data bytes) (hlater : Brings octets arrivals.tail) :
      Brings (bytes.length + octets) arrivals

/-- The first arrivals bring no more octets than all of them. -/
theorem Brings.octetsBrought_take {octets : Nat} {arrivals : Stream' Arrival}
    (h : Brings octets arrivals) (count : Nat) : octetsBrought (arrivals.take count) ≤ octets := by
  induction h generalizing count with
  | ended hhead | failed hhead =>
    cases count with
    | zero => exact Nat.le_refl _
    | succ count =>
      rw [Stream'.take_succ, hhead]
      exact Nat.le_refl _
  | notReady hhead _ ih =>
    cases count with
    | zero => exact Nat.zero_le _
    | succ count =>
      rw [Stream'.take_succ, hhead]
      exact ih count
  | @octets octets bytes arrivals hbytes hhead _ ih =>
    cases count with
    | zero => exact Nat.zero_le _
    | succ count =>
      obtain ⟨b, rest, rfl⟩ := List.exists_cons_of_ne_nil hbytes
      rw [Stream'.take_succ, hhead]
      exact Nat.add_le_add_left (ih count) _

/-- A read that is not ready takes one arrival. -/
theorem afterRead_of_notReady {arrivals : Stream' Arrival} (hhead : arrivals.head = .notReady) :
    afterRead arrivals = arrivals.tail := by
  unfold afterRead
  rw [hhead]

/-- A read that takes octets leaves fewer to come. -/
theorem Brings.afterRead {octets : Nat} {bytes : Bytes} {arrivals : Stream' Arrival}
    (hbytes : bytes ≠ []) (hhead : arrivals.head = .data bytes) (hlater : Brings octets arrivals.tail) :
    ∃ fewer, fewer < bytes.length + octets ∧ Brings fewer (afterRead arrivals) := by
  have hpositive := List.length_pos_iff.mpr hbytes
  unfold Exchange.afterRead
  rw [hhead]
  by_cases hfits : bytes.length ≤ chunkSize
  · exact ⟨octets, by omega, by simpa [hfits] using hlater⟩
  · have hdrop : bytes.drop chunkSize ≠ [] := by
      rw [← List.length_pos_iff, List.length_drop]
      omega
    refine ⟨(bytes.drop chunkSize).length + octets, ?_, ?_⟩
    · rw [List.length_drop]
      unfold chunkSize at *
      omega
    · simp only [if_neg hfits]
      exact .octets hdrop rfl hlater

/-! ## Exchanges that finish -/

/-- An exchange finishes if it has done so after some number of polls. -/
def Moment.Finishes (banner : Banner) (moment : Moment) : Prop :=
  ∃ count result, (moment.polls banner count).2.phase = .finished result

section Finishes

variable {banner : Banner}

/-- What is finished already finishes. -/
theorem Moment.finishes_of_finished {moment : Moment} {result : Except Fault Nat}
    (h : moment.phase = .finished result) : moment.Finishes banner :=
  ⟨0, result, h⟩

/-- An exchange that a poll leaves as it was is left so by any number of them. -/
theorem Moment.polls_of_unmoved {moment : Moment} (h : (moment.poll banner).2 = moment)
    (count : Nat) : (moment.polls banner count).2 = moment := by
  induction count with
  | zero => rfl
  | succ count ih =>
    rw [polls_succ, h]
    exact ih

/-- An exchange finishes if it does from its next poll on. -/
theorem Moment.Finishes.of_poll {moment : Moment} (h : (moment.poll banner).2.Finishes banner) :
    moment.Finishes banner := by
  obtain ⟨count, result, hphase⟩ := h
  exact ⟨count + 1, result, by rw [polls_succ, hphase]⟩

/-- An exchange that finishes whenever it reads on these arrivals, on whatever sink that does not
stall for ever. -/
def FinishesReading (banner : Banner) (replies : Nat) (arrivals : Stream' Arrival) : Prop :=
  ∀ acceptances flushings, Relents Acceptance.stalls acceptances →
    Relents Flushing.stalls flushings →
    Moment.Finishes banner ⟨.reading replies, arrivals, acceptances, flushings⟩

variable {replies : Nat} {arrivals : Stream' Arrival} {acceptances : Stream' Acceptance}
  {flushings : Stream' Flushing}

/-- A flush is done or fails in the end. -/
theorem finishes_flushing (hreads : FinishesReading banner replies arrivals)
    (hwrites : Relents Acceptance.stalls acceptances) (hflushes : Relents Flushing.stalls flushings) :
    Moment.Finishes banner ⟨.sending [] replies, arrivals, acceptances, flushings⟩ := by
  induction hflushes using Relents.induction with
  | now flushings hrelents hstalls =>
    apply Moment.Finishes.of_poll
    simp only [Moment.poll]
    cases hhead : flushings.head with
    | notReady => simp [hhead, Flushing.stalls] at hstalls
    | done => exact hreads acceptances flushings.tail hwrites hrelents.tail
    | fault fault => exact Moment.finishes_of_finished rfl
  | later flushings _ hstalls ih =>
    apply Moment.Finishes.of_poll
    simp only [Moment.poll]
    cases hhead : flushings.head with
    | notReady => exact ih
    | done | fault _ => simp [hhead, Flushing.stalls] at hstalls

/-- Octets are sent in the end, or sending them fails: every write that does not stall takes one of
them at least, or is the last. -/
theorem finishes_sending (hreads : FinishesReading banner replies arrivals)
    (hwrites : Relents Acceptance.stalls acceptances) (hflushes : Relents Flushing.stalls flushings)
    (left : Bytes) :
    Moment.Finishes banner ⟨.sending left replies, arrivals, acceptances, flushings⟩ := by
  induction hleft : left.length using Nat.strong_induction_on generalizing left acceptances with
  | _ length ihfewer =>
    cases left with
    | nil => exact finishes_flushing hreads hwrites hflushes
    | cons b bytes =>
      induction hwrites using Relents.induction with
      | now acceptances hrelents hstalls =>
        apply Moment.Finishes.of_poll
        simp only [Moment.poll]
        cases hhead : acceptances.head with
        | notReady => simp [hhead, Acceptance.stalls] at hstalls
        | all => exact finishes_flushing hreads hrelents.tail hflushes
        | upTo limit =>
          by_cases hlimit : limit = 0
          · simp only [pollWrite, if_pos hlimit]
            exact Moment.finishes_of_finished rfl
          · simp only [pollWrite, if_neg hlimit]
            refine ihfewer _ ?_ hrelents.tail _ rfl
            rw [← hleft, List.length_drop, List.length_cons]
            omega
        | fault fault =>
          have hkind : ¬ fault.kind = .interrupted := by
            simpa [hhead, Acceptance.stalls] using hstalls
          simp only [pollWrite, if_neg hkind]
          exact Moment.finishes_of_finished rfl
      | later acceptances _ hstalls ih =>
        apply Moment.Finishes.of_poll
        simp only [Moment.poll]
        cases hhead : acceptances.head with
        | notReady => exact ih
        | all | upTo _ => simp [hhead, Acceptance.stalls] at hstalls
        | fault fault =>
          have hkind : fault.kind = .interrupted := by
            simpa [hhead, Acceptance.stalls] using hstalls
          simp only [pollWrite, if_pos hkind]
          exact ih

/-- Reading finishes: the octets that are still to come are fewer after every read that takes
some. -/
theorem Brings.finishesReading {octets : Nat} (h : Brings octets arrivals) :
    FinishesReading banner replies arrivals := by
  induction octets using Nat.strong_induction_on generalizing arrivals replies with
  | _ octets ihfewer =>
    induction h with
    | ended hhead | failed hhead =>
      intro acceptances flushings _ _
      apply Moment.Finishes.of_poll
      simp only [Moment.poll, hhead]
      exact Moment.finishes_of_finished rfl
    | notReady hhead _ ih =>
      intro acceptances flushings hwrites hflushes
      apply Moment.Finishes.of_poll
      simp only [Moment.poll, hhead]
      rw [afterRead_of_notReady hhead]
      exact ih ihfewer acceptances flushings hwrites hflushes
    | octets hbytes hhead hlater _ =>
      intro acceptances flushings hwrites hflushes
      obtain ⟨fewer, hfewer, hbrings⟩ := Brings.afterRead hbytes hhead hlater
      obtain ⟨b, rest, rfl⟩ := List.exists_cons_of_ne_nil hbytes
      apply Moment.Finishes.of_poll
      simp only [Moment.poll, hhead]
      exact finishes_sending (ihfewer fewer hfewer hbrings) hwrites hflushes banner.reply

end Finishes

/-! ## The end of an exchange -/

/-- Every exchange stays within the bounds set by the octets that come in. On a stream whose input
ends or fails after so many octets, and whose writes and flushes do not stall for ever, it finishes,
whatever else its answers are: after some number of polls, on which the rest of its stream then has
no bearing. -/
theorem run_ends_within_bounds (banner : Banner) :
    (∀ stream : Stream,
      WithinBounds banner (octetsBrought stream.arrivals) (run banner stream).acts) ∧
    ∀ (octets : Nat) (behaviour : Behaviour), Brings octets behaviour.arrivals →
      Relents Acceptance.stalls behaviour.acceptances →
      Relents Flushing.stalls behaviour.flushings →
      ∃ (count : Nat) (acts : List Act) (last : Moment) (result : Except Fault Nat),
        (behaviour.begin banner).polls banner count = (acts, last) ∧
        last.phase = .finished result ∧
        WithinBounds banner octets acts ∧
        ∀ answers, count ≤ answers →
          run banner (behaviour.cut answers answers answers) = ⟨acts, result⟩ := by
  refine ⟨run_withinBounds banner, ?_⟩
  intro octets behaviour hbrings hwrites hflushes
  have hreads : FinishesReading banner 0 behaviour.arrivals := hbrings.finishesReading
  obtain ⟨count, result, hphase⟩ := finishes_sending hreads hwrites hflushes banner.greeting
  have hruns : ∀ answers, count ≤ answers →
      run banner (behaviour.cut answers answers answers) =
        ⟨((behaviour.begin banner).polls banner count).1, result⟩ :=
    fun answers hanswers => run_of_polls rfl hphase hanswers
  refine ⟨count, _, _, result, rfl, hphase, ?_, hruns⟩
  have hbounds := run_withinBounds banner (behaviour.cut count count count)
  rw [hruns count (Nat.le_refl _)] at hbounds
  exact hbounds.mono (hbrings.octetsBrought_take count)

/-- Two octets come in after a read that is not ready; the greeting is interrupted once, is taken in
two writes, and waits for a write and for its flush. -/
theorem run_ends_after_delays :
    let banner : Banner := ⟨[72, 105], [111]⟩
    let behaviour : Behaviour :=
      ⟨.cons .notReady (.cons (.data [97, 98]) (.const (.data []))),
        .cons (.fault (.ofKind .interrupted)) (.cons (.upTo 1) (.cons .notReady (.const .all))),
        .cons .notReady (.const .done)⟩
    Brings 2 behaviour.arrivals ∧
    Relents Acceptance.stalls behaviour.acceptances ∧
    Relents Flushing.stalls behaviour.flushings ∧
    ∃ (count : Nat) (acts : List Act) (last : Moment) (result : Except Fault Nat),
      (behaviour.begin banner).polls banner count = (acts, last) ∧
      last.phase = .finished result ∧
      WithinBounds banner 2 acts ∧
      ∀ answers, count ≤ answers →
        run banner (behaviour.cut answers answers answers) = ⟨acts, result⟩ := by
  intro banner behaviour
  have hbrings : Brings 2 behaviour.arrivals := by
    have hbytes : ([97, 98] : Bytes) ≠ [] := by simp
    exact .notReady rfl (.octets hbytes rfl (.ended rfl))
  have hwrites : Relents Acceptance.stalls behaviour.acceptances := by
    apply Relents.of_finite
    apply (Set.finite_lt_nat 3).subset
    rintro (_ | _ | _ | index) hstalls
    · simp
    · simp
    · simp
    · cases hstalls
  have hflushes : Relents Flushing.stalls behaviour.flushings := by
    apply Relents.of_finite
    apply (Set.finite_lt_nat 1).subset
    rintro (_ | index) hstalls
    · simp
    · cases hstalls
  exact ⟨hbrings, hwrites, hflushes,
    (run_ends_within_bounds banner).2 2 behaviour hbrings hwrites hflushes⟩

/-- Writes that are always interrupted keep an exchange from its end, although no call is ever not
ready and the input ends at once. One such write makes two of a greeting of one octet. -/
theorem interrupted_writes_without_end :
    let banner : Banner := ⟨[72], [111]⟩
    let stuck : Behaviour :=
      ⟨.const (.data []), .const (.fault (.ofKind .interrupted)), .const .done⟩
    let acts := (run banner ⟨[], [.fault (.ofKind .interrupted)], []⟩).acts
    ¬ (stuck.begin banner).Finishes banner ∧
    chunks acts = [] ∧ banner.greeting.length < acts.countP Act.isWriting := by
  intro banner stuck acts
  refine ⟨?_, by decide +kernel, by decide +kernel⟩
  rintro ⟨count, result, hphase⟩
  have hunmoved : ((stuck.begin banner).poll banner).2 = stuck.begin banner := rfl
  rw [Moment.polls_of_unmoved hunmoved] at hphase
  cases hphase

end PongFixture.Exchange
