import PongFixture.Exchange.Loop

/-!
# What sending leaves behind

`Sink.send` works through a script of acceptances and flushings. Here its acts are described without
the script: `Writing` says which acts write given octets, in full or up to a fault, and `Sending`
adds the flush. Whatever the script is, the acts of `Sink.send` are of this form, so a proof about
an exchange never looks at a script again.

A write that is interrupted is no failure: it is made again with the octets that are left. Every
other fault, and a write that takes nothing, is the last act of a sending.
-/

set_option autoImplicit false

namespace PongFixture.Exchange

/-! ## Acts by what they are -/

namespace Act

/-- Whether an act is a read, successful or not. -/
def isReading : Act → Bool
  | .read .. | .readFailed _ => true
  | _ => false

/-- Whether an act is a write or a flush, successful or not. -/
def isSending : Act → Bool
  | .wrote _ | .writeFailed _ | .flushed | .flushFailed _ => true
  | _ => false

/-- Whether an act is a write, successful or not. -/
def isWriting : Act → Bool
  | .wrote _ | .writeFailed _ => true
  | _ => false

/-- The fault by which an act fails. A write that takes nothing fails, an interrupted one does
not. -/
def failure? : Act → Option Fault
  | .readFailed fault => some fault
  | .writeFailed fault => if fault.kind = .interrupted then none else some fault
  | .wrote [] => some .nothingWritten
  | .flushFailed fault => some fault
  | _ => none

end Act

/-- The fault of a result. -/
def failureOf {α : Type} : Except Fault α → Option Fault
  | .ok _ => none
  | .error fault => some fault

/-- A result that is no fault has none. -/
@[simp] theorem failureOf_ok {α : Type} (value : α) : failureOf (.ok value) = none := rfl

/-- A fault is the failure of its result. -/
@[simp] theorem failureOf_error {α : Type} (fault : Fault) :
    failureOf (.error fault : Except Fault α) = some fault := rfl

/-! ## Writing and flushing, without a script -/

/-- The acts that write octets: each write takes a part of what is left, and an interrupted one is
made again. They end when nothing is left, or with the fault of the last of them. -/
inductive Writing : Bytes → List Act → Option Fault → Prop
  | done : Writing [] [] none
  | part {taken rest : Bytes} {acts : List Act} {failure : Option Fault} (htaken : taken ≠ [])
      (hrest : Writing rest acts failure) : Writing (taken ++ rest) (.wrote taken :: acts) failure
  | interrupted {bytes : Bytes} {fault : Fault} {acts : List Act} {failure : Option Fault}
      (hbytes : bytes ≠ []) (hkind : fault.kind = .interrupted)
      (hagain : Writing bytes acts failure) : Writing bytes (.writeFailed fault :: acts) failure
  | refused {bytes : Bytes} (hbytes : bytes ≠ []) :
      Writing bytes [.wrote []] (some .nothingWritten)
  | failed {bytes : Bytes} {fault : Fault} (hbytes : bytes ≠ [])
      (hkind : fault.kind ≠ .interrupted) : Writing bytes [.writeFailed fault] (some fault)

/-- The acts that send octets: they are written in full, then flushed, up to the first fault. -/
inductive Sending : Bytes → List Act → Option Fault → Prop
  | done {bytes : Bytes} {acts : List Act} (hwritten : Writing bytes acts none) :
      Sending bytes (acts ++ [.flushed]) none
  | unwritten {bytes : Bytes} {acts : List Act} {fault : Fault}
      (hbroken : Writing bytes acts (some fault)) : Sending bytes acts (some fault)
  | unflushed {bytes : Bytes} {acts : List Act} {fault : Fault}
      (hwritten : Writing bytes acts none) :
      Sending bytes (acts ++ [.flushFailed fault]) (some fault)

/-- One write may take everything. -/
theorem Writing.whole {bytes : Bytes} (hbytes : bytes ≠ []) :
    Writing bytes [.wrote bytes] none := by
  have hpart := Writing.part hbytes .done
  rwa [List.append_nil] at hpart

/-- Writing by any script leaves acts that write. -/
theorem writeAll_writing (script : List Acceptance) (bytes : Bytes) :
    Writing bytes (writeAll script bytes).1 (failureOf (writeAll script bytes).2) := by
  fun_induction writeAll script bytes with
  | case1 script => exact .done
  | case2 b bytes => exact .whole (by simp)
  | case3 script b bytes ih => exact ih
  | case4 script b bytes => exact .whole (by simp)
  | case5 script b bytes => exact .refused (by simp)
  | case6 limit script b bytes hlimit ih =>
    have htaken : (b :: bytes).take limit ≠ [] := by simp [hlimit]
    have hpart := Writing.part htaken ih
    rwa [List.take_append_drop] at hpart
  | case7 fault script b bytes hkind ih => exact .interrupted (by simp) hkind ih
  | case8 fault script b bytes hkind => exact .failed (by simp) hkind

/-- A flush leaves one act. -/
theorem flush_acts (script : List Flushing) :
    (∃ rest, flush script = ([.flushed], .ok rest)) ∨
      ∃ fault, flush script = ([.flushFailed fault], .error fault) := by
  fun_induction flush script with
  | case1 => exact .inl ⟨[], rfl⟩
  | case2 script ih => exact ih
  | case3 script => exact .inl ⟨script, rfl⟩
  | case4 fault => exact .inr ⟨fault, rfl⟩

/-- Sending on any sink leaves acts that send. -/
theorem Sink.send_sending (sink : Sink) (bytes : Bytes) :
    Sending bytes (sink.send bytes).1 (failureOf (sink.send bytes).2) := by
  have hwriting := writeAll_writing sink.acceptances bytes
  unfold Sink.send
  cases hwritten : writeAll sink.acceptances bytes with
  | mk acts result =>
    rw [hwritten] at hwriting
    cases result with
    | error fault => exact .unwritten hwriting
    | ok acceptances =>
      rcases flush_acts sink.flushings with ⟨rest, hflush⟩ | ⟨fault, hflush⟩
      · simp only [hflush]
        exact .done hwriting
      · simp only [hflush]
        exact .unflushed hwriting

/-- What a send on any sink comes to is a sending with that outcome. -/
theorem Sink.sending_of_send {sink : Sink} {bytes : Bytes} {acts : List Act}
    {result : Except Fault Sink} (h : sink.send bytes = (acts, result)) :
    Sending bytes acts (failureOf result) := by
  have hsending := sink.send_sending bytes
  rwa [h] at hsending

/-! ## What is written, and what is not among the acts -/

/-- Writing only writes. -/
theorem Writing.isWriting {bytes : Bytes} {acts : List Act} {failure : Option Fault}
    (h : Writing bytes acts failure) : ∀ act ∈ acts, act.isWriting = true := by
  induction h with
  | done => simp
  | part _ _ ih => simpa [Act.isWriting] using ih
  | interrupted _ _ _ ih => simpa [Act.isWriting] using ih
  | refused => simp [Act.isWriting]
  | failed => simp [Act.isWriting]

/-- Writing takes a prefix of its octets, and all of them if it does not fail. -/
theorem Writing.sent_prefix {bytes : Bytes} {acts : List Act} {failure : Option Fault}
    (h : Writing bytes acts failure) :
    sent acts <+: bytes ∧ (failure = none → sent acts = bytes) := by
  induction h with
  | done => simp [sent]
  | part _ _ ih =>
    obtain ⟨hbegins, hall⟩ := ih
    constructor
    · exact (List.prefix_append_right_inj _).mpr hbegins
    · intro hnone
      rw [← hall hnone]
      rfl
  | interrupted _ _ _ ih => exact ih
  | refused => simp [sent, Act.sent]
  | failed => simp [sent, Act.sent]

/-- A write that has something left to write begins with a write. -/
theorem Writing.begins {bytes : Bytes} {acts : List Act} {failure : Option Fault}
    (h : Writing bytes acts failure) (hbytes : bytes ≠ []) :
    ∃ call later, acts = call :: later ∧ call.isWriting = true := by
  cases acts with
  | nil =>
    cases h
    exact absurd rfl hbytes
  | cons call later => exact ⟨call, later, rfl, h.isWriting call (by simp)⟩

/-- Sending only writes and flushes. -/
theorem Sending.isSending {bytes : Bytes} {acts : List Act} {failure : Option Fault}
    (h : Sending bytes acts failure) : ∀ act ∈ acts, act.isSending = true := by
  have hwrites : ∀ act : Act, act.isWriting = true → act.isSending = true := by
    intro act hact
    cases act <;> simp_all [Act.isWriting, Act.isSending]
  cases h with
  | done hwritten =>
    intro act hact
    rcases List.mem_append.mp hact with hmem | hmem
    · exact hwrites act (hwritten.isWriting act hmem)
    · simp_all [Act.isSending]
  | unwritten hbroken =>
    intro act hact
    exact hwrites act (hbroken.isWriting act hact)
  | unflushed hwritten =>
    intro act hact
    rcases List.mem_append.mp hact with hmem | hmem
    · exact hwrites act (hwritten.isWriting act hmem)
    · simp_all [Act.isSending]

/-- A sending takes a prefix of its octets, and all of them if it does not fail. -/
theorem Sending.sent_prefix {bytes : Bytes} {acts : List Act} {failure : Option Fault}
    (h : Sending bytes acts failure) :
    sent acts <+: bytes ∧ (failure = none → sent acts = bytes) := by
  cases h with
  | done hwritten => simpa [sent, Act.sent] using hwritten.sent_prefix
  | unwritten hbroken => exact hbroken.sent_prefix
  | unflushed hwritten => simpa [sent, Act.sent] using hwritten.sent_prefix.1

/-- A sending that does not fail ends with a flush. -/
theorem Sending.ends_flushed {bytes : Bytes} {acts : List Act} (h : Sending bytes acts none) :
    ∃ earlier, acts = earlier ++ [.flushed] := by
  cases h with
  | done hwritten => exact ⟨_, rfl⟩

/-- What holds of writes and flushes holds of the acts of a sending. -/
theorem Sending.forall_acts {holds : Act → Prop} {bytes : Bytes} {acts : List Act}
    {failure : Option Fault} (h : Sending bytes acts failure)
    (wrote : ∀ taken, holds (.wrote taken)) (writeFailed : ∀ fault, holds (.writeFailed fault))
    (flushed : holds .flushed) (flushFailed : ∀ fault, holds (.flushFailed fault)) :
    ∀ act ∈ acts, holds act := by
  intro act hact
  have hkind := h.isSending act hact
  cases act with
  | wrote taken => exact wrote taken
  | writeFailed fault => exact writeFailed fault
  | flushed => exact flushed
  | flushFailed fault => exact flushFailed fault
  | read | readFailed | chunk | ended => cases hkind

/-- No chunk is handed on in a sending. -/
theorem Sending.chunks_eq_nil {bytes : Bytes} {acts : List Act} {failure : Option Fault}
    (h : Sending bytes acts failure) : chunks acts = [] := by
  apply List.filterMap_eq_nil_iff.mpr
  exact h.forall_acts (fun _ => rfl) (fun _ => rfl) rfl fun _ => rfl

/-- A sending reads nothing. -/
theorem Sending.received_eq_nil {bytes : Bytes} {acts : List Act} {failure : Option Fault}
    (h : Sending bytes acts failure) : received acts = [] := by
  apply List.flatMap_eq_nil_iff.mpr
  exact h.forall_acts (fun _ => rfl) (fun _ => rfl) rfl fun _ => rfl

end PongFixture.Exchange
