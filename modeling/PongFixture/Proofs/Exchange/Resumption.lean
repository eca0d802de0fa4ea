import PongFixture.Exchange.Loop

/-!
# Taking an exchange up again

An exchange that waits may be resumed with what comes in later. How the arrivals are cut into such
portions makes no difference: resuming with one portion and then with the next is resuming with
both (`resume_append`).
-/

set_option autoImplicit false

namespace PongFixture.Exchange

/-- A read that finds nothing goes on with what comes in after it; any other leaves that alone. -/
theorem read_append (room : Nat) (first second : List Arrival) :
    read room (first ++ second) =
      match read room first with
      | (.idle, _) => read room second
      | (reading, rest) => (reading, rest ++ second) := by
  fun_induction read room first with
  | case1 => rfl
  | case2 arrivals ih => exact ih
  | case3 => rfl
  | case4 bytes arrivals hfits => simp [read, hfits]
  | case5 bytes arrivals hbig => simp [read, hbig]

section Converse

variable {banner : Banner} {buffer : Buffer} {sink : Sink} {replies : Nat}
variable {arrivals rest : List Arrival}

/-- Without anything to read an exchange waits. -/
theorem converse_of_idle (h : read buffer.clear.room arrivals = (.idle, rest)) :
    converse banner buffer sink replies arrivals = ([], .waiting buffer.clear sink replies) := by
  rw [converse]
  split <;> simp_all

/-- A failing read ends an exchange. -/
theorem converse_of_fault {fault : Fault}
    (h : read buffer.clear.room arrivals = (.fault fault, rest)) :
    converse banner buffer sink replies arrivals =
      ([.readFailed fault], .finished (.error fault)) := by
  rw [converse]
  split <;> simp_all

/-- The end of the input ends an exchange. -/
theorem converse_of_end (h : read buffer.clear.room arrivals = (.got [], rest)) :
    converse banner buffer sink replies arrivals =
      ([.read buffer.clear.room [], .ended replies], .finished (.ok replies)) := by
  rw [converse]
  split <;> simp_all

/-- A chunk whose reply fails ends an exchange. -/
theorem converse_of_send_error {b : UInt8} {bytes : Bytes} {acts : List Act} {fault : Fault}
    (h : read buffer.clear.room arrivals = (.got (b :: bytes), rest))
    (hsend : sink.send banner.reply = (acts, .error fault)) :
    converse banner buffer sink replies arrivals =
      (.read buffer.clear.room (b :: bytes) :: .chunk (b :: bytes) :: acts,
        .finished (.error fault)) := by
  rw [converse]
  split <;> simp_all

/-- After a chunk and its reply an exchange goes on. -/
theorem converse_of_send_ok {b : UInt8} {bytes : Bytes} {acts : List Act} {sink' : Sink}
    (h : read buffer.clear.room arrivals = (.got (b :: bytes), rest))
    (hsend : sink.send banner.reply = (acts, .ok sink')) :
    converse banner buffer sink replies arrivals =
      (.read buffer.clear.room (b :: bytes) :: .chunk (b :: bytes) ::
          (acts ++ (converse banner (buffer.clear.fill (b :: bytes)) sink' (replies + 1) rest).1),
        (converse banner (buffer.clear.fill (b :: bytes)) sink' (replies + 1) rest).2) := by
  rw [converse]
  split <;> simp_all

/-- What a buffer holds makes no difference, nor do arrivals that give the same next read. -/
theorem converse_congr {buffer' : Buffer} {arrivals' : List Arrival}
    (hbuffer : buffer'.clear = buffer.clear)
    (hread : read buffer.clear.room arrivals' = read buffer.clear.room arrivals) :
    converse banner buffer' sink replies arrivals' =
      converse banner buffer sink replies arrivals := by
  cases hold : read buffer.clear.room arrivals with
  | mk reading rest =>
    have hnew : read buffer'.clear.room arrivals' = (reading, rest) := by
      rw [hbuffer, hread, hold]
    match reading with
    | .idle => rw [converse_of_idle hnew, converse_of_idle hold, hbuffer]
    | .fault fault => rw [converse_of_fault hnew, converse_of_fault hold]
    | .got [] => rw [converse_of_end hnew, converse_of_end hold, hbuffer]
    | .got (b :: bytes) =>
      cases hsend : sink.send banner.reply with
      | mk acts result =>
        cases result with
        | error fault =>
          rw [converse_of_send_error hnew hsend, converse_of_send_error hold hsend, hbuffer]
        | ok sink' => rw [converse_of_send_ok hnew hsend, converse_of_send_ok hold hsend, hbuffer]

end Converse

/-- A conversation goes on with further arrivals where it stood without them. -/
theorem converse_append (banner : Banner) (buffer : Buffer) (sink : Sink) (replies : Nat)
    (first second : List Arrival) :
    converse banner buffer sink replies (first ++ second) =
      ((converse banner buffer sink replies first).1 ++
          ((converse banner buffer sink replies first).2.resume banner second).1,
        ((converse banner buffer sink replies first).2.resume banner second).2) := by
  have happend := read_append buffer.clear.room first second
  fun_induction converse banner buffer sink replies first with
  | case1 buffer sink replies first rest hread =>
    simp only [hread] at happend
    have hsame : converse banner buffer sink replies (first ++ second) =
        converse banner buffer.clear sink replies second := converse_congr rfl happend
    rw [hsame]
    rfl
  | case2 buffer sink replies first fault rest hread =>
    simp only [hread] at happend
    rw [converse_of_fault happend]
    rfl
  | case3 buffer sink replies first rest hread =>
    simp only [hread] at happend
    rw [converse_of_end happend]
    rfl
  | case4 buffer sink replies first b bytes rest hread acts fault hsend =>
    simp only [hread] at happend
    rw [converse_of_send_error happend hsend]
    simp [Standing.resume]
  | case5 buffer sink replies first b bytes rest hread acts sink' hsend later ih =>
    simp only [hread] at happend
    rw [converse_of_send_ok happend hsend, ih (read_append _ rest second)]
    simp [later]

/-- An exchange that waits is over when its input ends. -/
theorem Standing.resume_end (banner : Banner) (buffer : Buffer) (sink : Sink) (replies : Nat) :
    (Standing.waiting buffer sink replies).resume banner [.data []] =
      ([.read buffer.clear.room [], .ended replies], .finished (.ok replies)) :=
  converse_of_end rfl

/-- Resuming with two portions, one after the other, is resuming with both. -/
theorem Standing.resume_append (banner : Banner) (standing : Standing)
    (first second : List Arrival) :
    standing.resume banner (first ++ second) =
      ((standing.resume banner first).1 ++
          ((standing.resume banner first).2.resume banner second).1,
        ((standing.resume banner first).2.resume banner second).2) := by
  cases standing with
  | waiting buffer sink replies => exact converse_append banner buffer sink replies first second
  | finished result => rfl

end PongFixture.Exchange
