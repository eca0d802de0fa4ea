import Mathlib.Algebra.GroupWithZero.Nat
import PongFixture.Proofs.Exchange.Rounds
import PongFixture.Proofs.Exchange.Resumption

/-!
# What one arrival of octets is answered with

An exchange reads at most `chunkSize` octets at a time. So octets that arrive together are cut into
pieces, all of that length but the last, and on a writing side whose calls all succeed an exchange
that waits replies to each of them and waits again (`resume_data`). The number of pieces is the
length of the octets divided by `chunkSize`, rounded up (`length_pieces`).
-/

set_option autoImplicit false

namespace PongFixture.Exchange

/-- The pieces that octets are read in. -/
def pieces (bytes : Bytes) : List Bytes :=
  if bytes = [] then [] else bytes.take chunkSize :: pieces (bytes.drop chunkSize)
termination_by bytes.length
decreasing_by
  have hpositive : 0 < bytes.length := List.length_pos_iff.mpr ‹_›
  simp only [List.length_drop, chunkSize]
  omega

/-- How many pieces so many octets are read in. -/
def pieceCount (length : Nat) : Nat := (length + (chunkSize - 1)) / chunkSize

/-- No octets make no pieces. -/
@[simp] theorem pieces_nil : pieces [] = [] := by
  rw [pieces, if_pos rfl]

/-- A string is cut after as many octets as fit into a read. -/
theorem pieces_of_ne_nil {bytes : Bytes} (hbytes : bytes ≠ []) :
    pieces bytes = bytes.take chunkSize :: pieces (bytes.drop chunkSize) := by
  rw [pieces, if_neg hbytes]

/-- No octets make no piece. -/
@[simp] theorem pieceCount_zero : pieceCount 0 = 0 := rfl

/-- A read that takes octets leaves one piece fewer. -/
theorem pieceCount_pos {length : Nat} (hpositive : 0 < length) :
    pieceCount length = pieceCount (length - chunkSize) + 1 := by
  unfold pieceCount chunkSize
  omega

/-- The number of pieces depends on the length alone. -/
theorem length_pieces (bytes : Bytes) : (pieces bytes).length = pieceCount bytes.length := by
  fun_induction pieces bytes with
  | case1 => rfl
  | case2 bytes hbytes ih =>
    have hpositive : 0 < bytes.length := List.length_pos_iff.mpr hbytes
    rw [List.length_cons, ih, List.length_drop, pieceCount_pos hpositive]

/-- The pieces are what was cut, in its order. -/
theorem flatten_pieces (bytes : Bytes) : (pieces bytes).flatten = bytes := by
  fun_induction pieces bytes with
  | case1 => rfl
  | case2 bytes hbytes ih => rw [List.flatten_cons, ih, List.take_append_drop]

/-- How many pieces are read of octets that arrive one after the other. -/
def owed (arrived : List Bytes) : Nat := (arrived.map fun bytes => pieceCount bytes.length).sum

/-- What arrives last adds a reply for each of its pieces. -/
theorem owed_append (arrived : List Bytes) (bytes : Bytes) :
    owed (arrived ++ [bytes]) = owed arrived + pieceCount bytes.length := by
  simp [owed]

/-- Further replies are sent after the earlier ones. -/
theorem Banner.upTo_add (banner : Banner) (replies further : Nat) :
    banner.upTo (replies + further) =
      banner.upTo replies ++ (List.replicate further banner.reply).flatten := by
  unfold Banner.upTo
  rw [← List.replicate_append_replicate, List.flatten_append, List.append_assoc]

/-! ## A writing side whose calls all succeed -/

/-- The acts that send octets on such a side. -/
def sendingOf (bytes : Bytes) : List Act := (Sink.willing.send bytes).1

/-- A side that takes everything sends without a fault and stays as it is. -/
theorem send_willing (bytes : Bytes) :
    Sink.willing.send bytes = (sendingOf bytes, .ok .willing) := by
  cases bytes with
  | nil => rfl
  | cons b bytes => rfl

/-- What sends octets on such a side is a sending without a fault. -/
theorem sendingOf_sending (bytes : Bytes) : Sending bytes (sendingOf bytes) none :=
  Sink.sending_of_send (send_willing bytes)

/-- It sends exactly these octets. -/
theorem sent_sendingOf (bytes : Bytes) : sent (sendingOf bytes) = bytes := by
  have hsending := sendingOf_sending bytes
  exact hsending.sent_prefix.2 rfl

/-- A greeting on such a side leaves the exchange waiting. -/
theorem greet_willing (banner : Banner) :
    greet banner .willing = (sendingOf banner.greeting, .waiting .new .willing 0) := by
  unfold greet
  rw [send_willing]

/-- The rounds in which octets are answered on such a side. -/
def roundsOf (banner : Banner) (bytes : Bytes) : List Round :=
  (pieces bytes).map fun piece => ⟨piece, sendingOf banner.reply⟩

/-- No octets are answered by no round. -/
@[simp] theorem roundsOf_nil (banner : Banner) : roundsOf banner [] = [] := by
  simp [roundsOf]

/-- The first piece is answered in the first round. -/
theorem roundsOf_of_ne_nil (banner : Banner) {bytes : Bytes} (hbytes : bytes ≠ []) :
    roundsOf banner bytes =
      ⟨bytes.take chunkSize, sendingOf banner.reply⟩ ::
        roundsOf banner (bytes.drop chunkSize) := by
  unfold roundsOf
  rw [pieces_of_ne_nil hbytes, List.map_cons]

/-- Each of these rounds sends the reply. -/
theorem roundsOf_sends (banner : Banner) (bytes : Bytes) :
    ∀ round ∈ roundsOf banner bytes, round.Sends banner none := by
  unfold roundsOf
  fun_induction pieces bytes with
  | case1 => simp
  | case2 bytes hbytes ih =>
    have hpositive : 0 < bytes.length := List.length_pos_iff.mpr hbytes
    intro round hround
    rcases List.mem_cons.mp hround with rfl | hround
    · refine ⟨?_, List.length_take_le chunkSize bytes, sendingOf_sending banner.reply⟩
      simp only [List.length_take, chunkSize]
      omega
    · exact ih round hround

/-- The chunks of the rounds are the pieces. -/
theorem roundsOf_chunks (banner : Banner) (bytes : Bytes) :
    (roundsOf banner bytes).map Round.chunk = pieces bytes := by
  simp [roundsOf, Function.comp_def]

/-- There is a round for every piece. -/
theorem length_roundsOf (banner : Banner) (bytes : Bytes) :
    (roundsOf banner bytes).length = pieceCount bytes.length := by
  rw [roundsOf, List.length_map, length_pieces]

/-- The rounds send a reply for every piece. -/
theorem sent_roundsOf (banner : Banner) (bytes : Bytes) :
    sent ((roundsOf banner bytes).flatMap Round.acts) =
      (List.replicate (pieceCount bytes.length) banner.reply).flatten := by
  rw [sent_rounds (roundsOf_sends banner bytes), length_roundsOf]

/-! ## The events of sendings and rounds -/

/-- The events of acts in sequence come in the same sequence. -/
theorem eventsOf_append (report : Bytes → Event) (first second : List Act) :
    eventsOf report (first ++ second) = eventsOf report first ++ eventsOf report second := by
  simp [eventsOf]

/-- Sending is not reported. -/
theorem Sending.eventsOf_eq_nil {bytes : Bytes} {acts : List Act} {failure : Option Fault}
    (h : Sending bytes acts failure) (report : Bytes → Event) : eventsOf report acts = [] := by
  apply List.flatMap_eq_nil_iff.mpr
  exact h.forall_acts (fun _ => rfl) (fun _ => rfl) rfl fun _ => rfl

/-- Of a round its chunk is reported. -/
theorem eventsOf_rounds {banner : Banner} {rounds : List Round} (report : Bytes → Event)
    (h : ∀ round ∈ rounds, round.Sends banner none) :
    eventsOf report (rounds.flatMap Round.acts) =
      (rounds.map Round.chunk).map report := by
  induction rounds with
  | nil => rfl
  | cons round rounds ih =>
    have hsilent := (h round (by simp)).replied.eventsOf_eq_nil report
    have hround : eventsOf report round.acts = [report round.chunk] := by
      unfold eventsOf at hsilent ⊢
      simp [Round.acts, Act.events, hsilent]
    rw [List.flatMap_cons, eventsOf_append, hround,
      ih fun other hother => h other (by simp [hother])]
    rfl

/-! ## Answering -/

/-- The next read of octets takes their first piece and leaves the others. -/
theorem read_piece {bytes : Bytes} (hbytes : bytes ≠ []) :
    ∃ b rest later, bytes.take chunkSize = b :: rest ∧
      read chunkSize [.data bytes] = (.got (b :: rest), later) ∧
      later = if bytes.drop chunkSize = [] then [] else [.data (bytes.drop chunkSize)] := by
  have hpositive : 0 < bytes.length := List.length_pos_iff.mpr hbytes
  have htaken : bytes.take chunkSize ≠ [] := by
    rw [← List.length_pos_iff, List.length_take]
    unfold chunkSize
    omega
  obtain ⟨b, rest, hpiece⟩ := List.exists_cons_of_ne_nil htaken
  refine ⟨b, rest, _, hpiece, ?_, rfl⟩
  by_cases hfits : bytes.length ≤ chunkSize
  · rw [read, if_pos hfits, if_pos (List.drop_of_length_le hfits), ← hpiece,
      List.take_of_length_le hfits]
  · have hrest : bytes.drop chunkSize ≠ [] := by
      rw [← List.length_pos_iff, List.length_drop]
      omega
    rw [read, if_neg hfits, if_neg hrest, hpiece]

/-- Octets that arrive while an exchange waits are answered piece by piece, and it waits again. -/
theorem converse_data (banner : Banner) (buffer : Buffer) (replies : Nat) {bytes : Bytes}
    (hcapacity : buffer.capacity = chunkSize) (hbytes : bytes ≠ []) :
    converse banner buffer .willing replies [.data bytes] =
      ((roundsOf banner bytes).flatMap Round.acts,
        .waiting buffer.clear .willing (replies + pieceCount bytes.length)) := by
  have hroom : buffer.clear.room = chunkSize := hcapacity
  induction bytes using pieces.induct generalizing buffer replies with
  | case1 => contradiction
  | case2 bytes hne ih =>
    obtain ⟨b, rest, later, hpiece, hread, hlater⟩ := read_piece hbytes
    rw [← hroom] at hread
    have hcount : pieceCount bytes.length = pieceCount (bytes.drop chunkSize).length + 1 := by
      rw [List.length_drop]
      exact pieceCount_pos (List.length_pos_iff.mpr hbytes)
    rw [converse_of_send_ok hread (send_willing banner.reply), roundsOf_of_ne_nil banner hbytes,
      hpiece, hroom, hcount]
    by_cases hrest : bytes.drop chunkSize = []
    · have hidle : read (buffer.clear.fill (b :: rest)).clear.room [] = (.idle, []) := rfl
      rw [hlater, if_pos hrest, converse_of_idle hidle, hrest]
      simp [Round.acts, Buffer.clear, Buffer.fill]
    · rw [hlater, if_neg hrest, ih (buffer.clear.fill (b :: rest)) (replies + 1) hcapacity hrest
        hcapacity, Nat.add_assoc, Nat.add_comm 1]
      rfl

section Resume

variable (banner : Banner) (replies : Nat)

/-- Taking an exchange up again with octets, if there are any, answers them. -/
theorem resume_data (bytes : Bytes) :
    (Standing.waiting .new .willing replies).resume banner
        (if bytes = [] then [] else [.data bytes]) =
      ((roundsOf banner bytes).flatMap Round.acts,
        .waiting .new .willing (replies + pieceCount bytes.length)) := by
  by_cases hbytes : bytes = []
  · have hidle : read Buffer.new.clear.room [] = (.idle, []) := rfl
    rw [if_pos hbytes, hbytes, roundsOf_nil]
    exact converse_of_idle hidle
  · rw [if_neg hbytes]
    exact converse_data banner .new replies rfl hbytes

/-- A fault ends an exchange that waits. -/
theorem resume_fault (fault : Fault) :
    (Standing.waiting .new .willing replies).resume banner [.fault fault] =
      ([.readFailed fault], .finished (.error fault)) :=
  converse_of_fault rfl

end Resume

end PongFixture.Exchange
