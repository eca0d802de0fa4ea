import Mathlib
import PongFixture.Proofs.Exchange.Outline
import PongFixture.Proofs.Exchange.Pieces

/-!
# Strings that are read piece by piece

A stream that delivers strings gives as many octets of the current one as fit into a read, and moves
on to the next when it has given all of it (`Delivers`). An exchange whose sendings succeed hands on
each string cut into its pieces, up to the first string that is empty or to the end of the input
(`strings_are_cut`). The proof follows the reads: each takes the first piece off what is still to be
delivered (`Delivers.of_read`), and since the buffer is cleared before it, there is room for a whole
piece again.
-/

set_option autoImplicit false

namespace PongFixture.Exchange

/-- Arrivals that deliver strings one after the other. They may not be ready at any read, also in the
middle of a string, after one or more whole reads of it. -/
inductive Delivers : List Bytes → List Arrival → Prop
  | exhausted : Delivers [] []
  | notReady {strings : List Bytes} {arrivals : List Arrival} (hlater : Delivers strings arrivals) :
      Delivers strings (.notReady :: arrivals)
  | whole {bytes : Bytes} {strings : List Bytes} {arrivals : List Arrival}
      (hlater : Delivers strings arrivals) : Delivers (bytes :: strings) (.data bytes :: arrivals)
  | paused {first rest : Bytes} {strings : List Bytes} {arrivals : List Arrival}
      (hfirst : first.length = chunkSize) (hrest : rest ≠ [])
      (hlater : Delivers (rest :: strings) arrivals) :
      Delivers ((first ++ rest) :: strings) (.data first :: arrivals)

/-- Acts among which every sending succeeds: no write and no flush fails. -/
def SendsSucceed (acts : List Act) : Prop := ∀ act ∈ acts, act.isSending = true → act.failure? = none

/-- The strings that come before the first empty one. -/
def served (strings : List Bytes) : List Bytes := strings.takeWhile (· ≠ [])

/-- The pieces that strings are handed on in. -/
def servedPieces (strings : List Bytes) : List Bytes := (served strings).flatMap pieces

/-! ## The pieces of a string -/

/-- A piece has one octet at least, and fits into a read. -/
theorem length_of_mem_pieces {bytes piece : Bytes} (h : piece ∈ pieces bytes) :
    1 ≤ piece.length ∧ piece.length ≤ chunkSize := by
  fun_induction pieces bytes with
  | case1 => simp at h
  | case2 bytes hbytes ih =>
    rcases List.mem_cons.mp h with rfl | hlater
    · have hpositive : 0 < bytes.length := List.length_pos_iff.mpr hbytes
      rw [List.length_take]
      unfold chunkSize
      omega
    · exact ih hlater

/-- Only the last piece of a string may be shorter than a read allows. -/
theorem length_of_mem_dropLast_pieces {bytes piece : Bytes} (h : piece ∈ (pieces bytes).dropLast) :
    piece.length = chunkSize := by
  fun_induction pieces bytes with
  | case1 => simp at h
  | case2 bytes hbytes ih =>
    by_cases hrest : bytes.drop chunkSize = []
    · simp [hrest] at h
    · have hmore : pieces (bytes.drop chunkSize) ≠ [] := by
        rw [pieces_of_ne_nil hrest]
        exact List.cons_ne_nil _ _
      rw [List.dropLast_cons_of_ne_nil hmore] at h
      rcases List.mem_cons.mp h with rfl | hlater
      · have hlong := List.length_pos_iff.mpr hrest
        rw [List.length_drop] at hlong
        rw [List.length_take]
        omega
      · exact ih hlater

/-- The pieces of strings, joined, are the strings joined. -/
theorem flatten_flatMap_pieces (strings : List Bytes) :
    (strings.flatMap pieces).flatten = strings.flatten := by
  induction strings with
  | nil => rfl
  | cons bytes strings ih =>
    rw [List.flatMap_cons, List.flatten_append, flatten_pieces, ih, List.flatten_cons]

/-- The number of pieces is the length divided by that of a whole piece, rounded up. -/
theorem pieceCount_eq_ceilDiv (length : Nat) : pieceCount length = length ⌈/⌉ chunkSize := by
  rw [Nat.ceilDiv_eq_add_pred_div]
  unfold pieceCount chunkSize
  omega

/-- There are as many pieces as the strings have between them that come before an empty one. -/
theorem length_servedPieces (strings : List Bytes) :
    (servedPieces strings).length =
      ((served strings).map fun bytes => bytes.length ⌈/⌉ chunkSize).sum := by
  unfold servedPieces
  rw [List.length_flatMap]
  simp only [length_pieces, pieceCount_eq_ceilDiv]

/-! ## What is left to deliver after a read -/

/-- What is still to be delivered when the first piece of a string has been. -/
def afterPiece (bytes : Bytes) (strings : List Bytes) : List Bytes :=
  if bytes.drop chunkSize = [] then strings else bytes.drop chunkSize :: strings

/-- The first piece is the first of the first string, and the others are those of what is left to
deliver. -/
theorem servedPieces_cons {bytes : Bytes} (hbytes : bytes ≠ []) (strings : List Bytes) :
    servedPieces (bytes :: strings) =
      bytes.take chunkSize :: servedPieces (afterPiece bytes strings) := by
  have hserved : served (bytes :: strings) = bytes :: served strings := by
    simp [served, hbytes]
  unfold servedPieces
  rw [hserved, List.flatMap_cons, pieces_of_ne_nil hbytes]
  by_cases hrest : bytes.drop chunkSize = []
  · simp [afterPiece, hrest]
  · simp [afterPiece, hrest, served]

/-- A read takes nothing when nothing is left, finds the end at an empty string, and takes the first
piece of any other. -/
theorem Delivers.read_eq {strings : List Bytes} {arrivals : List Arrival}
    (h : Delivers strings arrivals) :
    (strings = [] ∧ ∃ rest, read chunkSize arrivals = (.idle, rest)) ∨
    (∃ later rest, strings = [] :: later ∧ read chunkSize arrivals = (.got [], rest)) ∨
    ∃ bytes later rest, strings = bytes :: later ∧ bytes ≠ [] ∧
      read chunkSize arrivals = (.got (bytes.take chunkSize), rest) ∧
      Delivers (afterPiece bytes later) rest := by
  induction h with
  | exhausted => exact .inl ⟨rfl, [], rfl⟩
  | notReady _ ih => exact ih
  | @whole bytes later arrivals hlater =>
    right
    by_cases hbytes : bytes = []
    · exact .inl ⟨later, arrivals, by rw [hbytes], by rw [hbytes]; rfl⟩
    · right
      by_cases hfits : bytes.length ≤ chunkSize
      · refine ⟨bytes, later, arrivals, rfl, hbytes, ?_, ?_⟩
        · rw [read, if_pos hfits, List.take_of_length_le hfits]
        · rw [afterPiece, if_pos (List.drop_of_length_le hfits)]
          exact hlater
      · refine ⟨bytes, later, _, rfl, hbytes, by rw [read, if_neg hfits], ?_⟩
        have hrest : bytes.drop chunkSize ≠ [] := by
          rw [← List.length_pos_iff, List.length_drop]
          omega
        rw [afterPiece, if_neg hrest]
        exact .whole hlater
  | @paused first rest later arrivals hfirst hrest hlater =>
    have htake : (first ++ rest).take chunkSize = first := by rw [← hfirst, List.take_left]
    have hdrop : (first ++ rest).drop chunkSize = rest := by rw [← hfirst, List.drop_left]
    refine .inr (.inr ⟨first ++ rest, later, arrivals, rfl, by simp [hrest], ?_, ?_⟩)
    · rw [read, if_pos (Nat.le_of_eq hfirst), htake]
    · rw [afterPiece, hdrop, if_neg hrest]
      exact hlater

/-- What a reading tells of the strings it was taken from, and of what is left to deliver. -/
def Reading.TakenFrom (strings : List Bytes) (rest : List Arrival) : Reading → Prop
  | .idle => strings = []
  | .fault _ => False
  | .got [] => ∃ later, strings = [] :: later
  | .got (b :: bytes) =>
    ∃ string later, strings = string :: later ∧ string ≠ [] ∧ b :: bytes = string.take chunkSize ∧
      Delivers (afterPiece string later) rest

/-- What a read takes is taken from what there is to deliver. -/
theorem Delivers.of_read {strings : List Bytes} {arrivals rest : List Arrival} {reading : Reading}
    (h : Delivers strings arrivals) (hread : read chunkSize arrivals = (reading, rest)) :
    reading.TakenFrom strings rest := by
  rcases h.read_eq with ⟨rfl, rest', hgot⟩ | ⟨later, rest', rfl, hgot⟩ |
    ⟨string, later, rest', rfl, hstring, hgot, hlater⟩
  · cases hread.symm.trans hgot
    rfl
  · cases hread.symm.trans hgot
    exact ⟨later, rfl⟩
  · cases hread.symm.trans hgot
    cases hpiece : string.take chunkSize with
    | nil => simp [chunkSize, hstring] at hpiece
    | cons b bytes => exact ⟨string, later, rfl, hstring, hpiece.symm, hlater⟩

/-! ## Exchanges -/

/-- Where all sendings succeed, they do so in every part. -/
theorem SendsSucceed.of_append {first second : List Act} (h : SendsSucceed (first ++ second)) :
    SendsSucceed first ∧ SendsSucceed second :=
  List.forall_mem_append.mp h

/-- A sending of which no act fails has no fault. -/
theorem Sink.send_of_sendsSucceed {sink : Sink} {bytes : Bytes}
    (h : SendsSucceed (sink.send bytes).1) : ∃ next, (sink.send bytes).2 = .ok next := by
  have hsending := sink.send_sending bytes
  cases hresult : (sink.send bytes).2 with
  | ok next => exact ⟨next, rfl⟩
  | error fault =>
    rw [hresult] at hsending
    obtain ⟨before, call, hacts, hfails⟩ := hsending.failsWith.fails fault rfl
    have hmem : call ∈ (sink.send bytes).1 := by simp [hacts]
    rw [h call hmem (hsending.isSending call hmem)] at hfails
    contradiction

/-- What is read, from which every piece is handed on, up to the read that finds the end. -/
def readsOf (strings : List Bytes) : List (Except Fault (Nat × Nat)) :=
  (servedPieces strings).map (fun piece => .ok (chunkSize, piece.length)) ++ [.ok (chunkSize, 0)]

/-- The reads of acts in sequence are those of each part, in the same sequence. -/
theorem readCalls_append (first second : List Act) :
    readCalls (first ++ second) = readCalls first ++ readCalls second := by
  simp [readCalls]

/-- All octets that are read are in the chunks that are read. -/
theorem received_eq_flatten (acts : List Act) : received acts = (chunksRead acts).flatten := by
  induction acts with
  | nil => rfl
  | cons act acts ih =>
    unfold received chunksRead at ih ⊢
    match act with
    | .read room (b :: bytes) => simp [ih]
    | .read room [] | .readFailed _ | .chunk _ | .wrote _ | .writeFailed _ | .flushed
    | .flushFailed _ | .ended _ => simpa using ih

/-- Nothing is read in a sending. -/
theorem Sending.readCalls_eq_nil {bytes : Bytes} {acts : List Act} {failure : Option Fault}
    (h : Sending bytes acts failure) : readCalls acts = [] := by
  apply List.filterMap_eq_nil_iff.mpr
  exact h.forall_acts (fun _ => rfl) (fun _ => rfl) rfl fun _ => rfl

/-- The acts of a round hand on its chunk and make its read. -/
theorem chunks_round (room : Nat) (bytes : Bytes) (later : List Act) {reply : Bytes}
    {acts : List Act} {failure : Option Fault} (hsending : Sending reply acts failure) :
    chunks (.read room bytes :: .chunk bytes :: (acts ++ later)) = bytes :: chunks later ∧
    readCalls (.read room bytes :: .chunk bytes :: (acts ++ later)) =
      .ok (room, bytes.length) :: readCalls later := by
  have hchunks : chunks (acts ++ later) = chunks later := by
    rw [chunks_append, hsending.chunks_eq_nil, List.nil_append]
  have hreads : readCalls (acts ++ later) = readCalls later := by
    rw [readCalls_append, hsending.readCalls_eq_nil, List.nil_append]
  exact ⟨congrArg (bytes :: ·) hchunks, congrArg (Except.ok (room, bytes.length) :: ·) hreads⟩

/-- An exchange that waits hands on all that is delivered, replies to each piece, and ends with the
first empty string, or with the input. -/
theorem converse_of_delivers (banner : Banner) (buffer : Buffer) (sink : Sink) (replies : Nat)
    (arrivals : List Arrival) (hcapacity : buffer.capacity = chunkSize)
    (hsucceed : SendsSucceed (converse banner buffer sink replies arrivals).1) :
    ∀ strings, Delivers strings arrivals →
      let conversed := converse banner buffer sink replies arrivals
      chunks (conversed.1 ++ conversed.2.finish.1) = servedPieces strings ∧
      readCalls (conversed.1 ++ conversed.2.finish.1) = readsOf strings ∧
      conversed.2.finish.2 = .ok (replies + (servedPieces strings).length) := by
  intro strings h
  have hroom : buffer.clear.room = chunkSize := hcapacity
  fun_induction converse banner buffer sink replies arrivals generalizing strings with
  | case1 buffer sink replies arrivals rest hread =>
    rw [hroom] at hread
    obtain rfl := h.of_read hread
    have hclear : buffer.clear.clear.room = chunkSize := hcapacity
    simp [Standing.finish, hclear, servedPieces, readsOf, served, chunks, readCalls]
  | case2 buffer sink replies arrivals fault rest hread =>
    rw [hroom] at hread
    exact (h.of_read hread).elim
  | case3 buffer sink replies arrivals rest hread =>
    rw [hroom] at hread
    obtain ⟨later, rfl⟩ := h.of_read hread
    simp [Standing.finish, hcapacity, servedPieces, readsOf, served, chunks, readCalls]
  | case4 buffer sink replies arrivals b bytes rest hread acts fault hsend =>
    have hacts : SendsSucceed (sink.send banner.reply).1 := by
      rw [hsend]
      intro act hact
      exact hsucceed act (by simp [hact])
    obtain ⟨next, hnext⟩ := Sink.send_of_sendsSucceed hacts
    rw [hsend] at hnext
    cases hnext
  | case5 buffer sink replies arrivals b bytes rest hread acts sink' hsend later ih =>
    rw [hroom] at hread
    have hsending := Sink.sending_of_send hsend
    have hlater : SendsSucceed later.1 := by
      intro act hact
      exact hsucceed act (by simp [hact])
    obtain ⟨string, others, rfl, hstring, hpiece, hothers⟩ := h.of_read hread
    obtain ⟨hchunks, hreads, hreplies⟩ := ih hcapacity hlater _ hothers hcapacity
    obtain ⟨hround, hcalls⟩ :=
      chunks_round chunkSize (b :: bytes) (later.1 ++ later.2.finish.1) hsending
    have hheld : (buffer.clear.fill (b :: bytes)).held = b :: bytes := rfl
    rw [servedPieces_cons hstring, ← hpiece]
    refine ⟨?_, ?_, ?_⟩
    · rw [hroom, hheld, List.cons_append, List.cons_append, List.append_assoc, hround, hchunks]
    · rw [hroom, hheld, List.cons_append, List.cons_append, List.append_assoc, hcalls, hreads,
        readsOf, readsOf, servedPieces_cons hstring, ← hpiece]
      rfl
    · rw [hreplies, List.length_cons, Nat.add_assoc, Nat.add_comm 1]

/-- An exchange whose sendings succeed, on a stream that delivers strings, hands on the strings
before the first empty one, each cut into pieces of `chunkSize` octets of which only the last may be
shorter, and replies once to each piece. Every read is offered room for `chunkSize` octets; the one
after the last piece finds the end, and nothing is read after it. -/
theorem strings_are_cut (banner : Banner) (stream : Stream) (strings : List Bytes)
    (hdelivers : Delivers strings stream.arrivals)
    (hsucceed : SendsSucceed (run banner stream).acts) :
    let served := strings.takeWhile (· ≠ [])
    (run banner stream).result =
      .ok (served.map fun bytes => bytes.length ⌈/⌉ chunkSize).sum ∧
    chunks (run banner stream).acts = served.flatMap pieces ∧
    readCalls (run banner stream).acts =
      (served.flatMap pieces).map (fun piece => .ok (chunkSize, piece.length)) ++
        [.ok (chunkSize, 0)] ∧
    received (run banner stream).acts = served.flatten ∧
    (∀ bytes ∈ served, (pieces bytes).flatten = bytes ∧
      (∀ piece ∈ pieces bytes, 1 ≤ piece.length ∧ piece.length ≤ chunkSize) ∧
      ∀ piece ∈ (pieces bytes).dropLast, piece.length = chunkSize) ∧
    chunkSize = 1024 := by
  intro served
  have hgreeted : SendsSucceed (stream.sink.send banner.greeting).1 := by
    unfold run greet at hsucceed
    cases hsend : stream.sink.send banner.greeting with
    | mk acts result =>
      rw [hsend] at hsucceed
      cases result with
      | error fault => exact hsucceed.of_append.1.of_append.1
      | ok next => exact hsucceed.of_append.1.of_append.1
  obtain ⟨next, hnext⟩ := Sink.send_of_sendsSucceed hgreeted
  have hsending := stream.sink.send_sending banner.greeting
  have hgreet : greet banner stream.sink =
      ((stream.sink.send banner.greeting).1, .waiting .new next 0) := by
    unfold greet
    split <;> simp_all
  have hrun : (run banner stream).acts = (stream.sink.send banner.greeting).1 ++
      ((converse banner .new next 0 stream.arrivals).1 ++
        (converse banner .new next 0 stream.arrivals).2.finish.1) := by
    simp [run, hgreet, Standing.resume]
  rw [hrun] at hsucceed
  obtain ⟨hchunks, hreads, hresult⟩ := converse_of_delivers banner .new next 0 stream.arrivals rfl
    hsucceed.of_append.2.of_append.1 strings hdelivers
  have hhanded : chunks (run banner stream).acts = served.flatMap pieces := by
    rw [hrun, chunks_append, hsending.chunks_eq_nil, hchunks]
    rfl
  have hreplied : (run banner stream).result =
      .ok (served.map fun bytes => bytes.length ⌈/⌉ chunkSize).sum := by
    have hfinish : (run banner stream).result =
        (converse banner .new next 0 stream.arrivals).2.finish.2 := by
      simp [run, hgreet, Standing.resume]
    rw [hfinish, hresult, Nat.zero_add, length_servedPieces]
    rfl
  refine ⟨hreplied, hhanded, ?_, ?_, ?_, rfl⟩
  · rw [hrun, readCalls_append, hsending.readCalls_eq_nil, hreads]
    rfl
  · rw [received_eq_flatten, ← chunks_run_eq_chunksRead, hhanded, flatten_flatMap_pieces]
  · intro bytes _
    exact ⟨flatten_pieces bytes, fun piece => length_of_mem_pieces,
      fun piece => length_of_mem_dropLast_pieces⟩

/-- Two strings of more than one piece, the second paused after its first read, an empty one, and one
that is not read. The writes are partial, and one is interrupted. -/
theorem strings_are_cut_up_to_empty :
    let strings : List Bytes :=
      [List.replicate 1025 97, List.replicate 1024 98 ++ [99, 99], [], [100]]
    let stream : Stream :=
      ⟨[.notReady, .data (List.replicate 1025 97), .data (List.replicate 1024 98), .notReady,
          .data [99, 99], .data [], .data [100]],
        ⟨[.upTo 1, .notReady, .fault (.ofKind .interrupted), .all], [.notReady, .done]⟩⟩
    Delivers strings stream.arrivals ∧
    SendsSucceed (run ⟨[72, 105], [111, 107]⟩ stream).acts ∧
    (run ⟨[72, 105], [111, 107]⟩ stream).result = .ok 4 := by
  intro strings stream
  have hdelivers : Delivers strings stream.arrivals :=
    .notReady (.whole (.paused List.length_replicate (by simp)
      (.notReady (.whole (.whole (.whole .exhausted))))))
  have hsucceed : SendsSucceed (run ⟨[72, 105], [111, 107]⟩ stream).acts := by
    unfold SendsSucceed
    decide +kernel
  refine ⟨hdelivers, hsucceed, ?_⟩
  exact (strings_are_cut ⟨[72, 105], [111, 107]⟩ stream strings hdelivers hsucceed).1.trans
    (by decide +kernel)

end PongFixture.Exchange
