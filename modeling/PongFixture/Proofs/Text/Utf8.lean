import Mathlib.Data.Nat.Basic
import PongFixture.Text.Utf8

/-!
# Encoded text, whole and cut

The reader of octets gives back every text that is encoded (`decodeLossy_encode`), so octets are the
encoding of some text exactly when they read strictly.

Octets that are cut into parts are read part by part. Reading two parts never gives fewer characters
than reading them together (`length_decodeLossy_append_le`). A cut inside a character gives strictly
more: the beginning of the character is shown as at least one replacement character, and each octet
of the rest as one of its own (`length_lt_of_not_isBoundary`). So the parts give back the text only
where all cuts are between characters (`flatMap_decodeLossy_eq_iff`), also for texts that hold
replacement characters themselves.
-/

set_option autoImplicit false

namespace PongFixture.Utf8

/-! ## The octets of one character -/

/-- An octet that continues a character. -/
def IsTail (b : UInt8) : Prop := 0x80 ≤ b ∧ b ≤ 0xBF

/-- An octet of ASCII is a character. -/
theorem lead_one {n : Nat} (h : n ≤ 127) :
    lead (UInt8.ofNat n) = ([Char.ofNat n], .idle) := by
  have hvalue : (UInt8.ofNat n).toNat = n := by
    rw [UInt8.toNat_ofNat']
    omega
  have hlow : UInt8.ofNat n < 0x80 := by
    rw [UInt8.lt_iff_toNat_lt, hvalue]
    exact Nat.lt_of_le_of_lt h (by decide)
  rw [lead, if_pos hlow, hvalue]

/-- An octet of this range begins a character of two octets. -/
theorem lead_two : ∀ k < 32, 2 ≤ k →
    lead (UInt8.ofNat (k + 192)) = ([], .within 0 0x80 0xBF k) := by
  decide

/-- An octet of this range begins a character of three octets. -/
theorem lead_three : ∀ k < 16, lead (UInt8.ofNat (k + 224)) =
    ([], .within 1 (if k = 0 then 0xA0 else 0x80) (if k = 13 then 0x9F else 0xBF) k) := by
  decide

/-- An octet of this range begins a character of four octets. -/
theorem lead_four : ∀ k < 5, lead (UInt8.ofNat (k + 240)) =
    ([], .within 2 (if k = 0 then 0x90 else 0x80) (if k = 4 then 0x8F else 0xBF) k) := by
  decide

/-- The number of an octet that continues a character. -/
theorem toNat_tail {k : Nat} (h : k < 64) : (UInt8.ofNat (k + 128)).toNat = k + 128 := by
  rw [UInt8.toNat_ofNat']
  omega

/-- Six bits with the mark of a continuation continue a character. -/
theorem isTail_ofNat {k : Nat} (h : k < 64) : IsTail (UInt8.ofNat (k + 128)) := by
  unfold IsTail
  rw [UInt8.le_iff_toNat_le, UInt8.le_iff_toNat_le, toNat_tail h]
  simp only [UInt8.reduceToNat]
  omega

/-- Such an octet lies between two others if its number does. -/
theorem isTail_inRange {k : Nat} {low high : UInt8} (h : k < 64) (hlow : low.toNat ≤ k + 128)
    (hhigh : k + 128 ≤ high.toNat) :
    low ≤ UInt8.ofNat (k + 128) ∧ UInt8.ofNat (k + 128) ≤ high := by
  rw [UInt8.le_iff_toNat_le, UInt8.le_iff_toNat_le, toNat_tail h]
  exact ⟨hlow, hhigh⟩

section Reading

variable {more value k : Nat} {low high : UInt8}

/-- The last octet of a character brings its last six bits. -/
theorem decodeFrom_last (h : k < 64) (hlow : low.toNat ≤ k + 128) (hhigh : k + 128 ≤ high.toNat)
    (rest : Bytes) :
    decodeFrom (.within 0 low high value) (UInt8.ofNat (k + 128) :: rest) =
      Char.ofNat (value * 64 + k) :: decodeFrom .idle rest := by
  rw [decodeFrom_cons, step.eq_2, if_pos (isTail_inRange h hlow hhigh), toNat_tail h,
    Nat.add_sub_cancel]
  rfl

/-- An octet in the range that is awaited adds six bits to the pending character. -/
theorem decodeFrom_more (h : k < 64) (hlow : low.toNat ≤ k + 128) (hhigh : k + 128 ≤ high.toNat)
    (rest : Bytes) :
    decodeFrom (.within (more + 1) low high value) (UInt8.ofNat (k + 128) :: rest) =
      decodeFrom (.within more 0x80 0xBF (value * 64 + k)) rest := by
  rw [decodeFrom_cons, step.eq_3, if_pos (isTail_inRange h hlow hhigh), toNat_tail h,
    Nat.add_sub_cancel]
  rfl

end Reading

/-- The octets of a character: one below 128, or a leading one and octets that continue it. -/
theorem encodeChar_eq (c : Char) :
    ∃ b tails, String.utf8EncodeChar c = b :: tails ∧ ∀ t ∈ tails, IsTail t := by
  unfold String.utf8EncodeChar
  extract_lets v
  have hlast : IsTail (UInt8.ofNat (v % 64 + 128)) := isTail_ofNat (by omega)
  have hsecond : IsTail (UInt8.ofNat (v / 64 % 64 + 128)) := isTail_ofNat (by omega)
  have hthird : IsTail (UInt8.ofNat (v / 4096 % 64 + 128)) := isTail_ofNat (by omega)
  repeat' split
  all_goals
    refine ⟨_, _, rfl, ?_⟩
    grind

/-- The octets of a character are read as that character. -/
theorem decodeFrom_encodeChar (c : Char) (rest : Bytes) :
    decodeFrom .idle (String.utf8EncodeChar c ++ rest) = c :: decodeFrom .idle rest := by
  have hvalid : c.val.toNat < 0xD800 ∨ 0xDFFF < c.val.toNat ∧ c.val.toNat < 0x110000 := c.valid
  have hchar : Char.ofNat c.val.toNat = c := Char.ofNat_toNat c
  unfold String.utf8EncodeChar
  generalize c.val.toNat = v at *
  simp only
  split
  · next hone =>
    rw [List.cons_append, decodeFrom_cons, step, lead_one hone, hchar]
    rfl
  split
  · next hone htwo =>
    have hlead := lead_two (v / 64 % 32) (by omega) (by omega)
    have hvalue : v / 64 % 32 * 64 + v % 64 = v := by omega
    rw [List.cons_append, decodeFrom_cons, step, hlead]
    show decodeFrom _ (_ :: rest) = _
    rw [decodeFrom_last (by omega) (by simp) (by simp; omega), hvalue, hchar]
  split
  · next hone htwo hthree =>
    have hlead := lead_three (v / 4096 % 16) (by omega)
    have hvalue : (v / 4096 % 16 * 64 + v / 64 % 64) * 64 + v % 64 = v := by omega
    rw [List.cons_append, decodeFrom_cons, step, hlead]
    show decodeFrom _ (_ :: _ :: rest) = _
    rw [decodeFrom_more (by omega) (by split <;> simp; omega) (by split <;> simp <;> omega),
      decodeFrom_last (by omega) (by simp) (by simp; omega), hvalue, hchar]
  · next hone htwo hthree =>
    have hlead := lead_four (v / 262144 % 8) (by omega)
    have hvalue : ((v / 262144 % 8 * 64 + v / 4096 % 64) * 64 + v / 64 % 64) * 64 + v % 64 = v := by
      omega
    rw [List.cons_append, decodeFrom_cons, step, hlead]
    show decodeFrom _ (_ :: _ :: _ :: rest) = _
    rw [decodeFrom_more (by omega) (by split <;> simp; omega) (by split <;> simp <;> omega),
      decodeFrom_more (by omega) (by simp) (by simp; omega),
      decodeFrom_last (by omega) (by simp) (by simp; omega), hvalue, hchar]

/-- An encoded text is read back in front of any octets. -/
theorem decodeFrom_encode (text : List Char) (rest : Bytes) :
    decodeFrom .idle (encode text ++ rest) = text ++ decodeFrom .idle rest := by
  induction text with
  | nil => rfl
  | cons c text ih =>
    rw [encode_cons, List.append_assoc, decodeFrom_encodeChar, ih]
    rfl

/-- Every text is read back from its octets. -/
theorem decodeLossy_encode (text : List Char) : decodeLossy (encode text) = text := by
  have h := decodeFrom_encode text []
  rwa [List.append_nil, decodeFrom_nil, settle, List.append_nil] at h

/-- An encoded text is read back. -/
theorem decode?_encode (text : List Char) : decode? (encode text) = some text := by
  rw [decode?, decodeLossy_encode, if_pos rfl]

/-- The octets of a string are shown as the string. -/
theorem display_ofString (s : String) : display (ofString s) = s := by
  rw [display, ofString, decodeLossy_encode, String.ofList_toList]

/-- No two texts have the same octets. -/
theorem encode_injective {first second : List Char} (h : encode first = encode second) :
    first = second := by
  rw [← decodeLossy_encode first, h, decodeLossy_encode]

/-! ## Octets in two parts -/

/-- What a pending character awaits is among the octets that continue one. -/
def Pending.Sound : Pending → Prop
  | .idle => True
  | .within _ low high _ => 0x80 ≤ low ∧ high ≤ 0xBF

/-- What an octet begins awaits octets that continue a character. -/
theorem sound_lead (b : UInt8) : (lead b).2.Sound := by
  unfold lead
  repeat' split
  all_goals trivial

/-- So does what an octet goes on with. -/
theorem sound_step (pending : Pending) (b : UInt8) : (step pending b).2.Sound := by
  unfold step
  repeat' split
  all_goals first | trivial | exact sound_lead b

/-- An octet that continues a character begins none. -/
theorem lead_of_isTail {b : UInt8} (h : IsTail b) : lead b = ([replacement], .idle) := by
  obtain ⟨hlow, hhigh⟩ := h
  have hascii : ¬ b < 0x80 := UInt8.not_lt.mpr hlow
  have hbelow : b < 0xC2 := UInt8.lt_of_le_of_lt hhigh (by decide)
  rw [lead, if_neg hascii, if_pos hbelow]

/-- Where a character is pending, reading on gives at most one character more than beginning
anew. -/
theorem length_decodeFrom_le {pending : Pending} (sound : pending.Sound) (bytes : Bytes) :
    (decodeFrom pending bytes).length ≤
      (settle pending).length + (decodeFrom .idle bytes).length := by
  induction bytes generalizing pending with
  | nil => exact Nat.le_add_right _ _
  | cons b bytes ih =>
    cases pending with
    | idle => exact Nat.le_add_left _ _
    | within more low high value =>
      rw [decodeFrom_cons, decodeFrom_cons, List.length_append, List.length_append]
      by_cases hrange : low ≤ b ∧ b ≤ high
      -- The octet goes on with the character, so beginning anew it would be one by itself.
      · have htail : IsTail b := ⟨UInt8.le_trans sound.1 hrange.1, UInt8.le_trans hrange.2 sound.2⟩
        have hnext := ih (sound_step (.within more low high value) b)
        have hidle : step .idle b = ([replacement], .idle) := lead_of_isTail htail
        rw [hidle]
        cases more with
        | zero =>
          simp only [step, if_pos hrange, settle, List.length_singleton] at hnext ⊢
          omega
        | succ more =>
          simp only [step, if_pos hrange, settle, List.length_singleton, List.length_nil] at hnext ⊢
          omega
      · have hanew : step (.within more low high value) b =
            (replacement :: (step .idle b).1, (step .idle b).2) := by
          cases more <;> simp only [step, if_neg hrange]
        rw [hanew]
        simp only [settle, List.length_cons, List.length_nil]
        omega

/-- Octets in two parts read as no fewer characters than together. -/
theorem length_decodeLossy_append_le (first second : Bytes) :
    (decodeLossy (first ++ second)).length ≤
      (decodeLossy first).length + (decodeLossy second).length := by
  have general : ∀ {pending : Pending}, pending.Sound →
      (decodeFrom pending (first ++ second)).length ≤
        (decodeFrom pending first).length + (decodeFrom .idle second).length := by
    induction first with
    | nil =>
      intro pending sound
      exact length_decodeFrom_le sound second
    | cons b first ih =>
      intro pending _
      have hrest := ih (sound_step pending b)
      rw [List.cons_append, decodeFrom_cons, decodeFrom_cons, List.length_append,
        List.length_append]
      omega
  exact general trivial

/-- Octets in one part show no more characters than in several. -/
theorem length_decodeLossy_flatten_le (parts : List Bytes) :
    (decodeLossy parts.flatten).length ≤ (parts.flatMap decodeLossy).length := by
  induction parts with
  | nil => exact Nat.le_refl _
  | cons part parts ih =>
    have hpart := length_decodeLossy_append_le part parts.flatten
    rw [List.flatten_cons, List.flatMap_cons, List.length_append]
    omega

/-! ## Cuts -/

/-- An octet that shows nothing begins a character. -/
theorem pending_of_lead {b : UInt8} (h : (lead b).1 = []) : (lead b).2 ≠ .idle := by
  unfold lead at h ⊢
  repeat' split
  all_goals simp_all

/-- What settles nothing leaves something pending. -/
theorem pending_of_step {pending : Pending} {b : UInt8} (h : (step pending b).1 = []) :
    (step pending b).2 ≠ .idle := by
  unfold step at h ⊢
  repeat' split
  all_goals first | exact pending_of_lead h | simp_all

/-- Only where nothing is pending do no octets show nothing. -/
theorem decodeFrom_eq_nil {pending : Pending} {bytes : Bytes} (h : decodeFrom pending bytes = []) :
    pending = .idle ∧ bytes = [] := by
  induction bytes generalizing pending with
  | nil =>
    cases pending with
    | idle => exact ⟨rfl, rfl⟩
    | within => cases h
  | cons b bytes ih =>
    rw [decodeFrom_cons, List.append_eq_nil_iff] at h
    exact absurd (ih h.2).1 (pending_of_step h.1)

/-- Octets that continue no character are replaced one by one. -/
theorem decodeFrom_tails {tails : Bytes} (h : ∀ t ∈ tails, IsTail t) (rest : Bytes) :
    decodeFrom .idle (tails ++ rest) =
      List.replicate tails.length replacement ++ decodeFrom .idle rest := by
  induction tails with
  | nil => rfl
  | cons t tails ih =>
    obtain ⟨ht, htails⟩ := List.forall_mem_cons.mp h
    rw [List.cons_append, decodeFrom_cons, step, lead_of_isTail ht, ih htails]
    rfl

/-- A place in an encoded text is between two characters, or inside one. -/
theorem isBoundary_or_inside {text : List Char} {first second : Bytes}
    (h : first ++ second = encode text) :
    IsBoundary text first.length ∨
      ∃ head c tail begun left, text = head ++ c :: tail ∧ first = encode head ++ begun ∧
        second = left ++ encode tail ∧ String.utf8EncodeChar c = begun ++ left ∧
        begun ≠ [] ∧ left ≠ [] := by
  induction text generalizing first with
  | nil =>
    obtain ⟨rfl, -⟩ := List.append_eq_nil_iff.mp h
    exact .inl ⟨[], [], rfl, rfl⟩
  | cons c text ih =>
    rw [encode_cons] at h
    rcases List.append_eq_append_iff.mp h with ⟨left, hchar, hsecond⟩ | ⟨begun, hfirst, hrest⟩
    -- The cut comes before the end of the first character.
    · by_cases hbegun : first = []
      · subst hbegun
        exact .inl ⟨[], c :: text, rfl, rfl⟩
      · by_cases hleft : left = []
        · subst hleft
          refine .inl ⟨[c], text, rfl, ?_⟩
          rw [encode_cons, encode_nil, hchar, List.append_nil, List.append_nil]
        · exact .inr ⟨[], c, text, first, left, rfl, rfl, hsecond, hchar, hbegun, hleft⟩
    · rcases ih hrest.symm with
        ⟨head, tail, rfl, hlength⟩ | ⟨head, d, tail, inner, left, rfl, rfl, hinside⟩
      · refine .inl ⟨c :: head, tail, rfl, ?_⟩
        rw [encode_cons, hfirst, List.length_append, List.length_append, hlength]
      · refine .inr ⟨c :: head, d, tail, inner, left, rfl, ?_, hinside⟩
        rw [encode_cons, hfirst, List.append_assoc]

/-- Octets of a text that are cut inside a character read as more characters than the text has. -/
theorem length_lt_of_not_isBoundary {text : List Char} {first second : Bytes}
    (h : first ++ second = encode text) (inside : ¬ IsBoundary text first.length) :
    text.length < (decodeLossy first).length + (decodeLossy second).length := by
  obtain ⟨head, c, tail, begun, left, rfl, rfl, rfl, hchar, hbegun, hleft⟩ :=
    (isBoundary_or_inside h).resolve_left inside
  obtain ⟨b, tails, hoctets, htails⟩ := encodeChar_eq c
  have hcut : begun ++ left = b :: tails := hchar.symm.trans hoctets
  obtain ⟨a, inner, rfl⟩ := List.exists_cons_of_ne_nil hbegun
  obtain ⟨-, rfl⟩ := List.cons.inj hcut
  have hcontinue : ∀ t ∈ left, IsTail t := fun t ht => htails t (List.mem_append_right inner ht)
  have htail := decodeLossy_encode tail
  rw [decodeLossy] at htail
  have hfirst : (decodeFrom .idle (a :: inner)).length ≠ 0 := by
    intro hnone
    cases (decodeFrom_eq_nil (List.length_eq_zero_iff.mp hnone)).2
  have hlast : left.length ≠ 0 := fun hnone => hleft (List.length_eq_zero_iff.mp hnone)
  rw [decodeLossy, decodeFrom_encode, decodeLossy, decodeFrom_tails hcontinue, htail]
  simp only [List.length_append, List.length_cons, List.length_replicate]
  omega

/-- No cut between the parts of an encoded text is inside a character. -/
def CutsAtBoundaries (text : List Char) (parts : List Bytes) : Prop :=
  ∀ before after, parts = before ++ after → IsBoundary text before.flatten.length

/-- Octets of a text that end at a boundary are those of its beginning. -/
theorem encode_of_isBoundary {text : List Char} {first second : Bytes}
    (h : first ++ second = encode text) (boundary : IsBoundary text first.length) :
    ∃ head tail, text = head ++ tail ∧ encode head = first ∧ encode tail = second := by
  obtain ⟨head, tail, rfl, hlength⟩ := boundary
  rw [encode_append] at h
  obtain ⟨hfirst, hsecond⟩ := List.append_inj h hlength.symm
  exact ⟨head, tail, rfl, hfirst.symm, hsecond.symm⟩

/-- A boundary beyond the beginning of a text is one of the rest. -/
theorem IsBoundary.beyond {head rest : List Char} {place : Nat}
    (h : IsBoundary (head ++ rest) ((encode head).length + place)) : IsBoundary rest place := by
  obtain ⟨upTo, tail, hsplit, hplace⟩ := h
  rcases List.append_eq_append_iff.mp hsplit with ⟨piece, rfl, rfl⟩ | ⟨piece, rfl, rfl⟩
  · rw [encode_append, List.length_append] at hplace
    exact ⟨piece, tail, rfl, by omega⟩
  · rw [encode_append, List.length_append] at hplace
    exact ⟨[], _, rfl, by rw [encode_nil, List.length_nil]; omega⟩

/-- A part between two boundaries is the encoding of a piece of the text. -/
theorem encode_of_isBoundary_isBoundary {text : List Char} {first part second : Bytes}
    (h : first ++ (part ++ second) = encode text) (begins : IsBoundary text first.length)
    (ends : IsBoundary text (first ++ part).length) :
    ∃ head piece tail, text = head ++ (piece ++ tail) ∧ encode head = first ∧
      encode piece = part := by
  obtain ⟨head, rest, rfl, rfl, hrest⟩ := encode_of_isBoundary h begins
  rw [List.length_append] at ends
  obtain ⟨piece, tail, rfl, hpiece, -⟩ := encode_of_isBoundary hrest.symm ends.beyond
  exact ⟨head, piece, tail, rfl, rfl, hpiece⟩

/-- Parts of an encoded text that are read one by one give the text back exactly where no cut
between them is inside a character. -/
theorem flatMap_decodeLossy_eq_iff {text : List Char} {parts : List Bytes}
    (h : parts.flatten = encode text) :
    parts.flatMap decodeLossy = text ↔ CutsAtBoundaries text parts := by
  constructor
  -- Each side of a cut reads as at least as many characters as in one piece.
  · rintro same before after rfl
    by_contra inside
    rw [List.flatten_append] at h
    have hmore := length_lt_of_not_isBoundary h inside
    have hbefore := length_decodeLossy_flatten_le before
    have hafter := length_decodeLossy_flatten_le after
    have hlength := congrArg List.length same
    rw [List.flatMap_append, List.length_append] at hlength
    omega
  · intro boundaries
    induction parts generalizing text with
    | nil => exact encode_injective h
    | cons part parts ih =>
      have hfirst : IsBoundary text part.length := by
        simpa using boundaries [part] parts rfl
      obtain ⟨head, tail, rfl, rfl, htail⟩ := encode_of_isBoundary h hfirst
      have hrest : CutsAtBoundaries tail parts := by
        rintro before after rfl
        have hcut := boundaries (encode head :: before) after rfl
        rw [List.flatten_cons, List.length_append] at hcut
        exact hcut.beyond
      rw [List.flatMap_cons, decodeLossy_encode, ih htail.symm hrest]

end PongFixture.Utf8
