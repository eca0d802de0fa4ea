import Mathlib.Tactic.SplitIfs
import PongFixture.Proofs.Toml.Quotes

/-!
# Texts and gaps in front of a quote

A text or a comment may have quotes in it, so its reader need not stop at one. But once such a reader
has come to an end, its answer does not depend on what it has left (`Nearby`). So it is with what skips
blanks and comments: either it ends before a quote, or it has run over it.

The bodies of texts are read one character at a time. What a reader makes of one character is a
`Move`, and what is said of the four readers is said once, of their moves.
-/

set_option autoImplicit false

namespace PongFixture.Toml

/-! ## Readers that come to an end -/

/-- A reader that does not depend on what is behind a quote, if it ends before that. -/
structure Nearby (quote : Char) {α : Type} (reader : Reader α) : Prop where
  suffix : ∀ {cs rest : List Char} {x : α}, reader cs = some (x, rest) → rest <:+ cs
  nearby : ∀ {ahead behind rest : List Char} {x : α},
    reader (ahead ++ quote :: behind) = some (x, rest) → behind.length < rest.length →
      ∃ left, rest = left ++ quote :: behind ∧
        ∀ other, reader (ahead ++ quote :: other) = some (x, left ++ quote :: other)

section Nearby

variable {quote : Char} {α β : Type} {reader : Reader α}

/-- Readers that give the same are nearby alike. -/
theorem Nearby.congr {other : Reader α} (h : Nearby quote reader)
    (same : ∀ cs, other cs = reader cs) : Nearby quote other := by
  rwa [show other = reader from funext same]

/-- A reader that stops at the quote does not depend on what is behind it. -/
theorem Stops.toNearby (h : Stops quote reader) : Nearby quote reader := by
  refine ⟨h.suffix, ?_⟩
  intro ahead behind rest x hread _
  obtain ⟨answer, hanswer⟩ := h.stops ahead
  rw [hanswer] at hread
  obtain ⟨⟨y, left⟩, rfl, same⟩ := Option.map_eq_some_iff.mp hread
  cases same
  exact ⟨left, rfl, hanswer⟩

/-- A reader followed by another one is nearby if both are. -/
theorem Nearby.bind (h : Nearby quote reader) {next : α → Reader β}
    (hnext : ∀ x, Nearby quote (next x)) :
    Nearby quote fun cs => (reader cs).bind fun r => next r.1 r.2 := by
  constructor
  · intro cs rest y hread
    obtain ⟨⟨x, middle⟩, hfirst, hsecond⟩ := Option.bind_eq_some_iff.mp hread
    exact ((hnext x).suffix hsecond).trans (h.suffix hfirst)
  · intro ahead behind rest y hread hlong
    obtain ⟨⟨x, middle⟩, hfirst, hsecond⟩ := Option.bind_eq_some_iff.mp hread
    have hmiddle : rest.length ≤ middle.length := ((hnext x).suffix hsecond).length_le
    obtain ⟨left, rfl, hother⟩ := h.nearby hfirst (by omega)
    obtain ⟨last, rfl, hlast⟩ := (hnext x).nearby hsecond hlong
    exact ⟨last, rfl, fun other => by simp [hother, hlast]⟩

/-- A reader that is tried first, and decides by whether it fails how to go on. -/
theorem Nearby.ifReads (h : Stops quote reader) {next : α → Reader β}
    (hnext : ∀ x, Nearby quote (next x)) {other : Reader β} (hother : Nearby quote other) :
    Nearby quote fun cs =>
      match reader cs with
      | some r => next r.1 r.2
      | none => other cs := by
  constructor
  · intro cs rest x hread
    split at hread
    · next hfirst => exact ((hnext _).suffix hread).trans (h.suffix hfirst)
    · exact hother.suffix hread
  · intro ahead behind rest y hread hlong
    obtain ⟨answer, hanswer⟩ := h.stops ahead
    simp only [hanswer] at hread ⊢
    cases answer with
    | none => exact hother.nearby hread hlong
    | some found => exact (hnext found.1).nearby hread hlong

end Nearby

/-- What the reader of a body makes of a character: it refuses it; the body ends with it, or has
ended before it; or it goes on, possibly after a second character that must follow. -/
inductive Move (σ : Type)
  | refuse
  | close (text : List Char)
  | leave (text : List Char)
  | go (text : List Char) (next : σ)
  | pair (second : Char) (text : List Char) (next : σ)

/-- What a body comes to after a move. -/
def Move.run {σ : Type} (body : σ → Reader (List Char)) (c : Char) (cs : List Char) :
    Move σ → Option (List Char × List Char)
  | .refuse => none
  | .close text => some (text, cs)
  | .leave text => some (text, c :: cs)
  | .go text next => withText text (body next cs)
  | .pair second text next => (expect second cs).bind fun rest => withText text (body next rest)

/-- What comes of a move where the reader answers. -/
inductive Move.Yields {σ : Type} (body : σ → Reader (List Char)) (c : Char) (cs : List Char) :
    Move σ → List Char → List Char → Prop
  | close (text : List Char) : Yields body c cs (.close text) text cs
  | leave (text : List Char) : Yields body c cs (.leave text) text (c :: cs)
  | go {text more rest : List Char} {next : σ} (later : body next cs = some (more, rest)) :
      Yields body c cs (.go text next) (text ++ more) rest
  | pair {second : Char} {text more rest left : List Char} {next : σ} (follows : cs = second :: left)
      (later : body next left = some (more, rest)) :
      Yields body c cs (.pair second text next) (text ++ more) rest

/-- A body with a text put in front is read exactly if the body is. -/
theorem withText_eq_some_iff {text x rest : List Char} {body : Option (List Char × List Char)} :
    withText text body = some (x, rest) ↔ ∃ y, body = some (y, rest) ∧ text ++ y = x := by
  simp [withText, Option.map_eq_some_iff]

/-- A character is expected exactly where it stands. -/
theorem expect_eq_some_iff {c : Char} {cs rest : List Char} :
    expect c cs = some rest ↔ cs = c :: rest := by
  cases cs with
  | nil => simp [expect]
  | cons d cs => by_cases hd : d = c <;> simp [expect, hd]

/-- What a move leads to is one of the things that it yields. -/
theorem Move.yields_of_run {σ : Type} {body : σ → Reader (List Char)} {c : Char}
    {cs x rest : List Char} {made : Move σ} (h : made.run body c cs = some (x, rest)) :
    made.Yields body c cs x rest := by
  cases made with
  | refuse => cases h
  | close text =>
    cases h
    exact .close _
  | leave text =>
    cases h
    exact .leave _
  | go text next =>
    obtain ⟨more, hlater, rfl⟩ := withText_eq_some_iff.mp h
    exact .go hlater
  | pair second text next =>
    obtain ⟨left, hfollows, hbody⟩ := Option.bind_eq_some_iff.mp h
    obtain ⟨more, hlater, rfl⟩ := withText_eq_some_iff.mp hbody
    exact .pair (expect_eq_some_iff.mp hfollows) hlater

/-- A reader that goes by moves, and leaves nothing where nothing is left. -/
structure Moves {σ : Type} (body : σ → Reader (List Char)) (move : σ → Char → Move σ) : Prop where
  nil : ∀ state x rest, body state [] = some (x, rest) → rest = []
  cons : ∀ state c cs, body state (c :: cs) = (move state c).run body c cs

namespace Moves

variable {σ : Type} {body : σ → Reader (List Char)} {move : σ → Char → Move σ}

/-- A body that is read by moves leaves the end of what it was given. -/
theorem suffix (h : Moves body move) {state : σ} {cs x rest : List Char}
    (hread : body state cs = some (x, rest)) : rest <:+ cs := by
  induction hlength : cs.length using Nat.strongRecOn generalizing state cs x rest with
  | ind length ih =>
    cases cs with
    | nil =>
      exact h.nil _ _ _ hread ▸ List.suffix_rfl
    | cons c cs =>
      rw [h.cons] at hread
      generalize move state c = made at hread
      cases Move.yields_of_run hread with
      | close => exact List.suffix_cons c _
      | leave => exact List.suffix_rfl
      | go later => exact (ih _ (by simp [← hlength]) later rfl).trans (List.suffix_cons c cs)
      | @pair second _ _ _ left _ follows later =>
        subst follows
        have hlater := ih _ (by simp only [← hlength, List.length_cons]; omega) later rfl
        exact hlater.trans ((List.suffix_cons second left).trans (List.suffix_cons c _))

/-- The move at a character decides how much is left at most: no more than comes after it, unless the
body has ended before. -/
theorem length_of_move (h : Moves body move) {state : σ} {c : Char} {cs x rest : List Char}
    (hread : body state (c :: cs) = some (x, rest)) :
    rest.length ≤ cs.length ∨ move state c = .leave x ∧ rest = c :: cs := by
  rw [h.cons] at hread
  generalize move state c = made at hread ⊢
  cases Move.yields_of_run hread with
  | close => exact .inl (Nat.le_refl _)
  | leave => exact .inr ⟨rfl, rfl⟩
  | go later => exact .inl (h.suffix later).length_le
  | @pair second _ _ _ left _ follows later =>
    subst follows
    exact .inl ((h.suffix later).trans (List.suffix_cons second left)).length_le

/-- Up to the end of a body, its reader has made the same moves, whatever is behind. -/
theorem nearby (h : Moves body move) (quote : Char) (state : σ) : Nearby quote (body state) := by
  refine ⟨h.suffix, ?_⟩
  intro ahead
  induction hlength : ahead.length using Nat.strongRecOn generalizing state ahead with
  | ind length ih =>
    intro behind rest x hread hlong
    cases ahead with
    | nil =>
      obtain hshort | ⟨hleave, rfl⟩ := h.length_of_move hread
      · omega
      · refine ⟨[], rfl, fun other => ?_⟩
        show body state (quote :: other) = _
        rw [h.cons, hleave]
        rfl
    | cons c ahead =>
      rw [List.cons_append, h.cons] at hread
      simp only [List.cons_append, h.cons]
      generalize move state c = made at hread ⊢
      cases Move.yields_of_run hread with
      | close => exact ⟨ahead, rfl, fun other => rfl⟩
      | leave => exact ⟨c :: ahead, rfl, fun other => rfl⟩
      | go later =>
        have hless : ahead.length < length := by simp [← hlength]
        obtain ⟨left, rfl, hother⟩ := ih _ hless _ rfl later hlong
        exact ⟨left, rfl, fun other => by simp [Move.run, hother, withText]⟩
      | pair follows later =>
        cases ahead with
        | nil =>
          obtain ⟨rfl, rfl⟩ := List.cons.inj follows
          have hshort := (h.suffix later).length_le
          omega
        | cons d ahead =>
          obtain ⟨rfl, rfl⟩ := List.cons.inj follows
          have hless : ahead.length < length := by
            simp only [← hlength, List.length_cons]
            omega
          obtain ⟨left, rfl, hother⟩ := ih _ hless _ rfl later hlong
          exact ⟨left, rfl, fun other => by simp [Move.run, expect, hother, withText]⟩

end Moves

/-! ## The bodies of texts -/

/-- The moves between double quotes. -/
def basicMove : BasicState → Char → Move BasicState
  | .plain, c =>
    if c = '"' then .close []
    else if c = '\\' then .go [] .escape
    else if isBasicChar c then .go [c] .plain
    else .refuse
  | .escape, c =>
    match escapeOf? c, codeLength? c with
    | some text, _ => .go [text] .plain
    | none, some more => .go [] (.code more 0)
    | none, none => .refuse
  | .code more value, c =>
    match Numeral.digit? c with
    | none => .refuse
    | some d =>
      match more with
      | more + 1 => .go [] (.code more (value * 16 + d))
      | 0 =>
        match scalar? (value * 16 + d) with
        | some text => .go [text] .plain
        | none => .refuse

/-- The body of a text between double quotes is read by its moves. -/
theorem basicBody_moves : Moves basicBody basicMove where
  nil state x rest h := by cases state <;> cases h
  cons state c cs := by
    cases state with
    | plain =>
      simp only [basicBody, basicMove]
      split_ifs <;> simp [Move.run]
    | escape =>
      simp only [basicBody, basicMove]
      cases escapeOf? c <;> cases codeLength? c <;> simp [Move.run]
    | code more value =>
      simp only [basicBody, basicMove]
      cases Numeral.digit? c with
      | none => rfl
      | some d =>
        cases more with
        | succ more => simp [Move.run]
        | zero => cases hscalar : scalar? (value * 16 + d) <;> simp [Move.run, hscalar]

/-- The moves between single quotes. -/
def literalMove (_ : Unit) (c : Char) : Move Unit :=
  if c = '\'' then .close []
  else if isLiteralChar c then .go [c] ()
  else .refuse

/-- The body of a text between single quotes is read by its moves. -/
theorem literalBody_moves : Moves (fun _ => literalBody) literalMove where
  nil state x rest h := by cases h
  cons state c cs := by
    simp only [literalBody, literalMove]
    split_ifs <;> simp [Move.run]

/-- The moves between three double quotes. -/
def multiBasicMove : MultiState → Char → Move MultiState
  | .plain quotes folding, c =>
    if folding ∧ (isSpace c ∨ c = '\n') then .go [] (.plain 0 true)
    else if c = '"' then if quotes = 5 then .refuse else .go [] (.plain (quotes + 1) false)
    else if 3 ≤ quotes then .leave (pendingQuotes '"' (quotes - 3))
    else if c = '\\' then .go (pendingQuotes '"' quotes) .escape
    else if c = '\n' then .go (pendingQuotes '"' quotes ++ ['\n']) (.plain 0 false)
    else if c = '\r' then
      .pair '\n' (pendingQuotes '"' quotes ++ (if folding then [] else ['\n'])) (.plain 0 folding)
    else if isBasicChar c then .go (pendingQuotes '"' quotes ++ [c]) (.plain 0 false)
    else .refuse
  | .escape, c =>
    if isSpace c then .go [] .folding
    else if c = '\n' then .go [] (.plain 0 true)
    else if c = '\r' then .pair '\n' [] (.plain 0 true)
    else
      match escapeOf? c, codeLength? c with
      | some text, _ => .go [text] (.plain 0 false)
      | none, some more => .go [] (.code more 0)
      | none, none => .refuse
  | .folding, c =>
    if isSpace c then .go [] .folding
    else if c = '\n' then .go [] (.plain 0 true)
    else if c = '\r' then .pair '\n' [] (.plain 0 true)
    else .refuse
  | .code more value, c =>
    match Numeral.digit? c with
    | none => .refuse
    | some d =>
      match more with
      | more + 1 => .go [] (.code more (value * 16 + d))
      | 0 =>
        match scalar? (value * 16 + d) with
        | some text => .go [text] (.plain 0 false)
        | none => .refuse

/-- A carriage return is a line end only with a line feed after it. -/
theorem run_pair {σ : Type} (body : σ → Reader (List Char)) (c : Char) (cs text : List Char)
    (next : σ) :
    (Move.pair '\n' text next).run body c cs =
      match cs with
      | '\n' :: cs => withText text (body next cs)
      | _ => none := by
  match cs with
  | [] => rfl
  | d :: cs => by_cases hd : d = '\n' <;> simp [Move.run, expect, hd]

/-- A line feed that goes with the character before it adds nothing to the text. -/
theorem run_pair_nil {σ : Type} (body : σ → Reader (List Char)) (c : Char) (cs : List Char)
    (next : σ) :
    (Move.pair '\n' [] next).run body c cs =
      match cs with
      | '\n' :: cs => body next cs
      | _ => none := by
  match cs with
  | [] => rfl
  | d :: cs => by_cases hd : d = '\n' <;> simp [Move.run, expect, hd]

/-- The body of a text between three double quotes is read by its moves. -/
theorem multiBasicBody_moves : Moves multiBasicBody multiBasicMove where
  nil state x rest h := by
    cases state with
    | plain quotes folding =>
      simp only [multiBasicBody] at h
      split at h
      · cases h
        rfl
      · cases h
    | escape | folding | code => cases h
  cons state c cs := by
    cases state with
    | plain quotes folding =>
      rw [multiBasicBody.eq_def]
      simp only [multiBasicMove]
      split_ifs
      · simp [Move.run]
      · rfl
      · simp [Move.run]
      · rfl
      · rfl
      · rfl
      · exact (run_pair ..).symm
      · exact (run_pair ..).symm
      · rfl
      · rfl
    | escape =>
      rw [multiBasicBody.eq_def]
      simp only [multiBasicMove]
      split_ifs
      · simp [Move.run]
      · simp [Move.run]
      · exact (run_pair_nil ..).symm
      · cases escapeOf? c <;> cases codeLength? c <;> simp [Move.run]
    | folding =>
      rw [multiBasicBody.eq_def]
      simp only [multiBasicMove]
      split_ifs
      · simp [Move.run]
      · simp [Move.run]
      · exact (run_pair_nil ..).symm
      · rfl
    | code more value =>
      rw [multiBasicBody.eq_def]
      simp only [multiBasicMove]
      cases Numeral.digit? c with
      | none => rfl
      | some d =>
        cases more with
        | succ more => simp [Move.run]
        | zero => cases hscalar : scalar? (value * 16 + d) <;> simp [Move.run, hscalar]

/-- The moves between three single quotes. -/
def multiLiteralMove (quotes : Nat) (c : Char) : Move Nat :=
  if c = '\'' then if quotes = 5 then .refuse else .go [] (quotes + 1)
  else if 3 ≤ quotes then .leave (pendingQuotes '\'' (quotes - 3))
  else if c = '\n' then .go (pendingQuotes '\'' quotes ++ ['\n']) 0
  else if c = '\r' then .pair '\n' (pendingQuotes '\'' quotes ++ ['\n']) 0
  else if isLiteralChar c then .go (pendingQuotes '\'' quotes ++ [c]) 0
  else .refuse

/-- The body of a text between three single quotes is read by its moves. -/
theorem multiLiteralBody_moves : Moves multiLiteralBody multiLiteralMove where
  nil quotes x rest h := by
    simp only [multiLiteralBody] at h
    split at h
    · cases h
      rfl
    · cases h
  cons quotes c cs := by
    rw [multiLiteralBody.eq_def]
    simp only [multiLiteralMove]
    split_ifs
    · rfl
    · simp [Move.run]
    · rfl
    · rfl
    · exact (run_pair ..).symm
    · rfl
    · rfl

/-! ## Texts -/

section Texts

variable {quote : Char}

/-- A line break is read without a look behind a quote. -/
theorem newline?_stops (h : IsQuote quote) : Stops quote (bare newline?) := by
  have hreturn : ∀ c ∈ ['\r', '\n'], quote ≠ c := h.ne_of_mem (by decide) (by decide)
  have hread := (expect_stops (h.ne (c := '\n') (by decide) (by decide))).ifReads
    (fun _ => .pure ()) (expectWord_stops hreturn)
  apply hread.congr
  intro cs
  unfold bare newline?
  split
  · simp [expect]
  · simp [expect, expectWord]
  · next hfeed hreturn =>
    have hnone : expect '\n' cs = none := by
      rw [Option.eq_none_iff_forall_ne_some]
      exact fun rest h => hfeed rest (expect_eq_some_iff.mp h)
    rw [hnone, expectWord_eq_none hreturn]
    rfl

/-- The line break that may begin a text is skipped without a look behind a quote. -/
theorem skipFirstNewline_stops (h : IsQuote quote) :
    Stops quote fun cs => some ((), skipFirstNewline cs) := by
  apply ((newline?_stops h).ifReads (fun _ => .pure ()) (.pure ())).congr
  intro cs
  cases hline : newline? cs <;> simp [bare, skipFirstNewline, hline]

/-- A text on one line takes its opening quote at least. -/
theorem suffix_of_readLineText {c : Char} {cs rest x : List Char}
    (h : readLineText (c :: cs) = some (x, rest)) : rest <:+ cs := by
  by_cases hdouble : c = '"'
  · rw [hdouble] at h
    exact basicBody_moves.suffix h
  · by_cases hsingle : c = '\''
    · rw [hsingle] at h
      exact (literalBody_moves.nearby c ()).suffix h
    · simp [readLineText, hdouble, hsingle] at h

/-- A text on one line is nearby any quote. -/
theorem readLineText_nearby (quote : Char) : Nearby quote readLineText := by
  constructor
  · intro cs rest x h
    cases cs with
    | nil => cases h
    | cons c cs => exact (suffix_of_readLineText h).trans (List.suffix_cons c cs)
  · intro ahead behind rest x h hlong
    cases ahead with
    | nil =>
      have hshort := (suffix_of_readLineText h).length_le
      omega
    | cons c ahead =>
      by_cases hdouble : c = '"'
      · rw [hdouble] at h ⊢
        exact (basicBody_moves.nearby quote .plain).nearby h hlong
      · by_cases hsingle : c = '\''
        · rw [hsingle] at h ⊢
          exact (literalBody_moves.nearby quote ()).nearby h hlong
        · simp [readLineText, hdouble, hsingle] at h

/-- The body of a text of several lines. -/
def multiBody (quote : Char) (cs : List Char) : Option (List Char × List Char) :=
  if quote = '"' then multiBasicBody (.plain 0 false) (skipFirstNewline cs)
  else multiLiteralBody 0 (skipFirstNewline cs)

/-- Three quotes open a text of several lines. -/
theorem readText_of_three (h : IsQuote quote) (cs : List Char) :
    readText (quote :: quote :: quote :: cs) = multiBody quote cs := by
  rcases h with rfl | rfl <;> rfl

/-- Fewer than three quotes open a text on one line. -/
theorem readText_of_line {cs : List Char}
    (h : ∀ opening, IsQuote opening → ∀ rest, cs ≠ opening :: opening :: opening :: rest) :
    readText cs = readLineText cs := by
  unfold readText
  split
  · exact absurd rfl (h '"' (.inl rfl) _)
  · exact absurd rfl (h '\'' (.inr rfl) _)
  · rfl

/-- A text of several lines is nearby any quote. -/
theorem multiBody_nearby (h : IsQuote quote) (opening : Char) :
    Nearby quote (multiBody opening) := by
  by_cases hdouble : opening = '"'
  · apply ((skipFirstNewline_stops h).toNearby.bind fun _ =>
      multiBasicBody_moves.nearby quote (.plain 0 false)).congr
    intro cs
    simp [multiBody, hdouble]
  · apply ((skipFirstNewline_stops h).toNearby.bind fun _ =>
      multiLiteralBody_moves.nearby quote 0).congr
    intro cs
    simp [multiBody, hdouble]

/-- A text of any form takes its opening quote at least. -/
theorem suffix_of_readText {c : Char} {cs rest x : List Char}
    (h : readText (c :: cs) = some (x, rest)) : rest <:+ cs := by
  by_cases hthree : ∃ opening later, IsQuote opening ∧ c = opening ∧ cs = opening :: opening :: later
  · obtain ⟨opening, later, hopening, rfl, rfl⟩ := hthree
    rw [readText_of_three hopening] at h
    have hlater := (multiBody_nearby hopening c).suffix h
    exact hlater.trans ((List.suffix_cons c later).trans (List.suffix_cons c _))
  · have hline : ∀ opening, IsQuote opening →
        ∀ rest, c :: cs ≠ opening :: opening :: opening :: rest := by
      intro opening hopening rest hsame
      obtain ⟨hc, hcs⟩ := List.cons.inj hsame
      exact hthree ⟨opening, rest, hopening, hc, hcs⟩
    rw [readText_of_line hline] at h
    exact suffix_of_readLineText h

/-- Two quotes are a text without characters, or open a text of several lines. -/
theorem length_of_two_quotes (h : IsQuote quote) {cs rest x : List Char}
    (hread : readText (quote :: quote :: cs) = some (x, rest)) : rest.length ≤ cs.length := by
  by_cases hthree : ∃ later, cs = quote :: later
  · obtain ⟨later, rfl⟩ := hthree
    rw [readText_of_three h] at hread
    have hlater := ((multiBody_nearby h quote).suffix hread).length_le
    simp only [List.length_cons]
    omega
  · have hline : ∀ opening, IsQuote opening →
        ∀ later, quote :: quote :: cs ≠ opening :: opening :: opening :: later := by
      intro opening _ later hsame
      obtain ⟨rfl, hsame⟩ := List.cons.inj hsame
      exact hthree ⟨later, (List.cons.inj hsame).2⟩
    rw [readText_of_line hline] at hread
    have hempty : readLineText (quote :: quote :: cs) = some ([], cs) := by
      rcases h with rfl | rfl <;> rfl
    rw [hempty] at hread
    cases hread
    exact Nat.le_refl _

/-- Where what is behind the quote cannot open a text of several lines. -/
theorem nearby_of_line {ahead behind rest x : List Char}
    (hline : ∀ opening, IsQuote opening → ∀ behind later,
      ahead ++ quote :: behind ≠ opening :: opening :: opening :: later)
    (hread : readText (ahead ++ quote :: behind) = some (x, rest))
    (hlong : behind.length < rest.length) :
    ∃ left, rest = left ++ quote :: behind ∧
      ∀ other, readText (ahead ++ quote :: other) = some (x, left ++ quote :: other) := by
  have hsame : ∀ other, readText (ahead ++ quote :: other) = readLineText (ahead ++ quote :: other) :=
    fun other => readText_of_line fun opening hopening => hline opening hopening other
  rw [hsame] at hread
  obtain ⟨left, rfl, hother⟩ := (readLineText_nearby quote).nearby hread hlong
  exact ⟨left, rfl, fun other => by rw [hsame, hother]⟩

/-- A text that begins before a quote and ends before it too. Only the case of a single character
before the quote looks behind it: that may be the second of three quotes. -/
theorem readText_nearby (h : IsQuote quote) : Nearby quote readText := by
  constructor
  · intro cs rest x hread
    cases cs with
    | nil => cases hread
    | cons c cs => exact (suffix_of_readText hread).trans (List.suffix_cons c cs)
  · intro ahead behind rest x hread hlong
    match ahead with
    | [] =>
      have hshort := (suffix_of_readText hread).length_le
      omega
    | [a] =>
      by_cases ha : a = quote
      · rw [ha] at hread
        have hshort := length_of_two_quotes h hread
        omega
      · refine nearby_of_line ?_ hread hlong
        intro opening _ other later hsame
        obtain ⟨rfl, hsame⟩ := List.cons.inj hsame
        exact ha (List.cons.inj hsame).1.symm
    | [a, b] =>
      by_cases hab : a = quote ∧ b = quote
      · obtain ⟨rfl, rfl⟩ := hab
        simp only [List.cons_append, List.nil_append, readText_of_three h] at hread
        have hshort := ((multiBody_nearby h b).suffix hread).length_le
        omega
      · refine nearby_of_line ?_ hread hlong
        intro opening _ other later hsame
        obtain ⟨rfl, hsame⟩ := List.cons.inj hsame
        obtain ⟨rfl, hsame⟩ := List.cons.inj hsame
        obtain ⟨rfl, -⟩ := List.cons.inj hsame
        exact hab ⟨rfl, rfl⟩
    | a :: b :: c :: ahead =>
      by_cases hthree : IsQuote a ∧ b = a ∧ c = a
      · obtain ⟨ha, rfl, rfl⟩ := hthree
        simp only [List.cons_append, readText_of_three ha] at hread ⊢
        exact (multiBody_nearby h c).nearby hread hlong
      · refine nearby_of_line ?_ hread hlong
        intro opening hopening other later hsame
        obtain ⟨rfl, hsame⟩ := List.cons.inj hsame
        obtain ⟨rfl, hsame⟩ := List.cons.inj hsame
        obtain ⟨rfl, -⟩ := List.cons.inj hsame
        exact hthree ⟨hopening, rfl, rfl⟩

end Texts

/-! ## Gaps -/

section Gaps

variable {quote : Char}

/-- Skips a class of characters. The quote may be among them, and then ends nothing. -/
theorem dropWhile_nearby (quote : Char) (p : Char → Bool) :
    Nearby quote fun cs => some ((), cs.dropWhile p) := by
  by_cases hp : p quote = true
  · constructor
    · intro cs rest x h
      cases h
      exact List.dropWhile_suffix p
    · intro ahead behind rest x h hlong
      cases h
      have hpass : ∀ other, ahead.dropWhile p = [] →
          ((ahead ++ quote :: other).dropWhile p).length ≤ other.length := by
        intro other hempty
        rw [List.dropWhile_append, hempty]
        simp only [List.isEmpty_nil, if_true, List.dropWhile_cons, hp]
        exact (List.dropWhile_suffix p).length_le
      cases hleft : ahead.dropWhile p with
      | nil =>
        have hshort := hpass behind hleft
        omega
      | cons c left =>
        refine ⟨c :: left, ?_, fun other => ?_⟩
        · simp [List.dropWhile_append, hleft]
        · simp [List.dropWhile_append, hleft]
  · exact (dropWhile_stops (by simpa using hp)).toNearby

/-- A comment is nearby any quote. -/
theorem skipComment_nearby (h : IsQuote quote) :
    Nearby quote fun cs => some ((), skipComment cs) := by
  have hhash := expect_stops (h.ne (c := '#') (by decide) (by decide))
  apply (Nearby.ifReads hhash (fun _ => dropWhile_nearby quote isCommentChar)
    (Stops.pure ()).toNearby).congr
  intro cs
  cases cs with
  | nil => rfl
  | cons c cs => by_cases hc : c = '#' <;> simp [hc, skipComment, bare, expect]

/-- The end of a line is read without a look behind a quote. -/
theorem lineEnd?_stops (h : IsQuote quote) : Stops quote (bare lineEnd?) := by
  constructor
  · intro cs rest x hread
    cases cs with
    | nil =>
      cases hread
      exact List.suffix_rfl
    | cons c cs => exact (newline?_stops h).suffix hread
  · intro ahead
    have hsame : ∀ behind, bare lineEnd? (ahead ++ quote :: behind) =
        bare newline? (ahead ++ quote :: behind) := by
      intro behind
      cases ahead <;> rfl
    simp only [hsame]
    exact (newline?_stops h).stops ahead

/-- Spaces are skipped without a look behind a quote. -/
theorem skipSpaces_stops (h : IsQuote quote) : Stops quote fun cs => some ((), skipSpaces cs) := by
  apply dropWhile_stops
  rcases h with rfl | rfl <;> rfl

/-- What may end a line, a comment with it, is nearby any quote. -/
theorem restOfLine?_nearby (h : IsQuote quote) : Nearby quote (bare restOfLine?) :=
  ((skipSpaces_stops h).toNearby.bind fun _ =>
    (skipComment_nearby h).bind fun _ => (lineEnd?_stops h).toNearby).congr fun _ => rfl

/-- What a character other than the end of a line makes of a gap: the gap goes on, in a comment or not,
or it has ended. -/
def gapMove (comment : Bool) (c : Char) : Option Bool :=
  if comment then if isCommentChar c then some true else none
  else if isSpace c then some false
  else if c == '#' then some true
  else none

/-- A line feed in a gap is skipped and ends the comment. -/
theorem skipGaps_feed (comment : Bool) (cs : List Char) :
    skipGaps comment ('\n' :: cs) = skipGaps false cs := by
  cases comment <;> rfl

/-- A carriage return with its line feed is skipped in a gap and ends the comment. -/
theorem skipGaps_return (comment : Bool) (cs : List Char) :
    skipGaps comment ('\r' :: '\n' :: cs) = skipGaps false cs := by
  cases comment <;> rfl

/-- Any other character in a gap is skipped by its move, or ends the gap. -/
theorem skipGaps_cons (comment : Bool) {c : Char} {cs : List Char} (hfeed : c ≠ '\n')
    (hreturn : ∀ rest, c :: cs ≠ '\r' :: '\n' :: rest) :
    skipGaps comment (c :: cs) = ((gapMove comment c).map fun next => skipGaps next cs).getD (c :: cs) := by
  rw [skipGaps.eq_def]
  split
  · next h => cases h
  · next h =>
    cases h
    exact absurd rfl hfeed
  · next h =>
    cases h
    exact absurd rfl (hreturn _)
  · next h =>
    cases h
    by_cases hc : isCommentChar c = true <;> simp [gapMove, hc]
  · next h =>
    cases h
    by_cases hspace : isSpace c = true
    · simp [gapMove, hspace]
    · by_cases hhash : c = '#'
      · rw [hhash]
        rfl
      · simp [gapMove, hspace, hhash]

/-- A gap leaves the end of what it was given. -/
theorem skipGaps_suffix (comment : Bool) (cs : List Char) : skipGaps comment cs <:+ cs := by
  fun_induction skipGaps comment cs with
  | case1 => exact List.suffix_rfl
  | case2 comment cs ih => exact ih.trans (List.suffix_cons _ cs)
  | case3 comment cs ih => exact ih.trans ((List.suffix_cons _ cs).trans (List.suffix_cons _ _))
  | case4 c cs _ _ _ ih => exact ih.trans (List.suffix_cons c cs)
  | case5 => exact List.suffix_rfl
  | case6 c cs _ _ _ ih => exact ih.trans (List.suffix_cons c cs)
  | case7 c cs _ _ _ _ ih => exact ih.trans (List.suffix_cons c cs)
  | case8 => exact List.suffix_rfl

/-- At a character before the quote a gap has ended, or it goes on from some place before the quote,
and that does not depend on what is behind the quote. -/
theorem skipGaps_step (h : IsQuote quote) (comment : Bool) (c : Char) (ahead : List Char) :
    (∀ behind, skipGaps comment (c :: (ahead ++ quote :: behind)) = c :: (ahead ++ quote :: behind)) ∨
      ∃ next later, later.length ≤ ahead.length ∧ ∀ behind,
        skipGaps comment (c :: (ahead ++ quote :: behind)) = skipGaps next (later ++ quote :: behind) := by
  have hfeed : quote ≠ '\n' := h.ne (by decide) (by decide)
  by_cases hline : c = '\n'
  · rw [hline]
    exact .inr ⟨false, ahead, Nat.le_refl _, fun behind => skipGaps_feed comment _⟩
  · by_cases hpair : ∃ later, c = '\r' ∧ ahead = '\n' :: later
    · obtain ⟨later, rfl, rfl⟩ := hpair
      exact .inr ⟨false, later, Nat.le_succ _, fun behind => skipGaps_return comment _⟩
    · have hcons : ∀ behind, skipGaps comment (c :: (ahead ++ quote :: behind)) =
          ((gapMove comment c).map fun next => skipGaps next (ahead ++ quote :: behind)).getD
            (c :: (ahead ++ quote :: behind)) := by
        intro behind
        refine skipGaps_cons comment hline fun later hsame => ?_
        obtain ⟨hc, hlater⟩ := List.cons.inj hsame
        cases ahead with
        | nil => exact hfeed (List.cons.inj hlater).1
        | cons d ahead => exact hpair ⟨ahead, hc, by rw [(List.cons.inj hlater).1]⟩
      cases hmove : gapMove comment c with
      | none => exact .inl fun behind => by rw [hcons, hmove]; rfl
      | some next =>
        exact .inr ⟨next, ahead, Nat.le_refl _, fun behind => by rw [hcons, hmove]; rfl⟩

/-- A gap that goes on at the quote has run over it. -/
theorem skipGaps_quote (h : IsQuote quote) (comment : Bool) :
    (∀ behind, skipGaps comment (quote :: behind) = quote :: behind) ∨
      ∀ behind, (skipGaps comment (quote :: behind)).length ≤ behind.length := by
  have hfeed : quote ≠ '\n' := h.ne (by decide) (by decide)
  have hreturn : quote ≠ '\r' := h.ne (by decide) (by decide)
  have hcons : ∀ behind, skipGaps comment (quote :: behind) =
      ((gapMove comment quote).map fun next => skipGaps next behind).getD (quote :: behind) :=
    fun behind => skipGaps_cons comment hfeed fun _ hsame => hreturn (List.cons.inj hsame).1
  cases hmove : gapMove comment quote with
  | none => exact .inl fun behind => by rw [hcons, hmove]; rfl
  | some next =>
    refine .inr fun behind => ?_
    rw [hcons, hmove]
    exact (skipGaps_suffix next behind).length_le

/-- A gap is nearby any quote. -/
theorem skipGaps_nearby (h : IsQuote quote) (comment : Bool) :
    Nearby quote fun cs => some ((), skipGaps comment cs) := by
  constructor
  · intro cs rest x hread
    cases hread
    exact skipGaps_suffix comment cs
  · intro ahead
    induction hlength : ahead.length using Nat.strongRecOn generalizing comment ahead with
    | ind length ih =>
      intro behind rest x hread hlong
      cases hread
      cases ahead with
      | nil =>
        rcases skipGaps_quote h comment with hends | hover
        · exact ⟨[], hends behind, fun other => by rw [List.nil_append, hends]⟩
        · have hshort := hover behind
          simp only [List.nil_append] at hlong
          omega
      | cons c ahead =>
        simp only [List.cons_append] at hlong ⊢
        rcases skipGaps_step h comment c ahead with hends | ⟨next, later, hless, hgoes⟩
        · exact ⟨c :: ahead, hends behind, fun other => by rw [hends]; rfl⟩
        · simp only [List.length_cons] at hlength
          simp only [hgoes] at hlong ⊢
          exact ih later.length (by omega) next rfl rfl hlong

end Gaps

end PongFixture.Toml
