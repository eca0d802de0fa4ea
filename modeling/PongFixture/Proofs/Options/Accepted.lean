import Mathlib.Data.List.Nodup
import PongFixture.Options.Spelling

/-!
# What an accepted command line says

A command line that is accepted is a series of options with their values, each in one of its
spellings, and perhaps the mark after which no option is recognised. No option occurs twice, every
value is one that its option takes, and the options chosen are those that occur.

The reader examines a value that stands in an argument of its own only when it goes on. So the
series is found by going through the arguments with the option that is pending, and the values are
settled afterwards, in the order of the series.
-/

set_option autoImplicit false

namespace PongFixture.Options

/-! ## The form of an argument -/

/-- A name without an attached value is all there is. -/
theorem splitValue_none {bytes name : Bytes} (h : splitValue bytes = (name, none)) :
    bytes = name := by
  unfold splitValue at h
  split at h
  · exact (Prod.ext_iff.mp h).1
  · cases h

/-- A name and its attached value have an equals sign between them. -/
theorem splitValue_some {bytes name value : Bytes} (h : splitValue bytes = (name, some value)) :
    bytes = name ++ equalsSign :: value := by
  have whole := List.takeWhile_append_dropWhile (p := (· != equalsSign)) (l := bytes)
  unfold splitValue at h
  split at h
  · cases h
  · next sign found hdrop =>
    cases h
    have hsign : sign = equalsSign := by
      have hhead := List.head?_dropWhile_not (· != equalsSign) bytes
      rw [hdrop] at hhead
      simpa using hhead
    rw [hdrop, hsign] at whole
    exact whole.symm

/-- The mark that ends the options is two hyphens. -/
theorem Argument.ofBytes_endOfOptions {bytes : Bytes} (h : ofBytes bytes = .endOfOptions) :
    bytes = [hyphen, hyphen] := by
  unfold ofBytes at h
  grind

/-- A long name stands behind two hyphens, perhaps with a value attached. -/
theorem Argument.ofBytes_long {bytes name : Bytes} {value : Option Bytes}
    (h : ofBytes bytes = .long name value) :
    ∃ rest, bytes = hyphen :: hyphen :: rest ∧ splitValue rest = (name, value) := by
  unfold ofBytes at h
  grind

/-- A cluster of letters stands behind one hyphen. -/
theorem Argument.ofBytes_cluster {bytes letters : Bytes} (h : ofBytes bytes = .cluster letters) :
    bytes = hyphen :: letters ∧ letters ≠ [] := by
  unfold ofBytes at h
  grind

/-- A word is the whole argument. -/
theorem Argument.ofBytes_word {bytes word : Bytes} (h : ofBytes bytes = .word word) :
    bytes = word ∧ IsWord word := by
  unfold ofBytes at h
  unfold IsWord
  split at h
  · next first second rest =>
    split at h
    · split at h
      · split at h <;> cases h
      · cases h
    · next other =>
      cases h
      exact ⟨rfl, .inl (by simpa using other)⟩
  · next short =>
    cases h
    refine ⟨rfl, ?_⟩
    cases bytes with
    | nil => simp
    | cons first rest =>
      cases rest with
      | nil => by_cases hfirst : first = hyphen <;> simp [hfirst]
      | cons second rest => exact absurd rfl (short first second rest)

/-- A long name that is known is that of its option. -/
theorem long_of_longOption? {name : Bytes} {option : OptionName}
    (h : longOption? name = some option) : Utf8.ofString option.long = name := by
  simpa using List.find?_some h

/-- A letter that is known is that of its option. -/
theorem letter_of_shortOption? {letter : UInt8} {option : OptionName}
    (h : shortOption? letter = some option) : option.short?.map octet = some letter := by
  simpa using List.find?_some h

/-! ## The series of options -/

/-- The mark after which no option is recognised. -/
def endMark : Bytes := [hyphen, hyphen]

/-- Arguments are the options of a series, each in its spelling, and perhaps the mark. -/
def Written (arguments : List Bytes) (occurrences : List Occurrence) : Prop :=
  (arguments = render occurrences ∨ arguments = render occurrences ++ [endMark]) ∧
    ∀ occurrence ∈ occurrences, occurrence.Spellable

/-- No arguments write no options. -/
theorem Written.nil : Written [] [] := ⟨.inl rfl, by simp⟩

/-- The mark alone writes no options. -/
theorem Written.endMark : Written [endMark] [] := ⟨.inr rfl, by simp⟩

/-- Arguments with one more option in front write that and the others. -/
theorem Written.cons {arguments : List Bytes} {occurrences : List Occurrence}
    (h : Written arguments occurrences) {occurrence : Occurrence}
    (spellable : occurrence.Spellable) :
    Written (occurrence.render ++ arguments) (occurrence :: occurrences) := by
  obtain ⟨written, each⟩ := h
  constructor
  · rcases written with rfl | rfl
    · exact .inl rfl
    · exact .inr (List.append_assoc ..).symm
  · rintro other (_ | ⟨_, member⟩)
    · exact spellable
    · exact each other member

/-- Settles the values of a series in its order. -/
def settleAll (chosen : Chosen) (occurrences : List Occurrence) : Except Refusal Chosen :=
  occurrences.foldlM
    (fun chosen occurrence => chosen.settle occurrence.option (some occurrence.value)) chosen

/-- What is pending has been settled, and then the values of a series. -/
def SettlesTo (progress : Progress) (occurrences : List Occurrence) (final : Chosen) : Prop :=
  ∃ chosen, progress.settle = .ok chosen ∧ settleAll chosen occurrences = .ok final

/-- Arguments go on after some progress: with the value that is awaited, if one is, and then with
a series of options that settles to the values chosen in the end. -/
def GoesOn (progress : Progress) (arguments : List Bytes) (final : Chosen) : Prop :=
  match progress.pending with
  | some (option, none) =>
    ∃ value rest occurrences, arguments = value :: rest ∧ IsWord value ∧
      Written rest occurrences ∧
      SettlesTo { progress with pending := some (option, some value) } occurrences final
  | _ => ∃ occurrences, Written arguments occurrences ∧ SettlesTo progress occurrences final

/-- Two steps succeed if the first does, and the second with what it gives. -/
theorem bind_eq_ok_iff {ε α β : Type} {first : Except ε α} {next : α → Except ε β} {last : β} :
    (do let value ← first; next value) = .ok last ↔
      ∃ value, first = .ok value ∧ next value = .ok last := by
  cases first <;> simp [bind, Except.bind]

/-- Where what is pending can be settled, no value is awaited. -/
theorem goesOn_of_settle {progress : Progress} {chosen final : Chosen}
    (hsettle : progress.settle = .ok chosen) {arguments : List Bytes}
    {occurrences : List Occurrence} (written : Written arguments occurrences)
    (hall : settleAll chosen occurrences = .ok final) : GoesOn progress arguments final := by
  unfold GoesOn
  split
  · next option hpending =>
    rw [Progress.settle, hpending] at hsettle
    cases hsettle
  · exact ⟨occurrences, written, chosen, hsettle, hall⟩

/-- An option whose value is in the next argument. -/
theorem goesOn_of_await (spelling : Spelling) {progress next : Progress} {option : OptionName}
    {final : Chosen} {argument : Bytes} {arguments : List Bytes}
    (hawait : progress.await option = .ok next) (hrest : GoesOn next arguments final)
    (hrender : ∀ value, Occurrence.render ⟨option, value, spelling⟩ = [argument, value])
    (hspell : ∀ value, IsWord value → Occurrence.Spellable ⟨option, value, spelling⟩) :
    GoesOn progress (argument :: arguments) final := by
  rw [Progress.await, bind_eq_ok_iff] at hawait
  obtain ⟨chosen, hsettle, same⟩ := hawait
  cases same
  obtain ⟨value, rest, occurrences, rfl, word, written, settled, hsettled, hall⟩ := hrest
  have hwritten := written.cons (hspell value word)
  rw [hrender value] at hwritten
  apply goesOn_of_settle hsettle hwritten
  rw [settleAll, List.foldlM_cons, bind_eq_ok_iff]
  exact ⟨settled, hsettled, hall⟩

/-- An option with its value in the same argument. -/
theorem goesOn_of_give (spelling : Spelling) {progress next : Progress} {option : OptionName}
    {value : Bytes} {final : Chosen} {argument : Bytes} {arguments : List Bytes}
    (hgive : progress.give option value = .ok next) (hrest : GoesOn next arguments final)
    (hrender : Occurrence.render ⟨option, value, spelling⟩ = [argument])
    (hspell : Occurrence.Spellable ⟨option, value, spelling⟩) :
    GoesOn progress (argument :: arguments) final := by
  simp only [Progress.give, bind_eq_ok_iff] at hgive
  obtain ⟨chosen, hsettle, settled, hsettled, same⟩ := hgive
  cases same
  obtain ⟨occurrences, written, _, same, hall⟩ := hrest
  cases same
  have hwritten := written.cons hspell
  rw [hrender] at hwritten
  apply goesOn_of_settle hsettle hwritten
  rw [settleAll, List.foldlM_cons, bind_eq_ok_iff]
  exact ⟨settled, hsettled, hall⟩

/-- A flag ends the reading. -/
theorem Progress.ask_ne_ok {progress next : Progress} {request : Refusal} :
    progress.ask request ≠ .ok next := by
  intro h
  rw [Progress.ask, bind_eq_ok_iff] at h
  obtain ⟨_, -, h⟩ := h
  cases h

/-- An argument with a long name goes on as what it is taken up as. -/
theorem goesOn_of_takeLong {progress next : Progress} {name : Bytes} {value : Option Bytes}
    {rest : Bytes} {arguments : List Bytes} {final : Chosen}
    (hsplit : splitValue rest = (name, value)) (htake : progress.takeLong name value = .ok next)
    (hrest : GoesOn next arguments final) :
    GoesOn progress ((hyphen :: hyphen :: rest) :: arguments) final := by
  unfold Progress.takeLong at htake
  split at htake
  · next option hoption =>
    apply goesOn_of_await .longSeparate htake hrest
    · intro value
      simp [Occurrence.render, Occurrence.longName, long_of_longOption? hoption,
        splitValue_none hsplit]
    · intro value word
      exact word
  · next option value hoption =>
    apply goesOn_of_give .longEquals htake hrest
    · simp [Occurrence.render, Occurrence.longName, long_of_longOption? hoption,
        splitValue_some hsplit]
    · trivial
  · exact absurd htake Progress.ask_ne_ok
  · cases htake
  · cases htake

/-- A cluster of letters goes on as what it is taken up as. -/
theorem goesOn_of_takeCluster {progress next : Progress} {letters : Bytes}
    {arguments : List Bytes} {final : Chosen} (some_letter : letters ≠ [])
    (htake : progress.takeCluster letters = .ok next) (hrest : GoesOn next arguments final) :
    GoesOn progress ((hyphen :: letters) :: arguments) final := by
  unfold Progress.takeCluster at htake
  split at htake
  · exact absurd rfl some_letter
  · next letter rest =>
    split at htake
    · next option hoption =>
      have hletter := letter_of_shortOption? hoption
      have hshort : option.short?.isSome := by
        rw [← Option.isSome_map (f := octet), hletter]
        rfl
      split at htake
      · next alone =>
        apply goesOn_of_await .shortSeparate htake hrest
        · intro value
          simp [Occurrence.render, Occurrence.letterName, hletter, alone]
        · intro value word
          exact ⟨hshort, word⟩
      · next attached =>
        obtain ⟨first, value, rfl⟩ := List.exists_cons_of_ne_nil attached
        by_cases sign : first = equalsSign
        · rw [attachedValue, if_pos sign] at htake
          apply goesOn_of_give .shortEquals htake hrest
          · simp [Occurrence.render, Occurrence.letterName, hletter, sign]
          · exact hshort
        · rw [attachedValue, if_neg sign] at htake
          apply goesOn_of_give .shortAttached htake hrest
          · simp [Occurrence.render, Occurrence.letterName, hletter]
          · exact ⟨hshort, by simp, by simpa using sign⟩
    · exact absurd htake Progress.ask_ne_ok
    · cases htake

/-- A word goes on as the value that is awaited. -/
theorem goesOn_of_word {progress next : Progress} {word : Bytes} {arguments : List Bytes}
    {final : Chosen} (hword : IsWord word) (htake : progress.word word = .ok next)
    (hrest : GoesOn next arguments final) : GoesOn progress (word :: arguments) final := by
  unfold Progress.word at htake
  split at htake
  · next option hpending =>
    cases htake
    obtain ⟨occurrences, written, settles⟩ := hrest
    unfold GoesOn
    rw [hpending]
    exact ⟨word, arguments, occurrences, rfl, hword, written, settles⟩
  · cases htake

/-- Arguments that are read to their end go on as a series of options. -/
theorem goesOn_of_parseFrom {arguments : List Bytes} {final : Chosen} :
    ∀ {progress : Progress}, parseFrom progress arguments = .ok final →
      GoesOn progress arguments final := by
  -- The progress is general: it carries the option whose value the next argument may be.
  induction arguments with
  | nil =>
    intro progress h
    exact goesOn_of_settle h .nil rfl
  | cons argument arguments ih =>
    intro progress h
    unfold parseFrom at h
    split at h
    · next marked =>
      rw [Argument.ofBytes_endOfOptions marked]
      cases arguments with
      | nil => exact goesOn_of_settle h .endMark rfl
      | cons surplus rest => cases h
    · next name value long =>
      obtain ⟨rest, rfl, hsplit⟩ := Argument.ofBytes_long long
      rw [bind_eq_ok_iff] at h
      obtain ⟨next, htake, hrest⟩ := h
      exact goesOn_of_takeLong hsplit htake (ih hrest)
    · next letters cluster =>
      obtain ⟨rfl, some_letter⟩ := Argument.ofBytes_cluster cluster
      rw [bind_eq_ok_iff] at h
      obtain ⟨next, htake, hrest⟩ := h
      exact goesOn_of_takeCluster some_letter htake (ih hrest)
    · next word isWord =>
      obtain ⟨rfl, hword⟩ := Argument.ofBytes_word isWord
      rw [bind_eq_ok_iff] at h
      obtain ⟨next, htake, hrest⟩ := h
      exact goesOn_of_word hword htake (ih hrest)

/-! ## The values of a series -/

/-- The path of a value, which is not empty. -/
def acceptPath (value : Bytes) : Option Bytes := if value = [] then none else some value

/-- The text of a value, if it is one. -/
def acceptText (value : Bytes) : Option String := (Utf8.decode? value).map String.ofList

/-- A value is settled if it is the first of its option and is accepted. -/
theorem settle_eq_ok_iff {chosen next : Chosen} {option : OptionName} {value : Bytes} :
    chosen.settle option (some value) = .ok next ↔
      chosen.has option = false ∧ chosen.put option value = .ok next := by
  unfold Chosen.settle
  cases chosen.has option <;> simp

/-- A value is kept as text if it is one. -/
theorem text_eq_ok_iff {value : Bytes} {keep : String → Chosen} {next : Chosen} :
    (do let text ← Chosen.text value; return keep text) = .ok next ↔
      ∃ text, acceptText value = some text ∧ keep text = next := by
  unfold Chosen.text acceptText
  cases Utf8.decode? value <;> simp [bind, Except.bind, pure, Except.pure]

/-- What an option accepts, and what is chosen then. -/
inductive Put (chosen : Chosen) : OptionName → Bytes → Chosen → Prop
  | config {value path : Bytes} (isPath : acceptPath value = some path) :
      Put chosen .config value { chosen with config := some path }
  | protocol {value : Bytes} {protocol : Protocol}
      (known : Protocol.ofBytes? value = some protocol) :
      Put chosen .protocol value { chosen with protocol := some protocol }
  | telnetListen {value : Bytes} {text : String}
      (isText : acceptText value = some text) :
      Put chosen .telnetListen value { chosen with telnetListen := some text }
  | sshListen {value : Bytes} {text : String}
      (isText : acceptText value = some text) :
      Put chosen .sshListen value { chosen with sshListen := some text }
  | logLevel {value : Bytes} {text : String}
      (isText : acceptText value = some text) :
      Put chosen .logLevel value { chosen with logLevel := some text }

/-- What an option is given it accepts. -/
theorem put_of_put_eq_ok {chosen next : Chosen} {option : OptionName} {value : Bytes}
    (h : chosen.put option value = .ok next) : Put chosen option value next := by
  cases option with
  | config =>
    simp only [Chosen.put] at h
    split at h
    · cases h
    · next given =>
      cases h
      exact .config (if_neg given)
  | protocol =>
    simp only [Chosen.put] at h
    split at h
    · cases h
    · split at h
      · next known =>
        cases h
        exact .protocol known
      · cases h
  | telnetListen =>
    obtain ⟨_, isText, rfl⟩ := text_eq_ok_iff.mp h
    exact .telnetListen isText
  | sshListen =>
    obtain ⟨_, isText, rfl⟩ := text_eq_ok_iff.mp h
    exact .sshListen isText
  | logLevel =>
    obtain ⟨_, isText, rfl⟩ := text_eq_ok_iff.mp h
    exact .logLevel isText

/-- The option that is given a value has one, and for the others nothing changes. -/
theorem has_of_put {chosen next : Chosen} {option : OptionName} {value : Bytes}
    (h : Put chosen option value next) (name : OptionName) :
    next.has name = (decide (name = option) || chosen.has name) := by
  cases h <;> cases name <;> simp [Chosen.has]

/-- A series settles only if no option in it has a value before or occurs twice. -/
theorem settleAll_nodup {occurrences : List Occurrence} {final : Chosen} :
    ∀ {chosen : Chosen}, settleAll chosen occurrences = .ok final →
      (∀ occurrence ∈ occurrences, chosen.has occurrence.option = false) ∧
        (occurrences.map Occurrence.option).Nodup := by
  induction occurrences with
  | nil =>
    intro chosen _
    simp
  | cons occurrence occurrences ih =>
    intro chosen h
    rw [settleAll, List.foldlM_cons, bind_eq_ok_iff] at h
    obtain ⟨next, hnext, hrest⟩ := h
    obtain ⟨fresh, hput⟩ := settle_eq_ok_iff.mp hnext
    obtain ⟨later, nodup⟩ := ih hrest
    have hlater : ∀ other ∈ occurrences,
        other.option ≠ occurrence.option ∧ chosen.has other.option = false := by
      intro other member
      have hother := later other member
      rw [has_of_put (put_of_put_eq_ok hput), Bool.or_eq_false_iff, decide_eq_false_iff_not] at hother
      exact hother
    constructor
    · rintro other (_ | ⟨_, member⟩)
      · exact fresh
      · exact (hlater other member).2
    · rw [List.map_cons, List.nodup_cons]
      refine ⟨?_, nodup⟩
      intro member
      obtain ⟨other, hother, same⟩ := List.mem_map.mp member
      exact (hlater other hother).1 same

/-- How one option is kept among the values chosen, and what a value of it is read as. -/
structure Keeps {α : Type} (option : OptionName) (read : Bytes → Option α)
    (kept : Chosen → Option α) : Prop where
  own : ∀ {chosen value next}, Put chosen option value next →
    (read value).isSome ∧ kept next = read value
  other : ∀ {chosen name value next}, name ≠ option → Put chosen name value next →
    kept next = kept chosen

/-- The first occurrence of an option gives its value. -/
theorem valueOf?_cons (occurrence : Occurrence) (occurrences : List Occurrence)
    (option : OptionName) :
    valueOf? (occurrence :: occurrences) option =
      if occurrence.option = option then some occurrence.value
      else valueOf? occurrences option := by
  by_cases same : occurrence.option = option <;> simp [valueOf?, same]

/-- A series leaves in an option the value that occurs, which the option accepts, or what was kept
before if none occurs. -/
theorem Keeps.run {α : Type} {option : OptionName} {read : Bytes → Option α}
    {kept : Chosen → Option α} (keeps : Keeps option read kept) {occurrences : List Occurrence}
    {final : Chosen} :
    ∀ {chosen : Chosen}, settleAll chosen occurrences = .ok final →
      match valueOf? occurrences option with
      | none => kept final = kept chosen
      | some value => (read value).isSome ∧ kept final = read value := by
  induction occurrences with
  | nil =>
    intro chosen h
    cases h
    rfl
  | cons occurrence occurrences ih =>
    intro chosen h
    have nodup := (settleAll_nodup h).2
    rw [settleAll, List.foldlM_cons, bind_eq_ok_iff] at h
    obtain ⟨next, hnext, hrest⟩ := h
    have hput := put_of_put_eq_ok (settle_eq_ok_iff.mp hnext).2
    have hfinal := ih hrest
    rw [valueOf?_cons]
    by_cases named : occurrence.option = option
    -- The option does not occur again, so its value is still kept at the end.
    · subst named
      have absent : valueOf? occurrences occurrence.option = none := by
        rw [List.map_cons, List.nodup_cons] at nodup
        simp only [valueOf?, Option.map_eq_none_iff, List.find?_eq_none, beq_iff_eq]
        intro other member same
        exact nodup.1 (List.mem_map.mpr ⟨other, member, same⟩)
      rw [absent] at hfinal
      rw [if_pos rfl]
      show _ ∧ kept final = _
      rw [show kept final = kept next from hfinal]
      exact keeps.own hput
    · rw [if_neg named, ← keeps.other named hput]
      exact hfinal

/-- The settings file is kept as a path. -/
theorem keeps_config : Keeps .config acceptPath Chosen.config where
  own := by
    intro _ _ _ h
    cases h with
    | config isPath => simp [isPath]
  other := by rintro _ _ _ _ hname ⟨⟩ <;> simp at hname ⊢

/-- The protocol is kept as what its name stands for. -/
theorem keeps_protocol : Keeps .protocol Protocol.ofBytes? Chosen.protocol where
  own := by
    intro _ _ _ h
    cases h with
    | protocol known => simp [known]
  other := by rintro _ _ _ _ hname ⟨⟩ <;> simp at hname ⊢

/-- The address of the telnet server is kept as text. -/
theorem keeps_telnetListen : Keeps .telnetListen acceptText Chosen.telnetListen where
  own := by
    intro _ _ _ h
    cases h with
    | telnetListen isText => simp [isText]
  other := by rintro _ _ _ _ hname ⟨⟩ <;> simp at hname ⊢

/-- The address of the SSH server is kept as text. -/
theorem keeps_sshListen : Keeps .sshListen acceptText Chosen.sshListen where
  own := by
    intro _ _ _ h
    cases h with
    | sshListen isText => simp [isText]
  other := by rintro _ _ _ _ hname ⟨⟩ <;> simp at hname ⊢

/-- The level of the log is kept as text. -/
theorem keeps_logLevel : Keeps .logLevel acceptText Chosen.logLevel where
  own := by
    intro _ _ _ h
    cases h with
    | logLevel isText => simp [isText]
  other := by rintro _ _ _ _ hname ⟨⟩ <;> simp at hname ⊢

/-- A value that is text is kept as it is shown. -/
theorem acceptText_eq {value : Bytes} (h : (acceptText value).isSome) :
    acceptText value = some (Utf8.display value) := by
  unfold acceptText Utf8.decode? at h ⊢
  split at h
  · next same => rw [if_pos same]; rfl
  · cases h

/-- From no values on, a series leaves in an option what is read from its value, if one occurs. -/
theorem Keeps.eq_bind {α : Type} {option : OptionName} {read : Bytes → Option α}
    {kept : Chosen → Option α} (keeps : Keeps option read kept) (hempty : kept .empty = none)
    {occurrences : List Occurrence} {final : Chosen}
    (h : settleAll .empty occurrences = .ok final) :
    (∀ value ∈ valueOf? occurrences option, (read value).isSome) ∧
      kept final = (valueOf? occurrences option).bind read := by
  have hrun := keeps.run h
  cases hvalue : valueOf? occurrences option with
  | none =>
    rw [hvalue] at hrun
    exact ⟨by simp, hrun.trans hempty⟩
  | some value =>
    rw [hvalue] at hrun
    exact ⟨by simpa using hrun.1, hrun.2⟩

/-- Where no option occurs twice, each occurrence gives the value of its option. -/
theorem valueOf?_of_mem {occurrences : List Occurrence}
    (nodup : (occurrences.map Occurrence.option).Nodup) {occurrence : Occurrence}
    (member : occurrence ∈ occurrences) :
    valueOf? occurrences occurrence.option = some occurrence.value := by
  cases hvalue : valueOf? occurrences occurrence.option with
  | none =>
    simp only [valueOf?, Option.map_eq_none_iff, List.find?_eq_none, beq_iff_eq] at hvalue
    exact absurd rfl (hvalue occurrence member)
  | some value =>
    obtain ⟨found, hfound, rfl⟩ := Option.map_eq_some_iff.mp hvalue
    have same : found = occurrence :=
      List.inj_on_of_nodup_map nodup (List.mem_of_find?_eq_some hfound) member
        (by simpa using List.find?_some hfound)
    rw [same]

/-- The texts of a series are those that it shows. -/
theorem bind_acceptText {value? : Option Bytes} (h : ∀ value ∈ value?, (acceptText value).isSome) :
    value?.bind acceptText = textOf? value? := by
  cases value? with
  | none => rfl
  | some value => exact acceptText_eq (h value rfl)

/-- What a series that settles from no values on chooses is what it denotes, and its values are
valid. -/
theorem toOptions_of_settleAll {occurrences : List Occurrence} {final : Chosen}
    (settled : settleAll .empty occurrences = .ok final) :
    (∀ occurrence ∈ occurrences, occurrence.Valid) ∧ final.toOptions = denoted occurrences := by
  have nodup := (settleAll_nodup settled).2
  obtain ⟨hconfig, config⟩ := keeps_config.eq_bind rfl settled
  obtain ⟨hprotocol, protocol⟩ := keeps_protocol.eq_bind rfl settled
  obtain ⟨htelnet, telnet⟩ := keeps_telnetListen.eq_bind rfl settled
  obtain ⟨hssh, ssh⟩ := keeps_sshListen.eq_bind rfl settled
  obtain ⟨hlevel, level⟩ := keeps_logLevel.eq_bind rfl settled
  constructor
  · intro occurrence member
    have hvalue := valueOf?_of_mem nodup member
    unfold Occurrence.Valid
    obtain ⟨option, value, spelling⟩ := occurrence
    cases option with
    | config => simpa [acceptPath] using hconfig _ hvalue
    | protocol => exact hprotocol _ hvalue
    | telnetListen => simpa [acceptText] using htelnet _ hvalue
    | sshListen => simpa [acceptText] using hssh _ hvalue
    | logLevel => simpa [acceptText] using hlevel _ hvalue
  · have path : (valueOf? occurrences .config).bind acceptPath = valueOf? occurrences .config := by
      cases hvalue : valueOf? occurrences .config with
      | none => rfl
      | some value =>
        have given : value ≠ [] := by simpa [acceptPath] using hconfig value hvalue
        exact if_neg given
    unfold Chosen.toOptions denoted
    rw [config, protocol, telnet, ssh, level, path, bind_acceptText htelnet, bind_acceptText hssh,
      bind_acceptText hlevel]

/-- An accepted command line is a series of options, no two of them the same, each with a value
that it takes, and chooses what the series denotes. -/
theorem parse_accepted {arguments : List Bytes} {options : Options}
    (h : parse arguments = .ok options) :
    ∃ occurrences, Written arguments occurrences ∧
      (∀ occurrence ∈ occurrences, occurrence.Valid) ∧
      (occurrences.map Occurrence.option).Nodup ∧ options = denoted occurrences := by
  unfold parse at h
  cases hchosen : parseFrom .start arguments with
  | error refusal =>
    rw [hchosen] at h
    cases h
  | ok final =>
    rw [hchosen] at h
    cases h
    obtain ⟨occurrences, written, _, same, settled⟩ := goesOn_of_parseFrom hchosen
    cases same
    obtain ⟨valid, chosen⟩ := toOptions_of_settleAll settled
    exact ⟨occurrences, written, valid, (settleAll_nodup settled).2, chosen⟩

end PongFixture.Options
