import Mathlib.Data.List.Nodup
import Mathlib.Data.List.TakeWhile
import PongFixture.Proofs.Options.Accepted
import PongFixture.Proofs.Text.Utf8

/-!
# Every spelling of a choice is read as that choice

A choice gives each option a value or none. It is written by its options in any order, each in any
spelling that its value allows. Reading what is written settles the values in that order, whatever
the spellings are: an option with its value in the next argument leaves the value pending, one with
its value attached settles it at once, and both come to the same when the next option is reached.

From there the line is a list of values. A choice settles, since its options are distinct and its
values are theirs; a second occurrence of an option is a conflict wherever it stands; and a bare
word between complete options belongs to none of them.
-/

set_option autoImplicit false

namespace PongFixture.Options

/-! ## The form of a written argument -/

/-- Octets without an equals sign have no value attached. -/
theorem splitValue_of_notMem {name : Bytes} (h : equalsSign ∉ name) :
    splitValue name = (name, none) := by
  have hall : name.dropWhile (· != equalsSign) = [] := by
    rw [List.dropWhile_eq_nil_iff]
    intro octet member
    rw [bne_iff_ne]
    rintro rfl
    exact h member
  rw [splitValue, hall]

/-- The first equals sign divides a name from its value. -/
theorem splitValue_append {name : Bytes} (h : equalsSign ∉ name) (value : Bytes) :
    splitValue (name ++ equalsSign :: value) = (name, some value) := by
  have hname : ∀ octet ∈ name, (octet != equalsSign) = true := by
    intro octet member
    rw [bne_iff_ne]
    rintro rfl
    exact h member
  rw [splitValue, List.dropWhile_append_of_pos hname, List.takeWhile_append_of_pos hname]
  simp

/-- No option has an equals sign in its name. -/
theorem equalsSign_notMem_long (option : OptionName) :
    equalsSign ∉ Utf8.ofString option.long := by
  cases option <;> decide

/-- Every option is known by its long name. -/
theorem longOption?_long (option : OptionName) :
    longOption? (Utf8.ofString option.long) = some option := by
  cases option <;> decide

/-- Every option that has a letter is known by it, and the letter is no hyphen. -/
theorem shortOption?_of_short? {option : OptionName} {letter : Char}
    (h : option.short? = some letter) :
    octet letter ≠ hyphen ∧ shortOption? (octet letter) = some option := by
  cases option <;> cases h <;> decide

/-- Octets behind two hyphens are a long name, perhaps with a value attached. -/
theorem Argument.ofBytes_longName {rest : Bytes} (h : rest ≠ []) :
    Argument.ofBytes (hyphen :: hyphen :: rest) =
      .long (splitValue rest).1 (splitValue rest).2 := by
  simp [Argument.ofBytes, h]

/-- A letter behind one hyphen begins a cluster. -/
theorem Argument.ofBytes_letterName {letter : UInt8} (h : letter ≠ hyphen) (rest : Bytes) :
    Argument.ofBytes (hyphen :: letter :: rest) = .cluster (letter :: rest) := by
  simp [Argument.ofBytes, h]

/-- A word is read as one. -/
theorem Argument.ofBytes_of_isWord {bytes : Bytes} (h : IsWord bytes) :
    Argument.ofBytes bytes = .word bytes := by
  unfold Argument.ofBytes
  split
  · next first second rest =>
    have other : first ≠ hyphen := by simpa [IsWord] using h
    rw [if_neg other]
  · rfl

/-! ## Reading a series -/

/-- Takes up an option as it is spelled: a value in an argument of its own is left pending. -/
def Progress.take (progress : Progress) (occurrence : Occurrence) : Except Refusal Progress :=
  match occurrence.spelling with
  | .longSeparate | .shortSeparate => do
    let chosen ← progress.settle
    return ⟨chosen, some (occurrence.option, some occurrence.value)⟩
  | .longEquals | .shortEquals | .shortAttached =>
    progress.give occurrence.option occurrence.value

section Reading

variable {progress : Progress} {argument : Bytes} {arguments : List Bytes}

/-- An argument with a long name is taken up before the others. -/
theorem parseFrom_of_long {name : Bytes} {value : Option Bytes}
    (h : Argument.ofBytes argument = .long name value) :
    parseFrom progress (argument :: arguments) =
      (do let next ← progress.takeLong name value; parseFrom next arguments) := by
  rw [parseFrom.eq_def]
  simp only [h]

/-- A cluster of letters is taken up before the other arguments. -/
theorem parseFrom_of_cluster {letters : Bytes} (h : Argument.ofBytes argument = .cluster letters) :
    parseFrom progress (argument :: arguments) =
      (do let next ← progress.takeCluster letters; parseFrom next arguments) := by
  rw [parseFrom.eq_def]
  simp only [h]

/-- A word is taken up before the other arguments. -/
theorem parseFrom_of_isWord (h : IsWord argument) :
    parseFrom progress (argument :: arguments) =
      (do let next ← progress.word argument; parseFrom next arguments) := by
  rw [parseFrom.eq_def]
  simp only [Argument.ofBytes_of_isWord h]

end Reading

/-- An option with a long name, without its value and with it. -/
theorem parseFrom_longName (progress : Progress) (option : OptionName) (arguments : List Bytes) :
    parseFrom progress ((hyphen :: hyphen :: Utf8.ofString option.long) :: arguments) =
        (do let next ← progress.await option; parseFrom next arguments) ∧
      ∀ value, parseFrom progress
          ((hyphen :: hyphen :: Utf8.ofString option.long ++ equalsSign :: value) :: arguments) =
        (do let next ← progress.give option value; parseFrom next arguments) := by
  have hsign := equalsSign_notMem_long option
  have hlong : Utf8.ofString option.long ≠ [] := by cases option <;> decide
  constructor
  · rw [parseFrom_of_long (Argument.ofBytes_longName hlong), splitValue_of_notMem hsign]
    simp only [Progress.takeLong, longOption?_long]
  · intro value
    have hname := Argument.ofBytes_longName
      (List.append_ne_nil_of_left_ne_nil hlong (equalsSign :: value))
    rw [splitValue_append hsign] at hname
    rw [List.cons_append, List.cons_append, parseFrom_of_long hname]
    simp only [Progress.takeLong, longOption?_long]

/-- An option with a letter, without its value and with it. -/
theorem parseFrom_letterName (progress : Progress) {option : OptionName} {letter : Char}
    (h : option.short? = some letter) (arguments : List Bytes) :
    parseFrom progress ([hyphen, octet letter] :: arguments) =
        (do let next ← progress.await option; parseFrom next arguments) ∧
      ∀ rest, rest ≠ [] → parseFrom progress ((hyphen :: octet letter :: rest) :: arguments) =
        (do let next ← progress.give option (attachedValue rest); parseFrom next arguments) := by
  obtain ⟨hletter, hoption⟩ := shortOption?_of_short? h
  constructor
  · rw [parseFrom_of_cluster (Argument.ofBytes_letterName hletter [])]
    simp only [Progress.takeCluster, hoption, if_true]
  · intro rest given
    rw [parseFrom_of_cluster (Argument.ofBytes_letterName hletter rest)]
    simp only [Progress.takeCluster, hoption, if_neg given]

/-- The awaited value is a word of its own. -/
theorem parseFrom_await {progress : Progress} {option : OptionName} {value : Bytes}
    (h : IsWord value) (arguments : List Bytes) :
    (do let next ← progress.await option; parseFrom next (value :: arguments)) =
      (do
        let chosen ← progress.settle
        parseFrom ⟨chosen, some (option, some value)⟩ arguments) := by
  unfold Progress.await
  cases progress.settle with
  | error refusal => rfl
  | ok chosen =>
    show parseFrom ⟨chosen, some (option, none)⟩ (value :: arguments) = _
    rw [parseFrom_of_isWord h]
    rfl

/-- An option in a spelling that its value allows is taken up with its value. -/
theorem parseFrom_render_append {occurrence : Occurrence} (h : occurrence.Spellable)
    (progress : Progress) (arguments : List Bytes) :
    parseFrom progress (occurrence.render ++ arguments) =
      (do let next ← progress.take occurrence; parseFrom next arguments) := by
  obtain ⟨option, value, spelling⟩ := occurrence
  have hlong := parseFrom_longName progress option
  cases spelling with
  | longSeparate =>
    have hword : IsWord value := h
    show parseFrom progress ((hyphen :: hyphen :: Utf8.ofString option.long) :: value :: arguments)
      = _
    rw [(hlong (value :: arguments)).1, parseFrom_await hword]
    unfold Progress.take
    cases progress.settle <;> rfl
  | longEquals => exact (hlong arguments).2 value
  | shortSeparate =>
    obtain ⟨hshort, hword⟩ := h
    obtain ⟨letter, hletter⟩ := Option.isSome_iff_exists.mp hshort
    have hname := parseFrom_letterName progress hletter (value :: arguments)
    simp only [Occurrence.render, Occurrence.letterName, hletter, Option.map_some,
      Option.toList_some, List.cons_append, List.nil_append]
    rw [hname.1, parseFrom_await hword]
    unfold Progress.take
    cases progress.settle <;> rfl
  | shortEquals =>
    obtain ⟨letter, hletter⟩ := Option.isSome_iff_exists.mp h
    have hname := parseFrom_letterName progress hletter arguments
    simp only [Occurrence.render, Occurrence.letterName, hletter, Option.map_some,
      Option.toList_some, List.cons_append, List.nil_append]
    rw [hname.2 _ (List.cons_ne_nil _ _)]
    simp only [attachedValue, if_true, Progress.take]
  | shortAttached =>
    obtain ⟨hshort, given, hsign⟩ := h
    obtain ⟨letter, hletter⟩ := Option.isSome_iff_exists.mp hshort
    have hname := parseFrom_letterName progress hletter arguments
    simp only [Occurrence.render, Occurrence.letterName, hletter, Option.map_some,
      Option.toList_some, List.cons_append, List.nil_append]
    rw [hname.2 _ given]
    obtain ⟨first, rest, rfl⟩ := List.exists_cons_of_ne_nil given
    have other : first ≠ equalsSign := by simpa using hsign
    simp only [attachedValue, if_neg other, Progress.take]

/-- Whether the value is pending or settled already, it is settled in the end. -/
theorem settle_take (progress : Progress) (occurrence : Occurrence) :
    (do let next ← progress.take occurrence; next.settle) =
      (do let chosen ← progress.settle
          chosen.settle occurrence.option (some occurrence.value)) := by
  unfold Progress.take Progress.give
  cases progress.settle with
  | error refusal => cases occurrence.spelling <;> rfl
  | ok chosen =>
    cases hnext : chosen.settle occurrence.option (some occurrence.value) with
    | error refusal =>
      cases occurrence.spelling <;>
        simp [bind, Except.bind, pure, Except.pure, Progress.settle, hnext]
    | ok next =>
      cases occurrence.spelling <;>
        simp [bind, Except.bind, pure, Except.pure, Progress.settle, hnext]

/-- Takes up the options of a series. -/
def Progress.takeAll (progress : Progress) (occurrences : List Occurrence) :
    Except Refusal Progress :=
  occurrences.foldlM Progress.take progress

/-- The options of a series are taken up before the arguments that follow. -/
theorem parseFrom_renderAll_append {occurrences : List Occurrence}
    (spellable : ∀ occurrence ∈ occurrences, occurrence.Spellable) (arguments : List Bytes)
    (progress : Progress) :
    parseFrom progress (render occurrences ++ arguments) =
      (do let next ← progress.takeAll occurrences; parseFrom next arguments) := by
  induction occurrences generalizing progress with
  | nil => rfl
  | cons occurrence occurrences ih =>
    have hfirst := spellable occurrence List.mem_cons_self
    have hrest := ih fun other member => spellable other (List.mem_cons_of_mem _ member)
    show parseFrom progress ((occurrence.render ++ render occurrences) ++ arguments) = _
    rw [List.append_assoc, parseFrom_render_append hfirst, Progress.takeAll, List.foldlM_cons]
    cases progress.take occurrence with
    | error refusal => rfl
    | ok next => exact hrest next

/-- Taking up the options of a series and settling what is pending comes to settling their values in
order. -/
theorem settle_takeAll (occurrences : List Occurrence) (progress : Progress) :
    (do let next ← progress.takeAll occurrences; next.settle) =
      (do let chosen ← progress.settle; settleAll chosen occurrences) := by
  induction occurrences generalizing progress with
  | nil =>
    cases hsettle : progress.settle with
    | error refusal => exact hsettle
    | ok chosen => exact hsettle
  | cons occurrence occurrences ih =>
    have hfirst := settle_take progress occurrence
    rw [Progress.takeAll, List.foldlM_cons]
    simp only [settleAll, List.foldlM_cons]
    rw [← bind_assoc, ← hfirst]
    cases progress.take occurrence with
    | error refusal => rfl
    | ok next => exact ih next

/-- A written series is read by settling its values in their order. -/
theorem parseFrom_render {occurrences : List Occurrence}
    (spellable : ∀ occurrence ∈ occurrences, occurrence.Spellable) (progress : Progress) :
    parseFrom progress (render occurrences) =
      (do let chosen ← progress.settle; settleAll chosen occurrences) := by
  rw [← settle_takeAll, ← List.append_nil (render occurrences),
    parseFrom_renderAll_append spellable]
  rfl

/-- After complete options that settle, a bare word is unknown. -/
theorem parseFrom_render_word {before : List Occurrence}
    (spellable : ∀ occurrence ∈ before, occurrence.Spellable) {progress : Progress}
    {chosen final : Chosen} (hsettle : progress.settle = .ok chosen)
    (hall : settleAll chosen before = .ok final) {word : Bytes} (hword : IsWord word)
    (arguments : List Bytes) :
    parseFrom progress (render before ++ word :: arguments) = .error (.unknownArgument word) := by
  have htake := settle_takeAll before progress
  rw [hsettle] at htake
  rw [parseFrom_renderAll_append spellable]
  cases hnext : progress.takeAll before with
  | error refusal =>
    rw [hnext] at htake
    exact absurd (htake.trans hall) (by simp [bind, Except.bind])
  | ok next =>
    rw [hnext] at htake
    have settled : next.settle = .ok final := htake.trans hall
    show parseFrom next (word :: arguments) = _
    rw [parseFrom_of_isWord hword, Progress.word]
    split
    -- What settles does not wait for a value.
    · next option hpending =>
      rw [Progress.settle, hpending] at settled
      cases settled
    · rfl

/-! ## Settling a series -/

/-- An option takes a value that is valid, whatever has been chosen before. -/
theorem put_of_valid {occurrence : Occurrence} (h : occurrence.Valid) (chosen : Chosen) :
    ∃ next, chosen.put occurrence.option occurrence.value = .ok next := by
  obtain ⟨option, value, spelling⟩ := occurrence
  cases option with
  | config => exact ⟨_, if_neg h⟩
  | protocol =>
    obtain ⟨protocol, known⟩ := Option.isSome_iff_exists.mp h
    have given : value ≠ [] := by
      rintro rfl
      cases known
    refine ⟨{ chosen with protocol := some protocol }, ?_⟩
    simp only [Chosen.put, if_neg given, known]
  | telnetListen | sshListen | logLevel =>
    obtain ⟨text, known⟩ := Option.isSome_iff_exists.mp h
    refine ⟨_, text_eq_ok_iff.mpr ⟨String.ofList text, ?_, rfl⟩⟩
    rw [acceptText, known, Option.map_some]

/-- Valid values of distinct options that have none settle, and these options then have one. -/
theorem settleAll_of_valid {occurrences : List Occurrence}
    (valid : ∀ occurrence ∈ occurrences, occurrence.Valid)
    (nodup : (occurrences.map Occurrence.option).Nodup) (chosen : Chosen)
    (fresh : ∀ occurrence ∈ occurrences, chosen.has occurrence.option = false) :
    ∃ final, settleAll chosen occurrences = .ok final ∧
      ∀ name, final.has name = (decide (name ∈ occurrences.map Occurrence.option) ||
        chosen.has name) := by
  induction occurrences generalizing chosen with
  | nil => exact ⟨chosen, rfl, by simp⟩
  | cons occurrence occurrences ih =>
    rw [List.map_cons, List.nodup_cons] at nodup
    obtain ⟨next, hput⟩ := put_of_valid (valid occurrence List.mem_cons_self) chosen
    have hsettle := settle_eq_ok_iff.mpr ⟨fresh occurrence List.mem_cons_self, hput⟩
    have has := has_of_put (put_of_put_eq_ok hput)
    have later : ∀ other ∈ occurrences, next.has other.option = false := by
      intro other member
      have distinct : other.option ≠ occurrence.option := by
        intro same
        exact nodup.1 (same ▸ List.mem_map_of_mem member)
      rw [has, decide_eq_false distinct, fresh other (List.mem_cons_of_mem _ member)]
      rfl
    obtain ⟨final, hall, hfinal⟩ := ih
      (fun other member => valid other (List.mem_cons_of_mem _ member)) nodup.2 next later
    refine ⟨final, ?_, ?_⟩
    · rw [settleAll, List.foldlM_cons, bind_eq_ok_iff]
      exact ⟨next, hsettle, hall⟩
    · intro name
      rw [hfinal, has, List.map_cons]
      by_cases same : name = occurrence.option <;> simp [same]

/-- The values of two series are settled one after the other. -/
theorem settleAll_append (first second : List Occurrence) (chosen : Chosen) :
    settleAll chosen (first ++ second) =
      (do let next ← settleAll chosen first; settleAll next second) :=
  List.foldlM_append

/-- No option has its value at the beginning. -/
theorem has_empty (name : OptionName) : Chosen.empty.has name = false := by
  cases name <;> rfl

/-- An option that has occurred is a conflict when it occurs again. -/
theorem settleAll_of_repeated {before : List Occurrence}
    (valid : ∀ occurrence ∈ before, occurrence.Valid)
    (nodup : (before.map Occurrence.option).Nodup) {again : Occurrence}
    (occurred : again.option ∈ before.map Occurrence.option) (after : List Occurrence) :
    settleAll .empty (before ++ again :: after) = .error (.repeated again.option) := by
  obtain ⟨final, hall, has⟩ := settleAll_of_valid valid nodup .empty fun _ _ => has_empty _
  have hhas : final.has again.option = true := by
    rw [has, decide_eq_true occurred]
    rfl
  have hsettle :
      final.settle again.option (some again.value) = .error (.repeated again.option) := by
    simp only [Chosen.settle, hhas, if_true]
  rw [settleAll_append, hall]
  show settleAll final (again :: after) = _
  rw [settleAll, List.foldlM_cons, hsettle]
  rfl

/-- A second occurrence is a conflict wherever it stands: where it comes first, the other is
refused. -/
theorem settleAll_of_extra {before after : List Occurrence}
    (valid : ∀ occurrence ∈ before ++ after, occurrence.Valid)
    (nodup : ((before ++ after).map Occurrence.option).Nodup) {extra : Occurrence}
    (hextra : extra.Valid)
    (occurs : extra.option ∈ (before ++ after).map Occurrence.option) :
    settleAll .empty (before ++ extra :: after) = .error (.repeated extra.option) := by
  have hbefore : ∀ occurrence ∈ before, occurrence.Valid :=
    fun occurrence member => valid occurrence (List.mem_append_left _ member)
  by_cases earlier : extra.option ∈ before.map Occurrence.option
  · have hnodup : (before.map Occurrence.option).Nodup := by
      rw [List.map_append] at nodup
      exact nodup.of_append_left
    exact settleAll_of_repeated hbefore hnodup earlier after
  · have later : extra.option ∈ after.map Occurrence.option := by
      rw [List.map_append, List.mem_append] at occurs
      exact occurs.resolve_left earlier
    obtain ⟨other, member, same⟩ := List.mem_map.mp later
    obtain ⟨between, rest, rfl⟩ := List.append_of_mem member
    have hvalid : ∀ occurrence ∈ before ++ extra :: between, occurrence.Valid := by
      intro occurrence found
      rcases List.mem_append.mp found with found | found
      · exact hbefore occurrence found
      · rcases List.mem_cons.mp found with rfl | found
        · exact hextra
        · exact valid occurrence (by simp [found])
    have hnodup : ((before ++ extra :: between).map Occurrence.option).Nodup := by
      simp only [List.map_append, List.map_cons, List.nodup_append, List.nodup_cons] at nodup ⊢
      grind
    have repeated := settleAll_of_repeated hvalid hnodup
      (List.mem_map.mpr ⟨extra, by simp, same.symm⟩ : other.option ∈ _) rest
    rw [same] at repeated
    rw [← repeated, List.append_assoc, List.cons_append]

/-! ## Choices and how they are written -/

/-- A choice, option by option, of a value or none. A path is not empty and need not be text. -/
structure Selection where
  config : Option { path : Bytes // path ≠ [] }
  protocol : Option Protocol
  telnetListen : Option String
  sshListen : Option String
  logLevel : Option String

namespace Selection

/-- The value that a choice gives to an option. -/
def value? (selection : Selection) : OptionName → Option Bytes
  | .config => selection.config.map Subtype.val
  | .protocol => selection.protocol.map fun protocol => Utf8.ofString protocol.name
  | .telnetListen => selection.telnetListen.map Utf8.ofString
  | .sshListen => selection.sshListen.map Utf8.ofString
  | .logLevel => selection.logLevel.map Utf8.ofString

/-- The options that are present, with their values. -/
def assignments (selection : Selection) : List (OptionName × Bytes) :=
  OptionName.all.filterMap fun option => (selection.value? option).map fun value => (option, value)

/-- The options chosen: the protocol is both where none is given. -/
def options (selection : Selection) : Options :=
  { config := selection.config.map Subtype.val
    protocol := selection.protocol.getD .all
    telnetListen := selection.telnetListen
    sshListen := selection.sshListen
    logLevel := selection.logLevel }

/-- A series writes a choice: it has the options that are present, in some order, each in one of
the spellings of its value. -/
structure WrittenBy (selection : Selection) (occurrences : List Occurrence) : Prop where
  order : (occurrences.map fun occurrence => (occurrence.option, occurrence.value)).Perm
    selection.assignments
  spellable : ∀ occurrence ∈ occurrences, occurrence.Spellable

/-- The options that are present are those with a value. -/
theorem mem_assignments {selection : Selection} {option : OptionName} {value : Bytes} :
    (option, value) ∈ selection.assignments ↔ selection.value? option = some value := by
  have hall : option ∈ OptionName.all := by cases option <;> decide
  simp only [assignments, List.mem_filterMap, Option.map_eq_some_iff, Prod.mk.injEq]
  constructor
  · rintro ⟨_, -, _, hvalue, rfl, rfl⟩
    exact hvalue
  · intro hvalue
    exact ⟨option, hall, value, hvalue, rfl, rfl⟩

/-- No option is present twice. -/
theorem nodup_assignments (selection : Selection) :
    (selection.assignments.map Prod.fst).Nodup := by
  have hsub : (selection.assignments.map Prod.fst).Sublist OptionName.all := by
    rw [assignments, List.map_filterMap]
    generalize OptionName.all = names
    induction names with
    | nil => exact List.Sublist.slnil
    | cons name names ih =>
      cases hvalue : selection.value? name with
      | none => simpa [hvalue] using ih.cons name
      | some value => simpa [hvalue] using ih.cons_cons name
  exact hsub.nodup (by decide)

end Selection

section Written

variable {selection : Selection} {occurrences : List Occurrence}

/-- In a series that writes a choice no option occurs twice. -/
theorem Selection.WrittenBy.nodup (written : selection.WrittenBy occurrences) :
    (occurrences.map Occurrence.option).Nodup := by
  have hperm := written.order.map Prod.fst
  rw [List.map_map] at hperm
  exact hperm.nodup_iff.mpr selection.nodup_assignments

/-- An occurrence in a series that writes a choice has the value of the choice. -/
theorem Selection.WrittenBy.value (written : selection.WrittenBy occurrences)
    {occurrence : Occurrence} (member : occurrence ∈ occurrences) :
    selection.value? occurrence.option = some occurrence.value :=
  mem_assignments.mp (written.order.mem_iff.mp (List.mem_map_of_mem member))

/-- A series that writes a choice gives each option the value of the choice. -/
theorem Selection.WrittenBy.valueOf? (written : selection.WrittenBy occurrences)
    (option : OptionName) : valueOf? occurrences option = selection.value? option := by
  cases hvalue : selection.value? option with
  | some value =>
    have given := written.order.mem_iff.mpr (mem_assignments.mpr hvalue)
    obtain ⟨occurrence, member, same⟩ := List.mem_map.mp given
    cases same
    exact valueOf?_of_mem written.nodup member
  | none =>
    simp only [Options.valueOf?, Option.map_eq_none_iff, List.find?_eq_none, beq_iff_eq]
    rintro occurrence member rfl
    rw [written.value member] at hvalue
    cases hvalue

/-- A protocol is read back from its name. -/
theorem ofBytes?_name (protocol : Protocol) :
    Protocol.ofBytes? (Utf8.ofString protocol.name) = some protocol := by
  cases protocol <;> decide

/-- The text of a string is read back from its octets. -/
theorem decode?_ofString (text : String) :
    Utf8.decode? (Utf8.ofString text) = some text.toList := Utf8.decode?_encode _

/-- Every value in a series that writes a choice is one that its option takes. -/
theorem Selection.WrittenBy.valid (written : selection.WrittenBy occurrences) :
    ∀ occurrence ∈ occurrences, occurrence.Valid := by
  intro occurrence member
  have hvalue := written.value member
  obtain ⟨option, value, spelling⟩ := occurrence
  cases option with
  | config =>
    obtain ⟨path, -, rfl⟩ := Option.map_eq_some_iff.mp hvalue
    exact path.property
  | protocol =>
    obtain ⟨protocol, -, rfl⟩ := Option.map_eq_some_iff.mp hvalue
    exact Option.isSome_of_eq_some (ofBytes?_name protocol)
  | telnetListen | sshListen | logLevel =>
    obtain ⟨text, -, rfl⟩ := Option.map_eq_some_iff.mp hvalue
    exact Option.isSome_of_eq_some (decode?_ofString text)

/-- A text that is written as octets is shown as it is. -/
theorem textOf?_map (text? : Option String) : textOf? (text?.map Utf8.ofString) = text? := by
  cases text? with
  | none => rfl
  | some text => exact congrArg some (Utf8.display_ofString text)

/-- A series that writes a choice spells out the options chosen. -/
theorem Selection.WrittenBy.denoted (written : selection.WrittenBy occurrences) :
    denoted occurrences = selection.options := by
  have hprotocol : (selection.value? .protocol).bind Protocol.ofBytes? = selection.protocol := by
    unfold value?
    cases selection.protocol with
    | none => rfl
    | some protocol => exact ofBytes?_name protocol
  unfold Options.denoted options
  simp only [written.valueOf?, hprotocol]
  simp only [value?, textOf?_map]

/-- Arguments in any spelling are parsed by settling the values that they give. -/
theorem parse_of_settleAll (spellable : ∀ occurrence ∈ occurrences, occurrence.Spellable) :
    parse (render occurrences) = (settleAll .empty occurrences).map Chosen.toOptions := by
  rw [parse, parseFrom_render spellable]
  rfl

end Written

/-- A line that writes a choice, in any order and any spellings, is read as that choice. With a
second occurrence of one of its options anywhere it is refused as a conflict of that option, and
with a bare word between complete options as an unknown argument. -/
theorem parse_render_selection {selection : Selection} {occurrences : List Occurrence}
    (written : selection.WrittenBy occurrences) :
    parse (render occurrences) = .ok selection.options ∧
      (∀ before after extra, occurrences = before ++ after →
        extra.option ∈ occurrences.map Occurrence.option → extra.Valid → extra.Spellable →
        parse (render (before ++ extra :: after)) = .error (.repeated extra.option)) ∧
      (∀ before after word, occurrences = before ++ after → word.head? ≠ some hyphen →
        parse (render before ++ word :: render after) = .error (.unknownArgument word)) := by
  refine ⟨?_, ?_, ?_⟩
  · obtain ⟨final, hall, -⟩ := settleAll_of_valid written.valid written.nodup .empty
      fun _ _ => has_empty _
    have hfinal := (toOptions_of_settleAll hall).2
    rw [written.denoted] at hfinal
    rw [parse_of_settleAll written.spellable, hall, ← hfinal]
    rfl
  · rintro before after extra rfl occurs hvalid hspellable
    have spellable : ∀ occurrence ∈ before ++ extra :: after, occurrence.Spellable := by
      intro occurrence member
      by_cases same : occurrence = extra
      · exact same ▸ hspellable
      · exact written.spellable occurrence (by simpa [same] using member)
    rw [parse_of_settleAll spellable, settleAll_of_extra written.valid written.nodup hvalid occurs]
    rfl
  · rintro before after word rfl hword
    have hvalid := fun occurrence member =>
      written.valid occurrence (List.mem_append_left after member)
    have hspellable := fun occurrence member =>
      written.spellable occurrence (List.mem_append_left after member)
    have hnodup := written.nodup
    rw [List.map_append] at hnodup
    obtain ⟨final, hall, -⟩ := settleAll_of_valid hvalid hnodup.of_append_left .empty
      fun _ _ => has_empty _
    rw [parse, parseFrom_render_word hspellable rfl hall (.inl hword)]
    rfl

/-- A path that is no text right after its letter, a level that begins with hyphens after an equals
sign, and an empty address in an argument of its own. -/
theorem parse_render_selection_unusual_values :
    let selection : Selection := ⟨some ⟨[0x2F, 0xFF], by decide⟩, none, some "", none, some "--x="⟩
    let level : Occurrence := ⟨.logLevel, Utf8.ofString "--x=", .longEquals⟩
    let path : Occurrence := ⟨.config, [0x2F, 0xFF], .shortAttached⟩
    let address : Occurrence := ⟨.telnetListen, [], .longSeparate⟩
    let again : Occurrence := ⟨.config, Utf8.ofString "=", .shortEquals⟩
    selection.WrittenBy [level, path, address] ∧
      parse (render [level, path, address]) =
        .ok ⟨some [0x2F, 0xFF], .all, some "", none, some "--x="⟩ ∧
      parse (render [level, again, path, address]) = .error (.repeated .config) ∧
      parse (render [level, path] ++ [] :: render [address]) = .error (.unknownArgument []) := by
  intro selection level path address again
  have written : selection.WrittenBy [level, path, address] := by
    refine ⟨by decide, ?_⟩
    simp [level, path, address, Occurrence.Spellable, IsWord, OptionName.short?, equalsSign, octet]
  obtain ⟨accepted, conflict, unknown⟩ := parse_render_selection written
  refine ⟨written, accepted, ?_, ?_⟩
  · have path : Utf8.ofString "=" ≠ [] := by decide
    exact conflict [level] _ again rfl (by decide) path rfl
  · exact unknown [level, path] [address] [] rfl (by decide)

end PongFixture.Options
